import Lisp.Proofs.Lexer.Offset
import Lisp.Proofs.Reader.OnePass
import Lisp.Reader.Read

/-! The forms of a source text: the expressions at its top level, each with the offset at which
it begins. Main statement: the forms and the fault of a text stand in it in the order in which
they are read. -/

namespace Lisp

variable {F : Type}

namespace OpenList

variable {l l' : OpenList F}

theorem offset_of_add? {e : Expr F} (hAdd : l.add? e = some l') : l'.offset = l.offset := by
  cases hTail : l.tail <;> simp [add?, hTail] at hAdd <;> rw [← hAdd]

theorem offset_of_addDot? (hAdd : l.addDot? = some l') : l'.offset = l.offset := by
  cases hTail : l.tail <;> cases hItems : l.items <;> simp [addDot?, hTail, hItems] at hAdd
  rw [← hAdd]

end OpenList

namespace ReadStep

variable {e : Expr F} {offset : Nat} {stack stack' : List (OpenList F)}

theorem Places.offsets_eq (hPlaces : Places e offset stack (more stack')) :
    stack'.map OpenList.offset = stack.map OpenList.offset := by
  cases hPlaces with
  | added hAdd => simp [OpenList.offset_of_add? hAdd]

/-- The lists that are open after a token were open before it, or the token opens them. -/
theorem LeadsTo.offsets_subset (hLeads : LeadsTo offset stack (more stack')) :
    stack'.map OpenList.offset ⊆ offset :: stack.map OpenList.offset := by
  cases hLeads with
  | opened b => simp
  | dotted hAdd => simp [OpenList.offset_of_addDot? hAdd]
  | atom hPlaces => simp [hPlaces.offsets_eq]
  | closed hClose hPlaces => simp [hPlaces.offsets_eq]

end ReadStep

namespace TokenStream

variable {unclosedComment : Option Nat} {stack : List (OpenList F)} {tokens : List Token}

/-- A fault is where a list was opened that is not closed, or where a token or an open comment
stands. -/
theorem exists_position_of_faultWithin {err : ReadError}
    (hFault : faultWithin unclosedComment stack tokens = some err) :
    ∃ offset, err.position = some offset ∧
      (offset ∈ stack.map OpenList.offset ∨
        offset ∈ (⟨tokens, unclosedComment⟩ : TokenStream).offsets) := by
  induction tokens generalizing stack with
  | nil =>
      cases unclosedComment with
      | some start =>
          cases hFault
          exact ⟨start, rfl, .inr (by simp [offsets])⟩
      | none =>
          cases stack with
          | nil => cases hFault
          | cons l outer =>
              cases hFault
              exact ⟨l.offset, rfl, .inl (by simp)⟩
  | cons t rest ih =>
      rw [faultWithin] at hFault
      have hLeads := ReadStep.leadsTo_ofToken stack t
      cases hOf : ReadStep.ofToken stack t with
      | more stack' =>
          rw [hOf] at hFault hLeads
          obtain ⟨offset, hPosition, hMem | hMem⟩ := ih hFault
          · refine ⟨offset, hPosition, ?_⟩
            rcases List.mem_cons.1 (hLeads.offsets_subset hMem) with rfl | hOuter
            · exact .inr (by simp [offsets])
            · exact .inl hOuter
          · exact ⟨offset, hPosition, .inr (List.mem_cons_of_mem _ hMem)⟩
      | done e =>
          rw [hOf] at hFault
          obtain ⟨offset, hPosition, hMem | hMem⟩ := ih hFault
          · cases hMem
          · exact ⟨offset, hPosition, .inr (List.mem_cons_of_mem _ hMem)⟩
      | fail err' =>
          rw [hOf] at hFault hLeads
          cases hFault
          exact ⟨t.offset, hLeads.fault_inv.1, .inr (by simp [offsets])⟩

/-- Reading these tokens to their end gives these forms and then this fault, if any. -/
inductive ReadsForms (unclosedComment : Option Nat) :
    List Token → List (Nat × Expr F) → Option ReadError → Prop where
  | last {tokens : List Token} {err : Option ReadError}
      (hLast : (next ⟨tokens, unclosedComment⟩).1 = lastAnswer (F := F) err) :
      ReadsForms unclosedComment tokens [] err
  | form {t : Token} {more rest : List Token} {e : Expr F} {forms : List (Nat × Expr F)}
      {err : Option ReadError} (hDerives : Derives (t :: more) e)
      (hRest : ReadsForms unclosedComment rest forms err) :
      ReadsForms unclosedComment (t :: more ++ rest) ((t.offset, e) :: forms) err

theorem exists_readsForms_of_all {s : TokenStream} {es : List (Expr F)} {err : Option ReadError}
    (hAll : s.all = (es, err)) :
    ∃ forms, ReadsForms s.unclosedComment s.tokens forms err ∧ forms.map Prod.snd = es := by
  induction es generalizing s with
  | nil => exact ⟨[], .last (next_of_all_nil hAll), rfl⟩
  | cons e es ih =>
      obtain ⟨later, hNext, hLater⟩ := next_of_all_cons hAll
      obtain ⟨used, hTokens, hComment, hDerives⟩ := derives_of_nextWithin .nil hNext
      obtain ⟨forms, hForms, rfl⟩ := ih hLater
      obtain ⟨t, more, hUsed⟩ := List.exists_cons_of_ne_nil hDerives.ne_nil
      rw [List.nil_append] at hUsed
      subst hUsed
      rw [hTokens, ← hComment]
      exact ⟨_, .form hDerives hForms, rfl⟩

/-- The offsets of the forms and of the fault are offsets of tokens, in the same order. -/
theorem ReadsForms.sublist_offsets {forms : List (Nat × Expr F)} {err : Option ReadError}
    (hForms : ReadsForms unclosedComment tokens forms err) :
    (forms.map Prod.fst ++ (err.bind ReadError.position).toList).Sublist
      (⟨tokens, unclosedComment⟩ : TokenStream).offsets := by
  induction hForms with
  | @last tokens err hLast =>
      cases err with
      | none => simp
      | some err =>
          have hFault := faultWithin_of_all (all_of_next_lastAnswer hLast)
          obtain ⟨offset, hPosition, hMem⟩ := exists_position_of_faultWithin hFault
          simpa [hPosition] using hMem
  | @form t more rest e forms err hDerives hRest ih =>
      have hLater := ih.trans (List.sublist_append_right (more.map Token.offset) _)
      simpa [offsets] using hLater.cons_cons t.offset

/-- A fault of a text has a place. -/
theorem exists_position_of_readAll {source : Text} {es : List (Expr F)} {fault : Option ReadError}
    (hRead : readAll source = (es, fault)) :
    ∃ offset, ∀ err ∈ fault, ReadError.position err = some offset := by
  cases fault with
  | none => exact ⟨0, by simp⟩
  | some err =>
      obtain ⟨offset, hPosition, -⟩ := exists_position_of_faultWithin (faultWithin_of_all hRead)
      exact ⟨offset, by simpa using hPosition⟩

end TokenStream

/-- A source text has these forms, and then this fault, if any. -/
def HasForms (source : Text) (forms : List (Nat × Expr F)) (fault : Option ReadError) : Prop :=
  TokenStream.ReadsForms (lex source).unclosedComment (lex source).tokens forms fault

theorem exists_hasForms_of_readAll {source : Text} {es : List (Expr F)} {fault : Option ReadError}
    (hRead : readAll source = (es, fault)) :
    ∃ forms, HasForms source forms fault ∧ forms.map Prod.snd = es :=
  TokenStream.exists_readsForms_of_all hRead

namespace HasForms

variable {source : Text} {forms : List (Nat × Expr F)} {fault : Option ReadError}

/-- The forms of a text and its fault stand in it in order. -/
theorem increasing (hForms : HasForms source forms fault) :
    (forms.map Prod.fst ++ (fault.bind ReadError.position).toList).Pairwise (· < ·) :=
  (standsWithin_lex source).increasing.sublist hForms.sublist_offsets

/-- The forms of a text begin in it. -/
theorem lt_length (hForms : HasForms source forms fault) :
    ∀ form ∈ forms, form.1 < source.length := by
  intro form hMem
  have hOffset := hForms.sublist_offsets.subset
    (List.mem_append_left _ (List.mem_map_of_mem hMem))
  exact ((standsWithin_lex source).bounds form.1 hOffset).2

end HasForms

end Lisp
