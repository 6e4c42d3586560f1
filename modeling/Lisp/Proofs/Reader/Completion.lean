import Lisp.Proofs.Lexer.LineBreak
import Lisp.Proofs.Reader.OnePass
import Lisp.Reader.Read

/-! Which texts can be completed. An open list takes the list inside it as one more expression
once that is closed, so it must have room for one. A list whose dotted tail is there has none, and
a list that is opened inside it keeps the text from ever being complete. -/

namespace Lisp

variable {F : Type}

namespace OpenList

/-- There is room for one more expression: the tail behind a dot is not there yet. -/
def takesMore (l : OpenList F) : Bool :=
  match l.tail with
  | .given _ => false
  | _ => true

variable {l l' : OpenList F} {e : Expr F}

theorem takesMore_of_add? (hAdd : l.add? e = some l') : l.takesMore = true := by
  cases hTail : l.tail <;> simp_all [add?, takesMore]

/-- A list that takes an expression can be closed after it. -/
theorem exists_add?_of_takesMore (hMore : l.takesMore = true) (e : Expr F) :
    ∃ l', l.add? e = some l' ∧ l'.bracket = l.bracket ∧ l'.close?.isSome = true := by
  cases hTail : l.tail <;> simp_all [add?, takesMore, close?]

theorem isSome_close?_of_not_takesMore (hFull : l.takesMore = false) :
    l.close?.isSome = true := by
  cases hTail : l.tail <;> simp_all [takesMore, close?]

end OpenList

/-- Every open list has room for the list that is open inside it. -/
def HasRoom (stack : List (OpenList F)) : Prop := ∀ l ∈ stack.tail, l.takesMore = true

namespace ReadStep

variable {stack stack' : List (OpenList F)} {e : Expr F} {offset : Nat}

theorem Places.takesMore (hPlaces : Places e offset stack (more stack'))
    (hRoom : HasRoom stack') : ∀ l ∈ stack, l.takesMore = true := by
  cases hPlaces with
  | added hAdd => exact List.forall_mem_cons.2 ⟨OpenList.takesMore_of_add? hAdd, hRoom⟩

theorem Places.eq_nil {e' : Expr F} (hPlaces : Places e offset stack (done e')) : stack = [] := by
  cases hPlaces
  rfl

/-- No token makes room in a list around the innermost one. -/
theorem LeadsTo.hasRoom (hLeads : LeadsTo offset stack (more stack')) (hRoom : HasRoom stack') :
    HasRoom stack := by
  cases hLeads with
  | opened b => exact fun l hMem => hRoom l (List.mem_of_mem_tail hMem)
  | dotted hAdd => exact hRoom
  | atom hPlaces => exact fun l hMem => hPlaces.takesMore hRoom l (List.mem_of_mem_tail hMem)
  | closed hClose hPlaces => exact hPlaces.takesMore hRoom

theorem LeadsTo.hasRoom_of_done (hLeads : LeadsTo offset stack (done e)) : HasRoom stack := by
  cases hLeads with
  | atom hPlaces => simp [HasRoom, hPlaces.eq_nil]
  | closed hClose hPlaces => simp [HasRoom, hPlaces.eq_nil]

end ReadStep

namespace TokenStream

variable {stack stack' : List (OpenList F)} {tokens : List Token}

/-- Where all lists have room in the end, they had room from the start. -/
theorem hasRoom_of_openAfter? (hOpen : openAfter? stack tokens = some stack')
    (hRoom : HasRoom stack') : HasRoom stack := by
  fun_induction openAfter? stack tokens with
  | case1 stack =>
      cases hOpen
      exact hRoom
  | case2 stack t rest next hOf ih =>
      exact (hOf ▸ ReadStep.leadsTo_ofToken stack t).hasRoom (ih hOpen)
  | case3 stack t rest e hOf ih => exact (hOf ▸ ReadStep.leadsTo_ofToken stack t).hasRoom_of_done
  | case4 => cases hOpen

/-- The closing brackets of the open lists close them all, the innermost first. -/
theorem openAfter?_closers
    (hKinds : tokens.map Token.kind = stack.map fun l => .closer l.bracket)
    (hInnermost : ∀ l ∈ stack.head?, l.close?.isSome = true) (hRoom : HasRoom stack) :
    openAfter? stack tokens = some [] := by
  induction tokens generalizing stack with
  | nil =>
      cases stack with
      | nil => rfl
      | cons l outer => cases hKinds
  | cons t rest ih =>
      cases stack with
      | nil => cases hKinds
      | cons l outer =>
          obtain ⟨kind, offset⟩ := t
          obtain ⟨rfl, hRest⟩ := List.cons.inj hKinds
          obtain ⟨e, hClose⟩ := Option.isSome_iff_exists.1 (hInnermost l rfl)
          have hOf : ReadStep.ofToken (l :: outer) ⟨.closer l.bracket, offset⟩ =
              ReadStep.place outer e offset := by
            simp [ReadStep.ofToken, hClose]
          rw [openAfter?, hOf]
          cases outer with
          | nil => exact @ih [] hRest (by simp) hRoom
          | cons next outer =>
              obtain ⟨hNext, hOuter⟩ := List.forall_mem_cons.1 hRoom
              obtain ⟨next', hAdd, hBracket, hClosable⟩ := OpenList.exists_add?_of_takesMore hNext e
              simp only [ReadStep.place, hAdd]
              exact @ih (next' :: outer) (by simpa [hBracket] using hRest)
                (by simpa using hClosable) hOuter

end TokenStream

/-- The closing brackets of open lists are lexed as they stand. -/
theorem exists_lexFrom_closers (stack : List (OpenList F)) (offset : Nat) :
    ∃ tokens, Lexer.lexFrom offset (stack.map fun l => l.bracket.closing) = ⟨tokens, none⟩ ∧
      tokens.map Token.kind = stack.map fun l => .closer l.bracket := by
  induction stack generalizing offset with
  | nil => exact ⟨[], Lexer.lexFrom_nil offset, rfl⟩
  | cons l outer ih =>
      obtain ⟨tokens, hLex, hKinds⟩ := ih (offset + 1)
      refine ⟨⟨.closer l.bracket, offset⟩ :: tokens, ?_, by simp [hKinds]⟩
      rw [List.map_cons, Lexer.lexFrom_closing, hLex]
      rfl

/-- There is a text that closes all open lists, if they have room. -/
theorem exists_closing_text {stack : List (OpenList F)} (hRoom : HasRoom stack) :
    ∃ text, ∀ offset, ∃ tokens, Lexer.lexFrom offset text = ⟨tokens, none⟩ ∧
      TokenStream.openAfter? stack tokens = some [] := by
  by_cases hInnermost : ∀ l ∈ stack.head?, l.close?.isSome = true
  · refine ⟨stack.map fun l => l.bracket.closing, fun offset => ?_⟩
    obtain ⟨tokens, hLex, hKinds⟩ := exists_lexFrom_closers stack offset
    exact ⟨tokens, hLex, TokenStream.openAfter?_closers hKinds hInnermost hRoom⟩
  · -- A tail is missing behind a dot, and an empty list is put there.
    cases stack with
    | nil => simp at hInnermost
    | cons l outer =>
        have hMore : l.takesMore = true := by
          by_contra hFull
          simp [OpenList.isSome_close?_of_not_takesMore (by simpa using hFull)] at hInnermost
        refine ⟨Bracket.round.opening :: Bracket.round.closing ::
          (l :: outer).map fun l => l.bracket.closing, fun offset => ?_⟩
        let added : OpenList F := ⟨.round, offset, [], .absent⟩
        obtain ⟨tokens, hLex, hKinds⟩ := exists_lexFrom_closers (added :: l :: outer) (offset + 1)
        refine ⟨⟨.opener .round, offset⟩ :: tokens, ?_, ?_⟩
        · rw [Lexer.lexFrom_opening]
          exact congrArg _ hLex
        · show TokenStream.openAfter? (added :: l :: outer) tokens = some []
          have hAdded : HasRoom (added :: l :: outer) := List.forall_mem_cons.2 ⟨hMore, hRoom⟩
          exact TokenStream.openAfter?_closers hKinds (by simp [added, OpenList.close?]) hAdded

/-- The lists that are open where a source text ends. After a fault there are none. -/
def openLists (F : Type) (source : Text) : List (OpenList F) :=
  (TokenStream.openAfter? [] (lex source).tokens).getD []

section

variable {source more : Text}

theorem snd_readAll (source : Text) :
    (readAll (F := F) source).2 =
      TokenStream.faultWithin (F := F) (lex source).unclosedComment [] (lex source).tokens :=
  (TokenStream.faultWithin_of_all rfl).symm

theorem exists_lex_append_newline (source more : Text) :
    ∃ later, lex (source ++ '\n' :: more) = (lex source).append later := by
  obtain ⟨later, hLater, -⟩ := (lexes_lexFrom 0 source).append_newline more
  exact ⟨later, hLater.lexFrom_eq⟩

/-- The tokens of a text that can be completed are read without a fault, and the lists that they
leave open have room. -/
theorem hasRoom_openLists_of_readAll_append
    (hRead : (readAll (F := F) (source ++ '\n' :: more)).2 = none) :
    (∀ err ∈ (readAll (F := F) source).2, err.isIncomplete = true) ∧
      HasRoom (openLists F source) := by
  obtain ⟨later, hLex⟩ := exists_lex_append_newline source more
  rw [snd_readAll, hLex, TokenStream.faultWithin_eq_none_iff] at hRead
  obtain ⟨-, hOpen⟩ := hRead
  rw [TokenStream.append, TokenStream.openAfter?_append, Option.bind_eq_some_iff] at hOpen
  obtain ⟨stack, hFirst, hRest⟩ := hOpen
  constructor
  · rw [snd_readAll, ← TokenStream.isSome_openAfter?_iff, hFirst]
    rfl
  · rw [openLists, hFirst]
    exact TokenStream.hasRoom_of_openAfter? hRest (by simp [HasRoom])

/-- A text that only lacks input can be completed, if its open lists have room. -/
theorem exists_readAll_append_of_hasRoom
    (hIncomplete : ∀ err ∈ (readAll (F := F) source).2, err.isIncomplete = true)
    (hRoom : HasRoom (openLists F source)) :
    ∃ more, (readAll (F := F) (source ++ '\n' :: more)).2 = none := by
  rw [snd_readAll, ← TokenStream.isSome_openAfter?_iff, Option.isSome_iff_exists] at hIncomplete
  obtain ⟨stack, hOpen⟩ := hIncomplete
  rw [openLists, hOpen] at hRoom
  obtain ⟨closers, next, hClosers⟩ := (lexes_lexFrom 0 source).exists_append_newline_closers
  obtain ⟨text, hText⟩ := exists_closing_text hRoom
  obtain ⟨tokens, hLex, hClosed⟩ := hText next
  refine ⟨closers ++ text, ?_⟩
  have hWhole := (hClosers text).lexFrom_eq
  rw [List.append_assoc, List.cons_append, hLex] at hWhole
  rw [snd_readAll, lex, hWhole, TokenStream.faultWithin_eq_none_iff]
  refine ⟨rfl, ?_⟩
  rw [TokenStream.append, TokenStream.openAfter?_append]
  simp only [lex] at hOpen
  rw [hOpen]
  exact hClosed

end

/-- A text can be completed after a line break exactly if it has no fault but a lack of input and
no list is open inside a list whose dotted tail is there already. -/
theorem exists_readAll_append_iff_hasRoom (source : Text) :
    (∃ more, (readAll (F := F) (source ++ '\n' :: more)).2 = none) ↔
      (∀ err ∈ (readAll (F := F) source).2, err.isIncomplete = true) ∧
        HasRoom (openLists F source) := by
  constructor
  · rintro ⟨more, hRead⟩
    exact hasRoom_openLists_of_readAll_append hRead
  · rintro ⟨hIncomplete, hRoom⟩
    exact exists_readAll_append_of_hasRoom hIncomplete hRoom

/-- A list that is opened behind a dotted tail lacks its end, and nothing that follows can complete
the text. -/
theorem not_exists_readAll_append_list_behind_tail :
    (readAll (F := Empty) "(a . b (".toList).2 = some (.unclosedList .round 7) ∧
      ¬ ∃ more, (readAll (F := Empty) ("(a . b (".toList ++ '\n' :: more)).2 = none := by
  refine ⟨by decide +kernel, ?_⟩
  rintro ⟨more, hRead⟩
  have hFull : ∃ l ∈ (openLists Empty "(a . b (".toList).tail, l.takesMore = false := by
    decide +kernel
  obtain ⟨l, hMem, hFull⟩ := hFull
  rw [(hasRoom_openLists_of_readAll_append hRead).2 l hMem] at hFull
  cases hFull

end Lisp
