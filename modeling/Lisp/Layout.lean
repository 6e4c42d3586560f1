import Lisp.Lexer

/-! The text between tokens: white space and comments, with no reference to how the lexer
skips them. Main statements: the lexer finds the end of a block comment exactly where the
nesting falls to zero, and layout in front of a text leaves its tokens as they are. -/

namespace Lisp

/-- Read from its start, the text closes `depth` block comments, and the last of them at its
very end. Two characters that open or close a comment count together. -/
inductive ClosesComments : (depth : Nat) → Text → Prop where
  | done : ClosesComments 0 []
  | opening {depth : Nat} {s : Text} (more : ClosesComments (depth + 2) s) :
      ClosesComments (depth + 1) ('#' :: '|' :: s)
  | closing {depth : Nat} {s : Text} (more : ClosesComments depth s) :
      ClosesComments (depth + 1) ('|' :: '#' :: s)
  | other {depth : Nat} {c : Char} {s : Text} (hOpen : ¬ ['#', '|'] <+: c :: s)
      (hClose : ¬ ['|', '#'] <+: c :: s) (more : ClosesComments (depth + 1) s) :
      ClosesComments (depth + 1) (c :: s)

/-- White space, line comments with their newlines, and block comments, in any order. -/
inductive Layout : Text → Prop where
  | nil : Layout []
  | blank {c : Char} {s : Text} (hBlank : Text.isBlank c = true) (more : Layout s) :
      Layout (c :: s)
  | lineComment {comment s : Text} (hLine : '\n' ∉ comment) (more : Layout s) :
      Layout (';' :: comment ++ '\n' :: s)
  | blockComment {comment s : Text} (hBlock : ClosesComments 1 comment) (more : Layout s) :
      Layout ('#' :: '|' :: comment ++ s)

/-- Layout at the end of a text, where a line comment needs no newline. -/
def FinalLayout (s : Text) : Prop :=
  Layout s ∨ ∃ before comment, Layout before ∧ '\n' ∉ comment ∧ s = before ++ ';' :: comment

namespace Lexer

theorem blockEnd?_of_closesComments {depth : Nat} {comment : Text}
    (hCloses : ClosesComments depth comment) (offset : Nat) (rest : Text) :
    blockEnd? depth offset (comment ++ rest) = some (offset + comment.length, rest) := by
  induction hCloses generalizing offset with
  | done => simp [blockEnd?]
  | opening _ ih => simp [blockEnd?, ih]; omega
  | closing _ ih => simp [blockEnd?, ih]; omega
  | @other depth c s hOpen hClose more ih =>
    rw [List.cons_append, blockEnd?]
    · rw [ih]; simp; omega
    · rintro t rfl h
      cases s with
      | nil => cases more
      | cons d s => simp_all
    · rintro t rfl h
      cases s with
      | nil => cases more
      | cons d s => simp_all

/-- A block comment ends where the nesting falls to zero, and nowhere else. -/
theorem blockEnd?_eq_some_iff {depth offset stop : Nat} {s rest : Text} :
    blockEnd? depth offset s = some (stop, rest) ↔
      ∃ comment, ClosesComments depth comment ∧ s = comment ++ rest ∧
        stop = offset + comment.length := by
  constructor
  · intro hEnd
    fun_induction blockEnd? depth offset s with
    | case1 => exact ⟨[], .done, by simp_all⟩
    | case2 => simp at hEnd
    | case3 _ _ _ ih =>
      obtain ⟨comment, hCloses, rfl, rfl⟩ := ih hEnd
      exact ⟨_, .opening hCloses, rfl, by simp; omega⟩
    | case4 _ _ _ ih =>
      obtain ⟨comment, hCloses, rfl, rfl⟩ := ih hEnd
      exact ⟨_, .closing hCloses, rfl, by simp; omega⟩
    | case5 _ _ c s hOpen hClose ih =>
      obtain ⟨comment, hCloses, rfl, rfl⟩ := ih hEnd
      refine ⟨_, .other ?_ ?_ hCloses, rfl, by simp; omega⟩
      · rintro ⟨t, ht⟩
        simp only [List.cons_append, List.nil_append, List.cons.injEq] at ht
        obtain ⟨rfl, rfl⟩ := ht
        exact hOpen _ rfl rfl
      · rintro ⟨t, ht⟩
        simp only [List.cons_append, List.nil_append, List.cons.injEq] at ht
        obtain ⟨rfl, rfl⟩ := ht
        exact hClose _ rfl rfl
  · rintro ⟨comment, hCloses, rfl, rfl⟩
    exact blockEnd?_of_closesComments hCloses offset rest

/-- Layout in front of a text moves its tokens and does nothing else. -/
theorem lexFrom_append_of_layout {space : Text} (hLayout : Layout space) (offset : Nat)
    (s : Text) : lexFrom offset (space ++ s) = lexFrom (offset + space.length) s := by
  induction hLayout generalizing offset with
  | nil => rfl
  | blank hBlank _ ih =>
    rw [List.cons_append, lexFrom_of_isBlank hBlank, ih, List.length_cons]
    congr 1
    omega
  | @lineComment comment space hLine _ ih =>
    have hAll : ∀ c ∈ comment, (c != '\n') = true := by
      intro c hMem
      simp only [bne_iff_ne, ne_eq]
      rintro rfl
      exact hLine hMem
    have hTake : (comment ++ '\n' :: (space ++ s)).takeWhile (· != '\n') = comment := by
      rw [List.takeWhile_append_of_pos hAll]
      simp
    have hNewline : Text.isBlank '\n' = true := rfl
    rw [List.append_assoc, List.cons_append, List.cons_append, lexFrom_semicolon, hTake,
      List.drop_left, lexFrom_of_isBlank hNewline, ih]
    congr 1
    simp
    omega
  | @blockComment comment space hBlock _ ih =>
    have hEnd := blockEnd?_of_closesComments hBlock (offset + 2) (space ++ s)
    rw [List.append_assoc, List.cons_append, List.cons_append,
      lexFrom_of_blockEnd?_eq_some hEnd, ih]
    congr 1
    simp
    omega

end Lexer

end Lisp
