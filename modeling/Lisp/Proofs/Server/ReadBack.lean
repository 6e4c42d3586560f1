import Lisp.Proofs.Server.Request

/-! Results as source text. What the reader makes stays readable through evaluation and printing,
and line breaks keep the printed values apart, so a client can read the values out of a
response. -/

namespace Lisp

/-- The expressions of a text that is read without a fault are printed and read back, each on a
line of its own. -/
theorem exists_print_lines {F : Type} {source : Text} {es : List (Expr F)}
    (hRead : readAll source = (es, none)) :
    ∃ lines, es.mapM Expr.print = .ok lines ∧
      readAll (['\n'].intercalate lines) = (es, none) :=
  exists_mapM_print_of_isReadable (isReadable_of_mem_readAll hRead)

namespace Server

variable {budget : Nat} {env : Environment Empty} {line : Line} {source : Text}

/-- A request whose expressions all have values is answered with a text that these are read from,
or `nil` if there are none. -/
theorem exists_result_of_hasValues {values : List Datum} (hCode : line.code? = some source)
    (hValues : Session.HasValues budget env source values)
    (hReadable : ∀ v ∈ values, v.isReadable = true) :
    ∃ text, handle ⟨env, .builtin, budget⟩ line =
        .ok ⟨.result text, ⟨env, .builtin, budget⟩, false⟩ ∧
      readAll text = (if values.isEmpty then [.nil] else values, none) := by
  have hEval := Session.hasValues_iff.1 hValues
  have hFailure : (Session.eval ⟨env, .builtin, budget⟩ source).failure = none := by rw [hEval]
  have hAnswer :
      ∀ v ∈ (Session.eval ⟨env, .builtin, budget⟩ source).answer, v.isReadable = true := by
    rw [hEval, Session.Run.answer]
    split
    · exact List.forall_mem_singleton.2 rfl
    · exact hReadable
  obtain ⟨texts, hTexts, hBack⟩ := exists_mapM_print_of_isReadable hAnswer
  have hHandle := handle_of_code? hCode (Request.answer_eval_of_none hFailure hTexts)
  rw [hEval] at hHandle hBack
  exact ⟨_, hHandle, hBack⟩

/-- What is printed is read back. The expressions of a text are read from their printed texts on
lines of their own. A session with the form of the language answers code with a result exactly if
all of its expressions have values, and the values are read from the result; code without
expressions has the result `nil`. -/
theorem printed_values_read_back :
    (∀ (F : Type) (source : Text) (es : List (Expr F)), readAll source = (es, none) →
      ∃ lines, es.mapM Expr.print = .ok lines ∧
        readAll (['\n'].intercalate lines) = (es, none)) ∧
    ∀ (budget : Nat) (env : Environment Empty) (line : Line) (source : Text),
      line.code? = some source →
      ∃ response, handle ⟨env, .builtin, budget⟩ line =
          .ok ⟨response, ⟨env, .builtin, budget⟩, false⟩ ∧
        ((∃ text, response = .result text) ↔ ∃ values, Session.HasValues budget env source values) ∧
        ∀ text, response = .result text → ∃ values, Session.HasValues budget env source values ∧
          readAll text = (if values.isEmpty then [.nil] else values, none) := by
  refine ⟨fun F source es hRead => exists_print_lines hRead, fun budget env line source hCode => ?_⟩
  obtain ⟨values, failure, hEval, hReadable, hMessage⟩ :=
    Session.exists_eval_builtin env budget source
  cases failure with
  | none =>
      have hValues := Session.hasValues_iff.2 hEval
      obtain ⟨text, hHandle, hBack⟩ := exists_result_of_hasValues hCode hValues hReadable
      refine ⟨.result text, hHandle, ⟨fun _ => ⟨values, hValues⟩, fun _ => ⟨text, rfl⟩⟩, ?_⟩
      intro text' hText
      cases hText
      exact ⟨values, hValues, hBack⟩
  | some failure =>
      obtain ⟨-, message, hText⟩ := hMessage failure rfl
      have hFailure : (Session.eval ⟨env, .builtin, budget⟩ source).failure = some failure := by
        rw [hEval]
      have hHandle := handle_of_code? hCode (Request.answer_eval_of_some hFailure hText)
      rw [hEval] at hHandle
      refine ⟨.error message, hHandle, ⟨by simp, ?_⟩, by simp⟩
      rintro ⟨values', hValues⟩
      rw [Session.hasValues_iff.1 hValues] at hFailure
      cases hFailure

theorem printed_values_read_back_mixed_code :
    let source : Text := "[+007 . a] ; c\n(if #t NIL 1) #false".toList
    let es : List Datum := [.pair (.int 7) (.symbol ['a']),
      .ofList [.symbol ['i', 'f'], .bool true, .nil, .int 1], .bool false]
    let line : Line := .text
      "\x7b\"cmd\": \"eval\", \"code\": \"[+007 . a] ; c\\n(if #t NIL 1) #false\"\x7d".toList
    let values : List Datum := [.pair (.int 7) (.symbol ['a']), .nil, .bool false]
    let result : Text := "(7 . a)\n()\n#f".toList
    readAll source = (es, none) ∧
      (∃ lines, es.mapM Expr.print = .ok lines ∧
        readAll (['\n'].intercalate lines) = (es, none)) ∧
      line.code? = some source ∧ handle (.fresh 2) line = .ok ⟨.result result, .fresh 2, false⟩ ∧
      Session.HasValues 2 .empty source values ∧ readAll result = (values, none) := by
  intro source es line values result
  have hRead : readAll source = (es, none) := by decide +kernel
  have hCode : line.code? = some source := by decide +kernel
  have hResponse : (handle (.fresh 2) line).map Handled.response = .ok (.result result) := by
    decide +kernel
  have hValues : readAll result = (values, none) := by decide +kernel
  obtain ⟨response, hHandle, -, hBack⟩ := printed_values_read_back.2 2 .empty line source hCode
  have hFresh : handle (.fresh 2) line = .ok ⟨response, .fresh 2, false⟩ := hHandle
  rw [hFresh] at hResponse
  obtain rfl : response = .result result := Except.ok.inj hResponse
  obtain ⟨values', hHas, hRest⟩ := hBack result rfl
  have hSame := congrArg Prod.fst (hValues.symm.trans hRest)
  cases values' with
  | nil => cases hSame
  | cons v others =>
      have hList : v :: others = values := hSame.symm
      rw [hList] at hHas
      exact ⟨hRead, printed_values_read_back.1 Empty source es hRead, hCode, hFresh, hHas, hValues⟩

end Server

end Lisp
