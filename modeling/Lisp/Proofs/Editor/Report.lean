import Lisp.Editor.Documents
import Lisp.Proofs.Editor.Analysis
import Mathlib.Data.List.Basic
import Mathlib.Data.List.Nodup

/-! What an editor says of a document, form by form. Each form has one entry, at the place where it
begins, and all entries are at different places. Main statement: the results and the problems are
the entries of the forms, and hover text shows the value of the form that begins at a place. -/

namespace Lisp.Editor

/-- What is said of a form: that it has a result, or the problem of its evaluation. -/
inductive Entry where
  | result (r : FormResult)
  | problem (p : Problem)

namespace Entry

def position : Entry → Position
  | result r => r.position
  | problem p => p.position

def result? : Entry → Option FormResult
  | result r => some r
  | problem _ => none

def problem? : Entry → Option Problem
  | result _ => none
  | problem p => some p

theorem sublist_position_results (entries : List Entry) :
    ((entries.filterMap result?).map FormResult.position).Sublist (entries.map position) := by
  induction entries with
  | nil => exact .slnil
  | cons entry entries ih =>
      cases entry with
      | result r => exact ih.cons_cons r.position
      | problem p => exact ih.cons p.position

end Entry

/-- A form of a document has this entry. -/
inductive Reports (budget : Nat) (source : Text) : Nat × Datum → Entry → Prop where
  | result {offset : Nat} {e v : Datum} {text : Text}
      (hEval : evaluateWithin .builtin budget e .empty = ⟨[], .ok (v, .empty)⟩)
      (hText : v.print = .ok text) :
      Reports budget source (offset, e) (.result ⟨source.positionAt offset, text⟩)
  | problem {offset : Nat} {e : Datum} {failure : EvalError Empty} {message : Text}
      (hEval : evaluateWithin .builtin budget e .empty = ⟨[], .error failure⟩)
      (hMessage : failure.message = .ok message) :
      Reports budget source (offset, e)
        (.problem ⟨source.positionAt offset, message, severityOf failure⟩)

namespace Reports

variable {budget : Nat} {source : Text} {form : Nat × Datum} {entry entry' : Entry}

theorem position_eq (hReports : Reports budget source form entry) :
    entry.position = source.positionAt form.1 := by
  cases hReports <;> rfl

theorem unique (hReports : Reports budget source form entry)
    (hReports' : Reports budget source form entry') : entry = entry' := by
  cases hReports with
  | result hEval hText =>
      cases hReports' with
      | result hEval' hText' => simp_all
      | problem hEval' hMessage' => simp [hEval] at hEval'
  | problem hEval hMessage =>
      cases hReports' with
      | result hEval' hText' => simp [hEval] at hEval'
      | problem hEval' hMessage' => simp_all

end Reports

namespace Analyzes

variable {budget : Nat} {source : Text} {forms : List (Nat × Datum)} {fault : Option ReadError}
  {a : Analysis}

/-- The results and the problems of forms are their entries, in order. -/
theorem exists_entries (hAnalyzes : Analyzes budget source forms none a) :
    ∃ entries, List.Forall₂ (Reports budget source) forms entries ∧
      a.results = entries.filterMap Entry.result? ∧
      a.problems = entries.filterMap Entry.problem? := by
  induction forms generalizing a with
  | nil =>
      cases hAnalyzes
      exact ⟨[], .nil, rfl, rfl⟩
  | cons form forms ih =>
      cases hAnalyzes with
      | result hEval hText more =>
          obtain ⟨entries, hEntries, hResults, hProblems⟩ := ih more
          exact ⟨_, .cons (.result hEval hText) hEntries, congrArg _ hResults, hProblems⟩
      | problem hEval hMessage more =>
          obtain ⟨entries, hEntries, hResults, hProblems⟩ := ih more
          exact ⟨_, .cons (.problem hEval hMessage) hEntries, hResults, congrArg _ hProblems⟩

/-- A result comes from a form that has it. -/
theorem mem_results_iff (hAnalyzes : Analyzes budget source forms fault a) {r : FormResult} :
    r ∈ a.results ↔ ∃ form ∈ forms, Reports budget source form (.result r) := by
  induction hAnalyzes with
  | done | fault => simp
  | @result offset e v text forms fault a hEval hText more ih =>
      have hEntry : Reports budget source (offset, e) (.result r) ↔
          r = ⟨source.positionAt offset, text⟩ :=
        ⟨fun hReports => Entry.result.inj (hReports.unique (.result hEval hText)),
          fun hResult => hResult ▸ .result hEval hText⟩
      rw [List.exists_mem_cons_iff, hEntry, ← ih]
      exact List.mem_cons
  | @problem offset e failure message forms fault a hEval hMessage more ih =>
      have hEntry : ¬ Reports budget source (offset, e) (.result r) := fun hReports =>
        Entry.noConfusion (hReports.unique (.problem hEval hMessage))
      rw [List.exists_mem_cons_iff, ← ih]
      exact (or_iff_right hEntry).symm

end Analyzes

theorem map_position_of_forall₂ {budget : Nat} {source : Text} {forms : List (Nat × Datum)}
    {entries : List Entry} (hEntries : List.Forall₂ (Reports budget source) forms entries) :
    entries.map Entry.position = (forms.map Prod.fst).map source.positionAt := by
  induction hEntries with
  | nil => rfl
  | cons hReports hMore ih => rw [List.map_cons, hReports.position_eq, ih]; rfl

/-- Entries, and what is said of a fault after them, are at later and later places. -/
theorem pairwise_positions {budget : Nat} {source : Text} {forms : List (Nat × Datum)}
    {fault : Option ReadError} {entries : List Entry} {offset : Nat}
    (hForms : HasForms source forms fault)
    (hEntries : List.Forall₂ (Reports budget source) forms entries)
    (hPosition : ∀ err ∈ fault, ReadError.position err = some offset) :
    (entries.map Entry.position ++ (fault.map fun _ => source.positionAt offset).toList).Pairwise
      (· < ·) := by
  have hFault : (fault.map fun _ => source.positionAt offset).toList =
      (fault.bind ReadError.position).toList.map source.positionAt := by
    cases fault with
    | none => rfl
    | some err => simp [hPosition err rfl]
  rw [map_position_of_forall₂ hEntries, hFault, ← List.map_append]
  exact hForms.increasing.map _ fun _ _ => source.positionAt_lt_positionAt

/-- What there is to say about a word is never taken for a value. -/
theorem describe_ne_value (word text : Text) : describe word ≠ some ("=> ".toList ++ text) := by
  have hHelp : conditionalHelp.head? = some '(' := by decide +kernel
  unfold describe
  split_ifs with hNothing hConditional
  · simp
  · intro hValue
    simp [Option.some.inj hValue] at hHelp
  · split
    · simp
    · split <;> simp

/-- Where no two results are at one place, hover text shows a value exactly at its place. -/
theorem Documents.hover_eq_value_iff {docs : Documents} {address : Text} {doc : Document}
    (hDoc : docs.get? address = some doc)
    (hDistinct : (doc.analysis.results.map FormResult.position).Nodup) {place : Position}
    {text : Text} :
    docs.hover address place = some ("=> ".toList ++ text) ↔
      ⟨place, text⟩ ∈ doc.analysis.results := by
  cases hFind : doc.analysis.results.find? (·.position = place) with
  | none =>
      simp only [hover, hDoc, hFind, Option.bind_eq_bind, Option.bind_some]
      refine iff_of_false (describe_ne_value _ text) fun hMem => ?_
      simpa using List.find?_eq_none.1 hFind _ hMem
  | some r =>
      have hMem : r ∈ doc.analysis.results := List.mem_of_find?_eq_some hFind
      have hPlace : r.position = place := by simpa using List.find?_some hFind
      simp only [hover, hDoc, hFind, Option.bind_eq_bind, Option.bind_some]
      constructor
      · intro hText
        have hSame : r.text = text := List.append_cancel_left (Option.some.inj hText)
        rw [← hPlace, ← hSame]
        exact hMem
      · intro hValue
        rw [List.inj_on_of_nodup_map hDistinct hMem hValue hPlace]

/-- Every form of a document has one entry, a result or a problem, at the place where the form
begins, and a fault of the text has one problem, after all others. All places are different and in
order. Hover text shows a value exactly at the first character of the form that has it. -/
theorem analyze_reports_each_form (budget : Nat) {source : Text} {es : List Datum}
    {fault : Option ReadError} (hRead : readAll source = (es, fault)) :
    ∃ (forms : List (Nat × Datum)) (entries : List Entry) (a : Analysis) (offset : Nat),
      HasForms source forms fault ∧ forms.map Prod.snd = es ∧ analyze budget source = .ok a ∧
      List.Forall₂ (Reports budget source) forms entries ∧
      (∀ err ∈ fault, ReadError.position err = some offset) ∧
      a.results = entries.filterMap Entry.result? ∧
      a.problems = entries.filterMap Entry.problem? ++
        (fault.map fun err => ⟨source.positionAt offset, err.message, .error⟩).toList ∧
      (entries.map Entry.position ++
        (fault.map fun _ => source.positionAt offset).toList).Pairwise (· < ·) ∧
      ∀ (docs : Documents) (address : Text), docs.get? address = some ⟨source, a⟩ →
        ∀ place : Position, (a.results.map FormResult.position).count place ≤ 1 ∧
          ∀ text, docs.hover address place = some ("=> ".toList ++ text) ↔
            ∃ form ∈ forms, Reports budget source form (.result ⟨place, text⟩) := by
  obtain ⟨forms, a, hForms, hValues, hAnalyzes⟩ := exists_analyzes_of_readAll budget hRead
  obtain ⟨offset, hPosition⟩ := TokenStream.exists_position_of_readAll hRead
  obtain ⟨entries, hEntries, hResults, hProblems⟩ := hAnalyzes.exists_entries
  have hOrder := pairwise_positions hForms hEntries hPosition
  have hDistinct : (a.results.map FormResult.position).Nodup := by
    rw [hResults]
    exact ((List.pairwise_append.1 hOrder).1.imp ne_of_lt).sublist
      (Entry.sublist_position_results entries)
  refine ⟨forms, entries, a.withFault (source.positionAt offset) fault, offset, hForms, hValues,
    (hAnalyzes.withFault hPosition).analyze_eq hForms, hEntries, hPosition, hResults,
    congrArg (· ++ _) hProblems, hOrder, fun docs address hDoc place => ?_⟩
  exact ⟨List.nodup_iff_count_le_one.1 hDistinct place, fun text =>
    (Documents.hover_eq_value_iff hDoc hDistinct).trans hAnalyzes.mem_results_iff⟩

theorem analyze_reports_each_form_open_list :
    let source : Text := "7 (if 2 3 4)\n(if #t ok 1) (a".toList
    let es : List Datum := [.int 7, .ofList [.symbol "if".toList, .int 2, .int 3, .int 4],
      .ofList [.symbol "if".toList, .bool true, .symbol "ok".toList, .int 1]]
    let mismatch : Text :=
      "type mismatch: condition of (if 2 3 4) evaluated to 2, expected #t or #f".toList
    let unclosed : Text := "Unexpected end of input: unclosed '(' (at offset 26)".toList
    let a : Analysis := ⟨[⟨⟨0, 2⟩, mismatch, .error⟩, ⟨⟨1, 13⟩, unclosed, .error⟩],
      [⟨⟨0, 0⟩, ['7']⟩, ⟨⟨1, 0⟩, "ok".toList⟩]⟩
    let docs : Documents := Bindings.empty.insert "a".toList ⟨source, a⟩
    readAll source = (es, some (.unclosedList .round 26)) ∧ analyze 2 source = .ok a ∧
      docs.hover "a".toList ⟨1, 0⟩ = some "=> ok".toList ∧
      ∃ forms : List (Nat × Datum), HasForms source forms (some (.unclosedList .round 26)) ∧
        forms.map Prod.snd = es ∧
        ∃ form ∈ forms, Reports 2 source form (.result ⟨⟨1, 0⟩, "ok".toList⟩) := by
  intro source es mismatch unclosed a docs
  have hRead : readAll source = (es, some (.unclosedList .round 26)) := by decide +kernel
  have hAnalysis : analyze 2 source = .ok a := by decide +kernel
  have hHover : docs.hover "a".toList ⟨1, 0⟩ = some "=> ok".toList := by decide +kernel
  obtain ⟨forms, entries, a', offset, hForms, hValues, hAnalyze, -, -, -, -, -, hShown⟩ :=
    analyze_reports_each_form 2 hRead
  obtain rfl : a = a' := Except.ok.inj (hAnalysis.symm.trans hAnalyze)
  obtain ⟨-, hValue⟩ := hShown docs "a".toList rfl ⟨1, 0⟩
  exact ⟨hRead, hAnalysis, hHover, forms, hForms, hValues, (hValue _).1 hHover⟩

end Lisp.Editor
