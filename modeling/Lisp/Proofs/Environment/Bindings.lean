import Lisp.Bindings
import Mathlib.Data.List.Induction
import Mathlib.Data.List.Nodup

/-! Finite maps that keep the order of first binding. The names in their order and the value of
each name are all there is to a map, so the laws of insertion follow from what an insertion does to
these two. -/

namespace Lisp.Bindings

variable {β : Type} {a b : Bindings β} {name other : Text} {value : β}
  {entries : List (Text × β)}

@[simp] theorem names_insert (b : Bindings β) (name : Text) (value : β) :
    (b.insert name value).names = if name ∈ b.names then b.names else b.names ++ [name] :=
  names_put name value b.entries

theorem mem_names_insert :
    other ∈ (b.insert name value).names ↔ other ∈ b.names ∨ other = name := by
  rw [names_insert]
  split
  · rename_i hMem
    exact ⟨.inl, fun hOther => hOther.elim id fun hName => hName ▸ hMem⟩
  · rw [List.mem_append, List.mem_singleton]

theorem get?_eq_some_iff : b.get? name = some value ↔ (name, value) ∈ b.entries := by
  obtain ⟨entries, hNodup⟩ := b
  simp only [get?]
  induction entries with
  | nil => simp
  | cons entry rest ih =>
      obtain ⟨first, held⟩ := entry
      rw [List.map_cons, List.nodup_cons] at hNodup
      rw [List.find?_cons, List.mem_cons, Prod.mk.injEq]
      by_cases hName : first = name
      · subst hName
        have hRest : (first, value) ∉ rest :=
          fun hMem => hNodup.1 (List.mem_map.2 ⟨_, hMem, rfl⟩)
        simp [hRest, eq_comm]
      · have hName' : ¬ name = first := fun h => hName h.symm
        simpa [hName, hName'] using ih hNodup.2

theorem get?_erase (b : Bindings β) (name other : Text) :
    (b.erase name).get? other = if other = name then none else b.get? other := by
  simp only [get?, erase, List.find?_filter]
  by_cases hName : other = name
  · simp [hName]
  · rw [if_neg hName]
    congr 2
    funext entry
    by_cases hOther : entry.1 = other <;> simp [hOther, hName]

theorem contains_iff : b.contains name = true ↔ name ∈ b.names := by
  rw [contains, Option.isSome_iff_exists, names, List.mem_map]
  constructor
  · rintro ⟨value, hGet⟩
    exact ⟨_, get?_eq_some_iff.1 hGet, rfl⟩
  · rintro ⟨entry, hMem, rfl⟩
    exact ⟨entry.2, get?_eq_some_iff.2 hMem⟩

theorem not_mem_names_iff : name ∉ b.names ↔ b.get? name = none := by
  rw [← contains_iff, contains, Option.not_isSome_iff_eq_none]

@[simp] theorem length_names (b : Bindings β) : b.names.length = b.size := List.length_map ..

theorem names_nodup (b : Bindings β) : b.names.Nodup := b.nodup_names

/-- A map is its names in their order, each with its value. -/
theorem eq_of_get?_eq (hNames : a.names = b.names)
    (hGet : ∀ name ∈ a.names, a.get? name = b.get? name) : a = b := by
  have hEntry (c : Bindings β) :
      c.entries.map (fun entry => (entry.1, some entry.2)) =
        c.names.map fun name => (name, c.get? name) := by
    rw [names, List.map_map]
    refine List.map_congr_left fun entry hMem => ?_
    exact Prod.ext rfl (get?_eq_some_iff.2 hMem).symm
  have hSame : a.entries.map (fun entry => (entry.1, some entry.2)) =
      b.entries.map fun entry => (entry.1, some entry.2) := by
    rw [hEntry, hEntry, ← hNames]
    exact List.map_congr_left fun name hMem => by rw [hGet name hMem]
  have hInjective : Function.Injective fun entry : Text × β => (entry.1, some entry.2) := by
    rintro ⟨n, v⟩ ⟨m, w⟩ hEq
    simpa using hEq
  obtain ⟨aEntries, aNodup⟩ := a
  obtain ⟨bEntries, bNodup⟩ := b
  congr
  exact List.map_injective_iff.2 hInjective hSame

/-- The second of two values for one name is the one that counts. -/
theorem insert_insert (b : Bindings β) (name : Text) (first second : β) :
    (b.insert name first).insert name second = b.insert name second := by
  apply eq_of_get?_eq
  · rw [names_insert, if_pos (mem_names_insert.2 (.inr rfl)), names_insert, names_insert]
  · intro other hMem
    rw [get?_insert, get?_insert, get?_insert]
    split <;> rfl

/-- A name that is bound keeps its place, so it makes no difference when its value changes. -/
theorem insert_comm (hMem : name ∈ b.names) (hName : name ≠ other) (value value' : β) :
    (b.insert other value').insert name value = (b.insert name value).insert other value' := by
  apply eq_of_get?_eq
  · rw [names_insert, if_pos (mem_names_insert.2 (.inl hMem)), names_insert, names_insert,
      names_insert, if_pos hMem]
  · intro key hKey
    rw [get?_insert, get?_insert, get?_insert, get?_insert]
    by_cases hSame : key = name
    · rw [if_pos hSame, if_neg (hSame ▸ hName), if_pos hSame]
    · rw [if_neg hSame, if_neg hSame]

theorem insertAll_cons (b : Bindings β) (entry : Text × β) (entries : List (Text × β)) :
    b.insertAll (entry :: entries) = (b.insert entry.1 entry.2).insertAll entries := rfl

theorem insertAll_append (b : Bindings β) (first second : List (Text × β)) :
    b.insertAll (first ++ second) = (b.insertAll first).insertAll second :=
  List.foldl_append

theorem insertAll_concat (b : Bindings β) (entries : List (Text × β)) (entry : Text × β) :
    b.insertAll (entries ++ [entry]) = (b.insertAll entries).insert entry.1 entry.2 :=
  insertAll_append ..

theorem insertAll_insert (hMem : name ∈ b.names) (hNew : name ∉ entries.map Prod.fst)
    (value : β) :
    (b.insertAll entries).insert name value = (b.insert name value).insertAll entries := by
  induction entries generalizing b with
  | nil => rfl
  | cons entry entries ih =>
      rw [List.map_cons, List.mem_cons, not_or] at hNew
      rw [insertAll_cons, insertAll_cons, ih (mem_names_insert.2 (.inl hMem)) hNew.2,
        insert_comm hMem hNew.1]

theorem insertAll_put (b : Bindings β) (hNodup : (entries.map Prod.fst).Nodup) (name : Text)
    (value : β) :
    b.insertAll (put name value entries) = (b.insertAll entries).insert name value := by
  induction entries generalizing b with
  | nil => rfl
  | cons entry entries ih =>
      rw [List.map_cons, List.nodup_cons] at hNodup
      rw [put]
      split
      · rename_i hName
        subst hName
        rw [insertAll_cons, insertAll_cons,
          insertAll_insert (mem_names_insert.2 (.inr rfl)) hNodup.1,
          insert_insert]
      · rw [insertAll_cons, insertAll_cons, ih _ hNodup.2]

/-- Entries can be collected first and inserted then. -/
theorem insertAll_entries_ofList (b : Bindings β) (entries : List (Text × β)) :
    b.insertAll (ofList entries).entries = b.insertAll entries := by
  induction entries using List.reverseRecOn with
  | nil => rfl
  | append_singleton entries entry ih =>
      calc b.insertAll (ofList (entries ++ [entry])).entries
          = b.insertAll (put entry.1 entry.2 (ofList entries).entries) := by
            rw [ofList, insertAll_concat]
            rfl
        _ = (b.insertAll (ofList entries).entries).insert entry.1 entry.2 :=
            insertAll_put b (ofList entries).nodup_names ..
        _ = b.insertAll (entries ++ [entry]) := by rw [ih, insertAll_concat]

/-- Of several entries of one name the last one counts. -/
theorem get?_insertAll (b : Bindings β) (entries : List (Text × β)) (name : Text) :
    (b.insertAll entries).get? name = (entries.reverse.lookup name).or (b.get? name) := by
  induction entries generalizing b with
  | nil => rfl
  | cons entry entries ih =>
      rw [insertAll_cons, ih, List.reverse_cons, List.lookup_append, Option.or_assoc, get?_insert,
        List.lookup_cons, List.lookup_nil]
      by_cases hName : name = entry.1
      · simp [hName]
      · simp [hName, beq_eq_false_iff_ne.2 hName]

theorem get?_ofList (entries : List (Text × β)) (name : Text) :
    (ofList entries).get? name = entries.reverse.lookup name := by
  rw [ofList, get?_insertAll, get?_empty, Option.or_none]

/-- No name has two entries in a map, so it makes no difference which of them counts. -/
theorem get?_insertAll_entries (a b : Bindings β) (name : Text) :
    (a.insertAll b.entries).get? name = (b.get? name).or (a.get? name) := by
  have hSame : b.entries.reverse.lookup name = b.get? name := by
    ext value
    rw [List.lookup_eq_some_iff, get?_eq_some_iff]
    constructor
    · rintro ⟨before, after, hSplit, -⟩
      rw [← List.mem_reverse, hSplit]
      exact List.mem_append_right _ (List.mem_cons_self ..)
    · intro hMem
      obtain ⟨before, after, hSplit⟩ := List.append_of_mem (List.mem_reverse.2 hMem)
      have hNodup := b.nodup_names
      rw [← List.nodup_reverse, ← List.map_reverse, hSplit, List.map_append] at hNodup
      refine ⟨before, after, hSplit, fun entry hBefore => bne_iff_ne.2 fun hName => ?_⟩
      exact List.disjoint_of_nodup_append hNodup (List.mem_map_of_mem hBefore) (by simp [hName])
  rw [get?_insertAll, hSame]

/-- The names stand in the order of their first entries. -/
theorem names_ofList (entries : List (Text × β)) :
    (ofList entries).names = (entries.map Prod.fst).eraseDups := by
  induction entries using List.reverseRecOn with
  | nil => rfl
  | append_singleton entries entry ih =>
      rw [ofList, insertAll_concat, ← ofList, names_insert, ih, List.map_append,
        List.eraseDups_append]
      by_cases hMem : entry.1 ∈ entries.map Prod.fst
      · rw [if_pos (List.mem_eraseDups.2 hMem)]
        simp [List.removeAll, hMem]
      · rw [if_neg fun h => hMem (List.mem_eraseDups.1 h)]
        simp [List.removeAll, hMem, List.eraseDups_cons]

end Lisp.Bindings
