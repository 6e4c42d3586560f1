import Lisp.Text.Basic

/-! Finite maps that keep the order of first binding. The invariant that no name occurs
twice is a part of the type. Main statement: a name is bound to what was inserted for it
last. -/

namespace Lisp

/-- A finite map from names to values that keeps the order in which the names were
first bound. -/
structure Bindings (β : Type) where
  entries : List (Text × β)
  nodup_names : (entries.map Prod.fst).Nodup

namespace Bindings

variable {β : Type}

/-- Bind a name in a list of entries. A name that is bound keeps its place. -/
def put (name : Text) (value : β) : List (Text × β) → List (Text × β)
  | [] => [(name, value)]
  | entry :: rest =>
    if entry.1 = name then (name, value) :: rest else entry :: put name value rest

theorem names_put (name : Text) (value : β) (entries : List (Text × β)) :
    (put name value entries).map Prod.fst =
      if name ∈ entries.map Prod.fst then entries.map Prod.fst
      else entries.map Prod.fst ++ [name] := by
  induction entries with
  | nil => simp [put]
  | cons entry rest ih =>
    by_cases hName : entry.1 = name
    · simp [put, hName]
    · have hName' : ¬ name = entry.1 := fun h => hName h.symm
      by_cases hMem : name ∈ rest.map Prod.fst
      · rw [put, if_neg hName, List.map_cons, ih, if_pos hMem, if_pos (by simp_all)]; rfl
      · rw [put, if_neg hName, List.map_cons, ih, if_neg hMem, if_neg (by simp_all)]; rfl

/-- No names are bound. -/
def empty : Bindings β := ⟨[], List.nodup_nil⟩

/-- The same with a name bound to a value. A name that is bound keeps its place and
takes the new value. -/
def insert (b : Bindings β) (name : Text) (value : β) : Bindings β where
  entries := put name value b.entries
  nodup_names := by
    rw [names_put]
    split
    · exact b.nodup_names
    · rename_i hMem
      exact List.nodup_append.2 ⟨b.nodup_names, by simp, fun x hx y hy => by
        rintro rfl; simp_all⟩

/-- Bind the entries of a list one after the other. -/
def insertAll (b : Bindings β) (entries : List (Text × β)) : Bindings β :=
  entries.foldl (fun b entry => b.insert entry.1 entry.2) b

/-- The bindings of a list. Of a repeated name the first place and the last value
count. -/
def ofList (entries : List (Text × β)) : Bindings β := empty.insertAll entries

/-- The same without this name. -/
def erase (b : Bindings β) (name : Text) : Bindings β where
  entries := b.entries.filter (·.1 != name)
  nodup_names := (List.filter_sublist.map Prod.fst).nodup b.nodup_names

/-- The value that a name is bound to. -/
def get? (b : Bindings β) (name : Text) : Option β :=
  (b.entries.find? (·.1 = name)).map Prod.snd

def contains (b : Bindings β) (name : Text) : Bool := (b.get? name).isSome

def names (b : Bindings β) : List Text := b.entries.map Prod.fst

def size (b : Bindings β) : Nat := b.entries.length

/-- The same names with equal values, in whatever order. -/
def same [BEq β] (a b : Bindings β) : Bool :=
  a.size == b.size && a.entries.all fun entry =>
    match b.get? entry.1 with
    | some value => entry.2 == value
    | none => false

@[simp] theorem get?_empty (name : Text) : (empty : Bindings β).get? name = none := rfl

@[simp] theorem get?_insert (b : Bindings β) (name other : Text) (value : β) :
    (b.insert name value).get? other = if other = name then some value else b.get? other := by
  obtain ⟨entries, hNodup⟩ := b
  simp only [get?, insert]
  clear hNodup
  induction entries with
  | nil => by_cases h : other = name <;> by_cases h' : name = other <;> simp_all [put]
  | cons entry rest ih =>
    by_cases hName : entry.1 = name <;> by_cases h : other = name <;>
      by_cases h' : entry.1 = other <;> simp_all [put]

end Bindings

end Lisp
