/-!
# Finite tables

A table is a list of rows, one per key, in the order in which the keys were first entered.
Entering a key again replaces its row in place.  The view of a table is the partial function
`Table.find?`; `find?_put` and `find?_erase` say what each operation does to that view, and
`keys_put` says what it does to the order.
-/

namespace Upkeep

/-- A finite map whose rows keep the order in which their keys were first entered. -/
structure Table (κ ν : Type) where
  /-- The rows, in order of first entry. -/
  rows : List (κ × ν)
  deriving Repr, DecidableEq

namespace Table

variable {κ ν : Type}

/-- The table without rows. -/
def empty : Table κ ν := ⟨[]⟩

instance : EmptyCollection (Table κ ν) := ⟨empty⟩
instance : Inhabited (Table κ ν) := ⟨empty⟩

/-- The keys, in order of first entry. -/
def keys (t : Table κ ν) : List κ := t.rows.map Prod.fst

/-- A table without rows. -/
def isEmpty (t : Table κ ν) : Bool := t.rows.isEmpty

variable [DecidableEq κ]

/-- The first value entered under `k` in a list of rows. -/
def findRow? (k : κ) : List (κ × ν) → Option ν
  | [] => none
  | (k', v) :: rest => if k' = k then some v else findRow? k rest

/-- Replaces the row of `k`, or adds one at the end. -/
def putRow (k : κ) (v : ν) : List (κ × ν) → List (κ × ν)
  | [] => [(k, v)]
  | (k', v') :: rest => if k' = k then (k, v) :: rest else (k', v') :: putRow k v rest

/-- The value under `k`, if there is one. -/
def find? (t : Table κ ν) (k : κ) : Option ν := findRow? k t.rows

/-- Whether `k` has a row. -/
def contains (t : Table κ ν) (k : κ) : Bool := (t.find? k).isSome

/-- Enters `v` under `k`; a row that is there already keeps its place. -/
def put (t : Table κ ν) (k : κ) (v : ν) : Table κ ν := ⟨putRow k v t.rows⟩

/-- Drops the row of `k`. -/
def erase (t : Table κ ν) (k : κ) : Table κ ν := ⟨t.rows.filter fun row => row.1 ≠ k⟩

/-- Enters the pairs one after another, so the last value given for a key wins. -/
def ofList (pairs : List (κ × ν)) : Table κ ν :=
  pairs.foldl (fun t row => t.put row.1 row.2) empty

@[simp] theorem find?_empty (k : κ) : (empty : Table κ ν).find? k = none := rfl

/-- A table is not empty if some key has a row in it. -/
theorem isEmpty_eq_false {t : Table κ ν} : t.isEmpty = false ↔ ∃ k, t.contains k = true := by
  obtain ⟨rows⟩ := t
  cases rows with
  | nil =>
    constructor
    · intro h
      cases h
    · rintro ⟨k, h⟩
      cases h
  | cons row rest => exact ⟨fun _ => ⟨row.1, by simp [contains, find?, findRow?]⟩, fun _ => rfl⟩

theorem findRow?_putRow (k k' : κ) (v : ν) (rows : List (κ × ν)) :
    findRow? k' (putRow k v rows) = if k = k' then some v else findRow? k' rows := by
  induction rows with
  | nil => simp [putRow, findRow?]
  | cons row rest ih =>
    obtain ⟨k₁, v₁⟩ := row
    by_cases h : k₁ = k
    · by_cases h' : k = k' <;> simp [putRow, findRow?, h, h']
    · by_cases h' : k₁ = k'
      · subst h'
        simp [putRow, findRow?, h, Ne.symm h]
      · simp [putRow, findRow?, h, h', ih]

@[simp] theorem find?_put (t : Table κ ν) (k k' : κ) (v : ν) :
    (t.put k v).find? k' = if k = k' then some v else t.find? k' :=
  findRow?_putRow k k' v t.rows

theorem putRow_putRow (k : κ) (v w : ν) (rows : List (κ × ν)) :
    putRow k w (putRow k v rows) = putRow k w rows := by
  induction rows with
  | nil => simp [putRow]
  | cons row rest ih =>
    obtain ⟨k₁, v₁⟩ := row
    by_cases h : k₁ = k <;> simp [putRow, h, ih]

/-- Of two values entered under a key only the second is kept. -/
theorem put_put (t : Table κ ν) (k : κ) (v w : ν) : (t.put k v).put k w = t.put k w := by
  simp only [put, putRow_putRow]

@[simp] theorem find?_erase (t : Table κ ν) (k k' : κ) :
    (t.erase k).find? k' = if k = k' then none else t.find? k' := by
  obtain ⟨rows⟩ := t
  simp only [erase, find?]
  induction rows with
  | nil => simp [findRow?]
  | cons row rest ih =>
    obtain ⟨k₁, v₁⟩ := row
    by_cases h : k₁ = k
    · by_cases h' : k = k' <;> simp_all [findRow?]
    · by_cases h' : k₁ = k'
      · subst h'
        simp [findRow?, h, Ne.symm h]
      · simp_all [findRow?]

theorem findRow?_eq_none_iff (k : κ) (rows : List (κ × ν)) :
    findRow? k rows = none ↔ k ∉ rows.map Prod.fst := by
  induction rows with
  | nil => simp [findRow?]
  | cons row rest ih =>
    obtain ⟨k₁, v₁⟩ := row
    by_cases h : k₁ = k
    · simp [findRow?, h]
    · simp [findRow?, h, ih, Ne.symm (a := k₁) (b := k) h]

theorem find?_eq_none_iff (t : Table κ ν) (k : κ) : t.find? k = none ↔ k ∉ t.keys :=
  findRow?_eq_none_iff k t.rows

/-- A known key keeps its place and a new one goes to the end. -/
theorem keys_put (t : Table κ ν) (k : κ) (v : ν) :
    (t.put k v).keys = if k ∈ t.keys then t.keys else t.keys ++ [k] := by
  obtain ⟨rows⟩ := t
  simp only [put, keys]
  induction rows with
  | nil => simp [putRow]
  | cons row rest ih =>
    obtain ⟨k₁, v₁⟩ := row
    by_cases h : k₁ = k
    · simp [putRow, h]
    · simp only [putRow, h, if_false, List.map_cons, ih, List.mem_cons, Ne.symm h, false_or]
      split <;> simp_all

theorem nodup_keys_put {t : Table κ ν} (h : t.keys.Nodup) (k : κ) (v : ν) :
    (t.put k v).keys.Nodup := by
  rw [keys_put]
  split
  · exact h
  · rename_i hk
    rw [List.nodup_append]
    exact ⟨h, by simp, by rintro a ha b hb rfl; simp at hb; exact hk (hb ▸ ha)⟩

end Table

end Upkeep
