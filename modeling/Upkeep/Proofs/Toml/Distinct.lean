import Mathlib
import Upkeep.Toml.Document

/-!
# Tables with each key once

Every table of a document has each of its keys once, however its lines define it.

* `Value.Distinct`, `Rows.Distinct` : the tables within a value, and a table, have each key once.
* `Rows.insertDotted_distinct`, `Rows.Keeps.changeAt` : dotted keys and headers keep it so.
* `Document.reads` : the values on the lines of a document are so.
* `Document.parse?_distinct` : hence every document is.
-/

namespace Upkeep.Toml

/-- Every table within a value has each key once. -/
inductive Value.Distinct : Value → Prop
  /-- There is no table in a text. -/
  | text (s : String) : Distinct (.text s)
  /-- There is none in a number. -/
  | integer (n : Int) : Distinct (.integer n)
  /-- There is none in a number with a point. -/
  | float (x : Binary64) : Distinct (.float x)
  /-- There is none in a truth value. -/
  | boolean (b : Bool) : Distinct (.boolean b)
  /-- There is none in a date. -/
  | moment (written : String) : Distinct (.moment written)
  /-- The tables within an array are those within its elements. -/
  | array {isOpen : Bool} {elements : List Value} (h : ∀ v ∈ elements, Distinct v) :
    Distinct (.array isOpen elements)
  /-- A table has each key once, and so have those within its values. -/
  | table {kind : TableKind} {rows : Rows} (nodup : (rows.map Prod.fst).Nodup)
    (values : ∀ row ∈ rows, Distinct row.2) : Distinct (.table kind rows)

/-- A table has each key once, and so have those within its values. -/
structure Rows.Distinct (rows : Rows) : Prop where
  /-- No key stands in two rows. -/
  nodup : (rows.map Prod.fst).Nodup
  /-- The values are so. -/
  values : ∀ row ∈ rows, row.2.Distinct

namespace Value

theorem distinct_table_iff {kind : TableKind} {rows : Rows} :
    (table kind rows).Distinct ↔ rows.Distinct := by
  constructor
  · intro h
    cases h with
    | table nodup values => exact ⟨nodup, values⟩
  · intro h
    exact .table h.nodup h.values

theorem distinct_array_iff {isOpen : Bool} {elements : List Value} :
    (array isOpen elements).Distinct ↔ ∀ v ∈ elements, v.Distinct := by
  constructor
  · intro h
    cases h with
    | array h => exact h
  · exact .array

end Value

namespace Rows

variable {rows rows' : Rows} {key : String} {v : Value}

/-! ### Looking up a key -/

theorem find?_cons {row : String × Value} :
    find? (row :: rows) key = if key = row.1 then some row.2 else rows.find? key := by
  rw [find?, List.lookup_cons]
  by_cases hkey : key = row.1
  · rw [if_pos hkey, beq_iff_eq.2 hkey]
  · rw [if_neg hkey, beq_eq_false_iff_ne.2 hkey]
    rfl

theorem find?_eq_none_iff : rows.find? key = none ↔ key ∉ rows.map Prod.fst := by
  rw [find?, List.lookup_eq_none_iff, List.mem_map]
  constructor
  · intro h hmem
    obtain ⟨row, hrow, hkey⟩ := hmem
    simpa [hkey] using h row hrow
  · intro h row hrow
    rw [bne_iff_ne]
    intro hkey
    exact h ⟨row, hrow, hkey.symm⟩

theorem mem_of_find? (h : rows.find? key = some v) : (key, v) ∈ rows := by
  obtain ⟨before, after, rfl, -⟩ := List.lookup_eq_some_iff.1 h
  simp

/-- A row is found by its key. -/
theorem find?_of_mem (hrows : (rows.map Prod.fst).Nodup) (h : (key, v) ∈ rows) :
    rows.find? key = some v := by
  obtain ⟨before, after, rfl⟩ := List.append_of_mem h
  refine List.lookup_eq_some_iff.2 ⟨before, after, rfl, fun row hrow => ?_⟩
  rw [List.map_append, List.nodup_append] at hrows
  have hne := hrows.2.2 row.1 (List.mem_map_of_mem hrow) key (by simp)
  simpa using hne.symm

/-! ### Changing a table -/

namespace Distinct

theorem nil : Distinct [] := ⟨List.nodup_nil, nofun⟩

theorem head {row : String × Value} (h : Distinct (row :: rows)) : row.2.Distinct :=
  h.values row List.mem_cons_self

theorem tail {row : String × Value} (h : Distinct (row :: rows)) : rows.Distinct :=
  ⟨(List.nodup_cons.1 h.nodup).2, fun row hrow => h.values row (List.mem_cons_of_mem _ hrow)⟩

theorem find?_tail {row : String × Value} (h : Distinct (row :: rows)) :
    rows.find? row.1 = none :=
  find?_eq_none_iff.2 (List.nodup_cons.1 h.nodup).1

theorem value (hrows : rows.Distinct) (h : rows.find? key = some v) : v.Distinct :=
  hrows.values _ (mem_of_find? h)

/-- The rows of a table within a table. -/
theorem sub {kind : TableKind} {sub : Rows} (hrows : rows.Distinct)
    (h : rows.find? key = some (.table kind sub)) : sub.Distinct :=
  Value.distinct_table_iff.1 (hrows.value h)

theorem add (hrows : rows.Distinct) (hkey : rows.find? key = none) (hv : v.Distinct) :
    (rows.add key v).Distinct := by
  rw [find?_eq_none_iff] at hkey
  refine ⟨?_, fun row hrow => ?_⟩
  · rw [Rows.add, List.map_append, List.nodup_append]
    refine ⟨hrows.nodup, List.nodup_singleton _, fun a ha b hb hab => ?_⟩
    rw [List.map_singleton, List.mem_singleton] at hb
    rw [hab, hb] at ha
    exact hkey ha
  · rcases List.mem_append.1 hrow with hrow | hrow
    · exact hrows.values row hrow
    · rw [List.mem_singleton.1 hrow]
      exact hv

theorem replace (hrows : rows.Distinct) (hv : v.Distinct) : (rows.replace key v).Distinct := by
  refine ⟨?_, fun row hrow => ?_⟩
  · have hkeys : (rows.replace key v).map Prod.fst = rows.map Prod.fst := by
      rw [Rows.replace, List.map_map]
      refine List.map_congr_left fun row _ => ?_
      simp only [Function.comp]
      split
      · rename_i hrow
        exact hrow.symm
      · rfl
    rw [hkeys]
    exact hrows.nodup
  · obtain ⟨row', hrow', rfl⟩ := List.mem_map.1 hrow
    split
    · exact hv
    · exact hrows.values row' hrow'

theorem drop (hrows : rows.Distinct) : (rows.drop key).Distinct :=
  ⟨hrows.nodup.sublist (List.Sublist.map Prod.fst List.filter_sublist), fun row hrow =>
    hrows.values row (List.mem_filter.1 hrow).1⟩

end Distinct

/-- A change of a table that leaves each key once, and what it finds on the way is so. -/
def Keeps {β : Type} (P : β → Prop) (f : Rows → Option (β × Rows)) : Prop :=
  ∀ ⦃rows : Rows⦄ ⦃b : β⦄ ⦃rows' : Rows⦄, rows.Distinct → f rows = some (b, rows') →
    P b ∧ rows'.Distinct

section

variable {β : Type} {P : β → Prop} {f : Rows → Option (β × Rows)}

theorem mapLast_distinct (hf : Keeps P f) {vs vs' : List Value} {b : β}
    (hvs : ∀ v ∈ vs, v.Distinct) (h : mapLast f vs = some (b, vs')) :
    P b ∧ ∀ v ∈ vs', v.Distinct := by
  induction vs using mapLast.induct generalizing vs' b with
  | case1 => cases h
  | case2 kind rows =>
    rw [mapLast, Option.map_eq_some_iff] at h
    obtain ⟨⟨b', rows'⟩, hrows, heq⟩ := h
    obtain ⟨rfl, rfl⟩ := Prod.mk.inj heq
    obtain ⟨hb, hrows'⟩ := hf (Value.distinct_table_iff.1 (hvs _ (List.mem_singleton_self _))) hrows
    exact ⟨hb, List.forall_mem_singleton.2 (Value.distinct_table_iff.2 hrows')⟩
  | case3 v hv =>
    rw [mapLast.eq_def] at h
    split at h <;> simp_all
  | case4 v w rest ih =>
    rw [mapLast, Option.map_eq_some_iff] at h
    obtain ⟨⟨b', vs'⟩, hrest, heq⟩ := h
    obtain ⟨rfl, rfl⟩ := Prod.mk.inj heq
    obtain ⟨hv, hvs⟩ := List.forall_mem_cons.1 hvs
    obtain ⟨hb, hvs'⟩ := ih hvs hrest
    exact ⟨hb, List.forall_mem_cons.2 ⟨hv, hvs'⟩⟩

/-- A change at the end of a path that leaves each key once does so for the whole table. -/
theorem Keeps.changeAt (hf : Keeps P f) (path : List String) : Keeps P (changeAt f path) := by
  induction path with
  | nil => exact hf
  | cons step path ih =>
    intro rows b rows' hrows h
    rw [Rows.changeAt] at h
    split at h
    · rename_i hstep
      obtain ⟨⟨b', sub⟩, hsub, heq⟩ := Option.map_eq_some_iff.1 h
      cases heq
      obtain ⟨hb, hsub⟩ := ih .nil hsub
      exact ⟨hb, hrows.add hstep (Value.distinct_table_iff.2 hsub)⟩
    · cases h
    · rename_i kind sub _ hstep
      obtain ⟨⟨b', sub'⟩, hsub, heq⟩ := Option.map_eq_some_iff.1 h
      cases heq
      obtain ⟨hb, hsub⟩ := ih (hrows.sub hstep) hsub
      exact ⟨hb, hrows.replace (Value.distinct_table_iff.2 hsub)⟩
    · rename_i elements hstep
      obtain ⟨⟨b', elements'⟩, hlast, heq⟩ := Option.map_eq_some_iff.1 h
      cases heq
      obtain ⟨hb, helements⟩ :=
        mapLast_distinct ih (Value.distinct_array_iff.1 (hrows.value hstep)) hlast
      exact ⟨hb, hrows.replace (Value.distinct_array_iff.2 helements)⟩
    · cases h

end

/-- A value under a dotted key that was not there leaves each key once. -/
theorem insertDotted_distinct {path : List String} (hv : v.Distinct) (hrows : rows.Distinct)
    (h : insertDotted key v path rows = some rows') : rows'.Distinct := by
  induction path generalizing rows rows' with
  | nil =>
    rw [insertDotted] at h
    split at h
    · cases h
    · rename_i hkey
      cases h
      exact hrows.add (Option.not_isSome_iff_eq_none.1 hkey) hv
  | cons step path ih =>
    rw [insertDotted] at h
    split at h
    · rename_i hstep
      obtain ⟨sub, hsub, rfl⟩ := Option.map_eq_some_iff.1 h
      exact hrows.add hstep (Value.distinct_table_iff.2 (ih .nil hsub))
    · rename_i sub hstep
      obtain ⟨sub', hsub, rfl⟩ := Option.map_eq_some_iff.1 h
      exact hrows.replace (Value.distinct_table_iff.2 (ih (hrows.sub hstep) hsub))
    · rename_i sub hstep
      split at h
      · cases h
      · obtain ⟨sub', hsub, rfl⟩ := Option.map_eq_some_iff.1 h
        exact hrows.replace (Value.distinct_table_iff.2 (ih (hrows.sub hstep) hsub))
    · rename_i elements hstep
      split at h
      · cases h
      · obtain ⟨⟨_, elements'⟩, hlast, rfl⟩ := Option.map_eq_some_iff.1 h
        have hin : Keeps (fun _ => True)
            fun sub => (insertDotted key v path sub).map fun sub => ((), sub) := by
          intro sub _ sub' hsub h
          obtain ⟨_, hsub', heq⟩ := Option.map_eq_some_iff.1 h
          cases heq
          exact ⟨trivial, ih hsub hsub'⟩
        exact hrows.replace (Value.distinct_array_iff.2 (mapLast_distinct hin
          (Value.distinct_array_iff.1 (hrows.value hstep)) hlast).2)
    · cases h

/-! ### What headers do -/

theorem takeTable_keeps : Keeps Distinct (takeTable key) := by
  intro rows sub rows' hrows h
  rw [takeTable] at h
  split at h
  · cases h
    exact ⟨.nil, hrows⟩
  · rename_i hkey
    cases h
    exact ⟨hrows.sub hkey, hrows.drop⟩
  · cases h

theorem openArray_keeps : Keeps (fun _ => True) (openArray key) := by
  intro rows _ rows' hrows h
  rw [openArray] at h
  split at h
  · rename_i hkey
    cases h
    exact ⟨trivial, hrows.add hkey (.array nofun)⟩
  · cases h
    exact ⟨trivial, hrows⟩
  · cases h

theorem putTable_keeps {table : Rows} (htable : table.Distinct) :
    Keeps (fun _ => True) (putTable key table) := by
  intro rows _ rows' hrows h
  rw [putTable] at h
  split at h
  · cases h
  · rename_i hkey
    cases h
    exact ⟨trivial, hrows.add (Option.not_isSome_iff_eq_none.1 hkey)
      (Value.distinct_table_iff.2 htable)⟩

theorem pushTable_keeps {table : Rows} (htable : table.Distinct) :
    Keeps (fun _ => True) (pushTable key table) := by
  intro rows _ rows' hrows h
  rw [pushTable] at h
  split at h
  · rename_i elements hkey
    cases h
    refine ⟨trivial, hrows.replace (.array fun v hv => ?_)⟩
    rcases List.mem_append.1 hv with hv | hv
    · exact Value.distinct_array_iff.1 (hrows.value hkey) v hv
    · rw [List.mem_singleton.1 hv]
      exact Value.distinct_table_iff.2 htable
  · cases h

end Rows

/-! ### A document that is being put together -/

/-- What is complete, and the section at hand, have each key once. -/
structure Assembly.Distinct (a : Assembly) : Prop where
  /-- What is complete. -/
  done : a.done.Distinct
  /-- The section at hand. -/
  rows : a.rows.Distinct

namespace Assembly.Distinct

variable {a a' : Assembly} {path : List String} {key : String}

theorem complete {rows : Rows} (ha : a.Distinct) (h : a.complete = some rows) :
    rows.Distinct := by
  rw [Assembly.complete] at h
  split at h
  · cases h
    exact ha.rows
  · obtain ⟨⟨_, rows⟩, hput, rfl⟩ := Option.map_eq_some_iff.1 h
    exact ((Rows.putTable_keeps ha.rows).changeAt _ ha.done hput).2
  · obtain ⟨⟨_, rows⟩, hpush, rfl⟩ := Option.map_eq_some_iff.1 h
    exact ((Rows.pushTable_keeps ha.rows).changeAt _ ha.done hpush).2

theorem openTable (ha : a.Distinct) (h : a.openTable path key = some a') : a'.Distinct := by
  obtain ⟨done, hdone, h⟩ := Option.bind_eq_some_iff.1 h
  obtain ⟨⟨rows, done'⟩, htake, h⟩ := Option.bind_eq_some_iff.1 h
  cases h
  obtain ⟨hrows, hdone'⟩ := Rows.takeTable_keeps.changeAt path (ha.complete hdone) htake
  exact ⟨hdone', hrows⟩

theorem openElement (ha : a.Distinct) (h : a.openElement path key = some a') : a'.Distinct := by
  obtain ⟨done, hdone, h⟩ := Option.bind_eq_some_iff.1 h
  obtain ⟨⟨_, done'⟩, hopen, h⟩ := Option.bind_eq_some_iff.1 h
  cases h
  exact ⟨(Rows.openArray_keeps.changeAt path (ha.complete hdone) hopen).2, .nil⟩

theorem insert {v : Value} (ha : a.Distinct) (hv : v.Distinct)
    (h : a.insert path key v = some a') : a'.Distinct := by
  obtain ⟨rows, hrows, rfl⟩ := Option.map_eq_some_iff.1 h
  exact ⟨ha.done, Rows.insertDotted_distinct hv ha.rows hrows⟩

end Assembly.Distinct

/-! ### The lines of a document -/

namespace Scalar

theorem inRange_distinct {n : Int} {v : Value} (h : inRange n = some v) : v.Distinct := by
  rw [inRange] at h
  split at h
  · cases h
    exact .integer n
  · cases h

theorem integer?_distinct {cs : List Char} {v : Value} (h : integer? cs = some v) :
    v.Distinct := by
  rw [integer?.eq_def] at h
  split at h
  all_goals
    obtain ⟨_, _, h⟩ := Option.bind_eq_some_iff.1 h
    exact inRange_distinct h

theorem float?_distinct {cs : List Char} {v : Value} (h : float? cs = some v) : v.Distinct := by
  simp only [float?] at h
  split at h
  · cases h
  obtain ⟨_, _, h⟩ := Option.bind_eq_some_iff.1 h
  split at h
  all_goals
    obtain ⟨_, _, h⟩ := Option.bind_eq_some_iff.1 h
    split at h
    all_goals
      obtain ⟨_, _, h⟩ := Option.bind_eq_some_iff.1 h
      split at h
      · cases h
      · cases h
        exact .float _

theorem special?_distinct {cs : List Char} {v : Value} (h : special? cs = some v) :
    v.Distinct := by
  simp only [special?] at h
  split at h
  · cases h
    exact .float _
  · split at h
    · cases h
      exact .float _
    · cases h

theorem moment?_distinct {cs : List Char} {v : Value} (h : moment? cs = some v) :
    v.Distinct := by
  rw [moment?] at h
  split at h
  · cases h
    exact .moment _
  · split at h
    · cases h
      exact .moment _
    · cases h
  · split at h
    · cases h
      exact .moment _
    · cases h

theorem ofWord?_distinct {cs : List Char} {v : Value} (h : ofWord? cs = some v) :
    v.Distinct := by
  rw [ofWord?] at h
  split at h
  · cases h
    exact .boolean true
  · split at h
    · cases h
      exact .boolean false
    · rw [Option.orElse_eq_some, Option.orElse_eq_some, Option.orElse_eq_some] at h
      rcases h with h | ⟨-, h | ⟨-, h | ⟨-, h⟩⟩⟩
      · exact special?_distinct h
      · exact moment?_distinct h
      · exact float?_distinct h
      · exact integer?_distinct h

theorem read?_distinct {cs rest : List Char} {v : Value} (h : read? cs = some (v, rest)) :
    v.Distinct := by
  simp only [read?] at h
  split at h
  · split at h
    · split at h
      · cases h
        exact .moment _
      · cases h
    · obtain ⟨v', hv, heq⟩ := Option.map_eq_some_iff.1 h
      cases heq
      exact ofWord?_distinct hv
  · obtain ⟨v', hv, heq⟩ := Option.map_eq_some_iff.1 h
    cases heq
    exact ofWord?_distinct hv

end Scalar

namespace Document

theorem closedTable?_distinct {written : List ((List String × String) × Value)} {rows : Rows}
    (hwritten : ∀ row ∈ written, row.2.Distinct) (h : closedTable? written = some rows) :
    rows.Distinct := by
  rw [closedTable?] at h
  have hstart := Rows.Distinct.nil
  generalize ([] : Rows) = start at h hstart
  induction written generalizing start with
  | nil =>
    cases h
    exact hstart
  | cons row written ih =>
    obtain ⟨hrow, hwritten⟩ := List.forall_mem_cons.1 hwritten
    obtain ⟨next, hnext, h⟩ := Option.bind_eq_some_iff.1 h
    exact ih hwritten _ h (Rows.insertDotted_distinct hrow hstart hnext)

/-- What the readers of values, of elements and of rows give, with the same number of steps. -/
structure Reads (fuel : Nat) : Prop where
  /-- A value. -/
  value : ∀ {depth cs v rest}, value? fuel depth cs = some (v, rest) → v.Distinct
  /-- The elements of an array. -/
  elements : ∀ {depth cs vs rest}, elements? fuel depth cs = some (vs, rest) →
    ∀ v ∈ vs, v.Distinct
  /-- The rows of a table between braces. -/
  rows : ∀ {depth cs rows rest}, rows? fuel depth cs = some (rows, rest) →
    ∀ row ∈ rows, row.2.Distinct

theorem reads (fuel : Nat) : Reads fuel := by
  induction fuel with
  | zero => exact ⟨nofun, nofun, nofun⟩
  | succ fuel ih =>
    refine ⟨?_, ?_, ?_⟩
    · intro depth cs v rest h
      rw [value?.eq_def] at h
      dsimp only at h
      split at h
      case h_1 | h_2 =>
        obtain ⟨⟨s, rest⟩, -, heq⟩ := Option.map_eq_some_iff.1 h
        cases heq
        exact .text s
      · split at h
        · cases h
        · obtain ⟨⟨vs, rest⟩, hvs, heq⟩ := Option.map_eq_some_iff.1 h
          cases heq
          exact .array (ih.elements hvs)
      · split at h
        · cases h
        · split at h
          · obtain ⟨⟨rows, rest⟩, hrows, h⟩ := Option.bind_eq_some_iff.1 h
            obtain ⟨table, htable, h⟩ := Option.bind_eq_some_iff.1 h
            cases hrows
            cases h
            exact Value.distinct_table_iff.2 (closedTable?_distinct (List.forall_mem_nil _) htable)
          · obtain ⟨⟨rows, rest⟩, hrows, h⟩ := Option.bind_eq_some_iff.1 h
            obtain ⟨table, htable, h⟩ := Option.bind_eq_some_iff.1 h
            cases h
            exact Value.distinct_table_iff.2 (closedTable?_distinct (ih.rows hrows) htable)
      · exact Scalar.read?_distinct h
    · intro depth cs vs rest h
      rw [elements?] at h
      obtain ⟨cs, -, h⟩ := Option.bind_eq_some_iff.1 h
      split at h
      · cases h
        exact nofun
      · obtain ⟨⟨v, rest⟩, hv, h⟩ := Option.bind_eq_some_iff.1 h
        obtain ⟨rest, -, h⟩ := Option.bind_eq_some_iff.1 h
        split at h
        · obtain ⟨⟨vs, rest⟩, hvs, h⟩ := Option.bind_eq_some_iff.1 h
          cases h
          exact List.forall_mem_cons.2 ⟨ih.value hv, ih.elements hvs⟩
        · cases h
          exact List.forall_mem_singleton.2 (ih.value hv)
        · cases h
    · intro depth cs rows rest h
      rw [rows?] at h
      obtain ⟨⟨key, rest⟩, -, h⟩ := Option.bind_eq_some_iff.1 h
      dsimp only at h
      split at h
      · obtain ⟨⟨v, rest⟩, hv, h⟩ := Option.bind_eq_some_iff.1 h
        dsimp only at h
        split at h
        · obtain ⟨⟨rows, rest⟩, hrows, h⟩ := Option.bind_eq_some_iff.1 h
          cases h
          exact List.forall_mem_cons.2 ⟨ih.value hv, ih.rows hrows⟩
        · cases h
          exact List.forall_mem_singleton.2 (ih.value hv)
        · cases h
      · cases h

theorem valueLine?_distinct {cs rest : List Char} {a a' : Assembly} (ha : a.Distinct)
    (h : valueLine? cs a = some (a', rest)) : a'.Distinct := by
  obtain ⟨⟨⟨path, key⟩, cs⟩, -, h⟩ := Option.bind_eq_some_iff.1 h
  dsimp only at h
  split at h
  · obtain ⟨⟨v, _⟩, hv, h⟩ := Option.bind_eq_some_iff.1 h
    obtain ⟨next, hnext, h⟩ := Option.bind_eq_some_iff.1 h
    obtain ⟨_, -, h⟩ := Option.bind_eq_some_iff.1 h
    cases h
    exact ha.insert ((reads _).value hv) hnext
  · cases h

/-- A line of a document leaves each key once. -/
theorem line?_distinct {cs rest : List Char} {a a' : Assembly} (ha : a.Distinct)
    (h : line? cs a = some (a', rest)) : a'.Distinct := by
  rw [line?.eq_def] at h
  split at h
  case h_1 | h_2 | h_3 =>
    obtain ⟨_, -, heq⟩ := Option.map_eq_some_iff.1 h
    cases heq
    exact ha
  · obtain ⟨⟨⟨path, key⟩, cs⟩, -, h⟩ := Option.bind_eq_some_iff.1 h
    dsimp only at h
    split at h
    · obtain ⟨next, hnext, h⟩ := Option.bind_eq_some_iff.1 h
      obtain ⟨_, -, h⟩ := Option.bind_eq_some_iff.1 h
      cases h
      exact ha.openElement hnext
    · cases h
  · obtain ⟨⟨⟨path, key⟩, cs⟩, -, h⟩ := Option.bind_eq_some_iff.1 h
    dsimp only at h
    split at h
    · obtain ⟨next, hnext, h⟩ := Option.bind_eq_some_iff.1 h
      obtain ⟨_, -, h⟩ := Option.bind_eq_some_iff.1 h
      cases h
      exact ha.openTable hnext
    · cases h
  · exact valueLine?_distinct ha h

theorem lines?_distinct {fuel : Nat} {cs : List Char} {a a' : Assembly} (ha : a.Distinct)
    (h : lines? fuel cs a = some a') : a'.Distinct := by
  induction fuel generalizing cs a with
  | zero => cases h
  | succ fuel ih =>
    rw [lines?] at h
    split at h
    · cases h
      exact ha
    · obtain ⟨⟨next, rest⟩, hnext, h⟩ := Option.bind_eq_some_iff.1 h
      exact ih (line?_distinct ha hnext) h

/-- **Every table of a document has each of its keys once.** -/
theorem parse?_distinct {s : String} {rows : Rows} (h : parse? s = some rows) :
    rows.Distinct := by
  obtain ⟨a, ha, h⟩ := Option.bind_eq_some_iff.1 h
  exact (lines?_distinct ⟨.nil, .nil⟩ ha).complete h

end Document

end Upkeep.Toml
