import Mathlib
import Upkeep.Counter.Exposition

/-!
# The samples of a sequence of records

What the families show is told from the sequence of the records alone.

* `Exposition.samples_unlabelled` : the one sample of a family without a label shows how often its
  counter was recorded.
* `Exposition.mem_samples_iff` : a sample of a labelled family shows the label value that was
  recorded first in its slot, with the number of all records in that slot.
* `Exposition.samples_eq_iff` : two sequences have the same samples in a family exactly if they
  agree on these.
-/

namespace Upkeep

/-- The row of a key is the one that is found under it, as no key has two rows. -/
theorem Table.mem_rows_iff {κ ν : Type} [DecidableEq κ] {t : Table κ ν} (h : t.keys.Nodup)
    {k : κ} {v : ν} : (k, v) ∈ t.rows ↔ t.find? k = some v := by
  obtain ⟨rows⟩ := t
  simp only [find?, keys] at h ⊢
  induction rows with
  | nil => simp [findRow?]
  | cons row rest ih =>
    obtain ⟨k', v'⟩ := row
    simp only [List.map_cons, List.nodup_cons] at h
    by_cases hk : k' = k
    · subst hk
      have habsent : (k', v) ∉ rest := fun hmem => h.1 (List.mem_map_of_mem hmem)
      simp [findRow?, habsent, eq_comm]
    · simp [findRow?, hk, Ne.symm hk, ih h.2]

namespace Tally

/-- The tally of a sequence of records. -/
def ofRecords (records : List Counter) : Tally := records.foldl record .empty

theorem ofRecords_concat (records : List Counter) (c : Counter) :
    ofRecords (records ++ [c]) = (ofRecords records).record c := List.foldl_append ..

/-- A counter counts its own records. -/
theorem count_ofRecords (records : List Counter) (c : Counter) :
    (ofRecords records).count c = records.count c := by
  induction records using List.reverseRecOn with
  | nil => rfl
  | append_singleton records c' ih =>
    rw [ofRecords_concat, count_record, List.count_append, List.count_singleton]
    by_cases h : c' = c
    · subst h
      simp [ih]
    · simp [h, ih]

/-- The counters of a tally stand in the order in which they were first recorded. -/
theorem find?_keys_ofRecords (p : Counter → Bool) (records : List Counter) :
    (ofRecords records).keys.find? p = records.find? p := by
  induction records using List.reverseRecOn with
  | nil => rfl
  | append_singleton records c ih =>
    rw [ofRecords_concat, record, Table.keys_put, List.find?_append, ← ih]
    split
    · rename_i hmem
      cases hp : p c with
      | false => simp [hp]
      | true =>
        cases hfirst : (ofRecords records).keys.find? p with
        | none => exact absurd hp (List.find?_eq_none.1 hfirst c hmem)
        | some => rfl
    · rw [List.find?_append]

/-- The records of some of the counters. -/
def total (p : Counter → Bool) (rows : List (Counter × Nat)) : Nat :=
  ((rows.filter fun row => p row.1).map Prod.snd).sum

/-- A record adds one to the total of the counters that it belongs to. -/
theorem total_putRow (p : Counter → Bool) (c : Counter) (rows : List (Counter × Nat)) :
    total p (Table.putRow c ((Table.findRow? c rows).getD 0 + 1) rows) =
      total p rows + if p c then 1 else 0 := by
  induction rows with
  | nil => cases hp : p c <;> simp [Table.putRow, Table.findRow?, total, hp]
  | cons row rest ih =>
    obtain ⟨c', n⟩ := row
    by_cases h : c' = c
    · subst h
      cases hp : p c' with
      | false => simp [Table.putRow, total, hp]
      | true =>
        simp only [Table.putRow, Table.findRow?, total, hp, if_true, Option.getD_some,
          List.filter_cons_of_pos, List.map_cons, List.sum_cons]
        omega
    · simp only [Table.putRow, Table.findRow?, h, if_false]
      cases hp : p c' with
      | false => simpa [total, hp] using ih
      | true =>
        simp only [total, hp, List.filter_cons_of_pos, List.map_cons, List.sum_cons] at ih ⊢
        rw [ih]
        omega

theorem total_ofRecords (p : Counter → Bool) (records : List Counter) :
    total p (ofRecords records).rows = records.countP p := by
  induction records using List.reverseRecOn with
  | nil => rfl
  | append_singleton records c ih =>
    rw [ofRecords_concat, List.countP_append, List.countP_singleton, ← ih]
    exact total_putRow p c _

end Tally

/-- Where the sample of a counter is kept: in its family, in the slot of its label value. -/
def Counter.place (c : Counter) : Family × UInt64 := (c.family, Exposition.slot c.labelValue)

/-- The counter of a family with a label value, which is ignored if the family has no label. -/
def Family.counter : Family → String → Counter
  | checkErrors, value => .checkErrors value
  | skippedCycles, _ => .skippedCycles
  | cycles, _ => .cycles
  | demotions, value => .demotions value
  | rounds, value => .rounds value
  | missingStatuses, _ => .missingStatuses
  | recoveries, value => .recoveries value

@[simp] theorem Counter.counter_family (c : Counter) : c.family.counter c.labelValue = c := by
  cases c <;> rfl

@[simp] theorem Family.family_counter (f : Family) (value : String) :
    (f.counter value).family = f := by
  cases f <;> rfl

theorem Family.labelValue_counter {f : Family} (h : f.label? ≠ none) (value : String) :
    (f.counter value).labelValue = value := by
  cases f <;> first | rfl | exact absurd rfl h

/-- A family without a label has one counter only. -/
theorem Counter.eq_counter {c : Counter} {f : Family} (h : f.label? = none) (value : String) :
    c.family = f ↔ c = f.counter value := by
  constructor
  · intro hc
    subst hc
    cases c <;> first | rfl | cases h
  · intro hc
    rw [hc, Family.family_counter]

namespace Exposition

open Tally (ofRecords total)

/-! ### The shelf of a labelled family -/

namespace Shelf

theorem find?_add (s : Shelf) (row : String × Nat) (h : UInt64) :
    (s.add row).find? h =
      if slot row.1 = h then some ((s.find? h).elim row fun held => (held.1, held.2 + row.2))
      else s.find? h := by
  rw [add, Table.find?_put]
  split
  · rename_i heq
    rw [heq]
  · rfl

/-- A slot holds the label value that came first, with the counts of all that came. -/
theorem find?_foldl_add (rows : List (String × Nat)) (h : UInt64) :
    (rows.foldl add .empty).find? h = (rows.find? fun row => slot row.1 = h).map fun row =>
      (row.1, ((rows.filter fun row => slot row.1 = h).map Prod.snd).sum) := by
  induction rows using List.reverseRecOn with
  | nil => rfl
  | append_singleton rows row ih =>
    rw [List.foldl_append, List.foldl_cons, List.foldl_nil, find?_add, ih, List.find?_append,
      List.filter_append]
    by_cases hrow : slot row.1 = h
    · cases hfirst : rows.find? fun row => slot row.1 = h with
      | none =>
        have hnone : rows.filter (fun row => slot row.1 = h) = [] :=
          List.filter_eq_nil_iff.2 (List.find?_eq_none.1 hfirst)
        simp [hrow, hnone]
      | some first => simp [hrow]
    · simp [hrow]

/-- All counts that were added are kept. -/
theorem sum_add (s : Shelf) (row : String × Nat) :
    ((s.add row).rows.map fun held => held.2.2).sum =
      (s.rows.map fun held => held.2.2).sum + row.2 := by
  obtain ⟨rows⟩ := s
  simp only [add, Table.put, Table.find?]
  induction rows with
  | nil => simp [Table.putRow, Table.findRow?]
  | cons held rest ih =>
    obtain ⟨h, value, n⟩ := held
    by_cases hslot : h = slot row.1
    · simp only [Table.putRow, Table.findRow?, hslot, if_true, Option.elim_some, List.map_cons,
        List.sum_cons]
      omega
    · simp only [Table.putRow, Table.findRow?, hslot, if_false, List.map_cons, List.sum_cons, ih]
      omega

theorem sum_foldl_add (rows : List (String × Nat)) :
    ((rows.foldl add .empty).rows.map fun held => held.2.2).sum = (rows.map Prod.snd).sum := by
  induction rows using List.reverseRecOn with
  | nil => rfl
  | append_singleton rows row ih =>
    rw [List.foldl_append, List.foldl_cons, List.foldl_nil, sum_add, ih, List.map_append,
      List.sum_append, List.map_singleton, List.sum_singleton]

theorem nodup_keys_foldl_add (rows : List (String × Nat)) :
    (rows.foldl add .empty).keys.Nodup := by
  induction rows using List.reverseRecOn with
  | nil => exact List.nodup_nil
  | append_singleton rows row ih =>
    rw [List.foldl_append]
    exact Table.nodup_keys_put ih _ _

end Shelf

variable {records records' : List Counter} {f : Family}

/-- **What is kept in a slot of a family**: the first label value that was recorded there, with the
number of the records there. -/
theorem find?_shelf (records : List Counter) (f : Family) (h : UInt64) :
    (shelf (ofRecords records) f).find? h =
      (records.find? fun c => c.place = (f, h)).map fun c =>
        (c.labelValue, records.countP fun c => c.place = (f, h)) := by
  have hplace : ∀ c : Counter, (decide (c.place = (f, h))) =
      (decide (c.family = f) && decide (slot c.labelValue = h)) := by
    intro c
    simp [Counter.place]
  rw [shelf, Shelf.find?_foldl_add, List.find?_map, List.find?_filter, List.filter_map,
    List.filter_filter, ← Tally.find?_keys_ofRecords, ← Tally.total_ofRecords, Table.keys,
    List.find?_map, total]
  simp only [hplace, Option.map_map, List.map_map, Function.comp_def, Bool.and_comm,
    Bool.decide_and, Bool.decide_eq_true]

theorem nodup_keys_shelf (t : Tally) (f : Family) : (shelf t f).keys.Nodup :=
  Shelf.nodup_keys_foldl_add _

/-- What is kept in a slot has a label value of that slot. -/
theorem slot_of_find?_shelf {h : UInt64} {row : String × Nat}
    (hrow : (shelf (ofRecords records) f).find? h = some row) : slot row.1 = h := by
  rw [find?_shelf, Option.map_eq_some_iff] at hrow
  obtain ⟨c, hc, rfl⟩ := hrow
  have hplace : c.place = (f, h) := by simpa using List.find?_some hc
  exact congrArg Prod.snd hplace

/-! ### The samples of a family -/

/-- **The sample of a family without a label** counts the records of its counter. -/
theorem samples_unlabelled (hf : f.label? = none) (value : String) :
    samples (ofRecords records) f = [("", records.count (f.counter value))] := by
  have hcount : ∀ rows : List (Counter × Nat),
      (rows.find? fun row => row.1.family = f).elim 0 Prod.snd =
        (Table.findRow? (f.counter value) rows).getD 0 := by
    intro rows
    induction rows with
    | nil => rfl
    | cons row rest ih =>
      by_cases hrow : row.1.family = f
      · simp [Table.findRow?, (Counter.eq_counter hf value).1 hrow]
      · have hne : row.1 ≠ f.counter value := fun h => hrow ((Counter.eq_counter hf value).2 h)
        simp [Table.findRow?, hrow, hne, ih]
  rw [samples, hf]
  simp only [hcount]
  rw [← Tally.count_ofRecords]
  rfl

theorem samples_labelled (t : Tally) (hf : f.label? ≠ none) :
    samples t f = ((shelf t f).rows.map Prod.snd).mergeSort fun a b => !(b.1 < a.1) := by
  rw [samples]
  split
  · contradiction
  · rfl

theorem mem_samples_shelf (hf : f.label? ≠ none) {row : String × Nat} :
    row ∈ samples (ofRecords records) f ↔
      (shelf (ofRecords records) f).find? (slot row.1) = some row := by
  rw [samples_labelled _ hf, List.mem_mergeSort, List.mem_map]
  constructor
  · intro h
    obtain ⟨⟨k, row'⟩, hmem, rfl⟩ := h
    have hfind := (Table.mem_rows_iff (nodup_keys_shelf _ f)).1 hmem
    rwa [slot_of_find?_shelf hfind]
  · intro h
    exact ⟨_, (Table.mem_rows_iff (nodup_keys_shelf _ f)).2 h, rfl⟩

/-- **The samples of a labelled family**: each shows the counter that was recorded first in its
slot, with the number of the records in that slot. -/
theorem mem_samples_iff {c : Counter} (hc : c.family.label? ≠ none) {n : Nat} :
    (c.labelValue, n) ∈ samples (ofRecords records) c.family ↔
      records.find? (fun c' => c'.place = c.place) = some c ∧
        n = records.countP fun c' => c'.place = c.place := by
  rw [mem_samples_shelf hc, find?_shelf]
  change Option.map _ (records.find? fun c' => c'.place = c.place) = _ ↔ _
  rw [Option.map_eq_some_iff]
  constructor
  · intro h
    obtain ⟨first, hfirst, heq⟩ := h
    obtain ⟨hvalue, hcount⟩ := Prod.mk.inj heq
    have hplace : first.place = c.place := by simpa using List.find?_some hfirst
    have hfamily : first.family = c.family := congrArg Prod.fst hplace
    have hsame : first = c := by
      rw [← first.counter_family, ← c.counter_family, hvalue, hfamily]
    exact ⟨hsame ▸ hfirst, hcount.symm⟩
  · intro h
    exact ⟨c, h.1, by rw [h.2]; rfl⟩

theorem pairwise_samples (t : Tally) (hf : f.label? ≠ none) :
    (samples t f).Pairwise fun a b => !(b.1 < a.1) := by
  rw [samples_labelled t hf]
  refine List.pairwise_mergeSort ?_ ?_ _
  · intro a b c hab hbc
    simp only [Bool.not_eq_true', decide_eq_false_iff_not, String.not_lt] at hab hbc ⊢
    exact String.le_trans hab hbc
  · intro a b
    simp only [Bool.or_eq_true, Bool.not_eq_true', decide_eq_false_iff_not, String.not_lt]
    exact String.le_total _ _

theorem nodup_samples (hf : f.label? ≠ none) : (samples (ofRecords records) f).Nodup := by
  rw [samples_labelled _ hf, List.nodup_mergeSort]
  refine List.Nodup.map_on ?_ (List.Nodup.of_map Prod.fst (nodup_keys_shelf _ f))
  intro a ha b hb hab
  have hslot : ∀ {row : UInt64 × String × Nat},
      row ∈ (shelf (ofRecords records) f).rows → slot row.2.1 = row.1 := fun hrow =>
    slot_of_find?_shelf ((Table.mem_rows_iff (nodup_keys_shelf _ f)).1 hrow)
  exact Prod.ext (by rw [← hslot ha, ← hslot hb, hab]) hab

/-- **No record is lost**: the samples of a family count all records in it. -/
theorem sum_samples (records : List Counter) (f : Family) :
    ((samples (ofRecords records) f).map Prod.snd).sum =
      records.countP fun c => c.family = f := by
  by_cases hf : f.label? = none
  · rw [samples_unlabelled hf "", List.map_singleton, List.sum_singleton, List.count_eq_countP]
    refine List.countP_congr fun c _ => ?_
    simp only [beq_iff_eq, decide_eq_true_eq]
    exact (Counter.eq_counter hf "").symm
  · have hshelf : ((shelf (ofRecords records) f).rows.map fun held => held.2.2).sum =
        records.countP fun c => c.family = f := by
      rw [shelf, Shelf.sum_foldl_add, ← Tally.total_ofRecords, total, List.map_map]
      rfl
    rw [← hshelf, samples_labelled _ hf,
      ((List.mergeSort_perm _ _).map Prod.snd).sum_eq, List.map_map]
    rfl

/-- **Two sequences have the same samples in a labelled family exactly if they filled its slots
alike**: the samples are sorted, so their order tells nothing more. -/
theorem samples_eq_iff (hf : f.label? ≠ none) :
    samples (ofRecords records) f = samples (ofRecords records') f ↔
      ∀ h, (shelf (ofRecords records) f).find? h = (shelf (ofRecords records') f).find? h := by
  constructor
  · intro heq h
    have hstep : ∀ {rs rs' : List Counter} {row : String × Nat},
        samples (ofRecords rs) f = samples (ofRecords rs') f →
        (shelf (ofRecords rs) f).find? h = some row →
        (shelf (ofRecords rs') f).find? h = some row := by
      intro rs rs' row hsamples hrow
      have hslot := slot_of_find?_shelf hrow
      rw [← hslot] at hrow ⊢
      rwa [← mem_samples_shelf hf, ← hsamples, mem_samples_shelf hf]
    exact Option.ext fun row => ⟨hstep heq, hstep heq.symm⟩
  · intro h
    have hperm : (samples (ofRecords records) f).Perm (samples (ofRecords records') f) := by
      rw [List.perm_ext_iff_of_nodup (nodup_samples hf) (nodup_samples hf)]
      intro row
      rw [mem_samples_shelf hf, mem_samples_shelf hf, h]
    refine hperm.eq_of_pairwise ?_ (pairwise_samples _ hf) (pairwise_samples _ hf)
    intro a b ha hb hab hba
    simp only [Bool.not_eq_true', decide_eq_false_iff_not, String.not_lt] at hab hba
    have hvalue : a.1 = b.1 := String.le_antisymm hab hba
    rw [mem_samples_shelf hf] at ha
    rw [← hperm.mem_iff, mem_samples_shelf hf, ← hvalue, ha] at hb
    exact Option.some.inj hb

end Exposition

end Upkeep
