import Mathlib
import Upkeep.Proofs.Counter.Lines

/-!
# What the text tells of the records

The text of the counters is a function of what was recorded, and it gives away how often each
counter was recorded, as far as label values do not get in each other's way.

* `Exposition.Apart` : no two label values that were recorded in a family have the same slot.
* `Exposition.Faithful` : what the texts of two sequences of records tell of them, whether or not
  their label values are apart.
* `Exposition.faithful` : the texts of any two sequences are faithful.
* `Exposition.merged_samples` : label values that share a slot are not told apart.
-/

namespace Upkeep.Exposition

open Tally (ofRecords)

variable {records records' : List Counter}

/-- No two counters that were recorded have the same place, so each has its own sample. -/
def Apart (records : List Counter) : Prop :=
  ∀ c ∈ records, ∀ c' ∈ records, c.place = c'.place → c = c'

instance : Decidable (Apart records) := inferInstanceAs (Decidable (∀ c ∈ records, _))

/-- The same counter was recorded first in the place of `c`, and as many were recorded there. -/
def SamePlace (records records' : List Counter) (c : Counter) : Prop :=
  records.find? (fun c' => c'.place = c.place) = records'.find? (fun c' => c'.place = c.place) ∧
    records.countP (fun c' => c'.place = c.place) = records'.countP fun c' => c'.place = c.place

/-- What the texts of two sequences of records tell of them. -/
structure Faithful (records records' : List Counter) : Prop where
  /-- The texts are the same exactly if each counter without a label was recorded equally often,
  and each slot of a labelled family was first taken by the same label value and used equally
  often. -/
  same_iff : text (ofRecords records) = text (ofRecords records') ↔
    (∀ c : Counter, c.family.label? = none → records.count c = records'.count c) ∧
      ∀ c : Counter, c.family.label? ≠ none → SamePlace records records' c
  /-- If label values are apart, they are the same exactly if each counter was recorded equally
  often. -/
  same_iff_count : Apart records → Apart records' →
    (text (ofRecords records) = text (ofRecords records') ↔
      ∀ c, records.count c = records'.count c)
  /-- Then the order of the records does not matter. -/
  same_of_perm : Apart records → records.Perm records' →
    text (ofRecords records) = text (ofRecords records')
  /-- A sample stands in the text exactly if it shows the records of its counter: all of them if
  there is no label; else those of all label values in its slot, if its own came first there. -/
  sample_iff : ∀ c n,
    (Line.sample c n).text.toList ∈ (text (ofRecords records)).toList.splitOn '\n' ↔
      (c.family.label? = none ∧ n = records.count c) ∨
        (c.family.label? ≠ none ∧ records.find? (fun c' => c'.place = c.place) = some c ∧
          n = records.countP fun c' => c'.place = c.place)
  /-- If label values are apart, it shows the records of its own label value. -/
  sample_iff_count : Apart records → ∀ c n,
    ((Line.sample c n).text.toList ∈ (text (ofRecords records)).toList.splitOn '\n' ↔
      n = records.count c ∧ (c.family.label? = none ∨ c ∈ records))
  /-- No record is lost, and none is counted in another family. -/
  total : ∀ f, ((samples (ofRecords records) f).map Prod.snd).sum =
    records.countP fun c => c.family = f
  /-- A family is in the text exactly if it has no label or something was recorded in it. -/
  family_iff : ∀ f, (Line.kind f).text.toList ∈ (text (ofRecords records)).toList.splitOn '\n' ↔
    f.label? = none ∨ ∃ c ∈ records, c.family = f

theorem find?_place_eq_some {c c' : Counter}
    (h : records.find? (fun c' => c'.place = c.place) = some c') :
    c' ∈ records ∧ c'.place = c.place :=
  ⟨List.mem_of_find?_eq_some h, by simpa using List.find?_some h⟩

/-- Counters with one place and one label value are the same. -/
theorem eq_of_place {c c' : Counter} (hplace : c.place = c'.place)
    (hvalue : c.labelValue = c'.labelValue) : c = c' := by
  have hfamily : c.family = c'.family := congrArg Prod.fst hplace
  rw [← c.counter_family, ← c'.counter_family, hfamily, hvalue]

/-- What is kept in a slot tells what was recorded there first and how much was recorded there. -/
theorem find?_shelf_eq_iff {c : Counter} :
    (shelf (ofRecords records) c.family).find? (slot c.labelValue) =
        (shelf (ofRecords records') c.family).find? (slot c.labelValue) ↔
      SamePlace records records' c := by
  rw [find?_shelf, find?_shelf]
  change Option.map _ (records.find? fun c' => c'.place = c.place) =
    Option.map _ (records'.find? fun c' => c'.place = c.place) ↔ _
  unfold SamePlace
  cases hfirst : records.find? fun c' => c'.place = c.place with
  | none =>
    cases hfirst' : records'.find? fun c' => c'.place = c.place with
    | none =>
      have hzero := List.countP_eq_zero.2 (List.find?_eq_none.1 hfirst)
      have hzero' := List.countP_eq_zero.2 (List.find?_eq_none.1 hfirst')
      simp [hzero, hzero']
    | some => simp
  | some first =>
    cases hfirst' : records'.find? fun c' => c'.place = c.place with
    | none => simp
    | some first' =>
      have hplace := (find?_place_eq_some hfirst).2.trans (find?_place_eq_some hfirst').2.symm
      simp only [Option.map_some, Option.some.injEq, Prod.mk.injEq]
      constructor
      · intro h
        exact ⟨eq_of_place hplace h.1, h.2⟩
      · intro h
        exact ⟨congrArg _ h.1, h.2⟩

/-- A slot that no label value has is empty. -/
theorem shelf_eq_iff {f : Family} :
    (∀ h, (shelf (ofRecords records) f).find? h = (shelf (ofRecords records') f).find? h) ↔
      ∀ c : Counter, c.family = f → SamePlace records records' c := by
  constructor
  · intro hall c hc
    subst hc
    exact find?_shelf_eq_iff.1 (hall _)
  · intro hall h
    have hstep : ∀ {rs rs' : List Counter} {row : String × Nat},
        (∀ c : Counter, c.family = f → SamePlace rs rs' c) →
        (shelf (ofRecords rs) f).find? h = some row →
        (shelf (ofRecords rs') f).find? h = some row := by
      intro rs rs' row hsame hrow
      have hkept := hrow
      rw [find?_shelf, Option.map_eq_some_iff] at hkept
      obtain ⟨c, hc, -⟩ := hkept
      have hplace : c.place = (f, h) := by simpa using List.find?_some hc
      obtain ⟨rfl, rfl⟩ := Prod.mk.inj hplace
      rw [← find?_shelf_eq_iff.2 (hsame c rfl), hrow]
    exact Option.ext fun row => ⟨hstep hall,
      hstep fun c hc => ⟨(hall c hc).1.symm, (hall c hc).2.symm⟩⟩

/-- **The texts of two sequences are the same exactly if their samples tell the same.** -/
theorem text_ofRecords_eq_iff : text (ofRecords records) = text (ofRecords records') ↔
    (∀ c : Counter, c.family.label? = none → records.count c = records'.count c) ∧
      ∀ c : Counter, c.family.label? ≠ none → SamePlace records records' c := by
  rw [text_eq_iff]
  constructor
  · intro h
    constructor
    · intro c hc
      have hsamples := h c.family
      rw [samples_unlabelled hc c.labelValue, samples_unlabelled hc c.labelValue,
        c.counter_family] at hsamples
      simpa using hsamples
    · intro c hc
      exact shelf_eq_iff.1 ((samples_eq_iff hc).1 (h c.family)) c rfl
  · intro h f
    by_cases hf : f.label? = none
    · rw [samples_unlabelled hf "", samples_unlabelled hf "",
        h.1 (f.counter "") (by rwa [Family.family_counter])]
    · rw [samples_eq_iff hf, shelf_eq_iff]
      intro c hc
      exact h.2 c (hc ▸ hf)

/-- Where label values are apart, the records in a place are those of one counter. -/
theorem Apart.find?_place (h : Apart records) {c : Counter} :
    records.find? (fun c' => c'.place = c.place) = some c ↔ c ∈ records := by
  constructor
  · intro hfirst
    exact (find?_place_eq_some hfirst).1
  · intro hc
    cases hfirst : records.find? fun c' => c'.place = c.place with
    | none => simpa using List.find?_eq_none.1 hfirst c hc
    | some first =>
      obtain ⟨hmem, hplace⟩ := find?_place_eq_some hfirst
      rw [h first hmem c hc hplace]

theorem Apart.countP_place (h : Apart records) {c : Counter} (hc : c ∈ records) :
    records.countP (fun c' => c'.place = c.place) = records.count c := by
  rw [List.count_eq_countP]
  refine List.countP_congr fun c' hc' => ?_
  simp only [decide_eq_true_eq, beq_iff_eq]
  exact ⟨h c' hc' c hc, congrArg _⟩

/-- Where label values are apart, the samples tell how often each counter was recorded. -/
theorem SamePlace.count_eq {c : Counter} (hsame : SamePlace records records' c)
    (h : Apart records) (h' : Apart records') : records.count c = records'.count c := by
  obtain ⟨hfirst, hcount⟩ := hsame
  by_cases hmem : c ∈ records
  · have hmem' : c ∈ records' := by rwa [← h'.find?_place, ← hfirst, h.find?_place]
    rw [← h.countP_place hmem, hcount, h'.countP_place hmem']
  · have hmem' : c ∉ records' := by rwa [← h'.find?_place, ← hfirst, h.find?_place]
    rw [List.count_eq_zero_of_not_mem hmem, List.count_eq_zero_of_not_mem hmem']

/-- Where label values are apart, the order of the records does not tell which came first. -/
theorem Apart.samePlace (h : Apart records) (hperm : records.Perm records') (c : Counter) :
    SamePlace records records' c := by
  refine ⟨?_, hperm.countP_eq _⟩
  cases hfirst : records.find? fun c' => c'.place = c.place with
  | none =>
    refine (List.find?_eq_none.2 fun c' hc' => ?_).symm
    exact List.find?_eq_none.1 hfirst c' (hperm.mem_iff.2 hc')
  | some first =>
    obtain ⟨hmem, hplace⟩ := find?_place_eq_some hfirst
    have h' : Apart records' := fun a ha b hb => h a (hperm.mem_iff.2 ha) b (hperm.mem_iff.2 hb)
    rw [← hplace, h'.find?_place.2 (hperm.mem_iff.1 hmem)]

theorem text_eq_of_perm (h : Apart records) (hperm : records.Perm records') :
    text (ofRecords records) = text (ofRecords records') :=
  text_ofRecords_eq_iff.2 ⟨fun c _ => hperm.count_eq c, fun c _ => h.samePlace hperm c⟩

/-- Which samples are in the text. -/
theorem sample_mem_text {c : Counter} {n : Nat} :
    (Line.sample c n).text.toList ∈ (text (ofRecords records)).toList.splitOn '\n' ↔
      (c.family.label? = none ∧ n = records.count c) ∨
        (c.family.label? ≠ none ∧ records.find? (fun c' => c'.place = c.place) = some c ∧
          n = records.countP fun c' => c'.place = c.place) := by
  rw [mem_splitOn_text, sample_mem_lines]
  by_cases hc : c.family.label? = none
  · have hvalue : c.labelValue = "" := by cases c <;> first | rfl | cases hc
    rw [samples_unlabelled hc c.labelValue, c.counter_family, hvalue]
    simp [hc]
  · rw [mem_samples_iff hc]
    simp [hc]

/-- Which families are in the text. -/
theorem kind_mem_text {f : Family} :
    (Line.kind f).text.toList ∈ (text (ofRecords records)).toList.splitOn '\n' ↔
      f.label? = none ∨ ∃ c ∈ records, c.family = f := by
  rw [mem_splitOn_text, kind_mem_lines]
  by_cases hf : f.label? = none
  · simp [samples_unlabelled hf "", hf]
  · simp only [hf, false_or]
    constructor
    · intro hsamples
      obtain ⟨row, hrow⟩ := List.exists_mem_of_ne_nil _ hsamples
      rw [mem_samples_shelf hf, find?_shelf, Option.map_eq_some_iff] at hrow
      obtain ⟨c, hc, -⟩ := hrow
      have hplace : c.place = (f, slot row.1) := by simpa using List.find?_some hc
      exact ⟨c, List.mem_of_find?_eq_some hc, congrArg Prod.fst hplace⟩
    · intro hrecorded hempty
      obtain ⟨c, hc, hfamily⟩ := hrecorded
      have htotal := sum_samples records f
      rw [hempty] at htotal
      have hnone := List.countP_eq_zero.1 htotal.symm c hc
      simp [hfamily] at hnone

/-- **The text is faithful**: it tells how often each counter was recorded and nothing else of the
order of the records, but of label values in one slot it tells the first only, with the records of
all of them. -/
theorem faithful (records records' : List Counter) : Faithful records records' where
  same_iff := text_ofRecords_eq_iff
  same_iff_count h h' := by
    constructor
    · intro htext c
      obtain ⟨hunlabelled, hlabelled⟩ := text_ofRecords_eq_iff.1 htext
      by_cases hc : c.family.label? = none
      · exact hunlabelled c hc
      · exact (hlabelled c hc).count_eq h h'
    · intro hcount
      exact text_eq_of_perm h (List.perm_iff_count.2 hcount)
  same_of_perm := text_eq_of_perm
  sample_iff c n := sample_mem_text
  sample_iff_count h c n := by
    rw [sample_mem_text, h.find?_place]
    by_cases hc : c.family.label? = none
    · simp [hc]
    · simp only [hc, false_and, not_false_eq_true, true_and, false_or, ne_eq]
      rw [and_comm]
      exact and_congr_left fun hmem => by rw [h.countP_place hmem]
  total := sum_samples records
  family_iff f := kind_mem_text

/-- Records with label values that need escapes, in two orders. -/
theorem faithful_escapes :
    let records : List Counter :=
      [.recoveries "a\"\n", .cycles, .demotions "\\", .recoveries "a\"\n"]
    let records' : List Counter :=
      [.demotions "\\", .recoveries "a\"\n", .recoveries "a\"\n", .cycles]
    Apart records ∧ Apart records' ∧ records.Perm records' ∧
      text (ofRecords records) = text (ofRecords records') ∧
      (Line.sample (.recoveries "a\"\n") 2).text.toList ∈
        (text (ofRecords records)).toList.splitOn '\n' := by
  intro records records'
  have happart : Apart records := by decide +kernel
  have happart' : Apart records' := by decide +kernel
  have hperm : records.Perm records' := by decide +kernel
  exact ⟨happart, happart', hperm, (faithful records records').same_of_perm happart hperm,
    ((faithful records records').sample_iff_count happart _ _).2 (by decide +kernel)⟩

/-- **Label values that share a slot are not told apart**: a second check that failed is shown as
another failure of the first. -/
theorem merged_samples :
    text (ofRecords [.checkErrors "77kepQFQ8Kl", .checkErrors "!0IC=VloaY"]) =
        text (ofRecords [.checkErrors "77kepQFQ8Kl", .checkErrors "77kepQFQ8Kl"]) ∧
      [Counter.checkErrors "77kepQFQ8Kl", .checkErrors "!0IC=VloaY"].count
          (.checkErrors "!0IC=VloaY") = 1 ∧
      [Counter.checkErrors "77kepQFQ8Kl", .checkErrors "77kepQFQ8Kl"].count
          (.checkErrors "!0IC=VloaY") = 0 := by
  refine ⟨?_, by decide, by decide⟩
  decide +kernel

end Upkeep.Exposition
