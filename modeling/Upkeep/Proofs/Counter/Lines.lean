import Mathlib
import Upkeep.Proofs.Counter.Samples

/-!
# The lines of the text

The text of the counters is a list of lines, and it can be read in one way only.

* `Exposition.Line` : what a line tells, and `Line.text` how it is written.
* `Exposition.Line.text_injective` : no two lines are written alike, although a label value may be
  any text.
* `Exposition.splitOn_text` : the text splits into its lines.
* `Exposition.text_eq_iff` : so two texts are the same exactly if every family has the same samples.
-/

namespace Upkeep.Exposition

/-! ### Cutting a text in one way -/

/-- A text that starts with characters of one kind and goes on with another can be cut in one way
only. -/
theorem cut_unique {α : Type} {p : α → Prop} {a b a' b' : List α} {x x' : α}
    (ha : ∀ y ∈ a, p y) (hx : ¬ p x) (ha' : ∀ y ∈ a', p y) (hx' : ¬ p x')
    (h : a ++ x :: b = a' ++ x' :: b') : a = a' ∧ x :: b = x' :: b' := by
  induction a generalizing a' with
  | nil =>
    cases a' with
    | nil => exact ⟨rfl, h⟩
    | cons y a' =>
      obtain ⟨rfl, -⟩ := List.cons.inj h
      exact absurd (ha' x (List.mem_cons_self ..)) hx
  | cons z a ih =>
    cases a' with
    | nil =>
      obtain ⟨rfl, -⟩ := List.cons.inj h
      exact absurd (ha z (List.mem_cons_self ..)) hx'
    | cons y a' =>
      obtain ⟨rfl, htail⟩ := List.cons.inj h
      obtain ⟨rfl, hrest⟩ := ih (fun y hy => ha y (List.mem_cons_of_mem _ hy))
        (fun y hy => ha' y (List.mem_cons_of_mem _ hy)) htail
      exact ⟨rfl, hrest⟩

/-- An escaped character starts neither with a quote nor with a newline, and where it ends is told
by how it starts. -/
theorem escapeChar_append_inj {c c' : Char} {r r' : List Char}
    (h : escapeChar c ++ r = escapeChar c' ++ r') : c = c' ∧ r = r' := by
  unfold escapeChar at h
  grind

theorem escapeChar_ne_quote {c : Char} {r r' : List Char} : escapeChar c ++ r ≠ '"' :: r' := by
  unfold escapeChar
  grind

theorem newline_notMem_escapeChar (c : Char) : '\n' ∉ escapeChar c := by
  unfold escapeChar
  grind

/-- **An escaped text ends at the first quote that is not escaped.** -/
theorem escape_append_inj {s s' r r' : List Char}
    (h : s.flatMap escapeChar ++ '"' :: r = s'.flatMap escapeChar ++ '"' :: r') :
    s = s' ∧ r = r' := by
  induction s generalizing s' with
  | nil =>
    cases s' with
    | nil => exact ⟨rfl, (List.cons.inj h).2⟩
    | cons c s' =>
      rw [List.flatMap_cons, List.append_assoc] at h
      exact absurd h.symm escapeChar_ne_quote
  | cons c s ih =>
    cases s' with
    | nil =>
      rw [List.flatMap_cons, List.append_assoc] at h
      exact absurd h escapeChar_ne_quote
    | cons c' s' =>
      rw [List.flatMap_cons, List.flatMap_cons, List.append_assoc, List.append_assoc] at h
      obtain ⟨rfl, htail⟩ := escapeChar_append_inj h
      obtain ⟨rfl, hrest⟩ := ih htail
      exact ⟨rfl, hrest⟩

theorem newline_notMem_digits (n : Nat) : '\n' ∉ Nat.toDigits 10 n := by
  intro h
  have hdigit := Nat.isDigit_of_mem_toDigits (by omega) (by omega) h
  exact absurd hdigit (by decide)

theorem digits_injective {n n' : Nat} (h : Nat.toDigits 10 n = Nat.toDigits 10 n') : n = n' := by
  rw [← Nat.repr_inj, Nat.repr_eq_ofList_toDigits, Nat.repr_eq_ofList_toDigits, h]

/-! ### Lines -/

/-- What a line tells. -/
inductive Line
  /-- What a family counts. -/
  | help (f : Family)
  /-- That a family is made of counters. -/
  | kind (f : Family)
  /-- What the sample of a counter shows. -/
  | sample (c : Counter) (n : Nat)

namespace Line

/-- How a line is written. -/
def text : Line → String
  | help f => "# HELP " ++ f.name ++ " " ++ f.help
  | kind f => "# TYPE " ++ f.name ++ " counter"
  | sample c n =>
    sampleName c.family.name c.family.label? c.labelValue ++ " " ++ toString n

/-- The sample of a family without a label. -/
theorem toList_sample_of_none {c : Counter} (hc : c.family.label? = none) (n : Nat) :
    (sample c n).text.toList = c.family.name.toList ++ ' ' :: Nat.toDigits 10 n := by
  simp [text, sampleName, hc]

/-- The sample of a labelled family. -/
theorem toList_sample_of_some {c : Counter} {label : String}
    (hc : c.family.label? = some label) (n : Nat) :
    (sample c n).text.toList = c.family.name.toList ++ '\x7b' :: (label.toList ++ '=' :: '"' ::
      (c.labelValue.toList.flatMap escapeChar ++ '"' :: '\x7d' :: ' ' :: Nat.toDigits 10 n)) := by
  simp [text, sampleName, hc, escape]

theorem name_eq (f : Family) : f.name = "replica_health_" ++ f.shortName := rfl

/-- The name of a family has neither blanks nor braces nor newlines. -/
theorem name_plain (f : Family) :
    ' ' ∉ f.name.toList ∧ '\x7b' ∉ f.name.toList ∧ '\n' ∉ f.name.toList := by
  have hstart : ' ' ∉ "replica_health_".toList ∧ '\x7b' ∉ "replica_health_".toList ∧
      '\n' ∉ "replica_health_".toList := by
    decide
  have hshort : ' ' ∉ f.shortName.toList ∧ '\x7b' ∉ f.shortName.toList ∧
      '\n' ∉ f.shortName.toList := by
    cases f <;> decide
  simp only [name_eq, String.toList_append, List.mem_append, not_or]
  exact ⟨⟨hstart.1, hshort.1⟩, ⟨hstart.2.1, hshort.2.1⟩, hstart.2.2, hshort.2.2⟩

theorem newline_notMem_help (f : Family) : '\n' ∉ f.help.toList := by
  cases f <;> simp [Family.help]

theorem newline_notMem_label {f : Family} {label : String} (h : f.label? = some label) :
    '\n' ∉ label.toList := by
  have hall : ∀ l ∈ f.label?, '\n' ∉ l.toList := by cases f <;> decide
  exact hall label h

/-- A line does not run over its end. -/
theorem newline_notMem (l : Line) : '\n' ∉ l.text.toList := by
  cases l with
  | help f => simp [text, (name_plain f).2.2, newline_notMem_help f]
  | kind f => simp [text, (name_plain f).2.2]
  | sample c n =>
    cases hlabel : c.family.label? with
    | none =>
      simp [toList_sample_of_none hlabel, (name_plain c.family).2.2, newline_notMem_digits n]
    | some label =>
      have hvalue : '\n' ∉ c.labelValue.toList.flatMap escapeChar := by
        intro h
        obtain ⟨c', -, hc'⟩ := List.mem_flatMap.1 h
        exact newline_notMem_escapeChar c' hc'
      simp only [toList_sample_of_some hlabel, List.mem_append, List.mem_cons, not_or]
      exact ⟨(name_plain c.family).2.2, by decide, newline_notMem_label hlabel, by decide,
        by decide, hvalue, by decide, by decide, by decide, newline_notMem_digits n⟩

theorem name_injective {f f' : Family} (h : f.name = f'.name) : f = f' := by
  rw [name_eq, name_eq, String.append_right_inj] at h
  cases f <;> cases f' <;> first | rfl | simp [Family.shortName] at h

/-- The name of a family ends at the first blank or brace. -/
theorem family_unique {f f' : Family} {x x' : Char} {rest rest' : List Char}
    (hx : x = ' ' ∨ x = '\x7b') (hx' : x' = ' ' ∨ x' = '\x7b')
    (h : f.name.toList ++ x :: rest = f'.name.toList ++ x' :: rest') : f = f' := by
  have hname : ∀ f : Family, ∀ y ∈ f.name.toList, ¬ (y = ' ' ∨ y = '\x7b') := by
    intro f y hy hmark
    rcases hmark with rfl | rfl
    · exact (name_plain f).1 hy
    · exact (name_plain f).2.1 hy
  have hcut := cut_unique (hname f) (not_not_intro hx) (hname f') (not_not_intro hx') h
  exact name_injective (String.toList_inj.1 hcut.1)

theorem toList_sample (c : Counter) (n : Nat) : ∃ x rest, (x = ' ' ∨ x = '\x7b') ∧
    (sample c n).text.toList = c.family.name.toList ++ x :: rest := by
  cases hlabel : c.family.label? with
  | none => exact ⟨_, _, .inl rfl, toList_sample_of_none hlabel n⟩
  | some label => exact ⟨_, _, .inr rfl, toList_sample_of_some hlabel n⟩

/-- **A sample tells its family, its label value and its count.** -/
theorem sample_injective {c c' : Counter} {n n' : Nat}
    (h : (sample c n).text = (sample c' n').text) : c = c' ∧ n = n' := by
  have hlist := congrArg String.toList h
  have hfamily : c.family = c'.family := by
    obtain ⟨x, rest, hx, htext⟩ := toList_sample c n
    obtain ⟨x', rest', hx', htext'⟩ := toList_sample c' n'
    rw [htext, htext'] at hlist
    exact family_unique hx hx' hlist
  have hsame : c.labelValue = c'.labelValue → c = c' := by
    intro hvalue
    rw [← c.counter_family, ← c'.counter_family, hfamily, hvalue]
  cases hlabel : c.family.label? with
  | none =>
    have hlabel' : c'.family.label? = none := hfamily ▸ hlabel
    rw [toList_sample_of_none hlabel, toList_sample_of_none hlabel', hfamily,
      List.append_cancel_left_eq] at hlist
    refine ⟨?_, digits_injective (List.cons.inj hlist).2⟩
    rw [(Counter.eq_counter hlabel "").1 rfl, (Counter.eq_counter hlabel' "").1 rfl, hfamily]
  | some label =>
    have hlabel' : c'.family.label? = some label := hfamily ▸ hlabel
    rw [toList_sample_of_some hlabel, toList_sample_of_some hlabel', hfamily,
      List.append_cancel_left_eq, List.cons.injEq, List.append_cancel_left_eq, List.cons.injEq,
      List.cons.injEq] at hlist
    obtain ⟨hvalue, hrest⟩ := escape_append_inj hlist.2.2.2
    simp only [List.cons.injEq, true_and] at hrest
    exact ⟨hsame (String.toList_inj.1 hvalue), digits_injective hrest⟩

/-- How a line starts. -/
theorem head_text (l : Line) : l.text.toList.take 3 = match l with
    | help _ => ['#', ' ', 'H']
    | kind _ => ['#', ' ', 'T']
    | sample _ _ => ['r', 'e', 'p'] := by
  cases l with
  | help f => simp [text]
  | kind f => simp [text]
  | sample c n =>
    obtain ⟨x, rest, -, htext⟩ := toList_sample c n
    rw [htext, name_eq]
    simp

/-- **No two lines are written alike.** -/
theorem text_injective : Function.Injective text := by
  intro l l' h
  have hhead := head_text l
  rw [h, head_text l'] at hhead
  cases l with
  | help f =>
    cases l' with
    | help f' =>
      simp only [text, ← String.toList_inj, String.toList_append, List.append_assoc,
        List.append_cancel_left_eq] at h
      rw [family_unique (.inl rfl) (.inl rfl) h]
    | kind | sample => cases hhead
  | kind f =>
    cases l' with
    | kind f' =>
      simp only [text, ← String.toList_inj, String.toList_append, List.append_assoc,
        List.append_cancel_left_eq] at h
      rw [family_unique (.inl rfl) (.inl rfl) h]
    | help | sample => cases hhead
  | sample c n =>
    cases l' with
    | sample c' n' =>
      obtain ⟨rfl, rfl⟩ := sample_injective h
      rfl
    | help | kind => cases hhead

end Line

/-! ### The text as a list of lines -/

/-- The lines of a family. -/
def familyLines (t : Tally) (f : Family) : List Line :=
  match samples t f with
  | [] => []
  | rows => .help f :: .kind f :: rows.map fun row => .sample (f.counter row.1) row.2

/-- The lines of the text. -/
def lines (t : Tally) : List Line := Family.all.flatMap (familyLines t)

theorem mem_all (f : Family) : f ∈ Family.all := by cases f <;> decide

theorem toList_familyText (t : Tally) (f : Family) :
    (familyText t f).toList = (familyLines t f).flatMap fun l => l.text.toList ++ ['\n'] := by
  have hsample : ∀ value, sampleName f.name f.label? (f.counter value).labelValue =
      sampleName f.name f.label? value := by
    intro value
    cases f <;> rfl
  unfold familyText familyLines
  cases samples t f with
  | nil => rfl
  | cons row rows => simp [Line.text, hsample, List.flatMap_map]

theorem toList_text (t : Tally) :
    (text t).toList = (lines t).flatMap fun l => l.text.toList ++ ['\n'] := by
  simp [text, lines, toList_familyText, List.flatMap_map, List.flatMap_assoc]

/-- **The text splits into its lines**, the last of which is followed by nothing. -/
theorem splitOn_text (t : Tally) :
    (text t).toList.splitOn '\n' = ((lines t).map fun l => l.text.toList) ++ [[]] := by
  rw [toList_text]
  induction lines t with
  | nil => rfl
  | cons l ls ih =>
    rw [List.flatMap_cons, List.append_assoc, List.singleton_append,
      List.splitOn_append_cons_self_of_not_mem l.newline_notMem, ih, List.map_cons,
      List.cons_append]

/-- A text has one list of lines only. -/
theorem lines_injective {t t' : Tally} (h : text t = text t') : lines t = lines t' := by
  have hsplit := splitOn_text t
  rw [h, splitOn_text t', List.append_cancel_right_eq] at hsplit
  have hinjective : Function.Injective fun l : Line => l.text.toList := fun l l' hl =>
    Line.text_injective (String.toList_inj.1 hl)
  exact (List.map_injective_iff.2 hinjective hsplit).symm

/-! ### What the lines tell -/

/-- The samples of a family that are among some lines. -/
def told (f : Family) : Line → Option (String × Nat)
  | .sample c n => if c.family = f then some (c.labelValue, n) else none
  | .help _ | .kind _ => none

/-- A family without a label has no label value. -/
theorem labelValue_of_mem_samples {t : Tally} {f : Family} {row : String × Nat}
    (hrow : row ∈ samples t f) : (f.counter row.1).labelValue = row.1 := by
  by_cases hf : f.label? = none
  · rw [samples, hf, List.mem_singleton] at hrow
    rw [hrow]
    cases f <;> rfl
  · exact Family.labelValue_counter hf row.1

theorem told_familyLines (t : Tally) (f g : Family) :
    (familyLines t g).filterMap (told f) = if g = f then samples t f else [] := by
  have hrows : (samples t g).filterMap (fun row => told f (.sample (g.counter row.1) row.2)) =
      if g = f then samples t f else [] := by
    split
    · rename_i hgf
      subst hgf
      conv_rhs => rw [← List.filterMap_some (l := samples t g)]
      refine List.filterMap_congr fun row hrow => ?_
      rw [told, Family.family_counter, if_pos rfl, labelValue_of_mem_samples hrow]
    · rename_i hgf
      simp [told, hgf]
  rw [← hrows, familyLines]
  cases samples t g with
  | nil => rfl
  | cons row rows =>
    simp only [List.filterMap_cons, List.map_cons, List.filterMap_map, told]
    rfl

/-- **The samples of each family can be read off the lines.** -/
theorem told_lines (t : Tally) (f : Family) : (lines t).filterMap (told f) = samples t f := by
  rw [lines, List.filterMap_flatMap]
  simp only [told_familyLines]
  cases f <;> simp [Family.all]

/-- **Two texts are the same exactly if every family has the same samples.** -/
theorem text_eq_iff {t t' : Tally} : text t = text t' ↔ ∀ f, samples t f = samples t' f := by
  constructor
  · intro h f
    rw [← told_lines, lines_injective h, told_lines]
  · intro h
    have hlines : familyLines t = familyLines t' := by
      funext f
      rw [familyLines, familyLines, h]
    rw [← String.toList_inj, toList_text, toList_text, lines, lines, hlines]

theorem sample_mem_lines {t : Tally} {c : Counter} {n : Nat} :
    .sample c n ∈ lines t ↔ (c.labelValue, n) ∈ samples t c.family := by
  rw [← told_lines, List.mem_filterMap]
  constructor
  · intro h
    exact ⟨_, h, if_pos rfl⟩
  · intro h
    obtain ⟨l, hl, htold⟩ := h
    cases l with
    | help | kind => cases htold
    | sample c' n' =>
      rw [told, Option.ite_none_right_eq_some, Option.some.injEq, Prod.mk.injEq] at htold
      obtain ⟨hfamily, hvalue, rfl⟩ := htold
      rwa [← c.counter_family, ← hfamily, ← hvalue, c'.counter_family]

theorem kind_mem_lines {t : Tally} {f : Family} : .kind f ∈ lines t ↔ samples t f ≠ [] := by
  rw [lines, List.mem_flatMap]
  constructor
  · intro h hempty
    obtain ⟨g, -, hg⟩ := h
    unfold familyLines at hg
    split at hg
    · cases hg
    · rename_i hrows
      simp only [List.mem_cons, reduceCtorEq, Line.kind.injEq, List.mem_map, and_false,
        exists_false, or_false, false_or] at hg
      exact hrows (hg ▸ hempty)
  · intro h
    refine ⟨f, mem_all f, ?_⟩
    unfold familyLines
    split
    · contradiction
    · simp

/-- A line stands in the text exactly if it is one of its lines. -/
theorem mem_splitOn_text {t : Tally} {l : Line} :
    l.text.toList ∈ (text t).toList.splitOn '\n' ↔ l ∈ lines t := by
  have hne : l.text.toList ≠ [] := by
    intro h
    have hhead := l.head_text
    rw [h] at hhead
    cases l <;> cases hhead
  rw [splitOn_text, List.mem_append, List.mem_singleton, List.mem_map]
  constructor
  · intro h
    rcases h with ⟨l', hl', heq⟩ | h
    · rwa [← Line.text_injective (String.toList_inj.1 heq)]
    · exact absurd h hne
  · intro h
    exact .inl ⟨l, h, rfl⟩

end Upkeep.Exposition
