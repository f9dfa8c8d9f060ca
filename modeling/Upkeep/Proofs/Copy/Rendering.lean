import Mathlib
import Upkeep.Copy

/-!
# Copies that share a key

The configuration map keeps the status of a copy under a text that names the node and the
database with a dot between them.  Either name may have dots of its own, so a text can be read in
more than one way.

* `CopyKey.render_eq_iff` : `k.render = k'.render` exactly if the copies are the same, or
  `CopyKey.Shifts` says that a dot within the database of one is the dot after the node of the
  other.
* `CopyKey.shared_texts` : so copies on one node are told apart, and so are copies on nodes
  without a dot in their names.
-/

namespace Upkeep.CopyKey

variable {k k' : CopyKey}

/-- Where two texts are cut at the same character, the cuts are at one place, or the piece between
the two cuts belongs to the end of the one and to the start of the other. -/
theorem append_cons_eq_iff {α : Type} {a b c d : List α} {x : α} :
    a ++ x :: b = c ++ x :: d ↔ (a = c ∧ b = d) ∨
      (∃ s, c = a ++ x :: s ∧ b = s ++ x :: d) ∨ ∃ s, a = c ++ x :: s ∧ d = s ++ x :: b := by
  rw [List.append_eq_append_iff]
  constructor
  · intro h
    rcases h with ⟨s, hc, hb⟩ | ⟨s, ha, hd⟩
    · cases s with
      | nil => exact .inl ⟨by simpa using hc.symm, by simpa using hb⟩
      | cons y s =>
        obtain ⟨rfl, htail⟩ := List.cons.inj hb
        exact .inr (.inl ⟨s, hc, htail⟩)
    · cases s with
      | nil => exact .inl ⟨by simpa using ha, by simpa using hd.symm⟩
      | cons y s =>
        obtain ⟨rfl, htail⟩ := List.cons.inj hd
        exact .inr (.inr ⟨s, ha, htail⟩)
  · intro h
    rcases h with ⟨rfl, rfl⟩ | ⟨s, rfl, rfl⟩ | ⟨s, rfl, rfl⟩
    · exact .inl ⟨[], by simp, rfl⟩
    · exact .inl ⟨x :: s, rfl, rfl⟩
    · exact .inr ⟨x :: s, rfl, rfl⟩

/-- A dot within the database of `k` is the dot after the node of `k'`: what stands before it is
the end of that node, and what stands after it is the database of `k'`. -/
def Shifts (k k' : CopyKey) : Prop :=
  ∃ s, k'.node = k.node ++ "." ++ s ∧ k.database = s ++ "." ++ k'.database

theorem toList_render (k : CopyKey) :
    k.render.toList = "dbstatus.".toList ++ (k.node.toList ++ '.' :: k.database.toList) := by
  simp [render]

theorem shifts_iff : k.Shifts k' ↔ ∃ s, k'.node.toList = k.node.toList ++ '.' :: s ∧
    k.database.toList = s ++ '.' :: k'.database.toList := by
  constructor
  · intro h
    obtain ⟨s, hnode, hdatabase⟩ := h
    exact ⟨s.toList, by simp [hnode], by simp [hdatabase]⟩
  · intro h
    obtain ⟨s, hnode, hdatabase⟩ := h
    refine ⟨String.ofList s, ?_, ?_⟩
    · simpa [← String.toList_inj] using hnode
    · simpa [← String.toList_inj] using hdatabase

theorem eq_iff_toList :
    k = k' ↔ k.node.toList = k'.node.toList ∧ k.database.toList = k'.database.toList := by
  rw [String.toList_inj, String.toList_inj]
  cases k
  cases k'
  simp

/-- **A text is shared exactly where a dot can be read in two ways.** -/
theorem render_eq_iff : k.render = k'.render ↔ k = k' ∨ k.Shifts k' ∨ k'.Shifts k := by
  rw [← String.toList_inj, toList_render, toList_render, List.append_cancel_left_eq,
    append_cons_eq_iff, eq_iff_toList, shifts_iff, shifts_iff]

namespace Shifts

/-- The dot is part of the name of the one node and of the name of the other's database. -/
theorem dot_mem (h : k.Shifts k') : '.' ∈ k'.node.toList ∧ '.' ∈ k.database.toList := by
  obtain ⟨s, hnode, hdatabase⟩ := shifts_iff.1 h
  rw [hnode, hdatabase]
  exact ⟨by simp, by simp⟩

/-- The node that has the dot is the longer one. -/
theorem length_lt (h : k.Shifts k') : k.node.length < k'.node.length := by
  obtain ⟨s, hnode, -⟩ := h
  rw [hnode, String.length_append, String.length_append]
  have hdot : ".".length = 1 := rfl
  omega

end Shifts

/-- **Which copies share a text.**  The same copy apart, two copies do exactly if a dot can be
read as part of the node of the one or of the database of the other.  So no two copies on one node
do, and no two copies on nodes without a dot in their names. -/
theorem shared_texts :
    (∀ k k' : CopyKey, k.render = k'.render ↔ k = k' ∨ k.Shifts k' ∨ k'.Shifts k) ∧
      (∀ node, Set.InjOn render {k | k.node = node}) ∧
      Set.InjOn render {k | '.' ∉ k.node.toList} := by
  refine ⟨fun k k' => render_eq_iff, ?_, ?_⟩
  · intro node k hk k' hk' h
    have hlength : k.node.length = k'.node.length := by rw [hk, hk']
    rcases render_eq_iff.1 h with rfl | hshift | hshift
    · rfl
    · exact absurd hshift.length_lt (by omega)
    · exact absurd hshift.length_lt (by omega)
  · intro k hk k' hk' h
    rcases render_eq_iff.1 h with rfl | hshift | hshift
    · rfl
    · exact absurd hshift.dot_mem.1 hk'
    · exact absurd hshift.dot_mem.1 hk

example : render ⟨"a", "b.c"⟩ = render ⟨"a.b", "c"⟩ := by decide

end Upkeep.CopyKey
