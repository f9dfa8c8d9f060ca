/-!
# Records that grow at their end

A trail is a list to which things are only added.  It is kept with the newest thing first, so
that adding one costs the same however long the trail is, also while an older state of the
trail is still in use.  Its view is `Trail.toList`, with the oldest thing first.
-/

namespace Upkeep

/-- A list that grows at its end. -/
structure Trail (α : Type) where
  /-- What was added, the newest first. -/
  newestFirst : List α := []
  deriving Repr, DecidableEq

namespace Trail

variable {α : Type}

/-- The trail to which nothing was added. -/
def empty : Trail α := ⟨[]⟩

/-- Adds something at the end. -/
def push (t : Trail α) (a : α) : Trail α := ⟨a :: t.newestFirst⟩

/-- What was added, in order. -/
def toList (t : Trail α) : List α := t.newestFirst.reverse

/-- How much was added. -/
def size (t : Trail α) : Nat := t.newestFirst.length

@[simp] theorem toList_empty : (empty : Trail α).toList = [] := rfl

theorem length_toList (t : Trail α) : t.toList.length = t.size := by simp [toList, size]

theorem toList_injective {t u : Trail α} (h : t.toList = u.toList) : t = u := by
  obtain ⟨ts⟩ := t
  obtain ⟨us⟩ := u
  simpa [toList] using h

end Trail

end Upkeep
