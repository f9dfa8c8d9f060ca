import Upkeep.Proofs.Cycle.Turns
import Upkeep.Proofs.Directory.Knowledge

/-!
# What cycles do to the directory

In surroundings that show a directory and leave it alone, whatever changes it is a step of the loop
(`Directory.LoopStep`).

* `Surroundings.Reflects.check` : a check takes such steps, and in the end it knows what it was told.
* `Pool.loopSteps` : so do calls of the cycle, in whatever order they take turns.
-/

namespace Upkeep

variable {σ α : Type}

namespace Surroundings

/-- The directory is left alone. -/
def SameDirectory (dir : σ → Directory) (s s' : σ) : Prop := dir s' = dir s

/-- The directory changes as the loop changes it. -/
def StepsDirectory (e : Surroundings σ) (dir : σ → Directory) (canOffline : Bool) (s s' : σ) :
    Prop := Directory.LoopStep e.home canOffline (dir s) (dir s')

/-- The home node keeps the directory. -/
def KeepsDirectory (e : Surroundings σ) (dir : σ → Directory) (s : σ) : Prop :=
  (dir s).home = e.home

variable {e : Surroundings σ} {dir : σ → Directory} {canOffline : Bool}

theorem Reflects.admits (he : e.Reflects dir Eq) :
    e.Admits (e.KeepsDirectory dir) (SameDirectory dir) (e.StepsDirectory dir canOffline) where
  refl _ := rfl
  trans _ _ _ h h' := h'.trans h
  note n s := he.note n s
  waits _ _ h hs := (congrArg Directory.home h).trans hs
  works _ _ h hs := h.same.1.trans hs

theorem Reflects.note_steps (he : e.Reflects dir Eq) (n : Note) (s : σ) :
    e.StepsDirectory dir canOffline s (e.note n s) := by
  unfold StepsDirectory
  rw [he.note]
  exact .stays

/-- A collaborator that leaves the directory alone leaves it alone while others do. -/
theorem ensures_same {p : Process σ α} {s : σ}
    (hp : p.Makes (fun s s' => dir s = dir s') s) :
    p.Ensures (SameDirectory dir) (e.StepsDirectory dir canOffline) (fun _ s' => dir s' = dir s)
      s := by
  have hquiet : p.Ensures (SameDirectory dir) (fun s s' => dir s = dir s') (fun _ _ => True) s :=
    Process.Ensures.mono hp (fun _ _ _ => trivial) (fun _ _ h => h) fun _ _ h => h
  have hkept := hquiet.keep (P := fun s' => dir s' = dir s) rfl (fun _ _ h hs => h.trans hs)
    fun _ _ h hs => h.symm.trans hs
  refine hkept.mono (fun _ _ h => h) (fun s s' h => ?_) fun _ _ h => h.2
  unfold StepsDirectory
  rw [h]
  exact .stays

/-- Each answer changes the directory as the loop does, and what it says is true. -/
theorem Reflects.answer (he : e.Reflects dir Eq) {check : CheckName} {h : List Told} {r : Request}
    (hp : Permits e.home canOffline check h r) {s : σ}
    (ha : Directory.Agrees e.home h (dir s)) :
    (e.answer r).Ensures (SameDirectory dir) (e.StepsDirectory dir canOffline)
      (fun x s' => Directory.Agrees e.home (h ++ [⟨r, x⟩]) (dir s')) s := by
  cases r with
  | homeStatus => exact ⟨ha.loopStep hp (he.homeStatus s), ha.told hp (he.homeStatus s)⟩
  | databases => exact ⟨ha.loopStep hp (he.databases s), ha.told hp (he.databases s)⟩
  | status key => exact ⟨ha.loopStep hp (he.status key s), ha.told hp (he.status key s)⟩
  | setStatus key status =>
    exact ⟨ha.loopStep hp (he.setStatus key status s), ha.told hp (he.setStatus key status s)⟩
  | onlineNodes database =>
    exact ⟨ha.loopStep hp (he.onlineNodes database s), ha.told hp (he.onlineNodes database s)⟩
  | install source =>
    exact (ensures_same (he.installer source s)).mono (fun _ _ h => h) (fun _ _ h => h)
      fun x s' h => ha.told hp h.symm
  | heartbeat database peers timeoutMs =>
    exact (ensures_same (he.transport database peers timeoutMs s)).mono (fun _ _ h => h)
      (fun _ _ h => h) fun x s' h => ha.told hp h.symm
  | note n => exact ⟨he.note_steps n s, ha.told hp (he.note n s)⟩

/-- **A check changes the directory as the loop does**, and in the end it knows what it was told. -/
theorem Reflects.check (he : e.Reflects dir Eq) {check : CheckName} {c : Check α}
    {Q : α → List Told → Prop}
    (hc : Check.Meets (.heard (Permits e.home canOffline check)) Q c []) {s : σ}
    (hs : e.KeepsDirectory dir s) :
    ((ExceptT.run c).within e).Ensures (SameDirectory dir) (e.StepsDirectory dir canOffline)
      (fun reply s' => ∃ h, Directory.Agrees e.home h (dir s') ∧ ∀ a, reply = .ok a → Q a h) s := by
  refine Program.Meets.ensures (fun s h => Directory.Agrees e.home h (dir s)) ?_ hc ?_
  · intro r s h ha hallowed
    obtain ⟨x⟩ := r.nonempty_answer
    refine (he.answer (hallowed x _ rfl) ha).mono (fun _ _ h => h) (fun _ _ h => h) ?_
    exact fun x s' hs' => ⟨_, hs', rfl⟩
  · exact .nil hs

theorem Reflects.keeps_check (he : e.Reflects dir Eq) {check : CheckName} {c : Check α}
    {Q : α → List Told → Prop}
    (hc : Check.Meets (.heard (Permits e.home canOffline check)) Q c []) :
    (ExceptT.run c).Keeps e (e.KeepsDirectory dir) (SameDirectory dir)
      (e.StepsDirectory dir canOffline) := by
  intro s hs
  exact (he.check hc hs).mono (fun _ _ h => h) (fun _ _ h => h)
    fun _ _ ⟨_, ha, _⟩ => ha.keeper

/-- **A cycle changes the directory as the loop does.** -/
theorem Reflects.keeps_rest (he : e.Reflects dir Eq) (policy : DemotionPolicy) :
    (Cycle.rest e.home policy).Keeps e (e.KeepsDirectory dir) (SameDirectory dir)
      (e.StepsDirectory dir policy.canOffline) :=
  Cycle.closed_rest (he.admits.closed_keeps he.note_steps)
    (he.keeps_check (Repair.check_permits _ _)) (he.keeps_check (Audit.check_permits _ _))
    (he.keeps_check (Stall.check_permits _ _))

theorem Reflects.keeps_afterRepair (he : e.Reflects dir Eq) (policy : DemotionPolicy)
    (reply : Reply α) :
    (Cycle.afterRepair e.home policy reply).Keeps e (e.KeepsDirectory dir) (SameDirectory dir)
      (e.StepsDirectory dir policy.canOffline) :=
  Cycle.closed_afterRepair (he.admits.closed_keeps he.note_steps)
    (he.keeps_check (Audit.check_permits _ _)) (he.keeps_check (Stall.check_permits _ _)) reply

end Surroundings

/-- **Calls of a cycle change the directory as the loop does**, in whatever order they take turns. -/
theorem Pool.loopSteps {e : Surroundings σ} {dir : σ → Directory} (he : e.Reflects dir Eq)
    (policy : DemotionPolicy) {n : Nat} {s : σ} (hs : e.KeepsDirectory dir s)
    (order order' : List Nat) :
    let p := (ofFresh n ⟨false, s⟩).steps e policy order
    Relation.ReflTransGen (Directory.LoopStep e.home policy.canOffline) (dir p.shared.world)
      (dir (p.steps e policy order').shared.world) := by
  intro p
  have hrest : ∀ s, e.KeepsDirectory dir s → ((Cycle.rest e.home policy).within e).Ensures
      (Surroundings.SameDirectory dir) (e.StepsDirectory dir policy.canOffline)
      (fun _ => e.KeepsDirectory dir) s := he.keeps_rest policy
  have hsound := sound_steps he.admits hrest order (sound_ofFresh n hs)
  have hworld := world_steps he.admits he.note_steps hrest order' hsound
  exact hworld.lift dir fun _ _ h => h

end Upkeep
