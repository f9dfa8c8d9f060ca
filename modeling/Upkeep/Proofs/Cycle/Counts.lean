import Upkeep.Proofs.Cycle.Permits
import Upkeep.Proofs.Cycle.Turns

/-!
# Who counts cycles

The two counters of cycles are moved where a call begins and nowhere else: no check asks for
either of them, whatever it is answered (`Cycle.rest_uncounted`).
-/

namespace Upkeep

/-- Neither of the two counts of cycles. -/
def Request.IsUncounted (r : Request) : Prop :=
  r ≠ .note (.count .cycles) ∧ r ≠ .note (.count .skippedCycles)

theorem Permits.isUncounted {home : Node} {canOffline : Bool} {check : CheckName} {h : List Told}
    {r : Request} (hr : Permits home canOffline check h r) : r.IsUncounted := by
  cases hr with
  | note hcycles hskipped =>
    exact ⟨fun h => hcycles (Request.note.inj h), fun h => hskipped (Request.note.inj h)⟩
  | homeStatus | databases | status | onlineNodes | install | heartbeat | restore | demote =>
    exact ⟨nofun, nofun⟩

namespace Cycle

variable {α : Type}

theorem closed_uncounted :
    Program.Closed fun p => p.Meets (.only Request.IsUncounted) (fun _ _ => True) () where
  pure _ := trivial
  bind hp hf := Program.meets_bind.2 (hp.mono fun a _ _ => hf a)
  note _ hcycles hskipped _ _ _ :=
    ⟨⟨fun h => hcycles (Request.note.inj h), fun h => hskipped (Request.note.inj h)⟩, trivial⟩

theorem guarded_uncounted {home home' : Node} {canOffline : Bool} {check name : CheckName}
    {Q : α → List Told → Prop} {c : Check α}
    (h : Check.Meets (.heard (Permits home canOffline check)) Q c []) :
    (guarded home' name c).Meets (.only Request.IsUncounted) (fun _ _ => True) () := by
  have hany : (ExceptT.run c).Meets (.heard (Permits home canOffline check))
      (fun _ _ => True) [] := Program.Meets.mono h fun _ _ _ => trivial
  have hcheck := hany.only fun _ _ hr => hr.isUncounted
  exact closed_guarded closed_uncounted hcheck

/-- **No check counts a cycle, and no cycle that ran ends as one that was passed over.** -/
theorem rest_uncounted (home : Node) (policy : DemotionPolicy) :
    (rest home policy).Meets (.only Request.IsUncounted) (fun outcome _ => outcome ≠ .skipped)
      () := by
  have hchecks : (checks home policy).Meets (.only Request.IsUncounted)
      (fun outcome _ => outcome ≠ .skipped) () := by
    refine Program.meets_bind.2
      ((guarded_uncounted (Repair.check_permits home policy.canOffline)).mono ?_)
    rintro (_ | _) _ -
    · exact CycleOutcome.noConfusion
    refine Program.meets_bind.2
      ((guarded_uncounted (Audit.check_permits home policy.canOffline)).mono ?_)
    rintro (_ | _) _ -
    · exact CycleOutcome.noConfusion
    refine Program.meets_bind.2 ((guarded_uncounted (Stall.check_permits home policy)).mono ?_)
    rintro (_ | _) _ -
    · exact CycleOutcome.noConfusion
    · exact CycleOutcome.noConfusion
  -- the last line on record counts nothing either
  refine Program.meets_bind.2 (hchecks.mono fun outcome _ h => ?_)
  exact fun _ _ _ => ⟨⟨nofun, nofun⟩, h⟩

end Cycle

end Upkeep
