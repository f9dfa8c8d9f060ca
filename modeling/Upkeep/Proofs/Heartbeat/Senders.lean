import Upkeep.Monitor
import Upkeep.Proofs.Heartbeat.Round
import Upkeep.Rehearsal.Stage

/-!
# What the fan-outs of the program spare

The probes of a loopback change nothing, and scripted ones change the directory only.  So none of
them moves the counter of the messages, which starts at 1.

* `Loopback.spares`, `Stage.spares_scriptedProbes` : such probes leave alone whatever their record
  leaves alone.
* `Monitor.fresh_world` : **a monitor starts before its first message.**
* `Monitor.leavesDirectory_fanOut` : **its heartbeats leave the directory alone.**
-/

namespace Upkeep

variable {σ β : Type}

/-- Peers within the process leave alone whatever the record leaves alone. -/
theorem Loopback.spares (ids : MessageIds σ) (get : σ → Loopback) {report : Report → σ → σ}
    {view : σ → β} (hreport : ∀ line s, view (report line s) = view s) :
    (FanOut.numbered ids (probe get) report).Spares view where
  sends peer ping s := by
    simp only [FanOut.numbered, probe]
    split <;> rfl
  settles peer ping s ms settle h := by
    simp only [FanOut.numbered, probe] at h
    split at h
    · cases h
      exact fun _ => rfl
    · cases h
  reports := hreport

/-- Scripted probes leave alone whatever their record and the effects of their script leave
alone. -/
theorem Stage.spares_scriptedProbes {s : Script} {view : Stage → β}
    (hlog : ∀ peer ping w, view (Stage.logProbe peer ping w) = view w)
    (heffects : ∀ name w, view (w.performAll (s.behaviour name).effects) = view w ∧
      view (w.performAll (s.behaviour name).lateEffects) = view w)
    (hreport : ∀ line w, view (World.report line w) = view w) :
    (scriptedProbes s).Spares view where
  sends peer ping w := by
    simp only [scriptedProbes, FanOut.numbered, Behaviour.probe]
    split
    · exact hlog peer ping w
    · exact (heffects peer _).1.trans (hlog peer ping w)
  settles peer ping w ms settle h := by
    simp only [scriptedProbes, FanOut.numbered, Behaviour.probe] at h
    split at h
    · cases h
    · cases h
      exact fun w' => (heffects peer w').2
  reports := hreport

/-! ### The counter of the messages -/

theorem Monitor.counts_fanOut : fanOut.Spares ids.next := Loopback.spares _ _ fun _ _ => rfl

theorem Stage.counts_loopbackProbes (l : Loopback) : (loopbackProbes l).Spares ids.next :=
  Loopback.spares _ _ fun _ _ => rfl

theorem Stage.counts_scriptedProbes (s : Script) : (scriptedProbes s).Spares ids.next :=
  spares_scriptedProbes (fun _ _ _ => rfl)
    (fun name w => ⟨congrArg Props.nextId (w.performAll_eq (s.behaviour name).effects).2.1,
      congrArg Props.nextId (w.performAll_eq (s.behaviour name).lateEffects).2.1⟩) fun _ _ => rfl

/-- **A monitor starts before its first message.** -/
theorem Monitor.fresh_world (s : Settings) : ids.fresh (world s) = world s := by
  have hown : (world s).own = { loopback := s.loopback } := (World.performAll_eq _ _).2.1
  have hnext : (world s).own.nextId = MessageIds.first := congrArg Peers.nextId hown
  rw [MessageIds.fresh, ← hnext]
  rfl

/-! ### The directory -/

/-- Whatever a fan-out does to a world leaves its directory alone. -/
structure FanOut.LeavesDirectory {ρ : Type} (f : FanOut (World ρ)) : Prop extends
    f.Spares World.directory where
  /-- Taking a number leaves the directory alone. -/
  takes : ∀ w, (f.takeId w).2.directory = w.directory

theorem Monitor.leavesDirectory_fanOut : fanOut.LeavesDirectory :=
  ⟨Loopback.spares _ _ fun _ _ => rfl, fun _ => rfl⟩

theorem Stage.leavesDirectory_loopbackProbes (l : Loopback) : (loopbackProbes l).LeavesDirectory :=
  ⟨Loopback.spares _ _ fun _ _ => rfl, fun _ => rfl⟩

/-- Scripted probes leave the directory alone if their script has no effects. -/
theorem Stage.leavesDirectory_scriptedProbes {s : Script}
    (hquiet : ∀ name, (s.behaviour name).effects = [] ∧ (s.behaviour name).lateEffects = []) :
    (scriptedProbes s).LeavesDirectory where
  toSpares := spares_scriptedProbes (fun _ _ _ => rfl)
    (fun name w => by rw [(hquiet name).1, (hquiet name).2]; exact ⟨rfl, rfl⟩) fun _ _ => rfl
  takes _ := rfl

end Upkeep
