import Upkeep.Cycle
import Upkeep.Proofs.Program.History

/-!
# What each check asks for

`Request.OfCheck` lists the requests of each check, with the lines and counters that it puts on
record: its lines come from its own area, only the repair check installs copies, and only the
stall check sends heartbeats.

* `Repair.check_asks`, `Audit.check_asks`, `Stall.check_asks` : the checks ask for nothing else,
  whatever they are answered.
-/

namespace Upkeep

/-- The part of the program whose lines a check writes. -/
def CheckName.area : CheckName → Area
  | repair => .repair
  | audit => .audit
  | stall => .stall

/-- The counters that a check moves itself. -/
def Counter.OfCheck : CheckName → Counter → Prop
  | .repair, .recoveries _ => True
  | .audit, .missingStatuses => True
  | .stall, .rounds _ | .stall, .demotions _ => True
  | _, _ => False

/-- The requests of a check. -/
def Request.OfCheck (check : CheckName) : Request → Prop
  | .databases | .status _ => True
  | .homeStatus | .onlineNodes _ | .setStatus _ _ => check ≠ .audit
  | .install _ => check = .repair
  | .heartbeat _ _ _ => check = .stall
  | .note (.report r) => r.line.area = check.area
  | .note (.count c) => c.OfCheck check

namespace Check

variable {α β : Type}

/-- A check asks only for requests of a kind, whatever it is answered. -/
abbrev Asks (P : Request → Prop) (c : Check α) : Prop :=
  Check.Meets (.only P) (fun _ _ => True) c ()

variable {P : Request → Prop}

theorem Asks.bind {c : Check α} {f : α → Check β} (hc : c.Asks P) (hf : ∀ a, (f a).Asks P) :
    (c >>= f).Asks P :=
  meets_bind.2 (hc.mono fun a _ _ => hf a)

theorem Asks.pure (a : α) : (Pure.pure a : Check α).Asks P := meets_pure.2 trivial

theorem Asks.gather {f : α → Check (List β)} {l : List α} (hf : ∀ a, (f a).Asks P) :
    (Check.gather f l).Asks P :=
  Meets.gather (I := fun _ => True) (fun a _ _ _ => hf a) trivial

/-- Whatever a check asks for in a run is of the kind. -/
theorem Asks.trace {σ : Type} {e : Surroundings σ} {s : σ} {c : Check α} (hc : c.Asks P)
    {x : Exchange σ} (hx : x ∈ c.run.trace e s) : P x.request :=
  Program.Meets.trace_only (Q := fun _ => True) (Program.Meets.mono hc fun _ _ _ => trivial) hx

end Check

variable {home : Node} {database : Database}

open Check

namespace Repair

theorem promote_asks : (promote home database).Asks (Request.OfCheck .repair) := by
  simp [promote, Request.OfCheck, Counter.OfCheck, Report.line, CheckName.area]

theorem install_asks {source : InstallSource} :
    (install home source).Asks (Request.OfCheck .repair) := by
  refine .bind (by simp [Request.OfCheck, Report.line, CheckName.area]) fun _ => ?_
  refine .bind (by simp [Request.OfCheck]) fun reply => ?_
  split <;> simp [Request.OfCheck, Counter.OfCheck, Report.line, CheckName.area]

theorem repairDatabase_asks : (repairDatabase home database).Asks (Request.OfCheck .repair) := by
  refine .bind (by simp [Request.OfCheck]) fun status => ?_
  split
  · refine .bind (.bind (.bind (by simp [Request.OfCheck]) fun _ => .pure _) fun peers => ?_)
      fun _ => .pure _
    split
    · exact .bind promote_asks fun _ => .pure _
    · exact .bind install_asks fun _ => .pure _
  · exact .pure _

/-- **What the repair check asks for.** -/
theorem check_asks (home : Node) : (check home).Asks (Request.OfCheck .repair) := by
  refine .bind (by simp [Request.OfCheck]) fun standing => ?_
  split
  · exact .bind (by simp [Request.OfCheck]) fun _ => .gather fun _ => repairDatabase_asks
  · exact .bind (by simp [Request.OfCheck, Report.line, CheckName.area]) fun _ => .pure _

end Repair

/-- **What the audit asks for.** -/
theorem Audit.check_asks (home : Node) : (check home).Asks (Request.OfCheck .audit) := by
  refine .bind (by simp [Request.OfCheck]) fun _ => .gather fun database => ?_
  refine .bind (by simp [Request.OfCheck]) fun status => ?_
  split
  · simp [Request.OfCheck, Counter.OfCheck, Report.line, CheckName.area]
  · exact .pure _

namespace Stall

variable {policy : DemotionPolicy}

theorem apply_asks {peer : Node} :
    (policy.apply home database peer).Asks (Request.OfCheck .stall) := by
  refine .bind (by simp [Request.OfCheck]) fun status => ?_
  split
  · split <;> simp [Request.OfCheck, Counter.OfCheck, Report.line, CheckName.area]
  · exact .pure _

theorem judgeRound_asks {peers : List Node} (responses? : Option Responses) :
    (judgeRound home policy database peers responses?).Asks (Request.OfCheck .stall) := by
  cases responses? with
  | none => simp [judgeRound, Request.OfCheck, Counter.OfCheck, Report.line, CheckName.area]
  | some responses =>
    refine .bind (by simp [Request.OfCheck, Counter.OfCheck]) fun _ => .gather fun peer => ?_
    exact .bind apply_asks fun _ => .pure _

theorem round_asks {peers : List Node} :
    (round home policy database peers).Asks (Request.OfCheck .stall) := by
  refine .bind (by simp [Request.OfCheck, Report.line, CheckName.area]) fun _ => ?_
  refine .bind (by simp [Request.OfCheck]) fun reply => ?_
  exact .bind (by simp) judgeRound_asks

theorem checkDatabase_asks :
    (checkDatabase home policy database).Asks (Request.OfCheck .stall) := by
  refine .bind (by simp [Request.OfCheck]) fun status => ?_
  split
  · refine .bind (.bind (by simp [Request.OfCheck]) fun _ => .pure _) fun peers => ?_
    split
    · exact .pure _
    · exact round_asks
  · exact .pure _

/-- **What the stall check asks for.** -/
theorem check_asks (home : Node) (policy : DemotionPolicy) :
    (check home policy).Asks (Request.OfCheck .stall) := by
  refine .bind (by simp [Request.OfCheck]) fun standing => ?_
  split
  · exact .bind (by simp [Request.OfCheck]) fun _ => .gather fun _ => checkDatabase_asks
  · exact .bind (by simp [Request.OfCheck, Report.line, CheckName.area]) fun _ => .pure _

end Stall

end Upkeep
