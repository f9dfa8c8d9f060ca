import Upkeep.Proofs.Cycle.Vocabulary

/-!
# What is asked about a database

A request is about a database if it names it, or puts a line on record that does
(`Request.names`).  What a check makes of a local copy that has a status is about that database
alone.

* `Repair.recover_names`, `Stall.round_names` : the recovery of a copy and a round of heartbeats.
* `Check.Asks.meets` : what a check may ask for, whatever it is answered, decides how it fares under
  any terms.
-/

namespace Upkeep

namespace Request

/-- Whether a request is about a database. -/
def names (database : Database) : Request → Bool
  | .status key | .setStatus key _ => key.database = database
  | .onlineNodes other | .heartbeat other _ _ => other = database
  | .install source => source.database = database
  | .note (.report r) => ("db", FieldValue.text database) ∈ r.line.fields
  | .homeStatus | .databases | .note (.count _) => false

/-- The request is about this database, or about none. -/
def OnlyNames (database : Database) (r : Request) : Prop :=
  ∀ other, r.names other = true → database = other

theorem OnlyNames.not_names {database other : Database} {r : Request} (hr : r.OnlyNames database)
    (hne : database ≠ other) : r.names other = false :=
  eq_false_of_ne_true fun hnames => hne (hr other hnames)

end Request

/-- A check keeps an invariant under any terms that allow what it may ask for and whose answers to
that keep it. -/
theorem Check.Asks.meets {α β : Type} {P : Request → Prop} {c : Check α} (hc : c.Asks P)
    {t : Terms β} {I : β → Prop}
    (hI : ∀ b r x b', I b → P r → t.answers b r x b' → t.allows b r b' ∧ I b') {b : β} (hb : I b) :
    Check.Meets t (fun _ => I) c b := by
  have hprogram : ∀ {p : Program (Reply α)} {b : β}, I b →
      p.Meets (.only P) (fun reply _ => ∀ a, reply = .ok a → True) () →
      p.Meets t (fun reply b' => ∀ a, reply = .ok a → I b') b := by
    intro p
    induction p with
    | done a => exact fun hb _ _ _ => hb
    | ask r next ih =>
      intro b hb hp x b' hx
      obtain ⟨hr, hnext⟩ := hp x () trivial
      obtain ⟨hallowed, hb'⟩ := hI b r x b' hb hr hx
      exact ⟨hallowed, ih x hb' hnext⟩
  exact hprogram hb hc

theorem Check.Asks.weaken {α : Type} {P P' : Request → Prop} {c : Check α} (hc : c.Asks P)
    (hP : ∀ r, P r → P' r) : c.Asks P' :=
  hc.meets (fun _ r _ _ _ hr _ => ⟨hP r hr, trivial⟩) trivial

variable {home : Node} {database : Database}

open Check

/-- What the recovery of a copy asks for is about its database. -/
theorem Repair.recover_names : (recover home database).Asks (Request.OnlyNames database) := by
  refine .bind (.bind ?_ fun _ => .pure _) fun peers => ?_
  · simp [Request.OnlyNames, Request.names]
  split
  -- nobody else serves the database, or somebody does
  · refine .bind ?_ fun _ => .pure _
    simp [promote, Request.OnlyNames, Request.names, Report.line]
  · refine .bind (.bind ?_ fun _ => .bind ?_ fun reply => ?_) fun _ => .pure _
    · simp [Request.OnlyNames, Request.names, Report.line]
    · simp [Request.OnlyNames, Request.names]
    · split <;> simp [Request.OnlyNames, Request.names, Report.line]

namespace Stall

variable {policy : DemotionPolicy}

theorem apply_names {peer : Node} :
    (policy.apply home database peer).Asks (Request.OnlyNames database) := by
  refine .bind (by simp [Request.OnlyNames, Request.names]) fun status => ?_
  split
  · split <;> simp [Request.OnlyNames, Request.names, Report.line]
  · exact .pure _

/-- What a round of heartbeats asks for is about its database. -/
theorem round_names {peers : List Node} :
    (round home policy database peers).Asks (Request.OnlyNames database) := by
  refine .bind (by simp [Request.OnlyNames, Request.names, Report.line]) fun _ => ?_
  refine .bind (by simp [Request.OnlyNames, Request.names]) fun reply => ?_
  refine .bind (by simp) fun responses? => ?_
  cases responses? with
  | none => simp [judgeRound, Request.OnlyNames, Request.names, Report.line]
  | some responses =>
    refine .bind (by simp [Request.OnlyNames, Request.names]) fun _ => .gather fun peer => ?_
    exact .bind apply_names fun _ => .pure _

end Stall

end Upkeep
