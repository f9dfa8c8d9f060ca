import Upkeep.Proofs.Audit.Findings
import Upkeep.Proofs.Cycle.Columns
import Upkeep.Proofs.Repair.Attempts

/-!
# Checks among well-behaved collaborators

An installer and a transport have `Manners` if they leave the directory alone and their answers
depend only on what they are asked: on the source of an install, or on the database and the peers of
a heartbeat, which then never fails but for want of answers.

* `Manners.repair`, `Manners.audit`, `Manners.stall` : the rules of the three checks.
* `Manners.Kept.repair_goesBy`, `Manners.Kept.stall_goesBy`, `Manners.audit_swept` : **each check
  goes by its rule**.
-/

namespace Upkeep

/-- How an installer and a transport answer that leave the directory alone. -/
structure Manners where
  /-- What becomes of an install. -/
  installs : InstallSource → Reply Bool
  /-- Who answers a heartbeat of a database that is sent to some peers, if anybody does. -/
  rounds : Database → List Node → (timeoutMs : Nat) → Option (Node → Bool)

namespace Manners

/-- A reply says who of some peers answered, or that nobody did. -/
inductive Says (peers : List Node) : Option (Node → Bool) → Reply Responses → Prop
  /-- Nobody answered, which may be said in either of the two forms. -/
  | nobody {reply : Reply Responses} (h : Stall.Unanswered reply) : Says peers none reply
  /-- There are answers, and of the peers those gave one of whom `answered` holds. -/
  | answers {responses : Responses} {answered : Node → Bool} (hsome : responses.isEmpty = false)
      (h : ∀ peer ∈ peers, responses.contains peer = answered peer) :
      Says peers (some answered) (.ok responses)

/-- An installer and a transport answer so in every world, and leave its directory as it is. -/
structure Kept {ρ : Type} (m : Manners) (installer : Installer (World ρ))
    (transport : Transport (World ρ)) : Prop where
  /-- The answer of the installer depends on the database and the source only. -/
  installs : ∀ source w, let x := (installer source).finish 0 w
    x.1.1 = m.installs source ∧ x.2.directory = w.directory
  /-- That of the transport depends on the database, the peers and the time they have only. -/
  rounds : ∀ database peers timeoutMs w, let x := (transport database peers timeoutMs).finish 0 w
    Says peers (m.rounds database peers timeoutMs) x.1.1 ∧ x.2.directory = w.directory

section Rules

/-! ### What the turn of a database comes to -/

variable (m : Manners) (policy : DemotionPolicy) (home : Node) (order : List Node)

/-- The nodes other than the home node that serve a database, in the order of the members. -/
def peers (c : Column) : List Node :=
  Directory.withoutHome home (order.filter fun node => c node = some .online)

/-- The turn of a database in the repair check. -/
def repair : Rule RecoveryAttempt := fun database c =>
  if c home = some .offline then
    match peers home order c with
    | [] => ⟨[⟨database, .promotedLastCopy⟩], Function.update c home (some .online)⟩
    | first :: others =>
      match Repair.failureReason (m.installs ⟨database, first, first :: others⟩) with
      | none => ⟨[⟨database, .recovered first⟩], Function.update c home (some .online)⟩
      | some reason => ⟨[⟨database, .failed first reason⟩], c⟩
  else ⟨[], c⟩

/-- The turn of a database in the audit. -/
def audit : Rule Database := fun database c => ⟨if c home = none then [database] else [], c⟩

/-- The peers about whose silence a round leaves something to decide. -/
def unheard (peers : List Node) : Option (Node → Bool) → List Node
  | none => []
  | some answered => peers.filter fun peer => !answered peer

/-- The peers that the turn of a database in the stall check shows to be silent. -/
def quiet (database : Database) (c : Column) : List Node :=
  let peers := peers home order c
  if c home = some .online then unheard peers (m.rounds database peers policy.timeoutMs) else []

/-- The turn of a database in the stall check. -/
def stall : Rule PeerDemotion := fun database c =>
  let quiet := m.quiet policy home order database c
  ⟨quiet.map fun peer => ⟨database, peer, policy.verdict (c peer)⟩, fun node =>
    if node ∈ quiet.filter fun peer => policy.verdict (c peer) = .demoted then some .offline
    else c node⟩

end Rules

variable {ρ : Type} {m : Manners} {policy : DemotionPolicy} {home : Node}
  {installer : Installer (World ρ)} {transport : Transport (World ρ)}
  {members : Table Node MemberStatus}

section Says

/-! ### What a reply says -/

variable {peers : List Node} {answered? : Option (Node → Bool)}

theorem Says.unheard_of_unanswered {reply : Reply Responses} (h : Says peers answered? reply)
    (hreply : Stall.Unanswered reply) : unheard peers answered? = [] := by
  cases h with
  | nobody => rfl
  | answers hsome =>
    cases hreply with
    | empty hempty => exact nomatch hempty.symm.trans hsome

theorem Says.unheard_of_answers {responses : Responses}
    (h : Says peers answered? (.ok responses)) (hsome : responses.isEmpty = false) :
    unheard peers answered? = Stall.silent peers responses := by
  cases h with
  | nobody h =>
    cases h with
    | empty hempty => exact nomatch hempty.symm.trans hsome
  | answers _ h => exact List.filter_congr fun peer hpeer => by rw [h peer hpeer]

/-- A heartbeat fails for want of answers only. -/
theorem Says.error_eq {a : Abort} (h : Says peers answered? (.error a)) :
    ∃ database, a = .failure (.allUnreachable database) := by
  cases h with
  | nobody h =>
    cases h with
    | allUnreachable database => exact ⟨database, rfl⟩

end Says

section Exchanges

/-! ### What is answered while a program runs -/

variable {α : Type} {p : Program α} {w : World ρ} {x : Exchange (World ρ)}

/-- What becomes of an install while a program runs. -/
theorem Kept.installed (hm : m.Kept installer transport)
    (hx : x ∈ p.acts (World.surroundings home installer transport) w) {source : InstallSource}
    {reply : Reply Bool} (htold : x.told = ⟨.install source, reply⟩) :
    reply = m.installs source ∧ x.after.directory = x.before.directory := by
  have hexchange := Program.exchange_of_mem (List.mem_filter.1 hx).1
  obtain ⟨request, before, answer, after⟩ := x
  cases htold
  obtain ⟨-, -, hanswer, hafter⟩ := Exchange.mk.inj hexchange
  obtain ⟨hsaid, hleft⟩ := hm.installs source before
  exact ⟨(eq_of_heq hanswer).trans hsaid, (congrArg World.directory hafter).trans hleft⟩

/-- Who answers a heartbeat while a program runs. -/
theorem Kept.answered (hm : m.Kept installer transport)
    (hx : x ∈ p.acts (World.surroundings home installer transport) w) {database : Database}
    {peers : List Node} {timeoutMs : Nat} {reply : Reply Responses}
    (htold : x.told = ⟨.heartbeat database peers timeoutMs, reply⟩) :
    Says peers (m.rounds database peers timeoutMs) reply ∧
      x.after.directory = x.before.directory := by
  have hexchange := Program.exchange_of_mem (List.mem_filter.1 hx).1
  obtain ⟨request, before, answer, after⟩ := x
  cases htold
  obtain ⟨-, -, hanswer, hafter⟩ := Exchange.mk.inj hexchange
  obtain ⟨hsaid, hleft⟩ := hm.rounds database peers timeoutMs before
  exact ⟨(eq_of_heq hanswer).symm ▸ hsaid, (congrArg World.directory hafter).trans hleft⟩

end Exchanges

section Turns

/-! ### The turns of a database -/

variable {w : World ρ}

theorem Kept.sparesInstaller (hm : m.Kept installer transport) : installer.SparesDirectory :=
  fun source w hopen => (congrArg Directory.closed (hm.installs source w).2).trans hopen

theorem Kept.sparesTransport (hm : m.Kept installer transport) : transport.SparesDirectory := by
  intro database peers timeoutMs w w'
  have hsame : w'.directory = w.directory := (hm.rounds database peers timeoutMs w).2
  exact ⟨hsame ▸ .refl _, fun hopen => hsame ▸ hopen⟩

/-- The turn of a database in the repair check leaves the directory as it is or sets the local copy
online, as the rule says. -/
theorem Kept.repaired (hm : m.Kept installer transport)
    {v : Visit (World ρ) Database RecoveryAttempt} (hv : Repair.Visited home v) {α : Type}
    {p : Program α}
    (hacts : ∀ x ∈ v.acts, x ∈ p.acts (World.surroundings home installer transport) w) :
    let d := v.before.directory
    let turned := m.repair home d.members.keys v.item (d.column v.item)
    v.reply = .ok turned.found ∧
      (v.after.directory = d ∧ turned.column = d.column v.item ∨
        v.after.directory = d.write ⟨home, v.item⟩ .online ∧
          turned.column = Function.update (d.column v.item) home (some .online)) := by
  cases hv with
  | @left database w hstatus =>
    have hlocal : w.directory.column database home ≠ some .offline := hstatus
    simp [repair, hlocal]
  | @promoted database w w' x hstatus hpeers hx hafter =>
    have hlocal : w.directory.column database home = some .offline := hstatus
    have hserve : peers home w.directory.members.keys (w.directory.column database) = [] := hpeers
    simp [repair, hlocal, hserve, hafter]
  | @recovered database w w' x y first others hstatus hpeers hx hbefore hy hafter =>
    have hlocal : w.directory.column database home = some .offline := hstatus
    have hserve : peers home w.directory.members.keys (w.directory.column database) =
      first :: others := hpeers
    obtain ⟨hreply, hleft⟩ := hm.installed (hacts x (List.mem_cons_self ..)) hx
    rw [hleft, hbefore] at hafter
    simp [repair, hlocal, hserve, hafter, ← hreply, Repair.failureReason]
  | @failed database w w' x first others reply reason hstatus hpeers hx hbefore hreason hafter =>
    have hlocal : w.directory.column database home = some .offline := hstatus
    have hserve : peers home w.directory.members.keys (w.directory.column database) =
      first :: others := hpeers
    obtain ⟨hreply, hleft⟩ := hm.installed (hacts x (List.mem_cons_self ..)) hx
    rw [hleft, hbefore] at hafter
    simp [repair, hlocal, hserve, hafter, ← hreply, hreason]

/-- **The repair check goes by its rule.** -/
theorem Kept.repair_goesBy (hm : m.Kept installer transport) :
    Check.GoesBy (World.surroundings home installer transport) (World.Ready home members)
      (Repair.repairDatabase home) (m.repair home members.keys) := by
  intro database w hw
  obtain ⟨v, rfl, rfl, hruns, hvisited, -⟩ :=
    Repair.runs_repairDatabase home hm.sparesInstaller transport database w hw.opened
  obtain ⟨hreply, hafter⟩ := hm.repaired (p := (Repair.repairDatabase home v.item).run)
    (w := v.before) hvisited fun x hx => by rwa [hruns.acts_eq]
  rw [hreply, hw.members_eq] at hruns
  rw [hw.members_eq] at hafter
  refine ⟨v.acts, v.after, hruns, ?_⟩
  obtain ⟨hsame, hcolumn⟩ | ⟨hwritten, hcolumn⟩ := hafter
  · rw [hcolumn, hsame]
    exact ⟨hw.of_evolves (hsame ▸ .refl _) (hsame ▸ .refl _), .refl _ _, rfl⟩
  · have honly := v.before.directory.onlyOf_write ⟨home, v.item⟩ .online
    rw [hcolumn, hwritten]
    refine ⟨hw.of_evolves ?_ ?_, honly, Directory.column_write _ _ _ _⟩
    · exact hwritten ▸ Directory.evolves_write hw.opened _ _
    · exact hwritten ▸ honly.toSameFrame

/-- Somebody answers a round and the silent peers are decided about, or nobody does. -/
theorem Kept.held (hm : m.Kept installer transport) {database : Database} {peers : List Node}
    {d d' : Directory} {acts : List (Exchange (World ρ))} {reply : Reply (List PeerDemotion)}
    (hround : Stall.Held policy database peers d acts reply d') {α : Type} {p : Program α}
    (hacts : ∀ x ∈ acts, x ∈ p.acts (World.surroundings home installer transport) w) :
    let quiet := unheard peers (m.rounds database peers policy.timeoutMs)
    reply = .ok (Stall.decisions policy d database quiet) ∧
      d' = d.strike database (Stall.struck policy d database quiet) := by
  cases hround with
  | @unanswered x reply hx hbefore hreply =>
    obtain ⟨hsaid, hleft⟩ := hm.answered (hacts x (List.mem_cons_self ..)) hx
    rw [hleft, hbefore, hsaid.unheard_of_unanswered hreply]
    exact ⟨rfl, rfl⟩
  | @decided x writes responses hx hbefore hsome hwrites =>
    obtain ⟨hsaid, hleft⟩ := hm.answered (hacts x (List.mem_cons_self ..)) hx
    rw [hleft, hbefore, hsaid.unheard_of_answers hsome]
    exact ⟨rfl, rfl⟩
  | @broken x a hx hbefore ha =>
    obtain ⟨hsaid, -⟩ := hm.answered (hacts x (List.mem_cons_self ..)) hx
    obtain ⟨other, hother⟩ := hsaid.error_eq
    exact absurd hother (ha other)

/-- The turn of a database in the stall check sets offline the copies of some peers, as the rule
says. -/
theorem Kept.judged (hm : m.Kept installer transport)
    {v : Visit (World ρ) Database PeerDemotion} (hv : Stall.Visited home policy v) {α : Type}
    {p : Program α}
    (hacts : ∀ x ∈ v.acts, x ∈ p.acts (World.surroundings home installer transport) w) :
    let d := v.before.directory
    let turned := m.stall policy home d.members.keys v.item (d.column v.item)
    v.reply = .ok turned.found ∧ ∃ struck, v.after.directory = d.strike v.item struck ∧
      turned.column = fun node => if node ∈ struck then some .offline else d.column v.item node := by
  cases hv with
  | @idle database w hidle =>
    have hquiet : m.quiet policy home w.directory.members.keys database
        (w.directory.column database) = [] := by
      by_cases hlocal : w.directory.column database home = some .online
      · have hserve : peers home w.directory.members.keys (w.directory.column database) = [] :=
          Decidable.byContradiction fun hne => of_decide_eq_false hidle ⟨hlocal, hne⟩
        simp only [quiet, if_pos hlocal, hserve]
        cases m.rounds database [] policy.timeoutMs <;> rfl
      · exact if_neg hlocal
    simp only [stall, hquiet]
    exact ⟨rfl, [], rfl, by simp⟩
  | @held database w w' acts reply hholds hround =>
    obtain ⟨hlocal, -⟩ : w.directory.column database home = some .online ∧ _ :=
      of_decide_eq_true hholds
    have hquiet : m.quiet policy home w.directory.members.keys database
        (w.directory.column database) = unheard (Stall.peersOf home w.directory database)
          (m.rounds database (Stall.peersOf home w.directory database) policy.timeoutMs) :=
      if_pos hlocal
    obtain ⟨hreply, hstruck⟩ := hm.held hround hacts
    simp only [stall, hquiet]
    exact ⟨hreply, _, hstruck, rfl⟩

/-- **The stall check goes by its rule.** -/
theorem Kept.stall_goesBy (hm : m.Kept installer transport) (policy : DemotionPolicy) :
    Check.GoesBy (World.surroundings home installer transport) (World.Ready home members)
      (Stall.checkDatabase home policy) (m.stall policy home members.keys) := by
  intro database w hw
  obtain ⟨v, rfl, rfl, hruns, ⟨hvisited, -⟩, -⟩ := Stall.runs_checkDatabase home installer
    hm.sparesTransport policy database w ⟨hw.reach, hw.opened⟩
  obtain ⟨hreply, struck, hstruck, hcolumn⟩ := hm.judged
    (p := (Stall.checkDatabase home policy v.item).run) (w := v.before) hvisited
    fun x hx => by rwa [hruns.acts_eq]
  rw [hreply, hw.members_eq] at hruns
  rw [hw.members_eq] at hcolumn
  have honly := v.before.directory.onlyOf_strike v.item struck
  refine ⟨v.acts, v.after, hruns, ?_⟩
  rw [hcolumn, hstruck]
  refine ⟨hw.of_evolves ?_ ?_, honly, Directory.column_strike _ _ _⟩
  · exact hstruck ▸ (Directory.evolves_strike _ _ hw.opened).1
  · exact hstruck ▸ honly.toSameFrame

end Turns

/-- The audit takes each database by itself. -/
theorem audit_swept (home : Node) (d : Directory) :
    Check.Swept (audit home) d.hosted d (d.missing home) d := by
  refine ⟨?_, fun _ _ => rfl, fun _ _ => rfl, .refl d⟩
  rw [Directory.missing]
  induction d.hosted with
  | nil => rfl
  | cons database rest ih =>
    rw [List.filter_cons, List.flatMap_cons, ← ih]
    by_cases hnone : d.column database home = none
    · have hlacks : d.lacks home database = true := decide_eq_true hnone
      rw [if_pos hlacks, audit, if_pos hnone]
      rfl
    · have hhas : ¬d.lacks home database = true := fun h => hnone (of_decide_eq_true h)
      rw [if_neg hhas, audit, if_neg hnone]
      rfl

/-! ### What a rule finds is about the database whose turn it is -/

theorem about_repair (m : Manners) (home : Node) (order : List Node) :
    (m.repair home order).About RecoveryAttempt.database := by
  intro database c x hx
  simp only [repair] at hx
  split at hx
  · split at hx
    · exact congrArg RecoveryAttempt.database (List.mem_singleton.1 hx)
    · split at hx <;> exact congrArg RecoveryAttempt.database (List.mem_singleton.1 hx)
  · exact nomatch hx

theorem about_audit (home : Node) : (audit home).About id := by
  intro database c x hx
  simp only [audit] at hx
  split at hx
  · exact List.mem_singleton.1 hx
  · exact nomatch hx

theorem about_stall (m : Manners) (policy : DemotionPolicy) (home : Node) (order : List Node) :
    (m.stall policy home order).About PeerDemotion.database := by
  intro database c x hx
  obtain ⟨peer, -, rfl⟩ := List.mem_map.1 hx
  rfl

end Manners

end Upkeep
