import Upkeep.Proofs.Cycle.Accounts

/-!
# The books of a loop balance

Cycles and single checks are run one after another, in surroundings that show a directory which
others may change meanwhile, and in which any call may fail.

* `Job` : a single check, a cycle, or a call of the cycle that passes over.
* `Job.balanced` : **whatever a job is answered**, and however it ends, its writes are counted.
* `Cycle.reconciliation` : over any number of jobs as many statuses were set as recoveries and
  demotions were counted; and what a check returns agrees with what it counted.
-/

namespace Upkeep

variable {σ α β : Type}

namespace Program

/-- Whatever a program is answered, its ledger is balanced in the end. -/
def Balances (p : Program α) : Prop :=
  ∀ l, p.Meets .booked (fun _ l' => ∃ own : Ledger, l' = l + own ∧ own.Balanced) l

theorem Balances.pure (a : α) : (Pure.pure a : Program α).Balances :=
  fun l => ⟨0, (add_zero l).symm, Ledger.balanced_zero⟩

theorem Balances.bind {p : Program α} {f : α → Program β} (hp : p.Balances)
    (hf : ∀ a, (f a).Balances) : (p >>= f).Balances := by
  refine fun l => meets_bind.2 ((hp l).mono ?_)
  rintro a _ ⟨own, rfl, hown⟩
  refine (hf a (l + own)).mono ?_
  rintro b _ ⟨own', rfl, hown'⟩
  exact ⟨own + own', add_assoc l own own', hown.add hown'⟩

theorem balances_report (r : Report) : (report r).Balances := by
  rintro l x _ ⟨rfl, -⟩
  exact ⟨trivial, _, rfl, rfl⟩

/-- An event that stands for no write leaves the books balanced. -/
theorem balances_count {c : Counter} (hc : (Ledger.of [⟨.note (.count c), ()⟩]).Balanced) :
    (count c).Balances := by
  rintro l x _ ⟨rfl, -⟩
  exact ⟨trivial, _, rfl, hc⟩

end Program

/-- The ledger of a check is balanced however it ends. -/
theorem Check.Books.balances {S : α → Ledger → Prop} {c : Check α} (hc : c.Books S) :
    (ExceptT.run c).Balances := by
  refine fun l => (hc l).mono ?_
  rintro reply l' ⟨own, hl', hown, -⟩
  exact ⟨own, hl', hown⟩

namespace Cycle

open Program

variable {home : Node} {policy : DemotionPolicy}

theorem guarded_balances {name : CheckName} {c : Check α} (hc : (ExceptT.run c).Balances) :
    (guarded home name c).Balances := by
  refine .bind hc fun reply => ?_
  cases reply with
  | ok a => exact .pure true
  | error a =>
    simp only [absorb]
    split
    · exact .pure false
    · exact .bind (balances_report _) fun _ => .bind (balances_count rfl) fun _ => .pure true

theorem body_balances (home : Node) (policy : DemotionPolicy) : (body home policy).Balances := by
  have hchecks : (checks home policy).Balances := by
    refine .bind (guarded_balances (Repair.check_books home).balances) fun goesOn => ?_
    split
    · refine .bind (guarded_balances (Audit.check_books home).balances) fun goesOn => ?_
      split
      · refine .bind (guarded_balances (Stall.check_books home policy).balances) fun goesOn => ?_
        split
        · exact .pure _
        · exact .pure _
      · exact .pure _
    · exact .pure _
  exact .bind (balances_report _) fun _ => .bind (balances_count rfl) fun _ =>
    .bind hchecks fun outcome => .bind (balances_report _) fun _ => .pure outcome

end Cycle

/-- Something that the loop is asked to do. -/
inductive Job
  /-- A single check. -/
  | check (name : CheckName)
  /-- A cycle. -/
  | cycle
  /-- A call of the cycle that finds another one running. -/
  | passOver
  deriving Repr, DecidableEq

namespace Job

/-- What is done. -/
def program (home : Node) (policy : DemotionPolicy) : Job → Program Unit
  | check name => Cycle.checkOf home policy name
  | cycle => Cycle.body home policy >>= fun _ => pure ()
  | passOver => Cycle.passOver home >>= fun _ => pure ()

/-- Jobs are done one after another. -/
def programAll (home : Node) (policy : DemotionPolicy) : List Job → Program Unit
  | [] => pure ()
  | job :: jobs => job.program home policy >>= fun _ => programAll home policy jobs

/-- **The writes of a job are counted**, whatever it is answered and however it ends. -/
theorem balanced (home : Node) (policy : DemotionPolicy) (job : Job) :
    (job.program home policy).Balances := by
  cases job with
  | check name =>
    cases name with
    | repair => exact .bind (Repair.check_books home).balances fun _ => .pure ()
    | audit => exact .bind (Audit.check_books home).balances fun _ => .pure ()
    | stall => exact .bind (Stall.check_books home policy).balances fun _ => .pure ()
  | cycle => exact .bind (Cycle.body_balances home policy) fun _ => .pure ()
  | passOver =>
    refine .bind ?_ fun _ => .pure ()
    exact .bind (Program.balances_report _) fun _ => .bind (Program.balances_count rfl) fun _ =>
      .pure _

theorem balanced_all (home : Node) (policy : DemotionPolicy) :
    ∀ jobs, (programAll home policy jobs).Balances
  | [] => .pure ()
  | job :: jobs => .bind (job.balanced home policy) fun _ => balanced_all home policy jobs

end Job

/-- A directory that answers a request went on by operations. -/
theorem Directory.Responds.evolves {d d' : Directory} {r : Request} {x : r.Answer}
    (h : d.Responds Evolves r x d') : Evolves d d' := by
  cases r with
  | homeStatus | databases | status | onlineNodes => exact h.1 ▸ .refl d
  | setStatus key s =>
    obtain hset | ⟨rfl, -⟩ := h
    · exact ⟨[.setStatus key s], by simp [performAll, perform, hset]⟩
    · exact .refl d'
  | install | heartbeat => exact h
  | note n => exact h ▸ .refl d

namespace Surroundings

variable {e : Surroundings σ} {dir : σ → Directory} {home : Node}

/-- What is asked for leaves a directory that can be reached. -/
theorem Reflects.reachable (he : e.Reflects dir Directory.Evolves) (s : σ) (r : Request)
    (hs : (dir s).Reachable home) : (dir (e.exchange r s).after).Reachable home := by
  obtain ⟨standing, hevolves⟩ := hs
  exact ⟨standing, hevolves.trans (he.exchange r s).evolves⟩

/-- A directory that can be reached tells its databases without repetitions. -/
theorem Reflects.proper_exchange (he : e.Reflects dir Directory.Evolves) (r : Request) {s : σ}
    (hs : (dir s).Reachable home) : (e.exchange r s).told.Proper := by
  cases r with
  | homeStatus | status | setStatus | onlineNodes | install | heartbeat | note => trivial
  | databases =>
    show Told.Proper ⟨.databases, (e.directory.databases s).1⟩
    cases hreply : (e.directory.databases s).1 with
    | error => trivial
    | ok names =>
      obtain ⟨-, rfl⟩ := Directory.whileOpen_eq_ok.1 ((he.databases s).2 names hreply)
      exact hs.nodup_hosted

/-- So it does all along a run. -/
theorem Reflects.proper (he : e.Reflects dir Directory.Evolves) {p : Program α} {s : σ}
    (hs : (dir s).Reachable home) : ∀ x ∈ p.trace e s, x.told.Proper := by
  intro x hx
  obtain ⟨before, after, htrace⟩ := List.append_of_mem hx
  obtain ⟨hreach, hexchange⟩ := Program.trace_invariant (e := e)
    (I := fun _ s => (dir s).Reachable home) (h := [])
    (fun _ s r hs => he.reachable s r hs) hs htrace
  have hproper := he.proper_exchange x.request hreach
  rwa [← hexchange] at hproper

/-- A counter grows by what was told of it to a program that runs alone. -/
theorem Records.told {c : Counter} {total : σ → Nat} (h : e.Records c total) (p : Program α)
    (s : σ) : total (p.outcome e s).2 =
      total s + (Ledger.of ((p.trace e s).map Exchange.told)).counted c := by
  rw [h.outcome, List.count, List.countP_map]
  show _ = total s + List.countP (Told.isCount c) ((p.trace e s).map Exchange.told)
  rw [List.countP_map]
  rfl

end Surroundings

namespace Cycle

/-- **The books of the loop balance.**  Whatever a job is answered, also if other jobs run at the
same time, its writes are counted.  In surroundings that show a directory, which others may change
meanwhile and of which any call may fail: whatever jobs are done one after another, and however each
of them ends, as many statuses were set as recoveries and demotions were counted; and if a check
ends well, the counters grew by what it returns and by what came of its heartbeats. -/
theorem reconciliation (e : Surroundings σ) (policy : DemotionPolicy) {dir : σ → Directory}
    (he : e.Reflects dir Directory.Evolves) {total : Counter → σ → Nat}
    (htotal : ∀ c, e.Records c (total c)) {s : σ} (hs : (dir s).Reachable e.home) :
    (∀ job : Job, (job.program e.home policy).Balances) ∧
    (∀ jobs : List Job,
      let p := Job.programAll e.home policy jobs
      let s' := (p.outcome e s).2
      total (.recoveries "promoted") s' + total (.recoveries "recovered") s' +
          total (.demotions "demoted") s' =
        total (.recoveries "promoted") s + total (.recoveries "recovered") s +
          total (.demotions "demoted") s +
          ((p.trace e s).map Exchange.told).countP Told.isWrite) ∧
    (∀ attempts s', (Repair.check e.home).run.outcome e s = (.ok attempts, s') →
      ∀ label, total (.recoveries label) s' =
        total (.recoveries label) s + attempts.countP fun a => a.outcome.label = label) ∧
    (∀ missing s', (Audit.check e.home).run.outcome e s = (.ok missing, s') →
      total .missingStatuses s' = total .missingStatuses s + missing.length) ∧
    ∀ decisions s', (Stall.check e.home policy).run.outcome e s = (.ok decisions, s') →
      let told := ((Stall.check e.home policy).run.trace e s).map Exchange.told
      let rounds := fun label => told.countP fun x => x.roundLabel? = some label
      (∀ label, total (.demotions label) s' =
        total (.demotions label) s + decisions.countP fun d => d.outcome.label? = some label) ∧
      (∀ label, total (.rounds label) s' = total (.rounds label) s + rounds label) ∧
      told.countP Told.isRound = rounds "unreachable" + rounds "complete" + rounds "partial" ∧
      rounds "partial" = (decisions.map PeerDemotion.database).toFinset.card := by
  have hgrown : ∀ {α : Type} (p : Program α) (c : Counter), total c (p.outcome e s).2 =
      total c s + (Ledger.of ((p.trace e s).map Exchange.told)).counted c :=
    fun p c => (htotal c).told p s
  refine ⟨Job.balanced e.home policy, fun jobs => ?_, fun attempts s' hrun label => ?_,
    fun missing s' hrun => ?_, fun decisions s' hrun => ?_⟩
  · obtain ⟨own, hsum, hown⟩ :=
      (Job.balanced_all e.home policy jobs 0).ledger (he.proper hs)
    rw [zero_add, zero_add] at hsum
    have hbalanced : (Ledger.of (((Job.programAll e.home policy jobs).trace e s).map
      Exchange.told)).Balanced := hsum ▸ hown
    simp only [Ledger.Balanced, Ledger.of] at hbalanced
    simp only [hgrown, Ledger.of, hbalanced]
    omega
  · have hbooks := ((Repair.check_books e.home).run (he.proper hs)).2
    have htotals := hgrown (Repair.check e.home).run (.recoveries label)
    rw [hrun] at hbooks htotals
    rw [htotals, hbooks attempts rfl label]
  · have hbooks := ((Audit.check_books e.home).run (he.proper hs)).2
    have htotals := hgrown (Audit.check e.home).run .missingStatuses
    rw [hrun] at hbooks htotals
    rw [htotals, hbooks missing rfl]
  · have hbooks := ((Stall.check_books e.home policy).run (he.proper hs)).2
    have htotals := hgrown (Stall.check e.home policy).run
    rw [hrun] at hbooks htotals
    obtain ⟨hdemotions, hrounds, hsent, hsilent⟩ := hbooks decisions rfl
    refine ⟨fun label => ?_, fun label => ?_, hsent, hsilent⟩
    · rw [htotals, hdemotions]
    · rw [htotals, hrounds]
      rfl

/-- A node with a database that it can fetch, one that nobody else has, and one that it never had a
status for. -/
def shortOfCopies : World Unit where
  directory := ((Directory.create "n1" .online).performAll
    [.enroll "n2" .online, .enroll "n3" .online, .host "Orders", .host "Archive", .host "Users",
      .setStatus ⟨"n1", "Orders"⟩ .offline, .setStatus ⟨"n2", "Orders"⟩ .online,
      .setStatus ⟨"n3", "Orders"⟩ .online, .setStatus ⟨"n1", "Archive"⟩ .offline]).2
  own := ()

/-- One copy is promoted, one is recovered and one peer is demoted: three statuses are set.  A check
of its own finds the one copy that is missing. -/
theorem reconciliation_shortOfCopies :
    let p := Job.programAll "n1" ⟨true, 200⟩ [.passOver, .cycle, .check .stall]
    let w := (p.outcome growingCluster shortOfCopies).2
    let audit := (Audit.check "n1").run.outcome growingCluster shortOfCopies
    ((p.trace growingCluster shortOfCopies).map Exchange.told).countP Told.isWrite = 3 ∧
      w.journal.tally.count (.recoveries "promoted") = 1 ∧
      w.journal.tally.count (.recoveries "recovered") = 1 ∧
      w.journal.tally.count (.demotions "demoted") = 1 ∧
      audit.2.journal.tally.count .missingStatuses = 1 := by
  intro p w audit
  have hrecords : ∀ c, growingCluster.Records c fun w => w.journal.tally.count c := fun c =>
    World.records c (fun _ _ _ _ => ⟨rfl, trivial⟩) fun _ _ _ _ _ _ => ⟨rfl, trivial⟩
  obtain ⟨-, hjobs, -, haudit, -⟩ := reconciliation growingCluster ⟨true, 200⟩
    growingCluster_reflects hrecords (s := shortOfCopies) ⟨.online, _, rfl⟩
  have hpromoted : w.journal.tally.count (.recoveries "promoted") = 1 := by decide
  have hrecovered : w.journal.tally.count (.recoveries "recovered") = 1 := by decide
  have hdemoted : w.journal.tally.count (.demotions "demoted") = 1 := by decide
  have hbalance : w.journal.tally.count (.recoveries "promoted") +
      w.journal.tally.count (.recoveries "recovered") +
      w.journal.tally.count (.demotions "demoted") =
      0 + ((p.trace growingCluster shortOfCopies).map Exchange.told).countP Told.isWrite :=
    hjobs [.passOver, .cycle, .check .stall]
  have hmissing : audit.1 = .ok ["Users"] := by decide
  have hgrown : audit.2.journal.tally.count .missingStatuses = 0 + 1 :=
    haudit ["Users"] audit.2 (Prod.ext hmissing rfl)
  refine ⟨?_, hpromoted, hrecovered, hdemoted, hgrown⟩
  rw [hpromoted, hrecovered, hdemoted] at hbalance
  omega

end Cycle

end Upkeep
