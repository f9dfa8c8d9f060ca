import Upkeep.Cycle
import Upkeep.Proofs.Steady.Turns

/-!
# The checks in a steady climate

What the tree of requests of a cycle does under the terms of a climate: each check does to an open
directory what its counterpart in `Climate` says.

* `Stall.answers_of_round` : what an answer within the climate says about the peers that were asked.
* `Cycle.steady_body` : **in a steady climate a cycle does what `Climate.cycle` says.**
-/

namespace Upkeep

variable {α β : Type} {c : Climate} {policy : DemotionPolicy} {home : Node} {b : Scene}

open Program (meets_run_bind meets_run_of_ok meets_run_ok meets_run_reply)

namespace Check

/-- The check does not fail, and does to an open directory what `f` says. -/
def Does (c : Climate) (f : Directory → Scene) (check : Check α) : Prop :=
  ∀ b : Scene, b.directory.closed = false →
    Program.Meets (.steady c) (fun reply b' => ∃ a, reply = .ok a ∧ b' = b.next f) check.run b

/-- A check that does something and goes on does what both do. -/
theorem Does.bind {check : Check α} {k : α → Check β} {f g : Directory → Scene}
    (h : check.Does c f) (hopen : ∀ d, d.closed = false → (f d).directory.closed = false)
    (hk : ∀ a, (k a).Does c g) : (check >>= k).Does c fun d => (f d).next g := by
  intro b hb
  refine meets_run_of_ok (h b hb) ?_
  rintro a _ rfl
  rw [← Scene.next_next]
  exact hk a _ (hopen _ hb)

theorem does_pure (a : α) : (pure a : Check α).Does c fun d => ⟨d, []⟩ :=
  fun b _ => ⟨a, rfl, b.next_still.symm⟩

/-- What the members of a list do is done one after another. -/
theorem Does.gather {f : α → Check (List β)} {g : α → Directory → Scene}
    (hf : ∀ a, (f a).Does c (g a))
    (hopen : ∀ a d, d.closed = false → (g a d).directory.closed = false) :
    ∀ l : List α, (Check.gather f l).Does c (Scene.all g l)
  | [] => does_pure []
  | a :: rest => by
    refine (hf a).bind (hopen a) fun found b hb => ?_
    refine meets_run_of_ok (Does.gather hf hopen rest b hb) ?_
    rintro later _ rfl
    exact ⟨found ++ later, rfl, rfl⟩

end Check

namespace Repair

theorem steady_promote (home : Node) (database : Database) : (promote home database).Does c fun d =>
    ⟨d.write ⟨home, database⟩ .online, [.setStatus ⟨home, database⟩ .online]⟩ := by
  intro b hopen
  unfold promote
  refine meets_run_ok (Program.steady_report rfl) ?_
  refine meets_run_ok (Program.steady_setStatus hopen _ _) ?_
  exact meets_run_ok (Program.steady_count rfl) ⟨_, rfl, rfl⟩

theorem steady_install (home : Node) (source : InstallSource) : (install home source).Does c fun d =>
    if c.fails source then ⟨d, [.install source]⟩
    else ⟨d.write ⟨home, source.database⟩ .online,
      [.install source, .setStatus ⟨home, source.database⟩ .online]⟩ := by
  intro b hopen
  unfold install
  refine meets_run_ok (Program.steady_report rfl) ?_
  refine meets_run_ok (Program.steady_install _) ?_
  cases hreason : failureReason (c.installs source) with
  | none =>
    refine meets_run_ok (Program.steady_setStatus (b := b.mark (.install source)) hopen _ _) ?_
    refine meets_run_ok (Program.steady_report rfl) ?_
    refine meets_run_ok (Program.steady_count rfl) ⟨_, rfl, ?_⟩
    simp [Scene.mark, Scene.next, List.filter, Request.isMark, Climate.fails, hreason]
  | some reason =>
    refine meets_run_ok (Program.steady_report rfl) ?_
    refine meets_run_ok (Program.steady_count rfl) ⟨_, rfl, ?_⟩
    simp [Scene.mark, Scene.next, List.filter, Request.isMark, Climate.fails, hreason]

/-- **The turn of a database in the repair check.** -/
theorem steady_repairDatabase (home : Node) (database : Database) :
    (repairDatabase home database).Does c (c.repairTurn home database) := by
  intro b hopen
  unfold repairDatabase
  refine meets_run_ok (Program.steady_status hopen _) ?_
  by_cases hoffline : b.directory.entries.find? ⟨home, database⟩ = some .offline
  · rw [if_pos hoffline]
    unfold recover
    simp only [bind_assoc]
    refine meets_run_ok (Program.steady_onlinePeers hopen _ _) ?_
    cases hpeers : Stall.peersOf home b.directory database with
    | nil =>
      rw [Stall.peersOf] at hpeers
      simp only [hpeers, bind_assoc, pure_bind]
      refine meets_run_of_ok (steady_promote home database b hopen) ?_
      rintro outcome _ rfl
      refine ⟨_, rfl, ?_⟩
      simp only [Scene.next, Climate.repairTurn, if_pos hoffline, Stall.peersOf, hpeers]
    | cons first others =>
      rw [Stall.peersOf] at hpeers
      simp only [hpeers, bind_assoc, pure_bind]
      refine meets_run_of_ok (steady_install home ⟨database, first, first :: others⟩ b hopen) ?_
      rintro outcome _ rfl
      refine ⟨_, rfl, ?_⟩
      simp only [Scene.next, Climate.repairTurn, if_pos hoffline, Stall.peersOf, hpeers]
  · rw [if_neg hoffline]
    refine ⟨_, rfl, ?_⟩
    simp only [Scene.next, Climate.repairTurn_of_not_offline hoffline, List.append_nil]

/-- **The repair check.** -/
theorem steady_check (home : Node) : (check home).Does c (c.repairCheck home) := by
  intro b hopen
  unfold check
  refine meets_run_ok (Program.steady_homeStatus hopen) ?_
  split
  · rename_i honline
    refine meets_run_ok (Program.steady_databases hopen) ?_
    refine (Check.Does.gather (steady_repairDatabase home)
      (fun database d hd => (Climate.onlyOf_repairTurn database d).closed.trans hd)
      _ b hopen).mono ?_
    rintro reply _ ⟨found, rfl, rfl⟩
    refine ⟨found, rfl, ?_⟩
    simp only [Scene.next, Climate.repairCheck, if_pos honline]
  · rename_i honline
    refine meets_run_ok (Program.steady_report rfl) ⟨_, rfl, ?_⟩
    simp only [Scene.next, Climate.repairCheck, if_neg honline, List.append_nil]

end Repair

/-- Whoever goes through a list and does nothing has done nothing. -/
theorem Scene.all_still (l : List α) (d : Directory) :
    Scene.all (fun _ d => ⟨d, []⟩) l d = ⟨d, []⟩ := by
  induction l with
  | nil => rfl
  | cons a rest ih => simp only [all, next, ih, List.append_nil]

namespace Audit

/-- **The audit** changes nothing. -/
theorem steady_check (home : Node) : (check home).Does c fun d => ⟨d, []⟩ := by
  intro b hopen
  unfold check
  refine meets_run_ok (Program.steady_databases hopen) ?_
  have hdatabase : ∀ database, (auditDatabase home database).Does c fun d => ⟨d, []⟩ := by
    intro database b hopen
    unfold auditDatabase
    refine meets_run_ok (Program.steady_status hopen _) ?_
    split
    · refine meets_run_ok (Program.steady_report rfl) ?_
      exact meets_run_ok (Program.steady_count rfl) ⟨_, rfl, b.next_still.symm⟩
    · exact ⟨_, rfl, b.next_still.symm⟩
  have hall := Check.Does.gather hdatabase (fun _ _ hd => hd) b.directory.hosted b hopen
  simpa only [funext (Scene.all_still b.directory.hosted)] using hall

end Audit

namespace Stall

/-- A round that fails ends the check, or nobody answered. -/
theorem answers?_error (a : Abort) :
    answers? (.error a) = .ok none ∨ answers? (.error a) = .error a := by
  cases a with
  | failure e => cases e <;> simp [answers?]
  | crash payload => simp [answers?]

/-- What an answer within the climate says about the peers that were asked. -/
theorem answers_of_round {database : Database} {d : Directory} {x : Reply Responses}
    (hheld : holdsRound home d database = true)
    (hx : c.Round database (peersOf home d database) x) :
    match c.silentOf home database d with
    | .error a => answers? x = .error a
    | .ok quiet => ∃ responses?, answers? x = .ok responses? ∧
        responses?.elim [] (silent (peersOf home d database)) = quiet := by
  simp only [Climate.silentOf, hheld, if_true]
  unfold Climate.Round at hx
  cases hrounds : c.rounds database with
  | error a =>
    rw [hrounds] at hx
    obtain rfl : x = .error a := hx
    dsimp only
    obtain hnone | herror := answers?_error a
    · rw [hnone]
      exact ⟨none, rfl, rfl⟩
    · rw [herror]
      rfl
  | ok responds =>
    rw [hrounds] at hx
    dsimp only at hx ⊢
    split at hx
    · rename_i hany
      obtain ⟨responses, rfl, hcontains⟩ := hx
      obtain ⟨peer, hpeer, hresponds⟩ := List.any_eq_true.1 hany
      have hsome : responses.isEmpty = false :=
        Table.isEmpty_eq_false.2 ⟨peer, (hcontains peer).2 ⟨hpeer, hresponds⟩⟩
      refine ⟨some responses, by simp [answers?, hsome], ?_⟩
      rw [if_pos hany]
      refine List.filter_congr fun peer hpeer => ?_
      rw [Bool.eq_iff_iff.2 ((hcontains peer).trans (and_iff_right hpeer))]
    · rename_i hany
      rw [if_neg hany]
      obtain ⟨other, rfl⟩ | ⟨responses, rfl, hempty⟩ := hx
      · exact ⟨none, rfl, rfl⟩
      · exact ⟨none, by simp [answers?, hempty], rfl⟩

theorem steady_judge (policy : DemotionPolicy) (home : Node) (database : Database) (peer : Node) :
    (judge home policy database peer).Does c (Climate.judge policy home database peer) := by
  intro b hopen
  unfold judge DemotionPolicy.apply
  simp only [bind_assoc]
  refine meets_run_ok (Program.steady_status hopen _) ?_
  by_cases honline : b.directory.entries.find? ⟨peer, database⟩ = some .online
  · rw [if_pos honline]
    cases hcan : policy.canOffline with
    | true =>
      simp only [if_true, bind_assoc]
      refine meets_run_ok (Program.steady_report rfl) ?_
      refine meets_run_ok (Program.steady_setStatus hopen _ _) ?_
      refine meets_run_ok (Program.steady_count rfl) ⟨_, rfl, ?_⟩
      simp [Scene.next, Climate.judge, honline, hcan]
    | false =>
      simp only [Bool.false_eq_true, if_false, bind_assoc]
      refine meets_run_ok (Program.steady_suppression _ _ _ _) ?_
      refine meets_run_ok (Program.steady_count rfl) ⟨_, rfl, ?_⟩
      simp [Scene.mark, Scene.next, List.filter, Request.isMark, Climate.judge, honline, hcan]
  · rw [if_neg honline]
    refine ⟨_, rfl, ?_⟩
    simp [Scene.next, Climate.judge, honline]

/-- How the turn of a database in the stall check ends: with the failure of its round, or once the
silent peers were decided about. -/
def TurnEnds (c : Climate) (policy : DemotionPolicy) (home : Node) (database : Database) (b : Scene)
    (reply : Reply (List PeerDemotion)) (b' : Scene) : Prop :=
  match c.silentOf home database b.directory with
  | .error a => reply = .error a ∧ b' = b
  | .ok quiet => (∃ found, reply = .ok found) ∧
    b' = b.next (Scene.all (Climate.judge policy home database) quiet)

theorem TurnEnds.idle (policy : DemotionPolicy) {database : Database}
    (h : holdsRound home b.directory database = false) :
    TurnEnds c policy home database b (.ok []) b := by
  simp only [TurnEnds, Climate.silentOf, h, Bool.false_eq_true, if_false]
  exact ⟨⟨[], rfl⟩, b.next_still.symm⟩

theorem steady_judgeRound (policy : DemotionPolicy) (home : Node) (database : Database)
    (peers : List Node) (responses? : Option Responses) :
    (judgeRound home policy database peers responses?).Does c
      (Scene.all (Climate.judge policy home database) (responses?.elim [] (silent peers))) := by
  intro b hopen
  cases responses? with
  | none =>
    unfold judgeRound
    refine meets_run_ok (Program.steady_report rfl) ?_
    exact meets_run_ok (Program.steady_count rfl) ⟨_, rfl, b.next_still.symm⟩
  | some responses =>
    unfold judgeRound
    refine meets_run_ok (Program.steady_count rfl) ?_
    exact Check.Does.gather (steady_judge policy home database)
      (fun peer d hd => (Climate.onlyOf_judge policy home database peer d).closed.trans hd)
      _ b hopen

theorem steady_round (policy : DemotionPolicy) {database : Database}
    (hopen : b.directory.closed = false) (hheld : holdsRound home b.directory database = true) :
    Program.Meets (.steady c) (TurnEnds c policy home database b)
      (round home policy database (peersOf home b.directory database)).run b := by
  unfold round
  refine meets_run_ok (Program.steady_report rfl) ?_
  refine meets_run_of_ok (Program.steady_heartbeat _ _ _) ?_
  rintro x b ⟨hx, rfl⟩
  have hanswers := answers_of_round hheld hx
  unfold TurnEnds
  cases hsilent : c.silentOf home database b.directory with
  | error a =>
    rw [hsilent] at hanswers
    rw [hanswers]
    exact ⟨rfl, rfl⟩
  | ok quiet =>
    rw [hsilent] at hanswers
    obtain ⟨responses?, hok, rfl⟩ := hanswers
    rw [hok]
    refine meets_run_reply ((steady_judgeRound policy home database _ responses? b hopen).mono ?_)
    rintro reply b' ⟨found, rfl, hb'⟩
    exact ⟨⟨found, rfl⟩, hb'⟩

/-- **The turn of a database in the stall check.** -/
theorem steady_checkDatabase (policy : DemotionPolicy) (home : Node) (database : Database)
    (hopen : b.directory.closed = false) :
    Program.Meets (.steady c) (TurnEnds c policy home database b)
      (checkDatabase home policy database).run b := by
  unfold checkDatabase
  refine meets_run_ok (Program.steady_status hopen _) ?_
  split
  · rename_i honline
    refine meets_run_ok (Program.steady_onlinePeers hopen _ _) ?_
    split
    · rename_i hnone
      exact .idle policy (by simp [holdsRound, peersOf, hnone])
    · rename_i hsome
      exact steady_round policy hopen (by simpa [holdsRound, honline, peersOf] using hsome)
  · rename_i hoffline
    exact .idle policy (by simp [holdsRound, hoffline])

/-- The turns of the hosted databases, up to the first whose round fails. -/
theorem steady_gather (policy : DemotionPolicy) (home : Node) :
    ∀ (l : List Database) {b : Scene}, b.directory.closed = false →
      Program.Meets (.steady c) (fun reply b' =>
          reply.map (fun _ => ()) = (c.stallRun policy home l b.directory).1 ∧
            b' = b.next fun d => (c.stallRun policy home l d).2)
        (Check.gather (checkDatabase home policy) l).run b
  | [], b, _ => ⟨rfl, b.next_still.symm⟩
  | database :: rest, b, hopen => by
    refine meets_run_bind.2 ((steady_checkDatabase policy home database hopen).mono ?_)
    intro reply b' hturn
    unfold TurnEnds at hturn
    simp only [Climate.stallRun, Scene.next]
    cases hsilent : c.silentOf home database b.directory with
    | error a =>
      rw [hsilent] at hturn
      obtain ⟨rfl, rfl⟩ := hturn
      refine ⟨fun _ ha => (by cases ha), fun _ ha => ?_⟩
      cases ha
      exact ⟨rfl, b'.next_still.symm⟩
    | ok quiet =>
      rw [hsilent] at hturn
      obtain ⟨⟨found, rfl⟩, rfl⟩ := hturn
      refine ⟨fun _ _ => ?_, fun _ ha => by cases ha⟩
      have hopen' :
          (b.next (Scene.all (Climate.judge policy home database) quiet)).directory.closed =
          false := (Climate.onlyOf_judgeAll policy home database quiet _).closed.trans hopen
      refine meets_run_bind.2 ((steady_gather policy home rest hopen').mono ?_)
      rintro later _ ⟨hlater, rfl⟩
      cases later with
      | ok found' =>
        exact ⟨fun _ _ => ⟨hlater, by simp [Scene.next]⟩, fun _ ha => by cases ha⟩
      | error a =>
        refine ⟨fun _ ha => (by cases ha), fun _ ha => ?_⟩
        cases ha
        exact ⟨hlater, by simp [Scene.next]⟩

/-- **The stall check.** -/
theorem steady_check (policy : DemotionPolicy) (home : Node) (hopen : b.directory.closed = false) :
    Program.Meets (.steady c) (fun reply b' =>
        reply.map (fun _ => ()) = (c.stallCheck policy home b.directory).1 ∧
          b' = b.next fun d => (c.stallCheck policy home d).2)
      (check home policy).run b := by
  unfold check
  refine meets_run_ok (Program.steady_homeStatus hopen) ?_
  split
  · rename_i honline
    refine meets_run_ok (Program.steady_databases hopen) ?_
    refine (steady_gather policy home b.directory.hosted hopen).mono ?_
    rintro reply _ ⟨hreply, rfl⟩
    simp only [Scene.next, Climate.stallCheck, if_pos honline]
    exact ⟨hreply, trivial⟩
  · rename_i honline
    refine meets_run_ok (Program.steady_report rfl) ?_
    simp only [Scene.next, Climate.stallCheck, if_neg honline, List.append_nil]
    exact ⟨rfl, rfl⟩

end Stall

namespace Cycle

/-- What is made of the end of a check. -/
theorem steady_absorb (home : Node) (name : CheckName) (reply : Reply α) (b : Scene) :
    Program.Meets (.steady c) (fun goes b' => goes = !Climate.closes (reply.map fun _ => ()) ∧
        b' = b.next fun d => ⟨d, Climate.faults name (reply.map fun _ => ())⟩)
      (absorb home name reply) b := by
  cases reply with
  | ok a => exact ⟨rfl, b.next_still.symm⟩
  | error a =>
    by_cases hclosed : a.toFailure.isTransportClosed = true
    · simp only [absorb, hclosed, if_true, Except.map, Climate.closes, Climate.faults]
      exact ⟨rfl, b.next_still.symm⟩
    · simp only [absorb, hclosed, Except.map, Climate.closes, Climate.faults]
      refine Program.meets_bind.2 ((Program.steady_note _).mono ?_)
      rintro _ _ rfl
      refine Program.meets_bind.2 ((Program.steady_note _).mono ?_)
      rintro _ _ rfl
      exact ⟨rfl, by simp [Scene.mark, Scene.next, List.filter, Request.isMark]⟩

/-- A guarded check that does not fail goes on. -/
theorem steady_guarded {check : Check α} {f : Directory → Scene} (h : check.Does c f) (home : Node)
    (name : CheckName) (hopen : b.directory.closed = false) :
    Program.Meets (.steady c) (fun goes b' => goes = true ∧ b' = b.next f)
      (guarded home name check) b := by
  refine Program.meets_bind.2 ((h b hopen).mono ?_)
  rintro _ _ ⟨a, rfl, rfl⟩
  exact ⟨rfl, rfl⟩

theorem steady_guarded_stall (policy : DemotionPolicy) (home : Node)
    (hopen : b.directory.closed = false) :
    Program.Meets (.steady c) (fun goes b' =>
        goes = !Climate.closes (c.stallCheck policy home b.directory).1 ∧ b' = b.next fun d =>
          let x := c.stallCheck policy home d
          ⟨x.2.directory, x.2.marks ++ Climate.faults .stall x.1⟩)
      (guarded home .stall (Stall.check home policy)) b := by
  refine Program.meets_bind.2 ((Stall.steady_check policy home hopen).mono ?_)
  rintro reply _ ⟨hreply, rfl⟩
  refine (steady_absorb home .stall reply _).mono ?_
  rintro goes _ ⟨rfl, rfl⟩
  rw [hreply]
  exact ⟨rfl, by simp [Scene.next]⟩

/-- The three checks. -/
theorem steady_checks (policy : DemotionPolicy) (home : Node) (hopen : b.directory.closed = false) :
    Program.Meets (.steady c) (fun outcome b' =>
        outcome = c.outcome policy home b.directory ∧ b' = b.next (c.cycle policy home))
      (checks home policy) b := by
  have hrepaired : (b.next (c.repairCheck home)).directory.closed = false :=
    (Climate.sameFrame_repairCheck _).closed.trans hopen
  unfold checks
  refine Program.meets_bind.2
    ((steady_guarded (Repair.steady_check home) home .repair hopen).mono ?_)
  rintro _ _ ⟨rfl, rfl⟩
  refine Program.meets_bind.2
    ((steady_guarded (Audit.steady_check home) home .audit hrepaired).mono ?_)
  rintro _ _ ⟨rfl, rfl⟩
  rw [Scene.next_still]
  refine Program.meets_bind.2 ((steady_guarded_stall policy home hrepaired).mono ?_)
  rintro goes _ ⟨hgoes, rfl⟩
  rw [Scene.next_next]
  have hcloses :
      Climate.closes (c.stallCheck policy home (b.next (c.repairCheck home)).directory).1 =
      !goes := by rw [hgoes, Bool.not_not]
  have houtcome : c.outcome policy home b.directory = if (!goes) = true then .interrupted
      else .completed := congrArg (fun x : Bool => if x then _ else _) hcloses
  rw [houtcome]
  cases goes <;> exact ⟨rfl, rfl⟩

/-- **In a steady climate a cycle does what `Climate.cycle` says**, and ends as `Climate.outcome`
says. -/
theorem steady_body (policy : DemotionPolicy) (home : Node) (hopen : b.directory.closed = false) :
    Program.Meets (.steady c) (fun outcome b' =>
        outcome = c.outcome policy home b.directory ∧ b' = b.next (c.cycle policy home))
      (body home policy) b := by
  unfold body
  refine Program.meets_bind.2 ((Program.steady_note _).mono ?_)
  rintro _ _ rfl
  refine Program.meets_bind.2 ((Program.steady_note _).mono ?_)
  rintro _ _ rfl
  rw [Scene.mark_of_not rfl, Scene.mark_of_not rfl]
  refine Program.meets_bind.2 ((steady_checks policy home hopen).mono ?_)
  rintro outcome b' ⟨rfl, rfl⟩
  refine Program.meets_bind.2 ((Program.steady_note _).mono ?_)
  rintro _ _ rfl
  exact ⟨rfl, Scene.mark_of_not rfl⟩

end Cycle

end Upkeep
