import Upkeep.Proofs.Cycle.Alone
import Upkeep.Proofs.Cycle.Executions
import Upkeep.Proofs.Directory.Conduct

/-!
# Failures stay where they happen

Whatever fails or crashes around a cycle, the cycle comes to its end.

* `Cycle.failure_isolation` : **the course of a cycle** in any surroundings.  The checks are executed
  in order up to the first that finds the cluster shutting down, which alone decides the outcome; an
  install that fails ends nothing; each other failure is counted once, under the check that it ended;
  what was written stays; and the call reports its end and lets the flag down.
-/

namespace Upkeep

variable {σ α : Type} {e : Surroundings σ}

section Totals

/-! ### What a run counts -/

/-- Over any number of changes a counter grew by as much as it was asked to. -/
theorem Pool.balances_of_steps {c : Counter} {total : σ → Nat} {w w' : Watched σ}
    (h : Relation.ReflTransGen (Pool.Balances c total) w w') : Pool.Balances c total w w' := by
  induction h with
  | refl => rfl
  | tail _ hstep ih =>
    unfold Pool.Balances at hstep ih ⊢
    omega

/-- **A counter grows by the notes of it in the trace** of a program that runs alone. -/
theorem Surroundings.Records.outcome {c : Counter} {total : σ → Nat} (h : e.Records c total)
    (p : Program α) (s : σ) : total (p.outcome e s).2 =
      total s + ((p.trace e s).map Exchange.request).count (.note (.count c)) := by
  have hmakes := Program.makes_within (Pool.makes_balances h) p ⟨s, []⟩
  obtain ⟨hsteps, -⟩ := Process.Ensures.finish hmakes (fun _ => trivial) 0
  have hend := congrArg Prod.snd (Program.finish_within (e := e.watched) p 0 ⟨s, []⟩)
  rw [Program.outcome_watched] at hend
  have hbalance := Pool.balances_of_steps hsteps
  dsimp only at hend
  rw [hend] at hbalance
  simpa [Pool.Balances] using hbalance

/-- A check counts no failure itself. -/
theorem Request.OfCheck.ne_checkErrors {check : CheckName} {r : Request} (h : r.OfCheck check)
    (label : String) : r ≠ .note (.count (.checkErrors label)) := by
  rintro rfl
  cases check <;> exact h

namespace Execution

variable {policy : DemotionPolicy} {x : Execution σ}

/-- The failure of a check is counted once, under its own label. -/
theorem count_requests (x : Execution σ) (label : String) :
    (x.requests e policy).count (.note (.count (.checkErrors label))) =
      (x.fails && x.name.label = label).toNat := by
  have hcheck : ((x.trace e policy).map Exchange.request).count
      (.note (.count (.checkErrors label))) = 0 := by
    refine List.count_eq_zero.2 fun hmem => ?_
    obtain ⟨y, hy, hreq⟩ := List.mem_map.1 hmem
    exact ((Cycle.namedCheck_asks _ _ _).trace hy).ne_checkErrors label hreq
  rw [requests, List.count_append, hcheck, Nat.zero_add]
  obtain ⟨name, before, reply, after⟩ := x
  cases reply with
  | ok a => rfl
  | error a =>
    by_cases ha : a = .failure .transportClosed
    · subst ha
      rfl
    · by_cases hlabel : name.label = label <;>
        simp [failureNotes, fails, Reply.abort?, ha, hlabel]

end Execution

/-- Executions of different checks count under a label at most once. -/
theorem Cycle.Course.count_requests {policy : DemotionPolicy} {s t : σ} {xs : List (Execution σ)}
    {outcome : CycleOutcome}
    (h : Course e policy [.repair, .audit, .stall] s xs outcome t) (label : String) :
    (xs.flatMap (Execution.requests e policy)).count (.note (.count (.checkErrors label))) =
      (xs.any fun x => x.fails && x.name.label = label).toNat := by
  have hnodup : (xs.map Execution.name).Nodup := h.names_prefix.sublist.nodup (by decide)
  clear h
  induction xs with
  | nil => rfl
  | cons x xs ih =>
    obtain ⟨hnew, hnodup⟩ := List.nodup_cons.1 hnodup
    rw [List.flatMap_cons, List.count_append, Execution.count_requests, ih hnodup, List.any_cons]
    cases hx : x.fails && x.name.label = label with
    | false => simp
    | true =>
      -- no other execution is one of the same check
      have hlabel : x.name.label = label := by simpa using (Bool.and_eq_true_iff.1 hx).2
      have hnone : xs.any (fun y => y.fails && y.name.label = label) = false := by
        refine List.any_eq_false.2 fun y hy hy' => hnew ?_
        have hsame : y.name.label = label := by simpa using (Bool.and_eq_true_iff.1 hy').2
        exact CheckName.label_injective (hsame.trans hlabel.symm) ▸ List.mem_map_of_mem hy
      rw [hnone]
      rfl

/-- **In a cycle a failure of a check is counted once**, under the label of the check. -/
theorem Cycle.Ran.total {policy : DemotionPolicy} {s t : σ} {xs : List (Execution σ)}
    {outcome : CycleOutcome} (h : Ran e policy s xs outcome t) {label : String} {total : σ → Nat}
    (htotal : e.Records (.checkErrors label) total) :
    total (e.note (.report (.cycleEnded e.home outcome)) t) =
      total s + (xs.any fun x => x.fails && x.name.label = label).toNat := by
  have hbody := htotal.outcome (body e.home policy) s
  rw [h.ends, h.requests, List.count_append, List.count_append, h.course.count_requests] at hbody
  simpa [openNotes] using hbody

end Totals

section Stored

/-! ### What a run leaves written -/

/-- `stored` is the status that the directory keeps of a copy: a write that succeeds sets it, one
that fails may have set it or not, and nothing else touches it. -/
structure Surroundings.Stores (e : Surroundings σ) (key : CopyKey) (stored : σ → Option CopyStatus) :
    Prop where
  /-- A write that succeeds sets it. -/
  writes : ∀ status s, (e.directory.setStatus key status s).1 = .ok () →
    stored (e.directory.setStatus key status s).2 = some status
  /-- A write sets it or leaves it. -/
  attempts : ∀ status s, stored (e.directory.setStatus key status s).2 = some status ∨
    stored (e.directory.setStatus key status s).2 = stored s
  /-- Nothing else touches it. -/
  others : ∀ r, (∀ status, r ≠ .setStatus key status) → ∀ s,
    (e.answer r).Makes (fun s s' => stored s' = stored s) s

/-- A write sets a copy of the home node online or one of another node offline. -/
def Request.WritesAsLoop (home : Node) : Request → Prop
  | .setStatus key s => s = if key.node = home then .online else .offline
  | _ => True

theorem Permits.writesAsLoop {home : Node} {canOffline : Bool} {check : CheckName} {h : List Told}
    {r : Request} (hr : Permits home canOffline check h r) : r.WritesAsLoop home := by
  cases hr with
  | restore => exact (if_pos rfl).symm
  | demote _ hpeer => exact (if_neg hpeer).symm
  | homeStatus | databases | status | onlineNodes | note | install | heartbeat => trivial

/-- A request that may always be made may be made in a sequence. -/
theorem Program.closed_only {P : Request → Prop} (hP : ∀ n, P (.note n)) :
    Program.Closed fun p => p.Meets (.only P) (fun _ _ => True) () where
  pure _ := trivial
  bind hp hf := Program.meets_bind.2 (hp.mono fun a _ _ => hf a)
  note n _ _ _ _ _ := ⟨hP n, trivial⟩

/-- **Every write of a cycle is of one of the two kinds.** -/
theorem Cycle.body_writesAsLoop (home : Node) (policy : DemotionPolicy) :
    (body home policy).Meets (.only (Request.WritesAsLoop home)) (fun _ _ => True) () := by
  have hcheck : ∀ {β : Type} {name : CheckName} {Q : β → List Told → Prop} {c : Check β},
      Check.Meets (.heard (Permits home policy.canOffline name)) Q c [] →
      Program.Meets (.only (Request.WritesAsLoop home)) (fun _ _ => True) (ExceptT.run c) () :=
    fun hc => Program.Meets.only (Q := fun _ => True) (fun _ _ hr => hr.writesAsLoop)
      (Program.Meets.mono hc fun _ _ _ => trivial)
  refine closed_body (Program.closed_only fun _ => trivial) ?_
    (hcheck (Repair.check_permits home policy.canOffline))
    (hcheck (Audit.check_permits home policy.canOffline)) (hcheck (Stall.check_permits home policy))
  exact fun _ _ _ => ⟨trivial, trivial⟩

/-- **What is once written stays written** if a program never gives a copy two different statuses. -/
theorem Surroundings.Stores.outcome {key : CopyKey} {stored : σ → Option CopyStatus} {home : Node}
    (h : e.Stores key stored) {p : Program α}
    (hp : p.Meets (.only (Request.WritesAsLoop home)) (fun _ _ => True) ()) {s : σ}
    {status : CopyStatus} {w : Exchange σ} (hw : w ∈ p.trace e s)
    (hwrite : w.told = ⟨.setStatus key status, .ok ()⟩) :
    stored (p.outcome e s).2 = some status := by
  have hkind : ∀ y ∈ p.trace e s, y.request.WritesAsLoop home := fun y hy =>
    Program.Meets.trace_only (Q := fun _ => True) hp hy
  obtain ⟨t₀, t₁, ht⟩ := List.append_of_mem hw
  obtain ⟨q, hrest, hend⟩ := Program.trace_split ht
  have hthis := hkind w hw
  have hexchange := Program.exchange_of_mem hw
  obtain ⟨request, before, answer, after⟩ := w
  cases hwrite
  obtain ⟨hanswer, hafter⟩ : .ok () = (e.directory.setStatus key status before).1 ∧
      after = (e.directory.setStatus key status before).2 := by
    simpa [Surroundings.exchange, Surroundings.answer, Process.update, Process.finish]
      using hexchange
  -- from the write on, no exchange gives the copy another status
  rw [← hend]
  refine Program.outcome_of_trace (I := fun s => stored s = some status) (fun y hy hstored => ?_) ?_
  · have hmem : y ∈ p.trace e s := by
      rw [ht, ← hrest]
      exact List.mem_append_right _ (List.mem_cons_of_mem _ hy)
    have hsame := hkind y hmem
    have hy' := Program.exchange_of_mem hy
    rw [hy']
    generalize y.request = r at hsame
    generalize y.before = s' at hstored
    by_cases hr : ∃ status', r = .setStatus key status'
    · obtain ⟨status', rfl⟩ := hr
      obtain rfl : status' = status := hsame.trans hthis.symm
      exact (h.attempts status' s').elim id fun hkept => hkept.trans hstored
    · obtain ⟨hsteps, -⟩ := Process.Ensures.finish
        (h.others r (fun status' hr' => hr ⟨status', hr'⟩) s') (fun _ => trivial) 0
      exact (Process.same_of_steps hsteps).trans hstored
  · rw [hafter]
    exact h.writes status before hanswer.symm

end Stored

section Worlds

/-! ### Worlds keep count and store what is written -/

variable {ρ : Type} {home : Node} {installer : Installer (World ρ)} {transport : Transport (World ρ)}

/-- A world counts what it is asked to, if its installer and its transport leave its counts alone. -/
theorem World.records (c : Counter)
    (hinstaller : ∀ source w, (installer source).Makes
      (fun w w' => w'.journal.tally.count c = w.journal.tally.count c) w)
    (htransport : ∀ database peers timeoutMs w, (transport database peers timeoutMs).Makes
      (fun w w' => w'.journal.tally.count c = w.journal.tally.count c) w) :
    (surroundings home installer transport).Records c fun w => w.journal.tally.count c where
  counts w := by simp [surroundings, note, Journal.note, Journal.count]
  others n w hn := by
    cases n with
    | report r => rfl
    | count c' =>
      have hc : c' ≠ c := fun h => hn (h ▸ rfl)
      simp [surroundings, note, Journal.note, Journal.count, hc]
  answers r hr w := by
    cases r with
    | homeStatus | databases | status key | onlineNodes database => exact ⟨rfl, trivial⟩
    | setStatus key s =>
      refine ⟨?_, trivial⟩
      simp only [surroundings, view, setStatus]
      split <;> rfl
    | install source => exact hinstaller source w
    | heartbeat database peers timeoutMs => exact htransport database peers timeoutMs w
    | note n => exact absurd rfl (hr n)

/-- A world stores what is written, if its installer and its transport leave the copy alone. -/
theorem World.stores (key : CopyKey)
    (hinstaller : ∀ source w, (installer source).Makes (fun w w' =>
      w'.directory.entries.find? key = w.directory.entries.find? key) w)
    (htransport : ∀ database peers timeoutMs w, (transport database peers timeoutMs).Makes
      (fun w w' => w'.directory.entries.find? key = w.directory.entries.find? key) w) :
    (surroundings home installer transport).Stores key fun w => w.directory.entries.find? key where
  writes status w hok := by
    simp only [surroundings, view, setStatus] at hok ⊢
    split at hok
    · rename_i hset
      exact (Directory.find?_setStatus hset).trans (if_pos rfl)
    · cases hok
  attempts status w := by
    simp only [surroundings, view, setStatus]
    split
    · rename_i hset
      exact .inl ((Directory.find?_setStatus hset).trans (if_pos rfl))
    · exact .inr rfl
  others r hr w := by
    cases r with
    | homeStatus | databases | status key | onlineNodes database => exact ⟨rfl, trivial⟩
    | setStatus key' s =>
      refine ⟨?_, trivial⟩
      have hkey : key' ≠ key := by
        rintro rfl
        exact hr s rfl
      simp only [surroundings, view, setStatus]
      split
      · rename_i hset
        exact (Directory.find?_setStatus hset).trans (if_neg hkey)
      · rfl
    | install source => exact hinstaller source w
    | heartbeat database peers timeoutMs => exact htransport database peers timeoutMs w
    | note n => exact ⟨rfl, trivial⟩

end Worlds

namespace Cycle

/-- A repair check that was told this has gone through all databases that the home node hosts, unless
the home node is no full member: it asked for the status of each, and each that was offline was set
online or has a peer that serves it. -/
def TriedAll (home : Node) (told : List Told) : Prop :=
  ∃ standing, ⟨.homeStatus, .ok standing⟩ ∈ told ∧ (standing = .online →
    ∃ hosted, ⟨.databases, .ok hosted⟩ ∈ told ∧
      ∀ database ∈ hosted, Repaired home database told)

/-- **Failures stay where they happen.**  The surroundings are arbitrary: any call of the directory,
any install and any heartbeat may fail or crash at any time, and what others do while a cycle waits
is up to the installer and the transport for which it waits. -/
theorem failure_isolation (e : Surroundings σ) (policy : DemotionPolicy) (s : σ) :
    let trace := (body e.home policy).trace e s
    ∃ xs outcome t elapsed,
      let final := e.note (.report (.cycleEnded e.home outcome)) t
      -- the checks are executed in order, each on the state that the one before it left, up to the
      -- first that finds the cluster shutting down
      Course e policy [.repair, .audit, .stall] (opened e s) xs outcome t ∧
      -- a call that finds the flag down ends with the outcome that they tell, and lets it down
      (Call.begin e policy ⟨false, s⟩).1.finish (Call.begin e policy ⟨false, s⟩).2 =
        (some (outcome, elapsed), ⟨false, final⟩) ∧
      outcome = (if xs.any Execution.closes then .interrupted else .completed) ∧
      -- a check ends before its time only with a failure that counts, which an install never is
      (∀ x ∈ xs, x.reply.Ends ((x.trace e policy).map Exchange.told)) ∧
      -- a repair check that ended well has tried every database, whatever came of the installs
      (∀ x ∈ xs, x.name = .repair → x.reply = .ok () →
        TriedAll e.home ((x.trace e policy).map Exchange.told)) ∧
      -- the cycle reports its beginning first and its end last, and between them nothing is asked
      -- for but by the executed checks, or to put their failures on record
      trace.map Exchange.request = openNotes e.home ++ xs.flatMap (Execution.requests e policy) ++
        [.note (.report (.cycleEnded e.home outcome))] ∧
      (Report.cycleStarted e.home).line =
        ⟨.debug, .cycle, "Checking cluster health", [("local", .text e.home)]⟩ ∧
      (Report.cycleEnded e.home outcome).line =
        ⟨.debug, .cycle, "Cluster health checking completed",
          [("local", .text e.home), ("outcome", .text outcome.word)]⟩ ∧
      -- every failure other than the shutdown is counted once, under its check and no other
      (∀ label total, e.Records (.checkErrors label) total → total final =
        total s + (xs.any fun x => x.fails && x.name.label = label).toNat) ∧
      -- what was written stays, whether the check that wrote it failed later or not
      ∀ key status stored, e.Stores key stored →
        (∃ w ∈ trace, w.told = ⟨.setStatus key status, .ok ()⟩) → stored final = some status := by
  intro trace
  obtain ⟨xs, outcome, t, hran⟩ := ran e policy s
  have hcourse := hran.course
  have houtcome := hran.ends
  have hfinish := Program.finish_within (e := e) (body e.home policy) 0 s
  rw [houtcome] at hfinish
  obtain ⟨houtcome₁, hfinal⟩ := Prod.ext_iff.1 hfinish
  refine ⟨xs, outcome, t, (((body e.home policy).within e).finish 0 s).1.2, hcourse, ?_,
    hcourse.outcome_eq, fun x hx => ?_, fun x hx hname hok => ?_, hran.requests, rfl, rfl,
    fun label total htotal => hran.total htotal, fun key status stored hstores hw => ?_⟩
  · rw [Call.finish_begin, hfinal]
    exact congrArg (fun result => (some result, _)) (Prod.ext houtcome₁ rfl)
  · rw [hcourse.execute_of_mem hx]
    exact execute_ends e policy x.name x.before
  · have hrepair := hcourse.execute_of_mem hx
    rw [hname] at hrepair
    rw [hrepair] at hok
    have htried : Check.Meets (.heard (Permits e.home policy.canOffline .repair))
        (fun _ => TriedAll e.home) (namedCheck e.home policy .repair) [] :=
      Check.meets_map.2 (Repair.check_permits e.home policy.canOffline)
    rw [Execution.trace, hname]
    exact Program.Meets.outcome_told htried x.before () hok
  · obtain ⟨w, hw, hwrite⟩ := hw
    have hstored := hstores.outcome (body_writesAsLoop e.home policy) hw hwrite
    rwa [houtcome] at hstored

/-- A cluster in which every install and every heartbeat finds the cluster shutting down. -/
def shuttingDown : Surroundings (World Unit) :=
  World.surroundings "n1" (fun _ => .done (.error (.failure .transportClosed)))
    fun _ _ _ => .done (.error (.failure .transportClosed))

/-- The same cluster, in which besides one call of the directory fails. -/
def brittle : Surroundings (World Unit) :=
  { shuttingDown with
    directory.onlineNodes := fun database w =>
      if database = "Users" then (.error (.failure (.transport "lost")), w)
      else shuttingDown.directory.onlineNodes database w }

/-- A node with a copy to install, a last copy, a copy whose peers cannot be told, and one whose
peer is asked. -/
def fourCopies : World Unit where
  directory := {
    home := "n1"
    members := .ofList [("n1", .online), ("n2", .online)]
    hosted := ["Ledger", "Orders", "Users", "Stock"]
    entries := .ofList [(⟨"n1", "Ledger"⟩, .offline), (⟨"n2", "Ledger"⟩, .online),
      (⟨"n1", "Orders"⟩, .offline), (⟨"n1", "Users"⟩, .offline), (⟨"n1", "Stock"⟩, .online),
      (⟨"n2", "Stock"⟩, .online)] }
  own := ()

/-- What the other requests are known to change is all that is changed. -/
theorem brittle_makes {G : World Unit → World Unit → Prop} {r : Request} {w : World Unit}
    (h : (shuttingDown.answer r).Makes G w) (hG : ∀ w, G w w) : (brittle.answer r).Makes G w := by
  cases r with
  | onlineNodes database =>
    have hsame : (brittle.directory.onlineNodes database w).2 = w := by
      simp only [brittle]
      split <;> rfl
    refine ⟨?_, trivial⟩
    rw [hsame]
    exact hG w
  | homeStatus | databases | status | setStatus | install | heartbeat | note => exact h

theorem brittle_records (c : Counter) : brittle.Records c fun w => w.journal.tally.count c := by
  have h : shuttingDown.Records c fun w => w.journal.tally.count c :=
    World.records c (fun _ _ => trivial) fun _ _ _ _ => trivial
  exact ⟨h.counts, h.others, fun r hr w => brittle_makes (h.answers r hr w) fun _ => rfl⟩

theorem brittle_stores (key : CopyKey) :
    brittle.Stores key fun w => w.directory.entries.find? key := by
  have h : shuttingDown.Stores key fun w => w.directory.entries.find? key :=
    World.stores key (fun _ _ => trivial) fun _ _ _ _ => trivial
  exact ⟨h.writes, h.attempts, fun r hr w => brittle_makes (h.others r hr w) fun _ => rfl⟩

/-- The repair check goes on after the install that failed, and ends at the call that failed; that
is counted, and the copy that it brought up before stays so, until the stall check finds the cluster
shutting down. -/
theorem failure_isolation_brittle :
    ∃ xs t, Course brittle ⟨true, 200⟩ [.repair, .audit, .stall] (opened brittle fourCopies) xs
        .interrupted t ∧
      (xs.any fun x => x.fails && x.name.label = "server_status") = true ∧
      (xs.any fun x => x.fails && x.name.label = "server_in_stall") = false ∧
      t.directory.entries.find? ⟨"n1", "Orders"⟩ = some .online := by
  obtain ⟨xs, outcome, t, elapsed, hcourse, hcall, -, -, -, -, -, -, hcounts, hstored⟩ :=
    failure_isolation brittle ⟨true, 200⟩ fourCopies
  have hwrite : ∃ w ∈ (body "n1" ⟨true, 200⟩).trace brittle fourCopies,
      w.told = ⟨.setStatus ⟨"n1", "Orders"⟩ .online, .ok ()⟩ := by
    have hlength : 13 < ((body "n1" ⟨true, 200⟩).trace brittle fourCopies).length := by decide
    exact ⟨_, List.getElem_mem hlength, rfl⟩
  obtain ⟨hend, hshared⟩ := Prod.ext_iff.1 hcall
  obtain rfl : outcome = .interrupted :=
    (congrArg (fun result => (result.map Prod.fst).getD .skipped) hend).symm
  have hrepair := hcounts "server_status" _ (brittle_records _)
  have hstall := hcounts "server_in_stall" _ (brittle_records _)
  have hfinal := congrArg Shared.world hshared
  dsimp only at hfinal
  rw [← hfinal] at hrepair hstall
  refine ⟨xs, t, hcourse, ?_, ?_, hstored _ _ _ (brittle_stores _) hwrite⟩
  · have hone : 1 = 0 + _ := hrepair
    exact Bool.toNat_eq_one.1 (hone.trans (Nat.zero_add _)).symm
  · have hnone : 0 = 0 + _ := hstall
    exact Bool.toNat_eq_zero.1 (hnone.trans (Nat.zero_add _)).symm

end Cycle

end Upkeep
