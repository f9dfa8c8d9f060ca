import Upkeep.Proofs.Cycle.Isolation
import Upkeep.Proofs.Directory.Closing

/-!
# Closing the directory stops the loop

The directory may be shut at any instant: between two turns, in the middle of an install, while a
heartbeat is awaited, or between two calls of one check.

* `Pool.Move` : what may happen to calls of a cycle and their directory: a turn of a call, or
  operations of others.
* `Cycle.closing` : **from the instant at which the directory is shut nothing is written**; a cycle
  whose install was awaited meanwhile ends without a look at the statuses or the peers; the shutdown
  is never counted as a failure; and a call that begins later ends at once.
-/

namespace Upkeep

variable {σ : Type} {e : Surroundings σ} {dir : σ → Directory} {policy : DemotionPolicy}

namespace Pool

/-- What may happen to calls of a cycle and to the directory that they share. -/
inductive Move (e : Surroundings σ) (policy : DemotionPolicy) (dir : σ → Directory) (p : Pool σ) :
    Pool σ → Prop
  /-- A call takes its turn. -/
  | turn (i : Nat) : Move e policy dir p (p.step e policy i)
  /-- Others do operations on the directory. -/
  | others {s : σ} (h : Directory.Evolves (dir p.shared.world) (dir s)) :
      Move e policy dir p ⟨⟨p.shared.busy, s⟩, p.calls⟩

/-- A pool whose calls write to no directory that is shut, whatever others do. -/
abbrev SoundShut (dir : σ → Directory) : Pool σ → Prop :=
  Sound (fun _ => True) (fun _ _ => True) (Surroundings.StaysShut dir) fun _ _ => True

variable {p p' : Pool σ}

theorem admits_shut (e : Surroundings σ) (dir : σ → Directory) :
    e.Admits (fun _ => True) (fun _ _ => True) (Surroundings.StaysShut dir) :=
  ⟨fun _ => trivial, fun _ _ _ _ _ => trivial, fun _ _ => trivial, fun _ _ _ _ => trivial,
    fun _ _ _ _ => trivial⟩

/-- **One move more** writes to no directory that is shut, and leaves it shut. -/
theorem Move.shut (he : e.Closable dir) (hp : p.SoundShut dir) (h : Move e policy dir p p') :
    p'.SoundShut dir ∧ Surroundings.StaysShut dir p.shared.world p'.shared.world := by
  have hrest : ∀ s, True → ((Cycle.rest e.home policy).within e).Ensures (fun _ _ => True)
      (Surroundings.StaysShut dir) (fun _ _ => True) s :=
    fun s _ => Program.makes_within he.makes_unwritten _ s
  cases h with
  | turn i =>
    refine ⟨sound_steps (admits_shut e dir) hrest [i] hp, ?_⟩
    exact Surroundings.staysShut_of_steps
      (world_steps (admits_shut e dir) (fun n s => (he.makes_unwritten (.note n) s).1) hrest [i] hp)
  | others h =>
    refine ⟨⟨hp.flag, fun c hc => ?_, trivial⟩, h.unwritten⟩
    exact (hp.ensures c hc).rely fun _ _ => trivial

/-- **From the instant at which the directory is shut nothing is written.** -/
theorem unwritten_of_moves (he : e.Closable dir) (hp : p.SoundShut dir)
    (h : Relation.ReflTransGen (Move e policy dir) p p') :
    p'.SoundShut dir ∧ Surroundings.StaysShut dir p.shared.world p'.shared.world := by
  induction h with
  | refl => exact ⟨hp, fun hclosed => .refl hclosed⟩
  | tail _ hmove ih =>
    obtain ⟨hsound, hshut⟩ := hmove.shut he ih.1
    exact ⟨hsound, ih.2.trans hshut⟩

end Pool

/-- Neither a heartbeat nor a note of a missing status. -/
def Request.IsEarly : Request → Prop
  | .heartbeat _ _ _ => False
  | .note (.report (.statusMissing _ _)) => False
  | .note (.count .missingStatuses) => False
  | _ => True

theorem Request.OfCheck.isEarly {r : Request} (h : r.OfCheck .repair) : r.IsEarly := by
  unfold Request.IsEarly
  split
  · exact nomatch h
  · exact nomatch h
  · exact h
  · trivial

namespace Execution

theorem isEarly_of_failureNote {x : Execution σ} {home : Node} {n : Note}
    (hn : n ∈ x.failureNotes home) : (Request.note n).IsEarly := by
  unfold failureNotes at hn
  split at hn
  · exact nomatch hn
  · split at hn
    · exact nomatch hn
    · obtain rfl | hn := List.mem_cons.1 hn
      · trivial
      · obtain rfl := List.mem_singleton.1 hn
        trivial

theorem closes_of_abort {x : Execution σ} (h : x.reply.abort? = some (.failure .transportClosed)) :
    x.closes = true := decide_eq_true h

theorem settled_of_ok {x : Execution σ} (h : x.reply = .ok ()) : x.settled e = x.after := by
  simp [settled, failureNotes, h]

theorem failureNotes_of_closes {x : Execution σ} (h : x.closes = true) (home : Node) :
    x.failureNotes home = [] := by
  obtain ⟨name, before, reply, after⟩ := x
  cases reply with
  | ok a => rfl
  | error a =>
    have ha : a = .failure .transportClosed := Option.some.inj (of_decide_eq_true h)
    simp [failureNotes, ha]

end Execution

/-- **A directory that is shut after an exchange is shut in the end.** -/
theorem Surroundings.Closable.outcome_shut {α : Type} (he : e.Closable dir) {p : Program α} {s : σ}
    {y : Exchange σ} (hy : y ∈ p.trace e s) (hclosed : (dir y.after).closed = true) :
    (dir (p.outcome e s).2).closed = true := by
  obtain ⟨before, after, ht⟩ := List.append_of_mem hy
  obtain ⟨q, -, hend⟩ := Program.trace_split ht
  rw [← hend]
  exact Program.outcome_invariant (fun s r h => (he.exchange_shut r s h).closed) q hclosed

/-- What each check asks for first. -/
def CheckName.opening : CheckName → Request
  | .repair | .stall => .homeStatus
  | .audit => .databases

namespace Cycle

/-- Every check begins with a call of the directory. -/
theorem namedCheck_opening (home : Node) (policy : DemotionPolicy) (name : CheckName) :
    name.opening.isDirectoryCall = true ∧
      ∃ next, (namedCheck home policy name).run = .ask name.opening next := by
  cases name with
  | repair | audit | stall => exact ⟨rfl, _, rfl⟩

/-- **A check that begins once the directory is shut asks for one thing**, and ends the cycle. -/
theorem execute_shut (he : e.Closable dir) (policy : DemotionPolicy) (name : CheckName) {s : σ}
    (hclosed : (dir s).closed = true) :
    let x := execute e policy name s
    x.closes = true ∧ (x.trace e policy).map Exchange.request = [name.opening] := by
  intro x
  obtain ⟨hcall, next, hrun⟩ := namedCheck_opening e.home policy name
  have htrace : x.trace e policy = e.exchange name.opening s ::
      (next (e.exchange name.opening s).answer).trace e (e.exchange name.opening s).after := by
    show (namedCheck e.home policy name).run.trace e s = _
    rw [hrun]
    rfl
  have hends := execute_ends e policy name s
  rw [htrace, List.map_cons, ← List.nil_append (_ :: _)] at hends
  obtain ⟨hreply, hlast⟩ := hends.of_abort ((he.abort?_call hcall s).2 hclosed)
  refine ⟨Execution.closes_of_abort hreply, ?_⟩
  rw [htrace, List.map_cons, List.map_eq_nil_iff.1 hlast]
  rfl

/-- A failure that counts is the shutdown, or one of a heartbeat for more than want of answers. -/
theorem abort?_cases (he : e.Closable dir) (r : Request) (s : σ) {a : Abort}
    (ha : (e.exchange r s).told.abort? = some a) :
    a = .failure .transportClosed ∨ ∃ database peers timeoutMs,
      (e.exchange r s).told = ⟨.heartbeat database peers timeoutMs, .error a⟩ ∧
        ∀ other, a ≠ .failure (.allUnreachable other) := by
  by_cases hcall : r.isDirectoryCall = true
  · left
    obtain hnone | hclosed := (he.abort?_call hcall s).1
    · exact nomatch hnone.symm.trans ha
    · exact Option.some.inj (ha.symm.trans hclosed)
  · right
    cases r with
    | heartbeat database peers timeoutMs =>
      have hreply : Reply.heartbeatAbort?
          (e.exchange (.heartbeat database peers timeoutMs) s).answer = some a := ha
      rw [exchange_told]
      generalize (e.exchange (.heartbeat database peers timeoutMs) s).answer = reply at hreply
      obtain ⟨rfl, hother⟩ := Reply.heartbeatAbort?_eq_some hreply
      exact ⟨database, peers, timeoutMs, rfl, hother⟩
    | install | note => exact nomatch ha
    | homeStatus | databases | status | setStatus | onlineNodes => exact absurd rfl hcall

/-- **A check fails only because of the shutdown or of a heartbeat** that fails for more than want of
answers. -/
theorem execute_abort (he : e.Closable dir) {name : CheckName} {s : σ} {a : Abort}
    (ha : (execute e policy name s).reply.abort? = some a) :
    a = .failure .transportClosed ∨ name = .stall ∧
      ∃ w ∈ (execute e policy name s).trace e policy, ∃ database peers timeoutMs,
        w.told = ⟨.heartbeat database peers timeoutMs, .error a⟩ ∧
          ∀ other, a ≠ .failure (.allUnreachable other) := by
  have hends := execute_ends e policy name s
  -- the failure is that of the last exchange
  obtain ⟨w, hw, hlast⟩ : ∃ w ∈ (execute e policy name s).trace e policy,
      w.told.abort? = some a := by
    cases hreply : (execute e policy name s).reply with
    | ok value => rw [hreply] at ha; exact nomatch ha
    | error b =>
      rw [hreply] at ha hends
      obtain rfl : b = a := Option.some.inj ha
      obtain ⟨told, last, heq, hlast, -⟩ := hends
      have hmem : last ∈ ((execute e policy name s).trace e policy).map Exchange.told := by
        simp [heq]
      obtain ⟨w, hw, rfl⟩ := List.mem_map.1 hmem
      exact ⟨w, hw, hlast⟩
  have hexchange := Program.exchange_of_mem hw
  have hasked := (namedCheck_asks e.home policy name).trace hw
  rw [hexchange] at hlast
  refine (abort?_cases he _ _ hlast).imp_right ?_
  rintro ⟨database, peers, timeoutMs, htold, hother⟩
  rw [← hexchange] at htold
  refine ⟨?_, w, hw, database, peers, timeoutMs, htold, hother⟩
  have hrequest : w.request = .heartbeat database peers timeoutMs := congrArg Told.request htold
  rwa [hrequest] at hasked

/-- A repair check and an audit that do not end well end the cycle. -/
theorem execute_ok_or_closes (he : e.Closable dir) (policy : DemotionPolicy) (name : CheckName)
    (hname : name ≠ .stall) (s : σ) :
    (execute e policy name s).reply = .ok () ∨ (execute e policy name s).closes = true := by
  cases hreply : (execute e policy name s).reply with
  | ok a => exact .inl rfl
  | error a =>
    have ha : (execute e policy name s).reply.abort? = some a := by rw [hreply]; rfl
    obtain rfl | ⟨hstall, -⟩ := execute_abort he ha
    · exact .inr (Execution.closes_of_abort ha)
    · exact absurd hstall hname

section Runs

variable {s : σ}

/-- **If the directory was shut while an install was awaited**, the repair check was the last one or
was followed by an audit that began once the directory was shut. -/
theorem Ran.of_install (he : e.Closable dir) {t : σ} {xs : List (Execution σ)}
    {outcome : CycleOutcome} (hran : Ran e policy s xs outcome t) {y : Exchange σ}
    (hy : y ∈ (body e.home policy).trace e s) {source : InstallSource}
    (hinstall : y.request = .install source) (hclosed : (dir y.after).closed = true) :
    outcome = .interrupted ∧ ∃ s', xs = [execute e policy .repair s'] ∨
      ∃ s'', (dir s'').closed = true ∧
        xs = [execute e policy .repair s', execute e policy .audit s''] := by
  obtain ⟨n, hn⟩ | ⟨x, hx, hyx⟩ := hran.mem_cases hy
  · exact nomatch hinstall.symm.trans hn
  have hname : x.name = .repair := by
    have hasked := (namedCheck_asks e.home policy x.name).trace hyx
    rwa [hinstall] at hasked
  cases hran.course with
  | interrupts h => exact ⟨rfl, _, .inl rfl⟩
  | goesOn h hrest =>
    -- the install is one of the repair check, which ended well although the directory was shut
    obtain rfl | hlater := List.mem_cons.1 hx
    · obtain hok | hcloses := execute_ok_or_closes he policy .repair nofun (opened e s)
      · have hshut : (dir ((execute e policy .repair (opened e s)).settled e)).closed = true := by
          rw [Execution.settled_of_ok hok]
          exact he.outcome_shut hyx hclosed
        cases hrest with
        | interrupts h' => exact ⟨rfl, _, .inr ⟨_, hshut, rfl⟩⟩
        | goesOn h' hrest => exact nomatch h'.symm.trans (execute_shut he policy .audit hshut).1
      · exact nomatch h.symm.trans hcloses
    · have hmem := hrest.names_prefix.subset (List.mem_map_of_mem hlater)
      rw [hname] at hmem
      simp at hmem

/-- **A cycle whose install was awaited while the directory was shut is interrupted**, and has looked
neither at the statuses nor at the peers. -/
theorem interrupted_of_install (he : e.Closable dir) {y : Exchange σ}
    (hy : y ∈ (body e.home policy).trace e s) {source : InstallSource}
    (hinstall : y.request = .install source) (hclosed : (dir y.after).closed = true) :
    ((body e.home policy).outcome e s).1 = .interrupted ∧
      ∀ z ∈ (body e.home policy).trace e s, z.request.IsEarly := by
  obtain ⟨xs, outcome, t, hran⟩ := ran e policy s
  obtain ⟨rfl, s', hxs⟩ := hran.of_install he hy hinstall hclosed
  refine ⟨by rw [hran.ends], fun z hz => ?_⟩
  -- a repair check is early, and the audit asked for the databases and nothing else
  have hrepair : ∀ r ∈ (execute e policy .repair s').requests e policy, r.IsEarly := by
    intro r hr
    obtain hr | hr := List.mem_append.1 hr
    · obtain ⟨w, hw, rfl⟩ := List.mem_map.1 hr
      exact ((namedCheck_asks _ _ .repair).trace hw).isEarly
    · obtain ⟨n, hn, rfl⟩ := List.mem_map.1 hr
      exact Execution.isEarly_of_failureNote hn
  have hchecks : ∀ r ∈ xs.flatMap (Execution.requests e policy), r.IsEarly := by
    obtain rfl | ⟨s'', hshut, rfl⟩ := hxs
    · simpa using hrepair
    · obtain ⟨hcloses, hasked⟩ := execute_shut he policy .audit hshut
      have haudit : (execute e policy .audit s'').requests e policy = [.databases] := by
        rw [Execution.requests, hasked, Execution.failureNotes_of_closes hcloses]
        rfl
      simp only [List.flatMap_cons, List.flatMap_nil, List.append_nil, haudit]
      intro r hr
      obtain hr | hr := List.mem_append.1 hr
      · exact hrepair r hr
      · rw [List.mem_singleton.1 hr]
        trivial
  have hmem : z.request ∈ ((body e.home policy).trace e s).map Exchange.request :=
    List.mem_map_of_mem hz
  rw [hran.requests, List.mem_append, List.mem_append] at hmem
  obtain (hmem | hmem) | hmem := hmem
  · have hopen : ∀ r ∈ openNotes e.home, r.IsEarly := by simp [openNotes, Request.IsEarly]
    exact hopen _ hmem
  · exact hchecks _ hmem
  · rw [List.mem_singleton.1 hmem]
    trivial

/-- **The shutdown is never counted as a failure**: only a heartbeat that fails for another reason,
and for more than want of answers, is. -/
theorem total_of_closable (he : e.Closable dir) {label : String} {total : σ → Nat}
    (htotal : e.Records (.checkErrors label) total) :
    total ((body e.home policy).outcome e s).2 = total s ∨
      total ((body e.home policy).outcome e s).2 = total s + 1 ∧ label = "server_in_stall" ∧
        ∃ y ∈ (body e.home policy).trace e s, ∃ database peers timeoutMs a,
          y.told = ⟨.heartbeat database peers timeoutMs, .error a⟩ ∧
            a ≠ .failure .transportClosed ∧ ∀ other, a ≠ .failure (.allUnreachable other) := by
  obtain ⟨xs, outcome, t, hran⟩ := ran e policy s
  have hcount := hran.total htotal
  rw [hran.ends]
  cases hany : xs.any fun x => x.fails && x.name.label = label with
  | false =>
    rw [hany] at hcount
    exact .inl hcount
  | true =>
    rw [hany] at hcount
    obtain ⟨x, hx, hfails⟩ := List.any_eq_true.1 hany
    obtain ⟨hfails, hlabel⟩ := Bool.and_eq_true_iff.1 hfails
    obtain ⟨hsome, hopen⟩ := of_decide_eq_true hfails
    obtain ⟨a, ha⟩ := Option.isSome_iff_exists.1 hsome
    rw [ha] at hopen
    rw [hran.course.execute_of_mem hx] at ha
    obtain rfl | ⟨hstall, w, hw, database, peers, timeoutMs, htold, hother⟩ := execute_abort he ha
    · exact absurd rfl hopen
    · rw [← hran.course.execute_of_mem hx] at hw
      refine .inr ⟨hcount, ?_, w, hran.mem_trace hx hw, database, peers, timeoutMs, a, htold,
        fun h => hopen (congrArg some h), hother⟩
      rw [← of_decide_eq_true hlabel, hstall]
      rfl

/-- **A call that begins once the directory is shut ends at once**, after one call of the
directory. -/
theorem begin_shut (he : e.Closable dir) (hclosed : (dir s).closed = true) :
    Call.begin e policy ⟨false, s⟩ =
        (.ended .interrupted, ⟨false, ((body e.home policy).outcome e s).2⟩) ∧
      ((body e.home policy).trace e s).map Exchange.request = openNotes e.home ++
        [.homeStatus, .note (.report (.cycleEnded e.home .interrupted))] := by
  have hopened : (dir (opened e s)).closed = true := by
    have hfirst := (he.note (.report (.cycleStarted e.home)) s).evolves.unwritten hclosed
    exact ((he.note (.count .cycles) _).evolves.unwritten hfirst.closed).closed
  have hrefused : (e.directory.homeStatus (opened e s)).1 = .error (.failure .transportClosed) := by
    have habort := (he.abort?_call (r := .homeStatus) rfl (opened e s)).2 hopened
    have habort' : Reply.abort? (e.directory.homeStatus (opened e s)).1 =
      some (.failure .transportClosed) := habort
    generalize (e.directory.homeStatus (opened e s)).1 = reply at habort'
    cases reply with
    | ok a => exact nomatch habort'
    | error a => rw [Option.some.inj habort']
  -- the answer leaves nothing to do but to report the end
  obtain ⟨next, hrest, hnext⟩ : ∃ next, rest e.home policy = .ask .homeStatus next ∧
      next (.error (.failure .transportClosed)) =
        .ask (.note (.report (.cycleEnded e.home .interrupted))) fun _ => .done .interrupted :=
    ⟨_, rfl, rfl⟩
  have hadvance : Call.begin e policy ⟨false, s⟩ =
      Call.hold (((rest e.home policy).within e).advance (opened e s)) := rfl
  have houtcome : (body e.home policy).outcome e s = (rest e.home policy).outcome e (opened e s) :=
    rfl
  have htrace : ((body e.home policy).trace e s).map Exchange.request =
      openNotes e.home ++ ((rest e.home policy).trace e (opened e s)).map Exchange.request := rfl
  have hanswer : (e.exchange .homeStatus (opened e s)).answer =
      .error (.failure .transportClosed) := hrefused
  rw [hadvance, houtcome, htrace, hrest]
  constructor
  · have hstep : ((Program.ask .homeStatus next).within e).advance (opened e s) =
        ((next (e.exchange .homeStatus (opened e s)).answer).within e).advance
          (e.exchange .homeStatus (opened e s)).after := rfl
    rw [hstep, Program.outcome_ask, hanswer, hnext]
    rfl
  · rw [Program.trace_ask, hanswer, hnext]
    rfl

end Runs

/-- **Closing the directory stops the loop.**  `Surroundings.Closable` supposes that calls of the
directory are answered by the directory itself, which may be shut at any instant, and which others
may change by operations. -/
theorem closing (e : Surroundings σ) (dir : σ → Directory) (he : e.Closable dir)
    (policy : DemotionPolicy) :
    -- once the directory is shut nothing is written, however many calls take turns in whatever order
    -- and whatever others do in between, and every call of the directory that can fail does
    (∀ (n : Nat) (s : σ) (p p' : Pool σ),
      Relation.ReflTransGen (Pool.Move e policy dir) (Pool.ofFresh n ⟨false, s⟩) p →
      Relation.ReflTransGen (Pool.Move e policy dir) p p' →
      (dir p.shared.world).closed = true →
        Directory.Unwritten (dir p.shared.world) (dir p'.shared.world) ∧
        ∀ op : Operation, op.isFallible = true →
          (dir p'.shared.world).perform op = (.error .transportClosed, dir p'.shared.world)) ∧
    ∀ s : σ,
      let run := (body e.home policy).outcome e s
      let trace := (body e.home policy).trace e s
      -- this is so from any instant within a turn, too
      ((body e.home policy).within e).Makes (Surroundings.StaysShut dir) s ∧
      -- a cycle during an install of which the directory was shut is interrupted, whatever the
      -- install was answered, without a heartbeat or a word on a missing status
      (∀ y ∈ trace, ∀ source, y.request = .install source → (dir y.after).closed = true →
        run.1 = .interrupted ∧ ∀ z ∈ trace, z.request.IsEarly) ∧
      -- the shutdown is not counted as a failure: a cycle counts none but that of a heartbeat which
      -- failed for another reason, and for more than want of answers
      (∀ label total, e.Records (.checkErrors label) total → total run.2 = total s ∨
        total run.2 = total s + 1 ∧ label = "server_in_stall" ∧
          ∃ y ∈ trace, ∃ database peers timeoutMs a,
            y.told = ⟨.heartbeat database peers timeoutMs, .error a⟩ ∧
              a ≠ .failure .transportClosed ∧ ∀ other, a ≠ .failure (.allUnreachable other)) ∧
      -- a call that begins once the directory is shut ends at once, with no install or heartbeat
      ((dir s).closed = true →
        Call.begin e policy ⟨false, s⟩ = (.ended .interrupted, ⟨false, run.2⟩) ∧
        trace.map Exchange.request = openNotes e.home ++
          [.homeStatus, .note (.report (.cycleEnded e.home .interrupted))]) := by
  refine ⟨fun n s p p' hp hp' hclosed => ?_, fun s => ⟨?_, ?_, ?_, begin_shut he⟩⟩
  · obtain ⟨hsound, -⟩ := Pool.unwritten_of_moves he (Pool.sound_ofFresh n (s := s) trivial) hp
    have hunwritten := (Pool.unwritten_of_moves he hsound hp').2 hclosed
    exact ⟨hunwritten, fun op hop => Directory.perform_closed hunwritten.closed hop⟩
  · exact Program.makes_within he.makes_unwritten _ s
  · exact fun y hy source hinstall hclosed => interrupted_of_install he hy hinstall hclosed
  · exact fun label total htotal => total_of_closable he htotal

/-- A node whose directory is shut while a copy is installed. -/
def shutMeanwhile : Surroundings (World Unit) :=
  World.surroundings "n1"
    (fun _ => .pause 5 (.look fun w =>
      .become { w with directory := w.directory.close } (.done (.ok true))))
    fun _ _ _ => .pause 200 (.done (.error (.failure (.transport "lost"))))

/-- The copy that was installed stays offline, and neither this cycle nor the next one counts a
failure or asks for more. -/
theorem closing_shutMeanwhile :
    let run := (body "n1" ⟨true, 200⟩).outcome shutMeanwhile Pool.staleCopy
    let trace := (body "n1" ⟨true, 200⟩).trace shutMeanwhile Pool.staleCopy
    let p := (Pool.ofFresh 1 ⟨false, Pool.staleCopy⟩).step shutMeanwhile ⟨true, 200⟩ 0
    let shut : Pool (World Unit) :=
      ⟨⟨true, { p.shared.world with directory := p.shared.world.directory.close }⟩, p.calls⟩
    let p' := shut.step shutMeanwhile ⟨true, 200⟩ 0
    (run.1 = .interrupted ∧ ∀ z ∈ trace, z.request.IsEarly) ∧
      p'.shared.world.directory.entries.find? ⟨"n1", "Orders"⟩ = some .offline ∧
      Directory.Unwritten shut.shared.world.directory p'.shared.world.directory ∧
      run.2.journal.tally.count (.checkErrors "server_status") = 0 ∧
      (Call.begin shutMeanwhile ⟨true, 200⟩ ⟨false, run.2⟩).1 = .ended .interrupted := by
  intro run trace p shut p'
  have hclosable : shutMeanwhile.Closable World.directory :=
    World.closable (fun _ _ _ _ => ⟨⟨[.close], rfl⟩, trivial⟩) fun _ _ _ _ _ _ => trivial
  have hrecords : ∀ c, shutMeanwhile.Records c fun w => w.journal.tally.count c := fun c =>
    World.records c (fun _ _ _ _ => ⟨rfl, trivial⟩) fun _ _ _ _ _ _ => trivial
  obtain ⟨hmoves, hruns⟩ := closing shutMeanwhile World.directory hclosable ⟨true, 200⟩
  obtain ⟨-, hinstall, hcounts, -⟩ := hruns Pool.staleCopy
  obtain ⟨-, -, -, hlater⟩ := hruns run.2
  have hlength : 7 < trace.length := by decide
  have hrun : run.1 = .interrupted ∧ ∀ z ∈ trace, z.request.IsEarly :=
    hinstall _ (List.getElem_mem hlength) ⟨"Orders", "n2", ["n2"]⟩ rfl rfl
  have hfirst : Relation.ReflTransGen (Pool.Move shutMeanwhile ⟨true, 200⟩ World.directory)
      (Pool.ofFresh 1 ⟨false, Pool.staleCopy⟩) shut :=
    .tail (.single (.turn 0)) (.others ⟨[.close], rfl⟩)
  refine ⟨hrun, rfl, (hmoves 1 _ shut p' hfirst (.single (.turn 0)) rfl).1, ?_, ?_⟩
  · -- the label is not that of the stall check
    obtain hsame | ⟨-, hlabel, -⟩ := hcounts "server_status" _ (hrecords _)
    · exact hsame
    · simp at hlabel
  · exact congrArg Prod.fst (hlater rfl).1

end Cycle

end Upkeep
