import Upkeep.Monitor
import Upkeep.Proofs.Heartbeat.Round
import Upkeep.Proofs.Steady.Climate

/-!
# The surroundings of a monitor

The peers of a monitor are within reach or not as its settings say, where the last setting for a
name counts (`Settings.reaches`).  They answer at once or never, so the surroundings of the monitor
are steady.

* `Monitor.finish_send` : what becomes of a heartbeat.
* `Monitor.steady` : **the surroundings of a monitor are steady.**
* `Monitor.count_outcome` : what a run counts.
-/

namespace Upkeep

/-- Whether a peer is within reach: the last setting for its name counts. -/
def Settings.reaches (s : Settings) (name : Node) : Bool :=
  (s.cluster.peers.reverse.find? fun p => p.name = name).all PeerSettings.reachable

section Reach

/-- Of the settings for a name the last one counts. -/
theorem Loopback.isReachable_foldl (peers : List PeerSettings) (l : Loopback) (name : Node) :
    (peers.foldl (fun l p => l.setReachable p.name p.reachable) l).isReachable name =
      ((peers.reverse.find? fun p => p.name = name).map PeerSettings.reachable).getD
        (l.isReachable name) := by
  induction peers generalizing l with
  | nil => rfl
  | cons p rest ih =>
    rw [List.foldl_cons, ih, List.reverse_cons, List.find?_append, isReachable_setReachable]
    cases rest.reverse.find? fun p => p.name = name with
    | some p' => rfl
    | none =>
      by_cases h : p.name = name
      · simp [h]
      · simp [h, Ne.symm h]

theorem Loopback.latencyMs_foldl (peers : List PeerSettings) (l : Loopback) :
    (peers.foldl (fun l p => l.setReachable p.name p.reachable) l).latencyMs = l.latencyMs := by
  induction peers generalizing l with
  | nil => rfl
  | cons p rest ih => exact ih _

/-- A monitor starts with its peers as the settings say. -/
theorem Settings.isReachable_loopback (s : Settings) (name : Node) :
    s.loopback.isReachable name = s.reaches name := by
  rw [loopback, Loopback.isReachable_foldl, reaches]
  cases s.cluster.peers.reverse.find? fun p => p.name = name <;> rfl

theorem Settings.latencyMs_loopback (s : Settings) : s.loopback.latencyMs = 0 :=
  Loopback.latencyMs_foldl s.cluster.peers {}

end Reach

/-- What stays the same around the cycles of a monitor. -/
def Settings.climate (s : Settings) : Climate where
  installs source := .ok (s.reaches source.node)
  rounds _ := .ok s.reaches

namespace Monitor

variable {s : Settings} {w : MonitorWorld}

/-- Every peer within reach has answered once all were asked, and nobody is awaited. -/
theorem launch_eq (ping : Ping) (hw : w.own.loopback = s.loopback) :
    ∀ (peers : List Node) (r : Round MonitorWorld), ∃ responses silent,
      fanOut.launch ping peers r w = (.ok ⟨responses, r.outstanding, silent⟩, w) ∧
        ∀ peer, responses.contains peer = true ↔
          r.responses.contains peer = true ∨ peer ∈ peers ∧ s.reaches peer = true
  | [], r => ⟨r.responses, r.silent, rfl, by simp⟩
  | peer :: rest, r => by
    cases hreach : s.reaches peer with
    | true =>
      have hprobe : fanOut.probe peer ping w = (.after 0 fun w => (.ok (ping.ack peer), w), w) := by
        simp only [fanOut, FanOut.numbered, Loopback.probe, hw, s.isReachable_loopback, hreach,
          s.latencyMs_loopback, if_true]
      have htake : fanOut.take ping peer r.responses (.ok (ping.ack peer)) w =
          (.ok (r.responses.put peer (ping.ack peer)), w) := by
        simp [FanOut.take, Verdict.of, Ping.ack_answers]
      obtain ⟨responses, silent, hlaunch, hcontains⟩ :=
        launch_eq ping hw rest { r with responses := r.responses.put peer (ping.ack peer) }
      refine ⟨responses, silent, ?_, fun other => ?_⟩
      · rw [FanOut.launch, hprobe]
        simp only [htake]
        exact hlaunch
      · rw [hcontains]
        by_cases hother : peer = other
        · subst hother
          simp [Table.contains, hreach]
        · simp [Table.contains, hother, Ne.symm hother]
    | false =>
      have hprobe : fanOut.probe peer ping w = (.never, w) := by
        simp only [fanOut, FanOut.numbered, Loopback.probe, hw, s.isReachable_loopback, hreach,
          Bool.false_eq_true, if_false]
      obtain ⟨responses, silent, hlaunch, hcontains⟩ :=
        launch_eq ping hw rest { r with silent := r.silent + 1 }
      refine ⟨responses, silent, ?_, fun other => ?_⟩
      · rw [FanOut.launch, hprobe]
        exact hlaunch
      · rw [hcontains]
        by_cases hother : other = peer
        · simp [hother, hreach]
        · simp [hother]

/-- What becomes of a round in which nobody is awaited. -/
theorem finish_collect (ping : Ping) (timeoutMs silent : Nat) (responses : Responses)
    (w : MonitorWorld) :
    let x := (fanOut.collect ping timeoutMs silent [] 0 responses).finish 0 w
    x.1.1 = FanOut.conclude ping responses ∧ x.2.directory = w.directory ∧ x.2.own = w.own ∧
      x.2.journal.tally = w.journal.tally := by
  by_cases hsilent : silent = 0
  · simp [FanOut.collect, hsilent, Process.finish]
  · by_cases htime : timeoutMs = 0
    · simp [FanOut.collect, hsilent, FanOut.elapse, Process.wait, htime, Process.modify,
        Process.update, Process.finish, fanOut, FanOut.numbered, World.report, Journal.report]
    · simp [FanOut.collect, hsilent, FanOut.elapse, Process.wait, htime, Process.modify,
        Process.update, Process.finish, fanOut, FanOut.numbered, World.report, Journal.report]

/-- The answers of everybody within reach are what the climate says. -/
theorem round_conclude {peers : List Node} {responses : Responses} (ping : Ping)
    (hcontains : ∀ peer, responses.contains peer = true ↔ peer ∈ peers ∧ s.reaches peer = true) :
    s.climate.Round ping.database peers (FanOut.conclude ping responses) := by
  unfold Climate.Round
  simp only [Settings.climate, FanOut.conclude]
  split
  · rename_i hany
    obtain ⟨peer, hpeer, hreach⟩ := List.any_eq_true.1 hany
    have hsome : responses.isEmpty = false :=
      Table.isEmpty_eq_false.2 ⟨peer, (hcontains peer).2 ⟨hpeer, hreach⟩⟩
    exact ⟨responses, by simp [hsome], hcontains⟩
  · rename_i hany
    have hnone : responses.isEmpty = true := by
      refine eq_true_of_ne_false fun hsome => hany ?_
      obtain ⟨peer, hpeer⟩ := Table.isEmpty_eq_false.1 hsome
      exact List.any_eq_true.2 ⟨peer, (hcontains peer).1 hpeer⟩
    exact .inl ⟨ping.database, by simp [hnone]⟩

/-- **What becomes of a heartbeat**: whoever was asked and is within reach has answered. -/
theorem finish_send (hw : w.own.loopback = s.loopback) (database : Database) (peers : List Node)
    (timeoutMs : Nat) :
    let x := (fanOut.send database peers timeoutMs).finish 0 w
    s.climate.Round database peers x.1.1 ∧ x.2.directory = w.directory ∧
      x.2.own.loopback = s.loopback ∧ x.2.journal.tally = w.journal.tally := by
  let ping : Ping := ⟨(ids.take w).1, database⟩
  have htaken : (ids.take w).2.own.loopback = s.loopback := hw
  obtain ⟨responses, silent, hlaunch, hcontains⟩ := launch_eq ping htaken peers {}
  have hround : s.climate.Round database peers (FanOut.conclude ping responses) :=
    round_conclude ping fun peer => (hcontains peer).trans (by simp [Table.contains])
  intro x
  have hx : x = (fanOut.collect ping timeoutMs silent [] 0 responses).finish 0 (ids.take w).2 := by
    have hlaunch' : fanOut.launch ⟨(fanOut.takeId w).1, database⟩ peers {} (fanOut.takeId w).2 =
        (.ok ⟨responses, [], silent⟩, (ids.take w).2) := hlaunch
    simp only [x, FanOut.send, FanOut.exchange, Process.finish_bind, Process.update,
      Process.finish, hlaunch', FanOut.inOrder, List.mergeSort_nil]
    rfl
  obtain ⟨hreply, hdirectory, hown, htally⟩ := finish_collect ping timeoutMs silent responses
    (ids.take w).2
  rw [hx, hreply, hdirectory, hown, htally]
  exact ⟨hround, rfl, hw, rfl⟩

/-- **The surroundings of a monitor are steady.** -/
theorem steady (s : Settings) : (surroundings s).Steady World.directory
    (fun w => w.own.loopback = s.loopback) s.climate := by
  refine World.steady (J := fun own : Peers => own.loopback = s.loopback) (fun source w hw => ?_)
    fun database peers timeoutMs w hw => ?_
  · refine ⟨?_, rfl, hw⟩
    simp [installer, Process.update, Process.finish, Settings.climate, hw, s.isReachable_loopback]
  · obtain ⟨hround, hdirectory, hloopback, -⟩ := finish_send hw database peers timeoutMs
    exact ⟨hround, hdirectory, hloopback⟩

/-- A note that a run makes of a counter moves it by one, and nothing else moves it. -/
theorem count_exchange (r : Request) (counter : Counter) (hw : w.own.loopback = s.loopback) :
    ((surroundings s).exchange r w).after.journal.tally.count counter =
      w.journal.tally.count counter + if r = .note (.count counter) then 1 else 0 := by
  cases r with
  | homeStatus | databases | status | onlineNodes => rfl
  | setStatus key status =>
    simp only [Surroundings.exchange, Surroundings.answer, Process.update, Process.finish,
      surroundings, World.surroundings, World.view, World.setStatus]
    split <;> rfl
  | install source => rfl
  | heartbeat database peers timeoutMs =>
    have htally := (finish_send hw database peers timeoutMs).2.2.2
    exact congrArg (Tally.count · counter) htally
  | note n =>
    cases n with
    | report r => rfl
    | count counter' =>
      by_cases h : counter' = counter <;>
        simp [Surroundings.exchange, Surroundings.answer, Process.modify, Process.update,
          Process.finish, surroundings, World.surroundings, World.note, Journal.note,
          Journal.count, h]

/-- **What a run counts** is what it asks to be counted. -/
theorem count_outcome {α : Type} (p : Program α) (counter : Counter)
    (hw : w.own.loopback = s.loopback) :
    (p.outcome (surroundings s) w).2.journal.tally.count counter = w.journal.tally.count counter +
      ((p.trace (surroundings s) w).map Exchange.request).count (.note (.count counter)) := by
  induction p generalizing w with
  | done a => rfl
  | ask r next ih =>
    have hrest := ih ((surroundings s).exchange r w).answer ((steady s).keeps r w hw)
    rw [Program.outcome_ask]
    refine hrest.trans ?_
    rw [count_exchange r counter hw, Program.trace_ask, List.map_cons, exchange_request,
      List.count_cons]
    simp only [beq_iff_eq]
    omega

end Monitor

end Upkeep
