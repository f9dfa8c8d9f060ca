import Upkeep.Proofs.Heartbeat.Numbering
import Upkeep.Proofs.Heartbeat.Senders
import Upkeep.Proofs.Heartbeat.Traffic
import Upkeep.Proofs.Schedule.Carrying

/-!
# Calls of a fan-out do not interfere

A call keeps to its own round whatever others do while it waits, and so it stands at every moment
where it would stand if it had been made alone under its number.

* `Traffic.Sound.step` : whatever happens, each call keeps to its own round.
* `Sending.Sound.asAlone` : **where a call stands is where it would stand alone**.
* `Traffic.no_interference` : **calls are numbered as they begin, return only their own answers, and
  end as they would alone**.
-/

namespace Upkeep

variable {σ : Type} {f : FanOut σ} {next : σ → UInt64}

/-- Whatever happens while it waits, the round of a call ends with a reply and at an instant of which
`Q` holds. -/
def Sending.ComesTo (f : FanOut σ) (c : Sending σ) (Q : Reply Responses → Nat → Prop) : Prop :=
  ∀ s, (f.exchange c.ping c.order.peers c.order.timeoutMs).EndsAt (fun _ _ => True)
    (fun reply t _ => Q reply t) c.begun s

/-- A call stands where its round leads to. -/
structure Sending.Sound (f : FanOut σ) (next : σ → UInt64) (now : Nat) (c : Sending σ) : Prop where
  /-- It takes no number, and what it returns belongs to its message. -/
  owned : match c.slot with
    | .ended _ reply => Reply.Own c.ping reply
    | .waiting _ rest => ∀ s, FanOut.Owned next c.ping rest s
  /-- What its round comes to and when, it comes to at that time. -/
  ends : ∀ Q : Reply Responses → Nat → Prop, c.ComesTo f Q →
    match c.slot with
    | .ended at_ reply => Q reply at_
    | .waiting wake rest => ∀ s, rest.EndsAt (fun _ _ => True) (fun reply t _ => Q reply t) wake s
  /-- If it waits, its pause has not ended yet. -/
  due : c.slot.waitsUntil now = true

/-- A call that goes on up to its next pause stands where it should, and takes no number. -/
theorem Sending.Sound.of_advance {now : Nat} {c : Sending σ} {p : Process σ (Reply Responses)}
    {s : σ}
    (howned : FanOut.Owned next c.ping p s)
    (hends : ∀ Q : Reply Responses → Nat → Prop, c.ComesTo f Q →
      p.EndsAt (fun _ _ => True) (fun reply t _ => Q reply t) now s)
    (hslot : c.slot = .ofProgress now (p.advance s).1) :
    c.Sound f next now ∧ next (p.advance s).2 = next s := by
  obtain ⟨hsteps, hgoesOn⟩ := howned.advance
  have hnext : next (p.advance s).2 = next s := Process.same_of_steps hsteps
  have hlater := fun Q hQ => (hends Q hQ).advance
  refine ⟨?_, hnext⟩
  generalize (p.advance s).1 = progress at hslot hgoesOn hlater
  obtain ⟨order, begun, number, slot⟩ := c
  subst hslot
  cases progress with
  | ended reply => exact ⟨hgoesOn, hlater, rfl⟩
  | waiting ms rest =>
    exact ⟨fun s' => hgoesOn s' trivial, fun Q hQ s' => hlater Q hQ s' trivial,
      Slot.waitsUntil_ofProgress now (.waiting ms rest)⟩

namespace Traffic

/-- Every call has the number of its place and stands where it should. -/
structure Sound (f : FanOut σ) (next : σ → UInt64) (first : UInt64) (t : Traffic σ) : Prop where
  /-- The next call gets the next number. -/
  next_eq : next t.state = first + .ofNat t.calls.length
  /-- The calls are numbered in the order in which they began. -/
  numbers : t.calls.map Sending.number = (List.range t.calls.length).map (first + .ofNat ·)
  /-- Each call stands where it should. -/
  calls : ∀ c ∈ t.calls, c.Sound f next t.now

variable {first : UInt64} {t : Traffic σ}

theorem Sound.begins (hf : f.Counts next) (h : t.Sound f next first) (order : RoundOrder) :
    (t.step f (.begins order)).Sound f next first := by
  let ping : Ping := ⟨(f.takeId t.state).1, order.database⟩
  let s := (f.takeId t.state).2
  let p := f.exchange ping order.peers order.timeoutMs
  have hsend : (f.send order.database order.peers order.timeoutMs).advance t.state =
    p.advance s := rfl
  let c : Sending σ := ⟨order, t.now, ping.messageId, .ofProgress t.now (p.advance s).1⟩
  obtain ⟨hc, hnext⟩ : c.Sound f next t.now ∧ next (p.advance s).2 = next s :=
    Sending.Sound.of_advance (hf.owned_exchange ping order.peers order.timeoutMs s)
      (fun Q hQ => hQ s) rfl
  have hstep : t.step f (.begins order) =
    { t with state := (p.advance s).2, calls := t.calls ++ [c] } := rfl
  rw [hstep]
  constructor
  · show next (p.advance s).2 = first + .ofNat (t.calls ++ [c]).length
    rw [hnext, hf.counts, h.next_eq, List.length_append, List.length_singleton, UInt64.ofNat_add,
      UInt64.add_assoc]
    rfl
  · show (t.calls ++ [c]).map Sending.number =
      (List.range (t.calls ++ [c]).length).map (first + .ofNat ·)
    rw [List.length_append, List.length_singleton, List.range_succ, List.map_append,
      List.map_append, h.numbers]
    refine congrArg _ (congrArg (fun number => [number]) ?_)
    exact (hf.takes t.state).trans h.next_eq
  · exact List.forall_mem_append.2 ⟨h.calls, List.forall_mem_singleton.2 hc⟩

theorem Sound.resumes (h : t.Sound f next first) (i : Nat) :
    (t.step f (.resumes i)).Sound f next first := by
  obtain hstep | ⟨c, rest, hget, hslot⟩ := step_resumes_cases f t i
  · rw [hstep]
    exact h
  · obtain ⟨howned, hends, -⟩ := h.calls c (List.mem_of_getElem? hget)
    rw [hslot] at howned hends
    obtain ⟨hafter, hnext⟩ := Sending.Sound.of_advance
      (c := { c with slot := .ofProgress t.now (rest.advance t.state).1 })
      (howned t.state) (fun Q hQ => hends Q hQ t.state) rfl
    rw [step_resumes hget hslot]
    refine ⟨?_, ?_, fun c' hc' => ?_⟩
    · rw [List.length_set]
      exact hnext.trans h.next_eq
    · rw [List.length_set, map_set hget (by rfl)]
      exact h.numbers
    · obtain hc' | rfl := List.mem_or_eq_of_mem_set hc'
      · exact h.calls c' hc'
      · exact hafter

theorem Sound.passes (h : t.Sound f next first) (ms : Nat) :
    (t.step f (.passes ms)).Sound f next first := by
  unfold step
  dsimp only
  split
  · rename_i hdue
    exact ⟨h.next_eq, h.numbers, fun c hc =>
      { h.calls c hc with due := List.all_eq_true.1 hdue c hc }⟩
  · exact h

theorem Sound.elsewhere (h : t.Sound f next first) {change : σ → σ}
    (hchange : ∀ s, next (change s) = next s) : (t.step f (.elsewhere change)).Sound f next first :=
  ⟨(hchange t.state).trans h.next_eq, h.numbers, h.calls⟩

/-- **Whatever happens, each call keeps to its own round.** -/
theorem Sound.step (hf : f.Counts next) (h : t.Sound f next first) {event : Event σ}
    (hevent : event.Spares next) : (t.step f event).Sound f next first := by
  cases event with
  | begins order => exact h.begins hf order
  | resumes i => exact h.resumes i
  | passes ms => exact h.passes ms
  | elsewhere change => exact h.elsewhere hevent

theorem Sound.run (hf : f.Counts next) {events : List (Event σ)}
    (hevents : ∀ event ∈ events, event.Spares next) (h : t.Sound f next first) :
    (Traffic.run f events t).Sound f next first := by
  induction events generalizing t with
  | nil => exact h
  | cons event rest ih =>
    obtain ⟨hevent, hrest⟩ := List.forall_mem_cons.1 hevents
    exact ih hrest (h.step hf hevent)

theorem sound_start (f : FanOut σ) (next : σ → UInt64) (s : σ) :
    Sound f next (next s) { state := s } :=
  ⟨(UInt64.add_zero _).symm, rfl, nofun⟩

/-- As many calls as there are numbers do not share one. -/
theorem Sound.nodup_numbers (h : t.Sound f next first) (hcalls : t.calls.length ≤ 2 ^ 64) :
    (t.calls.map Sending.number).Nodup := by
  rw [h.numbers]
  refine List.pairwise_map.2 (List.nodup_range.imp_of_mem fun {i j} hi hj hne hij => hne ?_)
  have hi := Nat.lt_of_lt_of_le (List.mem_range.1 hi) hcalls
  have hj := Nat.lt_of_lt_of_le (List.mem_range.1 hj) hcalls
  have hsame := congrArg UInt64.toNat ((UInt64.add_right_inj first).1 hij)
  rwa [UInt64.toNat_ofNat', UInt64.toNat_ofNat', Nat.mod_eq_of_lt hi, Nat.mod_eq_of_lt hj] at hsame

end Traffic

/-- A call has ended as it would have if it had been made alone in this state; or it waits, but not
for longer. -/
def Sending.AsAlone (f : FanOut σ) (now : Nat) (c : Sending σ) (s₀ : σ) : Prop :=
  let alone := ((f.send c.order.database c.order.peers c.order.timeoutMs).finish 0 s₀).1
  match c.slot with
  | .ended at_ reply => reply = alone.1 ∧ at_ = c.begun + alone.2
  | .waiting wake _ => now ≤ wake ∧ wake ≤ c.begun + alone.2

/-- **Where a call stands is where it would stand alone.** -/
theorem Sending.Sound.asAlone {plan : ProbePlan} {now : Nat} {c : Sending σ} {s₀ : σ}
    (hf : f.Counts next) (hplan : f.Follows (fun _ => ()) plan) (h : c.Sound f next now)
    (hs₀ : next s₀ = c.number) : c.AsAlone f now s₀ := by
  unfold Sending.AsAlone
  intro alone
  let outcome := (plan.conduct.sheet c.ping () c.order.peers).outcome c.ping c.order.timeoutMs
  have hexchange := hplan.performs.endsAt_exchange c.ping c.order.peers c.order.timeoutMs
  have halone : alone = outcome := by
    have hping : (⟨(f.takeId s₀).1, c.order.database⟩ : Ping) = c.ping := by
      rw [hf.takes, hs₀]
      rfl
    have hsend : alone = ((f.exchange ⟨(f.takeId s₀).1, c.order.database⟩ c.order.peers
      c.order.timeoutMs).finish 0 (f.takeId s₀).2).1 := rfl
    rw [hsend, hping]
    exact ((hexchange _).finish fun _ => rfl).1
  have hends := h.ends (fun reply t => reply = alone.1 ∧ t = c.begun + alone.2) fun s =>
    ((hexchange s).shift c.begun).mono (fun _ _ _ => rfl) fun reply t _ ⟨t', ht, houtcome, _⟩ => by
      obtain ⟨hreply, htime⟩ := Prod.mk.inj houtcome
      rw [halone]
      exact ⟨hreply, htime ▸ ht⟩
  have hdue := h.due
  cases hslot : c.slot with
  | ended at_ reply =>
    rw [hslot] at hends
    exact hends
  | waiting wake rest =>
    rw [hslot] at hends hdue
    obtain ⟨-, htime⟩ := (hends s₀).finish fun _ => trivial
    exact ⟨of_decide_eq_true hdue, htime ▸ rest.le_finish wake s₀⟩

/-- **Heartbeats do not interfere.**  Calls are numbered from 1 in the order in which they begin, and
no two of them share a number before all numbers are used up.  What a call returns are answers to
its own message.  If the probes follow a plan, a call ends as it would end alone, after the same
time. -/
theorem Traffic.no_interference (ids : MessageIds σ) {probe : Probe σ} {report : Report → σ → σ}
    (hspares : (FanOut.numbered ids probe report).Spares ids.next) (s : σ)
    {events : List (Event σ)} (hevents : ∀ event ∈ events, event.Spares ids.next) :
    let f := FanOut.numbered ids probe report
    let t := Traffic.run f events { state := ids.fresh s }
    t.calls.map Sending.order = events.filterMap Event.order? ∧
    t.calls.map Sending.number = (List.range t.calls.length).map (1 + .ofNat ·) ∧
    (t.calls.length ≤ 2 ^ 64 → (t.calls.map Sending.number).Nodup) ∧
    (∀ c ∈ t.calls, ∀ at_ responses, c.slot = .ended at_ (.ok responses) →
      ∀ peer ack, responses.find? peer = some ack →
        ack.database = c.order.database ∧ ack.messageId = c.number) ∧
    ∀ plan, f.Follows (fun _ => ()) plan → ∀ c ∈ t.calls, ∀ s₀, ids.next s₀ = c.number →
      c.AsAlone f t.now s₀ := by
  intro f t
  have hf : f.Counts ids.next := hspares.counts
  have hfirst : ids.next (ids.fresh s) = 1 := ids.next_setNext _ s
  have hsound : t.Sound f ids.next 1 := (hfirst ▸ Traffic.sound_start f ids.next _).run hf hevents
  refine ⟨Traffic.orders_run f events _, hsound.numbers, hsound.nodup_numbers, ?_,
    fun plan hplan c hc s₀ hs₀ => (hsound.calls c hc).asAlone hf hplan hs₀⟩
  intro c hc at_ responses hslot
  have howned := (hsound.calls c hc).owned
  rw [hslot] at howned
  exact howned responses rfl

theorem Conduct.spares_fanOut {β : Type} (c : Conduct β) : c.fanOut.Spares Prod.fst where
  sends _ _ _ := rfl
  settles peer ping s ms settle h := by
    simp only [fanOut, FanOut.numbered] at h
    split at h
    · cases h
    · cases h
      exact fun _ => rfl
  reports _ _ := rfl

theorem ProbePlan.follows_fanOut (plan : ProbePlan) {β : Type} :
    (plan.conduct : Conduct β).fanOut.Follows (fun _ => ()) plan where
  sends _ _ _ := rfl
  comes peer ping s := by
    simp only [Conduct.fanOut, FanOut.numbered, conduct]
    cases plan peer ping with
    | none => rfl
    | some r => exact ⟨r.2, rfl, fun _ => ⟨rfl, rfl⟩⟩
  reports _ _ := rfl

/-- A peer that always answers the message before, one that answers after a while, and others that
take twice as long. -/
def belated : ProbePlan := fun peer ping =>
  match peer with
  | "n2" => some (5, .ok ⟨"n2", ping.database, ping.messageId - 1⟩)
  | "n3" => some (20, .ok (ping.ack "n3"))
  | _ => some (40, .ok (ping.ack peer))

/-- A second call of a fan-out begins while a first one is under way. -/
def overlap : List (Event (UInt64 × Unit)) :=
  [.begins ⟨"Orders", ["n2", "n3"], 30⟩, .passes 5, .resumes 0, .passes 5,
    .begins ⟨"Orders", ["n2", "n4"], 30⟩, .passes 5, .resumes 1, .passes 5, .resumes 0,
    .passes 20, .resumes 1]

/-- A monitor with a peer that is out of reach. -/
def outOfReach : Settings where
  cluster := { databases := ["Orders"], peers := [⟨"n2", true⟩, ⟨"n3", false⟩] }

/-- Its first heartbeat waits for that peer, and meanwhile a second one is sent. -/
def meanwhile : List (Event MonitorWorld) :=
  [.begins ⟨"Orders", ["n2", "n3"], 30⟩, .passes 10, .begins ⟨"Orders", ["n2"], 30⟩, .passes 20,
    .resumes 0]

/-- The answer to the first message that comes while the second call waits does not count there.
The messages of a monitor have the numbers 1 and 2. -/
theorem Traffic.no_interference_overlap :
    (let f := belated.conduct.fanOut
      let t := Traffic.run f overlap { state := (1, ()) }
      t.calls.map (fun c => (c.number, c.slot.result?)) =
        [(1, some (.ok (.ofList [("n3", ⟨"n3", "Orders", 1⟩)]), 20)),
          (2, some (.error (.failure (.allUnreachable "Orders")), 40))] ∧
      ∀ c ∈ t.calls, c.AsAlone f t.now (c.number, ())) ∧
    (Traffic.run Monitor.fanOut meanwhile { state := Monitor.world outOfReach }).calls.map
      Sending.number = [1, 2] := by
  have hoverlap : ∀ event ∈ overlap, event.Spares (MessageIds.beside Unit).next := by
    simp only [overlap, List.forall_mem_cons, Event.Spares, true_and]
    exact nofun
  have hmeanwhile : ∀ event ∈ meanwhile, event.Spares Monitor.ids.next := by
    simp only [meanwhile, List.forall_mem_cons, Event.Spares, true_and]
    exact nofun
  obtain ⟨-, -, -, -, halone⟩ :=
    Traffic.no_interference (.beside Unit) belated.conduct.spares_fanOut (1, ()) hoverlap
  obtain ⟨horders, hnumbers, -, -, -⟩ := Traffic.no_interference Monitor.ids
    Monitor.counts_fanOut (Monitor.world outOfReach) hmeanwhile
  rw [Monitor.fresh_world] at horders hnumbers
  have hlength := congrArg List.length horders
  rw [List.length_map] at hlength
  rw [hlength] at hnumbers
  have htwo : (List.range (meanwhile.filterMap Event.order?).length).map (1 + UInt64.ofNat ·) =
      [1, 2] := rfl
  refine ⟨⟨by cbv, fun c hc => halone belated belated.follows_fanOut c hc (c.number, ()) rfl⟩, ?_⟩
  exact hnumbers.trans htwo

end Upkeep
