import Mathlib
import Upkeep.Proofs.Heartbeat.Sheet
import Upkeep.Proofs.Process.Timing

/-!
# What is collected, and how long it takes

A `Conduct` says of every probe when its result is there and what it is, or that there never is one.
It may tell two probes of one peer apart: what it says can depend on which peers were asked before.
`Conduct.sheet` lists what it says of the peers of a round.

* `FanOut.Performs.endsAt_exchange` : a round ends as its sheet says and when it says so, whatever
  happens while it waits.
* `FanOut.collection` : **so does a heartbeat that is sent alone**, and it asks no peer after one
  whose result ends the round at once.
-/

namespace Upkeep

variable {σ β : Type}

/-- What probes do, as far as it shows in a view of the state. -/
structure Conduct (β : Type) where
  /-- After how many milliseconds the result of a probe is there and what it is; `none` if there
  never is one. -/
  result? : β → Node → Ping → Option (Nat × Reply Ack)
  /-- The view once the message was sent. -/
  sent : β → Node → Ping → β

namespace Conduct

variable (c : Conduct β) (ping : Ping)

/-- The probes of the peers, one after another. -/
def sheet : β → List Node → Sheet
  | _, [] => []
  | b, peer :: rest => ⟨peer, c.result? b peer ping⟩ :: sheet (c.sent b peer ping) rest

/-- The view once the message was sent to some peers. -/
def askAll (b : β) (peers : List Node) : β := peers.foldl (fun b peer => c.sent b peer ping) b

end Conduct

/-- The conduct of probes that follow a plan and leave the view alone. -/
def ProbePlan.conduct (plan : ProbePlan) : Conduct β := ⟨fun _ => plan, fun b _ _ => b⟩

/-- The probes conduct themselves so, and the record leaves the view alone. -/
structure FanOut.Performs (f : FanOut σ) (view : σ → β) (c : Conduct β) : Prop where
  /-- Sending a message changes the view as described. -/
  sends : ∀ peer ping s, view (f.probe peer ping s).2 = c.sent (view s) peer ping
  /-- The result comes as described. -/
  comes : ∀ peer ping s, (f.probe peer ping s).1.Comes view (c.result? (view s) peer ping)
  /-- A line on record leaves the view alone. -/
  reports : ∀ line s, view (f.report line s) = view s

theorem FanOut.Follows.performs {f : FanOut σ} {view : σ → β} {plan : ProbePlan}
    (hf : f.Follows view plan) : f.Performs view plan.conduct where
  sends := hf.sends
  comes := hf.comes
  reports := hf.reports

/-- The result to come, as it would be in a state. -/
def Outstanding.arrival (o : Outstanding σ) (s : σ) : Arrival := ⟨o.peer, o.ms, (o.settle s).1⟩

/-- Whatever happens until then, the result is the one that it would be in this state, and it leaves
the view alone. -/
def Outstanding.Settled (o : Outstanding σ) (view : σ → β) (s₀ : σ) : Prop :=
  ∀ s, (o.settle s).1 = (o.settle s₀).1 ∧ view (o.settle s).2 = view s

namespace FanOut

variable {f : FanOut σ} {view : σ → β} {c : Conduct β} {ping : Ping} {limit : Nat}

/-- To take a result is to add it to the answers. -/
theorem take_fst (f : FanOut σ) (ping : Ping) (responses : Responses) (a : Arrival) (s : σ) :
    (f.take ping a.peer responses a.reply s).1 =
      (a.add ping responses).mapError Prod.fst := by
  unfold take Arrival.add
  cases Verdict.of ping a.reply <;> rfl

/-- How a round stands once the peers of a sheet were asked: it is over, or the results that were
there at once are taken and the others are to come. -/
def Opened (view : σ → β) (s₀ : σ) (ping : Ping) (r : Round σ) (sheet : Sheet)
    (x : Reply (Round σ)) : Prop :=
  match sheet.atOnce.foldlM (Arrival.add ping) r.responses with
  | .ok responses => ∃ later : List (Outstanding σ),
    later.map (·.arrival s₀) = sheet.later ∧ (∀ o ∈ later, o.Settled view s₀) ∧
      x = .ok ⟨responses, r.outstanding ++ later,
        r.silent + sheet.countP fun row => row.result?.isNone⟩
  | .error (cause, _) => x = .error cause

section Opened

variable {s₀ : σ} {r : Round σ} {peer : Node} {rest : Sheet} {x : Reply (Round σ)}

/-- A peer that never gives a result is counted. -/
theorem Opened.never (h : Opened view s₀ ping { r with silent := r.silent + 1 } rest x) :
    Opened view s₀ ping r (⟨peer, none⟩ :: rest) x := by
  unfold Opened at h ⊢
  rw [Sheet.atOnce_cons_never, Sheet.later_cons_never]
  split at h
  · rename_i responses hfold
    obtain ⟨later, hlater, hsettled, rfl⟩ := h
    rw [hfold]
    exact ⟨later, hlater, hsettled, by simp [Nat.add_assoc, Nat.add_comm 1]⟩
  · rename_i cause ms hfold
    rw [hfold]
    exact h

/-- A result that is not there at once is to come. -/
theorem Opened.after {ms : Nat} {settle : σ → Reply Ack × σ} {reply : Reply Ack}
    (hsettle : ∀ s, (settle s).1 = reply ∧ view (settle s).2 = view s)
    (h : Opened view s₀ ping
      { r with outstanding := r.outstanding ++ [⟨peer, ms + 1, settle⟩] } rest x) :
    Opened view s₀ ping r (⟨peer, some (ms + 1, reply)⟩ :: rest) x := by
  unfold Opened at h ⊢
  rw [Sheet.atOnce_cons_after, Sheet.later_cons_after]
  split at h
  · rename_i responses hfold
    obtain ⟨later, hlater, hsettled, rfl⟩ := h
    rw [hfold]
    refine ⟨⟨peer, ms + 1, settle⟩ :: later, ?_, List.forall_mem_cons.2 ⟨fun s => ?_, hsettled⟩, ?_⟩
    · rw [List.map_cons, hlater, Outstanding.arrival, (hsettle s₀).1]
    · exact ⟨(hsettle s).1.trans (hsettle s₀).1.symm, (hsettle s).2⟩
    · simp
  · rename_i cause ms hfold
    rw [hfold]
    exact h

/-- A result that is there at once is taken before the next peer is asked. -/
theorem Opened.now {reply : Reply Ack} {responses : Responses}
    (hadd : Arrival.add ping r.responses ⟨peer, 0, reply⟩ = .ok responses)
    (h : Opened view s₀ ping { r with responses := responses } rest x) :
    Opened view s₀ ping r (⟨peer, some (0, reply)⟩ :: rest) x := by
  unfold Opened at h ⊢
  rw [Sheet.atOnce_cons_now, List.foldlM_cons, hadd, Sheet.later_cons_now,
    List.countP_cons_of_neg (by simp)]
  exact h

end Opened

/-- **Asking the peers** takes the results that are there at once and leaves the others to come. -/
theorem Performs.launch (hf : f.Performs view c) (s₀ : σ) (peers : List Node) (r : Round σ) (s : σ) :
    let sheet := c.sheet ping (view s) peers
    let x := f.launch ping peers r s
    view x.2 = c.askAll ping (view s) sheet.probed ∧ Opened view s₀ ping r sheet x.1 := by
  induction peers generalizing r s with
  | nil =>
    exact ⟨rfl, [], rfl, List.forall_mem_nil _, by simp [FanOut.launch, Conduct.sheet]⟩
  | cons peer rest ih =>
    have hsent := hf.sends peer ping s
    have hcomes := hf.comes peer ping s
    cases hprobe : f.probe peer ping s with | _ pending s'
    rw [hprobe] at hsent hcomes
    dsimp only at hsent
    dsimp only [Conduct.sheet]
    rw [← hsent]
    -- unless this result ends the round at once, the next peer is asked
    have hprobed : ∀ {row : Row}, row.breaksAtOnce = false → row.peer = peer →
        c.askAll ping (view s') (c.sheet ping (view s') rest).probed =
          c.askAll ping (view s) (Sheet.probed (row :: c.sheet ping (view s') rest)) := by
      rintro row hrow rfl
      rw [Sheet.probed, hrow, hsent]
      rfl
    cases pending with
    | never =>
      have hnone : c.result? (view s) peer ping = none := hcomes
      obtain ⟨hview, hend⟩ := ih { r with silent := r.silent + 1 } s'
      rw [FanOut.launch, hprobe, hnone]
      exact ⟨hview.trans (hprobed rfl rfl), hend.never⟩
    | after ms settle =>
      obtain ⟨reply, hplan, hsettle⟩ := hcomes
      rw [hplan]
      cases ms with
      | zero =>
        -- the result is there at once
        obtain ⟨hreply, hsettled⟩ := hsettle s'
        have htaken := take_fst f ping r.responses ⟨peer, 0, reply⟩ (settle s').2
        have hview := keeps_take hf.reports ping peer r.responses reply (settle s').2
        rw [launch_now hprobe, hreply]
        dsimp only at htaken
        generalize f.take ping peer r.responses reply (settle s').2 = taken at htaken hview
        obtain ⟨outcome, s''⟩ := taken
        have hview' : view s'' = view s' := hview.trans hsettled
        obtain ⟨cause, hbreaks, hadd⟩ | ⟨hspared, hadd⟩ :=
          Arrival.add_cases ping r.responses ⟨peer, 0, reply⟩
        · obtain rfl : outcome = .error cause := htaken.trans (by rw [hadd]; rfl)
          obtain ⟨hcause, hends⟩ := hbreaks
          obtain rfl : reply = .error cause := hcause
          refine ⟨?_, ?_⟩
          · have hrow : Row.breaksAtOnce ⟨peer, some (0, .error cause)⟩ = true :=
              decide_eq_true hends
            rw [Sheet.probed, hrow]
            exact hview'.trans hsent
          · unfold Opened
            rw [Sheet.atOnce_cons_now, List.foldlM_cons, hadd]
            rfl
        · generalize (Arrival.answer? ping ⟨peer, 0, reply⟩).elim r.responses _ = responses at hadd
          obtain rfl : outcome = .ok responses := htaken.trans (by rw [hadd]; rfl)
          have hrow : Row.breaksAtOnce ⟨peer, some (0, reply)⟩ = false := by
            cases reply with
            | ok ack => rfl
            | error cause => exact decide_eq_false fun hends => hspared cause ⟨rfl, hends⟩
          obtain ⟨hlater, hend⟩ := ih { r with responses := responses } s''
          rw [hview'] at hlater hend
          exact ⟨hlater.trans (hprobed hrow rfl), hend.now hadd⟩
      | succ ms =>
        obtain ⟨hview, hend⟩ := ih
          { r with outstanding := r.outstanding ++ [⟨peer, ms + 1, settle⟩] } s'
        rw [FanOut.launch, hprobe]
        exact ⟨hview.trans (hprobed rfl rfl), hend.after hsettle⟩

/-- The window ends after its whole time. -/
theorem Performs.endsAt_elapse (hf : f.Performs view c) (outstanding : Nat) {elapsed : Nat}
    (helapsed : elapsed ≤ limit) (responses : Responses) (s : σ) :
    (f.elapse ping limit outstanding elapsed responses).EndsAt (fun s s' => view s' = view s)
      (fun x t s' => (x, t) = (conclude ping responses, limit) ∧ view s' = view s) elapsed s := by
  have hends : ∀ {t : Nat} (s' : σ), t = limit → view s' = view s →
      (conclude ping responses, t) = (conclude ping responses, limit) ∧
        view (f.report (.windowElapsed ping.database outstanding limit) s') = view s :=
    fun s' ht hs' => ⟨congrArg _ ht, (hf.reports _ s').trans hs'⟩
  exact Process.endsAt_bind.2 (Process.endsAt_wait (fun h => hends s (by omega) rfl)
    fun s' hs' => hends s' (by omega) hs')

/-- Takes a result that is there now, and then the others. -/
def receive (f : FanOut σ) (ping : Ping) (limit silent : Nat) (o : Outstanding σ)
    (rest : List (Outstanding σ)) (responses : Responses) : Process σ (Reply Responses) := do
  match ← Process.update fun s =>
      let (result, s) := o.settle s
      f.take ping o.peer responses result s with
  | .ok responses => f.collect ping limit silent rest o.ms responses
  | .error a => return .error a

/-- A result that comes in time is waited for. -/
theorem collect_cons {o : Outstanding σ} (h : o.ms ≤ limit) (f : FanOut σ) (ping : Ping)
    (silent elapsed : Nat) (rest : List (Outstanding σ)) (responses : Responses) :
    f.collect ping limit silent (o :: rest) elapsed responses =
      Process.wait (o.ms - elapsed) >>= fun _ => f.receive ping limit silent o rest responses := by
  rw [collect, if_pos h]
  rfl

/-- **The results to come are taken in order of time**, up to the end of the window. -/
theorem Performs.endsAt_collect (hf : f.Performs view c) (ping : Ping) (s₀ : σ) (silent : Nat)
    (outstanding : List (Outstanding σ)) (elapsed : Nat) (responses : Responses) (s : σ)
    (hsorted : outstanding.Pairwise fun a b => a.ms ≤ b.ms)
    (hlower : ∀ o ∈ outstanding, elapsed ≤ o.ms) (hsettled : ∀ o ∈ outstanding, o.Settled view s₀)
    (helapsed : elapsed ≤ limit) :
    let inTime := (outstanding.map (·.arrival s₀)).filter fun a => a.ms ≤ limit
    let complete := silent = 0 ∧ ∀ o ∈ outstanding, o.ms ≤ limit
    (f.collect ping limit silent outstanding elapsed responses).EndsAt
      (fun s s' => view s' = view s)
      (fun x t s' => (x, t) = Sheet.take ping inTime responses
        (if complete then inTime.getLast?.elim elapsed Arrival.ms else limit) ∧
          view s' = view s) elapsed s := by
  induction outstanding generalizing elapsed responses s with
  | nil =>
    intro inTime complete
    by_cases hsilent : silent = 0
    · rw [if_pos ⟨hsilent, List.forall_mem_nil _⟩, collect, if_pos hsilent]
      exact ⟨rfl, rfl⟩
    · rw [if_neg fun h => hsilent h.1, collect, if_neg hsilent]
      exact hf.endsAt_elapse silent helapsed responses s
  | cons o rest ih =>
    obtain ⟨hfirst, hsorted⟩ := List.pairwise_cons.1 hsorted
    obtain ⟨hsettle, hrest⟩ := List.forall_mem_cons.1 hsettled
    have hms : elapsed ≤ o.ms := hlower o List.mem_cons_self
    intro inTime complete
    by_cases hlate : o.ms ≤ limit
    · have hinTime : inTime = o.arrival s₀ ::
          (rest.map (·.arrival s₀)).filter fun a => a.ms ≤ limit :=
        List.filter_cons_of_pos (decide_eq_true hlate)
      have hcomplete : complete ↔ silent = 0 ∧ ∀ o ∈ rest, o.ms ≤ limit := by
        simp only [complete, List.forall_mem_cons, hlate, true_and]
      rw [collect_cons hlate]
      -- once the first result is there, it ends the round or the others are awaited
      have htake : ∀ (t : Nat) (s' : σ), t = o.ms → view s' = view s →
          (f.receive ping limit silent o rest responses).EndsAt (fun s s' => view s' = view s)
            (fun x t s' => (x, t) = Sheet.take ping inTime responses
                (if complete then inTime.getLast?.elim elapsed Arrival.ms else limit) ∧
              view s' = view s) t s' := by
        rintro _ s' rfl hs'
        refine Process.endsAt_bind.2 (Process.endsAt_update.2 ?_)
        obtain ⟨hreply, hsettled'⟩ := hsettle s'
        have htaken : (f.take ping o.peer responses (o.settle s').1 (o.settle s').2).1 =
            ((o.arrival s₀).add ping responses).mapError Prod.fst := by
          rw [hreply]
          exact take_fst f ping responses (o.arrival s₀) _
        have hview := keeps_take hf.reports ping o.peer responses (o.settle s').1 (o.settle s').2
        dsimp only
        generalize f.take ping o.peer responses (o.settle s').1 (o.settle s').2 = taken
          at htaken hview ⊢
        obtain ⟨outcome, s''⟩ := taken
        have hview' : view s'' = view s := hview.trans (hsettled'.trans hs')
        obtain ⟨cause, -, hadd⟩ | ⟨-, hadd⟩ := Arrival.add_cases ping responses (o.arrival s₀)
        · obtain rfl : outcome = .error cause := htaken.trans (by rw [hadd]; rfl)
          rw [hinTime, Sheet.take_cons_error hadd]
          exact ⟨rfl, hview'⟩
        · generalize (Arrival.answer? ping (o.arrival s₀)).elim responses _ = responses' at hadd
          obtain rfl : outcome = .ok responses' := htaken.trans (by rw [hadd]; rfl)
          rw [hinTime, Sheet.take_cons_ok hadd, List.getLast?_cons]
          have hrest := ih o.ms responses' s'' hsorted hfirst hrest hlate
          refine hrest.mono (fun _ _ h => h) fun x t s₁ ⟨hx, hs₁⟩ =>
            ⟨hx.trans ?_, hs₁.trans hview'⟩
          simp only [hcomplete]
          cases ((rest.map (·.arrival s₀)).filter fun a => a.ms ≤ limit).getLast? <;> rfl
      exact Process.endsAt_bind.2 (Process.endsAt_wait (fun h => htake _ s (by omega) rfl)
        fun s' hs' => htake _ s' (by omega) hs')
    · -- the results are in order of time, so all that are left are late
      have hinTime : inTime = [] := by
        refine List.filter_eq_nil_iff.2 fun a ha => ?_
        obtain ⟨o', ho', rfl⟩ := List.mem_map.1 ha
        have hle : o.ms ≤ o'.ms := by
          obtain rfl | ho' := List.mem_cons.1 ho'
          · exact Nat.le_refl _
          · exact hfirst o' ho'
        have hout : ¬(o'.arrival s₀).ms ≤ limit := fun h => hlate (Nat.le_trans hle h)
        simpa using hout
      rw [if_neg fun h => hlate (h.2 o List.mem_cons_self), collect, if_neg hlate, hinTime]
      exact hf.endsAt_elapse _ helapsed responses s

/-- **A round ends as its sheet says and when it says so**, whatever happens while it waits. -/
theorem Performs.endsAt_exchange (hf : f.Performs view c) (ping : Ping) (peers : List Node)
    (limit : Nat) (s : σ) :
    let sheet := c.sheet ping (view s) peers
    (f.exchange ping peers limit).EndsAt (fun s s' => view s' = view s)
      (fun x t s' => (x, t) = sheet.outcome ping limit ∧
        view s' = c.askAll ping (view s) sheet.probed) 0 s := by
  intro sheet
  refine Process.endsAt_bind.2 (Process.endsAt_update.2 ?_)
  obtain ⟨hview, hopened⟩ : view (f.launch ping peers {} s).2 =
        c.askAll ping (view s) sheet.probed ∧
      Opened view s ping {} sheet (f.launch ping peers {} s).1 := hf.launch s peers {} s
  generalize f.launch ping peers {} s = launched at hview hopened ⊢
  obtain ⟨outcome, s'⟩ := launched
  dsimp only at hview hopened ⊢
  unfold Opened at hopened
  split at hopened
  · rename_i responses hfold
    obtain ⟨later, hlater, hsettled, rfl⟩ := hopened
    have hsorted : (inOrder later).map (·.arrival s) = Sheet.inOrder sheet.later := by
      rw [← hlater]
      exact List.map_mergeSort fun _ _ _ _ => rfl
    have hlate : (∀ o ∈ inOrder later, o.ms ≤ limit) ↔ ∀ a ∈ sheet.later, a.ms ≤ limit := by
      rw [← hlater, List.forall_mem_map]
      exact forall_congr' fun o => by rw [inOrder, List.mem_mergeSort]; exact Iff.rfl
    have hcollect := hf.endsAt_collect ping s (0 + sheet.countP fun row => row.result?.isNone)
      (inOrder later) 0 responses s' (pairwise_inOrder later) (fun _ _ => Nat.zero_le _)
      (fun o ho => hsettled o (List.mem_mergeSort.1 ho)) (Nat.zero_le limit)
    refine hcollect.mono (fun _ _ h => h) fun x t s'' ⟨hx, hs''⟩ =>
      ⟨hx.trans ?_, hs''.trans hview⟩
    rw [Sheet.outcome_of_ok hfold, hsorted]
    simp only [Nat.zero_add, hlate]
  · rename_i cause ms hfold
    subst hopened
    exact ⟨(Sheet.outcome_of_error hfold).symm, hview⟩

/-- **What a heartbeat collects, and how long it takes.** -/
theorem collection (hf : f.Performs view c) (database : Database) (peers : List Node) (limit : Nat)
    (s : σ) :
    let ping : Ping := ⟨(f.takeId s).1, database⟩
    let b := view (f.takeId s).2
    let sheet := c.sheet ping b peers
    let x := (f.send database peers limit).finish 0 s
    x.1.2 ≤ limit ∧ sheet.Collected ping limit x.1.1 x.1.2 ∧
      view x.2 = c.askAll ping b sheet.probed := by
  intro ping b sheet x
  have hsend : (f.send database peers limit).EndsAt (fun s s' => view s' = view s)
      (fun x t s' => (x, t) = sheet.outcome ping limit ∧ view s' = c.askAll ping b sheet.probed)
      0 s := hf.endsAt_exchange ping peers limit (f.takeId s).2
  obtain ⟨houtcome, hview⟩ := hsend.finish fun _ => rfl
  have hcollected : sheet.Collected ping limit x.1.1 x.1.2 := by
    obtain ⟨hreply, htime⟩ := Prod.mk.inj houtcome
    rw [hreply, htime]
    exact sheet.collected_outcome ping limit
  exact ⟨hcollected.le, hcollected, hview⟩

end FanOut

/-- The number of the next message is kept beside the view. -/
def MessageIds.beside (β : Type) : MessageIds (UInt64 × β) where
  next := Prod.fst
  setNext id s := (id, s.2)
  next_setNext _ _ := rfl

/-- A fan-out whose probes conduct themselves so.  The state is the number of the next message and
the view. -/
def Conduct.fanOut (c : Conduct β) : FanOut (UInt64 × β) :=
  .numbered (.beside β) (fun peer ping s =>
    (match c.result? s.2 peer ping with
      | none => .never
      | some (ms, reply) => .after ms fun s => (reply, s), s.1, c.sent s.2 peer ping)) fun _ s => s

theorem Conduct.performs_fanOut (c : Conduct β) : c.fanOut.Performs Prod.snd c where
  sends _ _ _ := rfl
  comes peer ping s := by
    simp only [fanOut, FanOut.numbered]
    cases c.result? s.2 peer ping with
    | none => rfl
    | some r => exact ⟨r.2, rfl, fun _ => ⟨rfl, rfl⟩⟩
  reports _ _ := rfl

/-- A peer that is asked a second time answers sooner and under another name, another peer answers
about another database, and a third one is late. -/
def fickle : Conduct (List Node) where
  result? asked peer ping :=
    match peer with
    | "n2" =>
      if "n2" ∈ asked then some (10, .ok ⟨"alias", ping.database, ping.messageId⟩)
      else some (30, .ok (ping.ack "n2"))
    | "n3" => some (5, .ok ⟨"n3", "Stock", ping.messageId⟩)
    | _ => some (31, .ok (ping.ack peer))
  sent asked peer _ := asked ++ [peer]

/-- The answer that comes at the very end of the window is the last one of its peer. -/
theorem FanOut.collection_fickle :
    let peers := ["n2", "n3", "n2", "n4"]
    let x := (fickle.fanOut.send "Orders" peers 30).finish 0 (7, [])
    x = ((.ok (.ofList [("n2", ⟨"n2", "Orders", 7⟩)]), 30), 8, peers) ∧
      (fickle.sheet ⟨7, "Orders"⟩ [] peers).Collected ⟨7, "Orders"⟩ 30 x.1.1 x.1.2 := by
  dsimp only
  obtain ⟨-, hcollected, -⟩ := FanOut.collection fickle.performs_fanOut "Orders"
    ["n2", "n3", "n2", "n4"] 30 (7, [])
  refine ⟨?_, hcollected⟩
  cbv

end Upkeep
