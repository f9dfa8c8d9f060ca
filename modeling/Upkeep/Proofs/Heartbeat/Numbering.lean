import Upkeep.Proofs.Heartbeat.Collection

/-!
# What a call owns

Calls of a fan-out that run side by side share its state, and in particular the number of the next
message.  A call takes its number when it begins and leaves the counter alone from then on; and it
counts no answer but those to its own message.

* `FanOut.Spares.counts` : **messages are numbered one after another** if the probes leave the
  counter alone; they may do as they like otherwise.
* `FanOut.Spares.owned_exchange` : **a round leaves alone what its probes leave alone and returns
  only its own answers**, whatever happens while it waits.
-/

namespace Upkeep

variable {σ β : Type}

/-- The messages of a fan-out are numbered one after another, and nothing else moves the counter. -/
structure FanOut.Counts (f : FanOut σ) (next : σ → UInt64) : Prop extends f.Spares next where
  /-- A message gets the next number. -/
  takes : ∀ s, (f.takeId s).1 = next s
  /-- Taking a number counts. -/
  counts : ∀ s, next (f.takeId s).2 = next s + 1

/-- **Messages are numbered one after another** if the probes leave the counter alone. -/
theorem FanOut.Spares.counts {ids : MessageIds σ} {probe : Probe σ} {report : Report → σ → σ}
    (h : (numbered ids probe report).Spares ids.next) :
    (numbered ids probe report).Counts ids.next :=
  { h with
    takes := fun _ => rfl
    counts := fun s => ids.next_setNext (ids.next s + 1) s }

/-- Every answer is one to this message. -/
def Responses.Own (ping : Ping) (responses : Responses) : Prop :=
  ∀ peer ack, responses.find? peer = some ack →
    ack.database = ping.database ∧ ack.messageId = ping.messageId

/-- If a round returns answers, each is one to its message. -/
def Reply.Own (ping : Ping) (reply : Reply Responses) : Prop :=
  ∀ responses, reply = .ok responses → Responses.Own ping responses

section Own

variable {ping : Ping} {responses : Responses}

theorem Responses.own_empty (ping : Ping) : Responses.Own ping .empty := nofun

theorem Reply.own_error (ping : Ping) (a : Abort) : Reply.Own ping (.error a) := nofun

theorem Responses.Own.put {peer : Node} {ack : Ack} (h : Responses.Own ping responses)
    (hack : ack.database = ping.database ∧ ack.messageId = ping.messageId) :
    Responses.Own ping (responses.put peer ack) := by
  intro other ack' hfind
  rw [Table.find?_put] at hfind
  split at hfind
  · obtain rfl := Option.some.inj hfind
    exact hack
  · exact h other ack' hfind

theorem Responses.Own.conclude (h : Responses.Own ping responses) :
    Reply.Own ping (FanOut.conclude ping responses) := by
  unfold FanOut.conclude
  split
  · exact Reply.own_error ping _
  · rintro _ ⟨⟩
    exact h

/-- Only an answer to the message is taken. -/
theorem Responses.Own.take (h : Responses.Own ping responses) (f : FanOut σ) (peer : Node)
    (result : Reply Ack) (s : σ) :
    Reply.Own ping (f.take ping peer responses result s).1 := by
  have htake : (f.take ping peer responses result s).1 =
      (Arrival.add ping responses ⟨peer, 0, result⟩).mapError Prod.fst :=
    f.take_fst ping responses ⟨peer, 0, result⟩ s
  rw [htake]
  obtain ⟨cause, -, hadd⟩ | ⟨-, hadd⟩ := Arrival.add_cases ping responses ⟨peer, 0, result⟩
  · rw [hadd]
    exact Reply.own_error ping _
  · rw [hadd]
    rintro _ ⟨⟩
    cases hanswer : Arrival.answer? ping ⟨peer, 0, result⟩ with
    | none => exact h
    | some ack => exact h.put (Arrival.own_of_answer hanswer)

end Own

/-- The result to come leaves the view alone. -/
def Outstanding.Spares (o : Outstanding σ) (view : σ → β) : Prop :=
  ∀ s, view (o.settle s).2 = view s

namespace FanOut

variable {f : FanOut σ} {view : σ → β} {ping : Ping} {limit : Nat}

/-- What a round owns while it is under way. -/
def Round.Own (view : σ → β) (ping : Ping) (r : Round σ) : Prop :=
  Responses.Own ping r.responses ∧ ∀ o ∈ r.outstanding, o.Spares view

theorem Spares.launch (hf : f.Spares view) (ping : Ping) (peers : List Node) (r : Round σ) (s : σ)
    (hr : Round.Own view ping r) :
    view (f.launch ping peers r s).2 = view s ∧
      ∀ r', (f.launch ping peers r s).1 = .ok r' → Round.Own view ping r' := by
  induction peers generalizing r s with
  | nil =>
    refine ⟨rfl, ?_⟩
    rintro _ ⟨⟩
    exact hr
  | cons peer rest ih =>
    have hsent := hf.sends peer ping s
    have hsettles := hf.settles peer ping s
    cases hprobe : f.probe peer ping s with | _ pending s'
    rw [hprobe] at hsent hsettles
    dsimp only at hsent hsettles
    cases pending with
    | never =>
      obtain ⟨hview, hend⟩ := ih { r with silent := r.silent + 1 } s' hr
      rw [FanOut.launch, hprobe]
      exact ⟨hview.trans hsent, hend⟩
    | after ms settle =>
      have hspares := hsettles ms settle rfl
      cases ms with
      | zero =>
        have hown := hr.1.take f peer (settle s').1 (settle s').2
        have hview := keeps_take hf.reports ping peer r.responses (settle s').1 (settle s').2
        rw [launch_now hprobe]
        generalize f.take ping peer r.responses (settle s').1 (settle s').2 = taken at hown hview
        obtain ⟨outcome, s''⟩ := taken
        have hview' : view s'' = view s := hview.trans ((hspares s').trans hsent)
        cases outcome with
        | ok responses =>
          obtain ⟨hlater, hend⟩ := ih { r with responses := responses } s''
            ⟨hown responses rfl, hr.2⟩
          exact ⟨hlater.trans hview', hend⟩
        | error a =>
          refine ⟨hview', ?_⟩
          rintro _ ⟨⟩
      | succ ms =>
        obtain ⟨hview, hend⟩ := ih
          { r with outstanding := r.outstanding ++ [⟨peer, ms + 1, settle⟩] } s'
          ⟨hr.1, List.forall_mem_append.2 ⟨hr.2, List.forall_mem_singleton.2 hspares⟩⟩
        rw [FanOut.launch, hprobe]
        exact ⟨hview.trans hsent, hend⟩

/-- Nothing that is done touches the view, and what is returned in the end belongs to the message. -/
abbrev Owned (view : σ → β) (ping : Ping) : Process σ (Reply Responses) → σ → Prop :=
  Process.Ensures (fun _ _ => True) (fun s s' => view s' = view s) fun x _ => Reply.Own ping x

theorem Spares.owned_elapse (hf : f.Spares view) {responses : Responses}
    (h : Responses.Own ping responses) (outstanding elapsed : Nat) (s : σ) :
    Owned view ping (f.elapse ping limit outstanding elapsed responses) s := by
  unfold elapse Process.wait
  split
  · exact ⟨hf.reports _ s, h.conclude⟩
  · exact fun s' _ => ⟨hf.reports _ s', h.conclude⟩

theorem Spares.owned_collect (hf : f.Spares view) (silent : Nat)
    (outstanding : List (Outstanding σ)) (elapsed : Nat) (responses : Responses) (s : σ)
    (hspares : ∀ o ∈ outstanding, o.Spares view) (h : Responses.Own ping responses) :
    Owned view ping (f.collect ping limit silent outstanding elapsed responses) s := by
  induction outstanding generalizing elapsed responses s with
  | nil =>
    unfold collect
    split
    · exact h.conclude
    · exact hf.owned_elapse h _ _ s
  | cons o rest ih =>
    obtain ⟨hfirst, hrest⟩ := List.forall_mem_cons.1 hspares
    by_cases hlate : o.ms ≤ limit
    · have hreceive : ∀ s, Owned view ping (f.receive ping limit silent o rest responses) s := by
        intro s
        refine Process.ensures_bind.2 (Process.ensures_update.2 ?_)
        have hown := h.take f o.peer (o.settle s).1 (o.settle s).2
        have hview := keeps_take hf.reports ping o.peer responses (o.settle s).1 (o.settle s).2
        dsimp only
        generalize f.take ping o.peer responses (o.settle s).1 (o.settle s).2 = taken
          at hown hview ⊢
        obtain ⟨outcome, s'⟩ := taken
        refine ⟨hview.trans (hfirst s), ?_⟩
        cases outcome with
        | ok responses' => exact ih o.ms responses' s' hrest (hown responses' rfl)
        | error a => exact Reply.own_error ping a
      rw [collect_cons hlate]
      refine Process.ensures_bind.2 ?_
      unfold Process.wait
      split
      · exact hreceive s
      · exact fun s' _ => hreceive s'
    · rw [collect, if_neg hlate]
      exact hf.owned_elapse h _ _ s

/-- **A round leaves alone what its probes leave alone and returns only its own answers**, whatever
happens while it waits. -/
theorem Spares.owned_exchange (hf : f.Spares view) (ping : Ping) (peers : List Node) (limit : Nat)
    (s : σ) : Owned view ping (f.exchange ping peers limit) s := by
  refine Process.ensures_bind.2 (Process.ensures_update.2 ?_)
  obtain ⟨hview, hend⟩ := hf.launch ping peers {} s ⟨Responses.own_empty ping, nofun⟩
  refine ⟨hview, ?_⟩
  generalize f.launch ping peers {} s = launched at hend ⊢
  obtain ⟨outcome, s'⟩ := launched
  cases outcome with
  | ok r =>
    obtain ⟨hown, hspares⟩ := hend r rfl
    exact hf.owned_collect r.silent (inOrder r.outstanding) 0 r.responses s'
      (fun o ho => hspares o (List.mem_mergeSort.1 ho)) hown
  | error a => exact Reply.own_error ping a

/-- A heartbeat that is sent alone leaves alone what its probes leave alone, if its number does. -/
theorem Spares.finish_send (hf : f.Spares view) (htakes : ∀ s, view (f.takeId s).2 = view s)
    (database : Database) (peers : List Node) (limit elapsed : Nat) (s : σ) :
    view ((f.send database peers limit).finish elapsed s).2 = view s := by
  have hround := hf.owned_exchange ⟨(f.takeId s).1, database⟩ peers limit (f.takeId s).2
  obtain ⟨hsteps, -⟩ := hround.finish (fun _ => trivial) elapsed
  exact (Process.same_of_steps hsteps).trans (htakes s)

end FanOut

end Upkeep
