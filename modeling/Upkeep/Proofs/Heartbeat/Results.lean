import Upkeep.Proofs.Heartbeat.Numbering

/-!
# The results of a round

Probes may do what they like to the state, and what a probe comes to may depend on all that happened
before.  `FanOut.results` lists every result of the probes of a round in the order in which it comes
if the round waits for all of them.  An `Echo` is that list with the message of the round.

* `Echo.AnswersBy`, `Echo.BreaksBy` : a peer answers the message within a time, and a probe ends the
  round within a time.
* `Echo.Says` : what the round gives back, read off its echo.
* `FanOut.says_send` : **a heartbeat that is sent alone gives back what its echo says.**
-/

namespace Upkeep

variable {σ : Type}

/-- A message, and the results of the probes to which it was sent, in the order in which they
come. -/
structure Echo where
  /-- The message. -/
  ping : Ping
  /-- The results. -/
  results : List Arrival

namespace Echo

/-- The peer answers this very message within a time. -/
def AnswersBy (echo : Echo) (limit : Nat) (peer : Node) : Prop :=
  ∃ a ∈ echo.results, a.peer = peer ∧ a.ms ≤ limit ∧ a.answer? echo.ping ≠ none

/-- A probe ends the round within a time. -/
def BreaksBy (echo : Echo) (limit : Nat) : Prop :=
  ∃ a ∈ echo.results, a.ms ≤ limit ∧ ∃ cause, a.Breaks cause

instance (echo : Echo) (limit : Nat) (peer : Node) : Decidable (echo.AnswersBy limit peer) :=
  inferInstanceAs (Decidable (∃ a ∈ echo.results, _))

instance (echo : Echo) (limit : Nat) : Decidable (echo.BreaksBy limit) :=
  inferInstanceAs (Decidable (∃ a ∈ echo.results, _))

/-- What a round gives back. -/
inductive Says (echo : Echo) (limit : Nat) : Reply Responses → Prop
  /-- A probe ended the round. -/
  | broken (cause : Abort) (hcause : cause.EndsRound) (h : echo.BreaksBy limit) :
      Says echo limit (.error cause)
  /-- Nobody answered in time. -/
  | unanswered (h : ¬echo.BreaksBy limit) (hnone : ∀ peer, ¬echo.AnswersBy limit peer) :
      Says echo limit (.error (.failure (.allUnreachable echo.ping.database)))
  /-- Exactly those that answered in time are among the responses. -/
  | answered (responses : Responses) (h : ¬echo.BreaksBy limit)
      (hsome : ∃ peer, echo.AnswersBy limit peer)
      (hheard : ∀ peer, responses.contains peer = true ↔ echo.AnswersBy limit peer) :
      Says echo limit (.ok responses)

end Echo

namespace FanOut

section Results

variable (f : FanOut σ) (ping : Ping)

/-- Lets a result come in: what it is, and the state once it was taken. -/
def letIn (o : Outstanding σ) (s : σ) : Arrival × σ :=
  let (reply, s) := o.settle s
  (⟨o.peer, o.ms, reply⟩, (f.take ping o.peer .empty reply s).2)

/-- The results that are there while the peers are asked, those that are to come, and the state once
all were asked. -/
def asked : List Node → σ → (List Arrival × List (Outstanding σ)) × σ
  | [], s => (([], []), s)
  | peer :: rest, s =>
    match f.probe peer ping s with
    | (.never, s) => asked rest s
    | (.after 0 settle, s) =>
      let (a, s) := f.letIn ping ⟨peer, 0, settle⟩ s
      let ((now, later), s) := asked rest s
      ((a :: now, later), s)
    | (.after ms settle, s) =>
      let ((now, later), s) := asked rest s
      ((now, ⟨peer, ms, settle⟩ :: later), s)

/-- The results that are to come, one after another. -/
def awaited : List (Outstanding σ) → σ → List Arrival
  | [], _ => []
  | o :: rest, s =>
    let (a, s) := f.letIn ping o s
    a :: awaited rest s

/-- Every result of the probes of a round, in the order in which it comes if the round waits for all
of them. -/
def results (peers : List Node) (s : σ) : List Arrival :=
  let ((now, later), s) := f.asked ping peers s
  now ++ f.awaited ping (inOrder later) s

/-- The echo of a heartbeat that is sent in a given state. -/
def echo (database : Database) (peers : List Node) (s : σ) : Echo :=
  let (messageId, s) := f.takeId s
  let ping : Ping := ⟨messageId, database⟩
  ⟨ping, f.results ping peers s⟩

end Results

variable {f : FanOut σ} {ping : Ping} {limit : Nat} {peers : List Node}

/-- What a result does to the state does not depend on the answers before it. -/
theorem take_snd (f : FanOut σ) (ping : Ping) (peer : Node) (responses : Responses)
    (reply : Reply Ack) (s : σ) :
    (f.take ping peer responses reply s).2 = (f.take ping peer .empty reply s).2 := by
  unfold take
  cases Verdict.of ping reply <;> rfl

/-- To take a result is to let it in and to add it to the answers. -/
theorem take_letIn (f : FanOut σ) (ping : Ping) (responses : Responses) (o : Outstanding σ)
    (s : σ) :
    let a := (f.letIn ping o s).1
    f.take ping o.peer responses (o.settle s).1 (o.settle s).2 =
      ((a.add ping responses).mapError Prod.fst, (f.letIn ping o s).2) :=
  Prod.ext (f.take_fst ping responses ⟨o.peer, o.ms, (o.settle s).1⟩ _)
    (f.take_snd ping o.peer responses _ _)

section Asked

variable {peer : Node} {rest : List Node} {s s' : σ} {ms : Nat} {settle : σ → Reply Ack × σ}

theorem asked_never (h : f.probe peer ping s = (.never, s')) :
    f.asked ping (peer :: rest) s = f.asked ping rest s' := by
  rw [asked, h]

theorem asked_now (h : f.probe peer ping s = (.after 0 settle, s')) :
    let x := f.letIn ping ⟨peer, 0, settle⟩ s'
    let y := f.asked ping rest x.2
    f.asked ping (peer :: rest) s = ((x.1 :: y.1.1, y.1.2), y.2) := by
  intro x y
  rw [asked, h]
  rfl

theorem asked_after (h : f.probe peer ping s = (.after (ms + 1) settle, s')) :
    let y := f.asked ping rest s'
    f.asked ping (peer :: rest) s = ((y.1.1, ⟨peer, ms + 1, settle⟩ :: y.1.2), y.2) := by
  intro y
  rw [asked, h]
  rfl

end Asked

/-- Only peers that were asked give results, and those that are there while peers are asked take no
time. -/
theorem of_mem_asked (ping : Ping) (peers : List Node) (s : σ) :
    (∀ a ∈ (f.asked ping peers s).1.1, a.peer ∈ peers ∧ a.ms = 0) ∧
      ∀ o ∈ (f.asked ping peers s).1.2, o.peer ∈ peers := by
  induction peers generalizing s with
  | nil => exact ⟨List.forall_mem_nil _, List.forall_mem_nil _⟩
  | cons peer rest ih =>
    have hlater : ∀ s', (∀ a ∈ (f.asked ping rest s').1.1, a.peer ∈ peer :: rest ∧ a.ms = 0) ∧
        ∀ o ∈ (f.asked ping rest s').1.2, o.peer ∈ peer :: rest := fun s' =>
      ⟨fun a ha => ((ih s').1 a ha).imp_left (List.mem_cons_of_mem _),
        fun o ho => List.mem_cons_of_mem _ ((ih s').2 o ho)⟩
    cases hprobe : f.probe peer ping s with | _ pending s'
    cases pending with
    | never =>
      rw [asked_never hprobe]
      exact hlater s'
    | after ms settle =>
      cases ms with
      | zero =>
        rw [asked_now hprobe]
        exact ⟨List.forall_mem_cons.2 ⟨⟨List.mem_cons_self, rfl⟩, (hlater _).1⟩, (hlater _).2⟩
      | succ ms =>
        rw [asked_after hprobe]
        exact ⟨(hlater s').1, List.forall_mem_cons.2 ⟨List.mem_cons_self, (hlater s').2⟩⟩

theorem of_mem_awaited {outstanding : List (Outstanding σ)} {s : σ} {a : Arrival}
    (h : a ∈ f.awaited ping outstanding s) : ∃ o ∈ outstanding, a.peer = o.peer ∧ a.ms = o.ms := by
  induction outstanding generalizing s with
  | nil => cases h
  | cons o rest ih =>
    obtain rfl | h := List.mem_cons.1 h
    · exact ⟨o, List.mem_cons_self, rfl, rfl⟩
    · obtain ⟨o', ho', hsame⟩ := ih h
      exact ⟨o', List.mem_cons_of_mem o ho', hsame⟩

theorem peer_mem_of_results {s : σ} {a : Arrival} (h : a ∈ f.results ping peers s) :
    a.peer ∈ peers := by
  obtain ⟨hnow, hlater⟩ := of_mem_asked (f := f) ping peers s
  obtain h | h := List.mem_append.1 h
  · exact (hnow a h).1
  · obtain ⟨o, ho, hpeer, -⟩ := of_mem_awaited h
    exact hpeer ▸ hlater o (List.mem_mergeSort.1 ho)

/-- Only peers that were asked answer. -/
theorem peer_mem_of_answersBy {database : Database} {s : σ} {peer : Node}
    (h : (f.echo database peers s).AnswersBy limit peer) : peer ∈ peers := by
  obtain ⟨a, ha, rfl, -⟩ := h
  exact peer_mem_of_results ha

/-! ### A round takes the results that come in time -/

/-- How a round stands once all were asked: it is over, or the results that were there at once are
taken and the others are to come. -/
def Stands (ping : Ping) (r : Round σ) (asked : (List Arrival × List (Outstanding σ)) × σ)
    (x : Reply (Round σ) × σ) : Prop :=
  match asked.1.1.foldlM (Arrival.add ping) r.responses with
  | .ok responses => ∃ silent, x = (.ok ⟨responses, r.outstanding ++ asked.1.2, silent⟩, asked.2)
  | .error (cause, _) => x.1 = .error cause

theorem stands_launch (f : FanOut σ) (ping : Ping) (peers : List Node) (r : Round σ) (s : σ) :
    Stands ping r (f.asked ping peers s) (f.launch ping peers r s) := by
  induction peers generalizing r s with
  | nil => exact ⟨r.silent, by simp [launch, asked]⟩
  | cons peer rest ih =>
    cases hprobe : f.probe peer ping s with | _ pending s'
    cases pending with
    | never =>
      rw [asked_never hprobe, launch, hprobe]
      exact ih { r with silent := r.silent + 1 } s'
    | after ms settle =>
      cases ms with
      | zero =>
        have htake := f.take_letIn ping r.responses ⟨peer, 0, settle⟩ s'
        dsimp only at htake
        rw [asked_now hprobe, launch_now hprobe, htake]
        generalize f.letIn ping ⟨peer, 0, settle⟩ s' = taken
        obtain ⟨a, s''⟩ := taken
        unfold Stands
        rw [List.foldlM_cons]
        obtain ⟨cause, -, hadd⟩ | ⟨-, hadd⟩ := Arrival.add_cases ping r.responses a
        · rw [hadd]
          rfl
        · rw [hadd]
          let responses := (a.answer? ping).elim r.responses (r.responses.put a.peer)
          exact ih { r with responses := responses } s''
      | succ ms =>
        have hrest := ih { r with outstanding := r.outstanding ++ [⟨peer, ms + 1, settle⟩] } s'
        rw [asked_after hprobe, launch, hprobe]
        unfold Stands at hrest ⊢
        simpa using hrest

theorem finish_elapse (f : FanOut σ) (ping : Ping) (limit outstanding elapsed : Nat)
    (responses : Responses) (t : Nat) (s : σ) :
    ((f.elapse ping limit outstanding elapsed responses).finish t s).1.1 =
      conclude ping responses := by
  rw [elapse, Process.finish_bind]
  rfl

/-- The results to come are taken in order of time, up to the end of the window. -/
theorem finish_collect (f : FanOut σ) (ping : Ping) (limit silent : Nat)
    (outstanding : List (Outstanding σ)) (elapsed : Nat) (responses : Responses) (t : Nat) (s : σ)
    (hsorted : outstanding.Pairwise fun a b => a.ms ≤ b.ms) :
    ((f.collect ping limit silent outstanding elapsed responses).finish t s).1.1 =
      (Sheet.take ping ((f.awaited ping outstanding s).filter fun a => a.ms ≤ limit) responses
        limit).1 := by
  induction outstanding generalizing elapsed responses t s with
  | nil =>
    unfold collect
    split
    · rfl
    · exact f.finish_elapse ping limit silent elapsed responses t s
  | cons o rest ih =>
    obtain ⟨hfirst, hrest⟩ := List.pairwise_cons.1 hsorted
    by_cases hintime : o.ms ≤ limit
    · have hwait : ((Process.wait (o.ms - elapsed) : Process σ Unit).finish t s).2 = s := by
        unfold Process.wait
        split <;> rfl
      have htake := f.take_letIn ping responses o s
      have hms : (f.letIn ping o s).1.ms ≤ limit := hintime
      dsimp only at htake
      rw [collect_cons hintime, Process.finish_bind, hwait, receive, Process.finish_bind, awaited]
      simp only [Process.update, Process.finish, htake]
      rw [List.filter_cons, if_pos (decide_eq_true hms)]
      generalize f.letIn ping o s = taken
      obtain ⟨a, s'⟩ := taken
      obtain ⟨cause, -, hadd⟩ | ⟨-, hadd⟩ := Arrival.add_cases ping responses a
      · rw [hadd, Sheet.take_cons_error hadd]
        rfl
      · rw [hadd, Sheet.take_cons_ok hadd]
        exact ih _ _ _ s' hrest
    · -- once one result is late, so are all that follow
      have hlate : ((f.awaited ping (o :: rest) s).filter fun a => a.ms ≤ limit) = [] := by
        refine List.filter_eq_nil_iff.2 fun a ha => ?_
        obtain ⟨o', ho', -, hms⟩ := of_mem_awaited ha
        have hle : o.ms ≤ o'.ms := by
          obtain rfl | hmem := List.mem_cons.1 ho'
          · exact Nat.le_refl _
          · exact hfirst o' hmem
        simp only [decide_eq_true_eq]
        omega
      rw [collect, if_neg hintime, hlate]
      exact f.finish_elapse ping limit _ elapsed responses t s

/-- **A round takes every result that comes in time, one after another.** -/
theorem finish_exchange (f : FanOut σ) (ping : Ping) (peers : List Node) (limit : Nat) (t : Nat)
    (s : σ) :
    ((f.exchange ping peers limit).finish t s).1.1 =
      (Sheet.take ping ((f.results ping peers s).filter fun a => a.ms ≤ limit) .empty limit).1 := by
  have hstands := f.stands_launch ping peers {} s
  have hnow := (of_mem_asked (f := f) ping peers s).1
  rw [exchange, Process.finish_bind, results]
  simp only [Process.update, Process.finish]
  generalize f.asked ping peers s = x at hstands hnow
  obtain ⟨⟨now, later⟩, s'⟩ := x
  have hall : now.filter (fun a => decide (a.ms ≤ limit)) = now :=
    List.filter_eq_self.2 fun a ha => decide_eq_true ((hnow a ha).2.trans_le (Nat.zero_le limit))
  unfold Stands at hstands
  dsimp only at hstands ⊢
  rw [List.filter_append, hall, Sheet.take, List.foldlM_append]
  split at hstands
  · rename_i responses hfold
    obtain ⟨silent, hlaunch⟩ := hstands
    rw [hlaunch, hfold]
    exact f.finish_collect ping limit silent (inOrder later) 0 responses t s'
      (pairwise_inOrder later)
  · rename_i cause ms hfold
    rw [hfold, hstands]
    rfl

end FanOut

/-- What the results in time come to is what the echo says. -/
theorem Echo.says_take (echo : Echo) (limit : Nat) :
    echo.Says limit (Sheet.take echo.ping (echo.results.filter fun a => a.ms ≤ limit) .empty
      limit).1 := by
  have hmem : ∀ {a : Arrival}, a ∈ echo.results.filter (fun a => decide (a.ms ≤ limit)) ↔
      a ∈ echo.results ∧ a.ms ≤ limit := by simp
  have hbreaks : (∀ a ∈ echo.results.filter fun a => a.ms ≤ limit, ∀ cause, ¬a.Breaks cause) →
      ¬echo.BreaksBy limit := by
    rintro hunbroken ⟨a, ha, hms, cause, hcause⟩
    exact hunbroken a (hmem.2 ⟨ha, hms⟩) cause hcause
  obtain ⟨before, a, after, cause, h, hcause, -, htake⟩ |
      ⟨hunbroken, ⟨hnone, htake⟩ | ⟨⟨a, ha, hanswer⟩, responses, hheard, htake⟩⟩ :=
    Sheet.take_cases echo.ping (echo.results.filter fun a => a.ms ≤ limit) limit
  · rw [htake]
    obtain ⟨ha, hms⟩ := hmem.1 (h ▸ List.mem_append_right before List.mem_cons_self)
    exact .broken cause hcause.2 ⟨a, ha, hms, cause, hcause⟩
  · rw [htake]
    refine .unanswered (hbreaks hunbroken) ?_
    rintro peer ⟨a, ha, -, hms, hanswer⟩
    exact hanswer (hnone a (hmem.2 ⟨ha, hms⟩))
  · rw [htake]
    obtain ⟨hresult, hms⟩ := hmem.1 ha
    refine .answered responses (hbreaks hunbroken) ⟨a.peer, a, hresult, rfl, hms, hanswer⟩
      fun peer => ?_
    rw [Table.contains, hheard peer, Option.isSome_iff_ne_none, Sheet.lastAnswer?_ne_none]
    simp only [hmem, and_assoc, Echo.AnswersBy]
    exact exists_congr fun a => and_congr_right fun _ => and_left_comm

/-- **A heartbeat that is sent alone gives back what its echo says.** -/
theorem FanOut.says_send (f : FanOut σ) (database : Database) (peers : List Node) (limit : Nat)
    (s : σ) :
    (f.echo database peers s).Says limit ((f.send database peers limit).finish 0 s).1.1 := by
  have hreply : ((f.send database peers limit).finish 0 s).1.1 =
      ((f.exchange ⟨(f.takeId s).1, database⟩ peers limit).finish 0 (f.takeId s).2).1.1 := by
    rw [send, Process.finish_bind]
    rfl
  rw [hreply, f.finish_exchange]
  exact (f.echo database peers s).says_take limit

end Upkeep
