import Upkeep.Heartbeat.FanOut

/-!
# The probes of a round

What may be asked of the probes of a fan-out: that they leave alone what a view shows of the state
(`FanOut.Spares`), or that they follow a plan (`FanOut.Follows`).  A `ProbePlan` says of every
message to every peer when the result of the probe is there and what it is, or that there never is
one.  Messages differ in their numbers, so a plan can give every call of a probe a result of its
own.

* `FanOut.keeps_take` : to take a result changes nothing but the record.
* `FanOut.launch_now` : a result that is there at once is taken before the next peer is asked.
* `FanOut.pairwise_inOrder` : the other results are taken in order of time.
-/

namespace Upkeep

/-- For each peer and message, after how many milliseconds the result of the probe is there and what
it is; `none` if there never is one. -/
abbrev ProbePlan := Node → Ping → Option (Nat × Reply Ack)

/-- The causes that end a round before its time. -/
def Abort.EndsRound : Abort → Prop
  | .failure e => e = .transportClosed
  | .crash _ => True

instance : DecidablePred Abort.EndsRound
  | .failure e => inferInstanceAs (Decidable (e = .transportClosed))
  | .crash _ => isTrue trivial

section Plans

variable {σ β : Type}

/-- Probes, their results and the record leave alone what a view shows of the state. -/
structure FanOut.Spares (f : FanOut σ) (view : σ → β) : Prop where
  /-- Sending a message to a peer leaves the view alone. -/
  sends : ∀ peer ping s, view (f.probe peer ping s).2 = view s
  /-- A result that comes in leaves the view alone. -/
  settles : ∀ peer ping s ms settle, (f.probe peer ping s).1 = .after ms settle →
    ∀ s', view (settle s').2 = view s'
  /-- A line on record leaves the view alone. -/
  reports : ∀ line s, view (f.report line s) = view s

/-- What a probe has under way is what was planned, and its result leaves the view alone. -/
def Pending.Comes (view : σ → β) : Pending σ → Option (Nat × Reply Ack) → Prop
  | never, planned => planned = none
  | after ms settle, planned =>
    ∃ reply, planned = some (ms, reply) ∧ ∀ s, (settle s).1 = reply ∧ view (settle s).2 = view s

/-- The probes follow a plan and leave a view of the state alone, and so does the record. -/
structure FanOut.Follows (f : FanOut σ) (view : σ → β) (plan : ProbePlan) : Prop where
  /-- Sending a message leaves the view alone. -/
  sends : ∀ peer ping s, view (f.probe peer ping s).2 = view s
  /-- The result comes as planned. -/
  comes : ∀ peer ping s, (f.probe peer ping s).1.Comes view (plan peer ping)
  /-- A line on record leaves the view alone. -/
  reports : ∀ line s, view (f.report line s) = view s

end Plans

namespace FanOut

variable {σ β : Type} {f : FanOut σ} {view : σ → β} {ping : Ping}

/-- To take a result changes nothing but the record. -/
theorem keeps_take (hreports : ∀ line s, view (f.report line s) = view s) (ping : Ping)
    (peer : Node) (responses : Responses) (result : Reply Ack) (s : σ) :
    view (f.take ping peer responses result s).2 = view s := by
  unfold take
  split
  · rfl
  · exact hreports _ s
  · exact hreports _ s
  · rfl

/-- A result that is there at once is taken before the next peer is asked. -/
theorem launch_now {peer : Node} {rest : List Node} {r : Round σ} {s s' : σ}
    {settle : σ → Reply Ack × σ} (h : f.probe peer ping s = (.after 0 settle, s')) :
    f.launch ping (peer :: rest) r s =
      match f.take ping peer r.responses (settle s').1 (settle s').2 with
      | (.ok responses, s) => f.launch ping rest { r with responses := responses } s
      | (.error a, s) => (.error a, s) := by
  rw [FanOut.launch, h]
  rfl

theorem pairwise_inOrder (outstanding : List (Outstanding σ)) :
    (inOrder outstanding).Pairwise fun a b => a.ms ≤ b.ms := by
  refine (List.pairwise_mergeSort ?_ ?_ outstanding).imp fun h => of_decide_eq_true h
  · intro a b c hab hbc
    simp only [decide_eq_true_eq] at hab hbc ⊢
    omega
  · intro a b
    simp only [Bool.or_eq_true, decide_eq_true_eq]
    omega

end FanOut

end Upkeep
