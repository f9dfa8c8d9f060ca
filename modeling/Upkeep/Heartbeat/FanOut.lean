import Upkeep.Heartbeat.Message
import Upkeep.Surroundings

/-!
# Heartbeats to many peers at once

A round sends one numbered message to all peers and collects their answers until every peer
has given a result or the window is over.  A result that is there at once is taken before the
next peer is asked; later results are taken in order of time, and of equal times in the order
in which the peers were asked.  A result that comes exactly at the end of the window is still
in time.

An answer to another message does not count.  A peer that fails is left out.  Only a transport
that is shutting down, or a probe that crashes, ends the round before its time.
-/

namespace Upkeep

/-- What a probe has under way. -/
inductive Pending (σ : Type) : Type
  /-- There will be no result. -/
  | never
  /-- The result will be there after a time, in milliseconds. -/
  | after (ms : Nat) (settle : σ → Reply Ack × σ)

/-- Sends a message to one peer. -/
abbrev Probe (σ : Type) := Node → Ping → σ → Pending σ × σ

/-- What a result means for the round. -/
inductive Verdict
  /-- It is an answer to the message. -/
  | counts (ack : Ack)
  /-- It is an answer to another message. -/
  | stray (ack : Ack)
  /-- The peer could not be asked. -/
  | failed (failure : ClusterFailure)
  /-- The round is over. -/
  | ends (a : Abort)
  deriving Repr, DecidableEq

/-- What a result means for the round of a message. -/
def Verdict.of (ping : Ping) : Reply Ack → Verdict
  | .ok ack => if ack.answers ping then .counts ack else .stray ack
  | .error (.failure .transportClosed) => .ends (.failure .transportClosed)
  | .error (.failure e) => .failed e
  | .error (.crash payload) => .ends (.crash payload)

/-- A result that is still to come. -/
structure Outstanding (σ : Type) where
  /-- The peer that was asked. -/
  peer : Node
  /-- After how many milliseconds the result is there. -/
  ms : Nat
  /-- The result. -/
  settle : σ → Reply Ack × σ

/-- How far a round has come once every peer was asked. -/
structure Round (σ : Type) where
  /-- The answers so far. -/
  responses : Responses := .empty
  /-- The results to come, in the order in which the peers were asked. -/
  outstanding : List (Outstanding σ) := []
  /-- How many peers will give no result. -/
  silent : Nat := 0

/-- Where a state keeps the number of the next message. -/
structure MessageIds (σ : Type) where
  /-- The number of the next message. -/
  next : σ → UInt64
  /-- Replaces it. -/
  setNext : UInt64 → σ → σ
  /-- The number that was put there is there. -/
  next_setNext : ∀ id s, next (setNext id s) = id

namespace MessageIds

variable {σ : Type} (ids : MessageIds σ)

/-- The number of the first message. -/
def first : UInt64 := 1

/-- The state before the first message. -/
def fresh (s : σ) : σ := ids.setNext first s

/-- Takes the number of the next message; the largest number is followed by 0. -/
def take (s : σ) : UInt64 × σ := (ids.next s, ids.setNext (ids.next s + 1) s)

end MessageIds

/-- Sends heartbeats to many peers at once. -/
structure FanOut (σ : Type) where
  /-- Takes the number of the next message. -/
  takeId : σ → UInt64 × σ
  /-- Sends the message to one peer. -/
  probe : Probe σ
  /-- Puts a line on record. -/
  report : Report → σ → σ

namespace FanOut

variable {σ : Type} (f : FanOut σ)

/-- Heartbeats with a probe and a record, whose messages are numbered one after another. -/
def numbered (ids : MessageIds σ) (probe : Probe σ) (report : Report → σ → σ) : FanOut σ where
  takeId := ids.take
  probe := probe
  report := report

/-- Takes the result of one peer: the answers with it, unless it ends the round. -/
def take (ping : Ping) (peer : Node) (responses : Responses) (result : Reply Ack) (s : σ) :
    Reply Responses × σ :=
  match Verdict.of ping result with
  | .counts ack => (.ok (responses.put peer ack), s)
  | .stray ack => (.ok responses, f.report (.strayAnswer peer ping.database ack.messageId) s)
  | .failed e => (.ok responses, f.report (.pingFailed peer ping.database e) s)
  | .ends a => (.error a, s)

/-- Asks the peers one after another and takes the results that are there at once. -/
def launch (ping : Ping) : List Node → Round σ → σ → Reply (Round σ) × σ
  | [], r, s => (.ok r, s)
  | peer :: rest, r, s =>
    match f.probe peer ping s with
    | (.never, s) => launch ping rest { r with silent := r.silent + 1 } s
    | (.after 0 settle, s) =>
      let (result, s) := settle s
      match f.take ping peer r.responses result s with
      | (.ok responses, s) => launch ping rest { r with responses := responses } s
      | (.error a, s) => (.error a, s)
    | (.after ms settle, s) =>
      launch ping rest { r with outstanding := r.outstanding ++ [⟨peer, ms, settle⟩] } s

/-- The answers of a round, if there are any. -/
def conclude (ping : Ping) (responses : Responses) : Reply Responses :=
  if responses.isEmpty then .error (.failure (.allUnreachable ping.database)) else .ok responses

/-- Lets the window end with results outstanding. -/
def elapse (ping : Ping) (timeoutMs outstanding elapsed : Nat) (responses : Responses) :
    Process σ (Reply Responses) := do
  Process.wait (timeoutMs - elapsed)
  Process.modify (f.report (.windowElapsed ping.database outstanding timeoutMs))
  return conclude ping responses

/-- Takes the results to come, which are in order of time, up to the end of the window. -/
def collect (ping : Ping) (timeoutMs silent : Nat) :
    List (Outstanding σ) → (elapsed : Nat) → Responses → Process σ (Reply Responses)
  | [], elapsed, responses =>
    if silent = 0 then return conclude ping responses
    else f.elapse ping timeoutMs silent elapsed responses
  | o :: rest, elapsed, responses =>
    if o.ms ≤ timeoutMs then do
      Process.wait (o.ms - elapsed)
      match ← Process.update fun s =>
          let (result, s) := o.settle s
          f.take ping o.peer responses result s with
      | .ok responses => collect ping timeoutMs silent rest o.ms responses
      | .error a => return .error a
    else f.elapse ping timeoutMs (silent + rest.length + 1) elapsed responses

/-- Results in order of time; of equal times the one asked for first comes first. -/
def inOrder (outstanding : List (Outstanding σ)) : List (Outstanding σ) :=
  outstanding.mergeSort fun a b => a.ms ≤ b.ms

/-- The round of a message. -/
def exchange (ping : Ping) (peers : List Node) (timeoutMs : Nat) :
    Process σ (Reply Responses) := do
  match ← Process.update (f.launch ping peers {}) with
  | .ok r => f.collect ping timeoutMs r.silent (inOrder r.outstanding) 0 r.responses
  | .error a => return .error a

/-- Sends a heartbeat under the next number. -/
def send : Transport σ := fun database peers timeoutMs => do
  let messageId ← Process.update f.takeId
  f.exchange ⟨messageId, database⟩ peers timeoutMs

end FanOut

end Upkeep
