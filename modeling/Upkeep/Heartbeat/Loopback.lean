import Upkeep.Heartbeat.FanOut

/-!
# Peers within the process

A loopback stands for peers that are reachable or not.  A reachable peer acknowledges every
message, at once or after a latency; one that is unreachable never answers, so that the end of
the window decides.
-/

namespace Upkeep

/-- Which peers are out of reach, and how long the others take to answer. -/
structure Loopback where
  /-- The peers that are out of reach. -/
  unreachable : List Node := []
  /-- How long a reachable peer takes, in milliseconds. -/
  latencyMs : Nat := 0
  deriving Repr, DecidableEq

namespace Loopback

/-- Whether a peer answers. -/
def isReachable (l : Loopback) (peer : Node) : Bool := peer ∉ l.unreachable

/-- Puts a peer within reach or out of it. -/
def setReachable (l : Loopback) (peer : Node) (reachable : Bool) : Loopback :=
  let others := l.unreachable.filter (· ≠ peer)
  { l with unreachable := if reachable then others else others ++ [peer] }

/-- The probe of a loopback that is part of a larger state. -/
def probe {σ : Type} (get : σ → Loopback) : Probe σ := fun peer ping s =>
  if (get s).isReachable peer then
    (.after (get s).latencyMs fun s => (.ok (ping.ack peer), s), s)
  else (.never, s)

theorem isReachable_setReachable (l : Loopback) (peer other : Node) (reachable : Bool) :
    (l.setReachable peer reachable).isReachable other =
      if other = peer then reachable else l.isReachable other := by
  cases reachable <;> by_cases h : other = peer <;> simp [setReachable, isReachable, h]

end Loopback

end Upkeep
