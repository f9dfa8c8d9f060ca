import Upkeep.Demotion
import Upkeep.Text.Blank

/-!
# Settings

What the operators of a node can set, with the value that each setting has if they do not.
`Settings.check` refuses settings with which the health loop cannot run, and names the first
of its rules that is broken.
-/

namespace Upkeep

/-- Settings about the node itself. -/
structure NodeSettings where
  /-- The name of the home node, unlike any other in the cluster. -/
  name : String := "node-1"
  deriving Repr, DecidableEq

/-- Settings of the health loop. -/
structure HealthSettings where
  /-- Whether cycles run at all. -/
  enabled : Bool := true
  /-- The time between cycles, in milliseconds. -/
  checkIntervalMs : Nat := 10000
  /-- How long peers have to answer a heartbeat, in milliseconds. -/
  heartbeatTimeoutMs : Nat := 10000
  /-- Whether this node may set copies of silent peers offline. -/
  canOfflineServer : Bool := false
  deriving Repr, DecidableEq

/-- Settings of the monitoring endpoint. -/
structure EndpointSettings where
  /-- Whether there is an endpoint. -/
  enabled : Bool := false
  /-- The address at which it listens. -/
  listenAddress : String := "127.0.0.1:9464"
  deriving Repr, DecidableEq

/-- A peer of the home node. -/
structure PeerSettings where
  /-- The name of the peer. -/
  name : String
  /-- Whether the peer answers heartbeats. -/
  reachable : Bool := true
  deriving Repr, DecidableEq

/-- The databases and peers with which a cluster of one process starts. -/
structure ClusterSettings where
  /-- The databases, each of them hosted by the home node and by every peer. -/
  databases : List String := []
  /-- The peers. -/
  peers : List PeerSettings := []
  deriving Repr, DecidableEq

/-- All settings. -/
structure Settings where
  /-- The node itself. -/
  node : NodeSettings := {}
  /-- The health loop. -/
  health : HealthSettings := {}
  /-- The monitoring endpoint. -/
  endpoint : EndpointSettings := {}
  /-- The cluster. -/
  cluster : ClusterSettings := {}
  deriving Repr, DecidableEq

/-- The policy that the settings lay down for silent peers. -/
def HealthSettings.policy (h : HealthSettings) : DemotionPolicy :=
  ⟨h.canOfflineServer, h.heartbeatTimeoutMs⟩

/-- A time in whole seconds and the nanoseconds that are left. -/
def secondsAndNanos (ms : Nat) : Nat × Nat := (ms / 1000, ms % 1000 * 1000000)

/-- A rule that settings can break. -/
inductive SettingsProblem
  /-- The home node has no name to be seen. -/
  | blankNodeName
  /-- There is no time between cycles. -/
  | zeroInterval
  /-- Peers have no time to answer. -/
  | zeroTimeout
  /-- A peer has the name of the home node. -/
  | peerNamedLikeHome (name : String)
  deriving Repr, DecidableEq

/-- The text for a broken rule. -/
def SettingsProblem.message : SettingsProblem → String
  | blankNodeName => "node.name must not be empty"
  | zeroInterval => "health.check_interval_ms must be greater than zero"
  | zeroTimeout => "health.heartbeat_timeout_ms must be greater than zero"
  | peerNamedLikeHome name => "peer '" ++ name ++ "' has the same name as the local node"

namespace Settings

/-- Accepts settings with which the health loop can run; else the first rule they break. -/
def check (s : Settings) : Except SettingsProblem Unit :=
  if Text.isBlank s.node.name then .error .blankNodeName
  else if s.health.checkIntervalMs = 0 then .error .zeroInterval
  else if s.health.heartbeatTimeoutMs = 0 then .error .zeroTimeout
  else if s.cluster.peers.any fun p => p.name = s.node.name then
    .error (.peerNamedLikeHome s.node.name)
  else .ok ()

theorem check_default : check {} = .ok () := by rfl

end Settings

end Upkeep
