import Upkeep.Number.Shortest
import Upkeep.Settings
import Upkeep.Text.Quoted
import Upkeep.Toml.Value

/-!
# Settings in a document

The settings are read from the table of a document.  A section or a setting that is missing
has its default, and what is not a setting is passed over.  A section may also be written as
an array of its settings, in order; then the ones left out at the end have their defaults and
surplus elements are passed over.  A value that does not fit is a `Misfit`, and the first one
in the order of the document is told.
-/

namespace Upkeep

open Toml (Value Rows)

/-- What a setting or a section is made of. -/
inductive Shape
  /-- A text. -/
  | text
  /-- A yes or a no. -/
  | boolean
  /-- A number that is not negative. -/
  | count
  /-- A list. -/
  | list
  /-- The settings of the node. -/
  | nodeSection
  /-- The settings of the health loop. -/
  | healthSection
  /-- The settings of the monitoring endpoint. -/
  | endpointSection
  /-- The settings of the cluster. -/
  | clusterSection
  /-- The settings of a peer. -/
  | peerSection
  deriving Repr, DecidableEq

/-- The words for what was wanted. -/
def Shape.words : Shape → String
  | text => "a string"
  | boolean => "a boolean"
  | count => "u64"
  | list => "a sequence"
  | nodeSection => "struct NodeConfig"
  | healthSection => "struct HealthCheckConfig"
  | endpointSection => "struct MetricsConfig"
  | clusterSection => "struct ClusterConfig"
  | peerSection => "struct PeerConfig"

/-- Why the data of a document does not fit the settings. -/
inductive Misfit
  /-- A value is of another kind than wanted. -/
  | wrongType (found : String) (wanted : Shape)
  /-- A number is out of range. -/
  | wrongValue (found : String) (wanted : Shape)
  /-- A setting without a default is missing. -/
  | missing (setting : String)
  /-- A peer written as an array has no elements. -/
  | emptyPeer
  deriving Repr, DecidableEq

/-- The text of a misfit. -/
def Misfit.message : Misfit → String
  | wrongType found wanted => "invalid type: " ++ found ++ ", expected " ++ wanted.words
  | wrongValue found wanted => "invalid value: " ++ found ++ ", expected " ++ wanted.words
  | missing setting => "missing field `" ++ setting ++ "`"
  | emptyPeer => "invalid length 0, expected struct PeerConfig with 2 elements"

namespace Decode

/-- The words for a value that was found.  A date or a time of day counts as a map. -/
def found : Value → String
  | .text s => "string " ++ Text.quote s
  | .integer n => "integer `" ++ toString n ++ "`"
  | .float x => "floating point `" ++ x.text ++ "`"
  | .boolean b => "boolean `" ++ (if b then "true" else "false") ++ "`"
  | .array .. => "sequence"
  | .table .. | .moment _ => "map"

/-- A text. -/
def text : Value → Except Misfit String
  | .text s => .ok s
  | v => .error (.wrongType (found v) .text)

/-- A yes or a no. -/
def boolean : Value → Except Misfit Bool
  | .boolean b => .ok b
  | v => .error (.wrongType (found v) .boolean)

/-- A number that is not negative. -/
def count : Value → Except Misfit Nat
  | .integer n => if n < 0 then .error (.wrongValue (found (.integer n)) .count) else .ok n.toNat
  | v => .error (.wrongType (found v) .count)

/-- A list. -/
def list {α : Type} (element : Value → Except Misfit α) : Value → Except Misfit (List α)
  | .array _ elements => elements.mapM element
  | v => .error (.wrongType (found v) .list)

/-- A section, written as a table or as an array of its settings. -/
def group? {α : Type} (shape : Shape) (ofRows : Rows → Except Misfit α)
    (ofElements : List Value → Except Misfit α) : Value → Except Misfit α
  | .table _ rows => ofRows rows
  | .array _ elements => ofElements elements
  | .moment _ => ofRows []
  | v => .error (.wrongType (found v) shape)

/-- Takes over the settings of a table one after another, in the order of its rows. -/
def overRows {α : Type} (set : α → String → Value → Except Misfit α) (start : α)
    (rows : Rows) : Except Misfit α :=
  rows.foldlM (fun s row => set s row.1 row.2) start

/-- Takes over the elements of an array as the settings with these names, in order. -/
def overNames {α : Type} (set : α → String → Value → Except Misfit α) (start : α)
    (names : List String) (elements : List Value) : Except Misfit α :=
  overRows set start (names.zip elements)

/-! ### Sections that set nothing

The defaults of `Settings` are those of sections that are missing.  A section that is there
starts from what is written here. -/

/-- The settings of the node before a section gives any. -/
def emptyNode : NodeSettings := ⟨"node-1"⟩

/-- The settings of the health loop before a section gives any. -/
def emptyHealth : HealthSettings := ⟨true, 10000, 10000, false⟩

/-- The settings of the monitoring endpoint before a section gives any. -/
def emptyEndpoint : EndpointSettings := ⟨false, "127.0.0.1:9464"⟩

/-- The settings of the cluster before a section gives any. -/
def emptyCluster : ClusterSettings := ⟨[], []⟩

/-! ### Sections -/

/-- Takes over a setting of the node. -/
def setNode (s : NodeSettings) (name : String) (v : Value) : Except Misfit NodeSettings :=
  if name = "name" then return { s with name := ← text v } else return s

/-- Takes over a setting of the health loop. -/
def setHealth (s : HealthSettings) (name : String) (v : Value) :
    Except Misfit HealthSettings :=
  if name = "enabled" then return { s with enabled := ← boolean v }
  else if name = "check_interval_ms" then return { s with checkIntervalMs := ← count v }
  else if name = "heartbeat_timeout_ms" then return { s with heartbeatTimeoutMs := ← count v }
  else if name = "can_offline_server" then return { s with canOfflineServer := ← boolean v }
  else return s

/-- Takes over a setting of the monitoring endpoint. -/
def setEndpoint (s : EndpointSettings) (name : String) (v : Value) :
    Except Misfit EndpointSettings :=
  if name = "enabled" then return { s with enabled := ← boolean v }
  else if name = "listen_addr" then return { s with listenAddress := ← text v }
  else return s

/-- What is known of a peer. -/
structure PeerDraft where
  /-- The name, once it was given. -/
  name : Option String := none
  /-- Whether the peer answers heartbeats. -/
  reachable : Bool := true

/-- Takes over a setting of a peer. -/
def setPeer (s : PeerDraft) (name : String) (v : Value) : Except Misfit PeerDraft :=
  if name = "name" then return { s with name := some (← text v) }
  else if name = "reachable" then return { s with reachable := ← boolean v }
  else return s

/-- A peer, which must have a name. -/
def PeerDraft.complete (misfit : Misfit) (s : PeerDraft) : Except Misfit PeerSettings :=
  match s.name with
  | some name => .ok ⟨name, s.reachable⟩
  | none => .error misfit

/-- A peer. -/
def peer : Value → Except Misfit PeerSettings :=
  group? .peerSection
    (fun rows => do (← overRows setPeer {} rows).complete (.missing "name"))
    (fun elements => do
      (← overNames setPeer {} ["name", "reachable"] elements).complete .emptyPeer)

/-- Takes over a setting of the cluster. -/
def setCluster (s : ClusterSettings) (name : String) (v : Value) :
    Except Misfit ClusterSettings :=
  if name = "databases" then return { s with databases := ← list text v }
  else if name = "peers" then return { s with peers := ← list peer v }
  else return s

/-- The section of the node. -/
def node : Value → Except Misfit NodeSettings :=
  group? .nodeSection (overRows setNode emptyNode) (overNames setNode emptyNode ["name"])

/-- The section of the health loop. -/
def health : Value → Except Misfit HealthSettings :=
  group? .healthSection (overRows setHealth emptyHealth)
    (overNames setHealth emptyHealth
      ["enabled", "check_interval_ms", "heartbeat_timeout_ms", "can_offline_server"])

/-- The section of the monitoring endpoint. -/
def endpoint : Value → Except Misfit EndpointSettings :=
  group? .endpointSection (overRows setEndpoint emptyEndpoint)
    (overNames setEndpoint emptyEndpoint ["enabled", "listen_addr"])

/-- The section of the cluster. -/
def cluster : Value → Except Misfit ClusterSettings :=
  group? .clusterSection (overRows setCluster emptyCluster)
    (overNames setCluster emptyCluster ["databases", "peers"])

/-- Takes over a section. -/
def setSection (s : Settings) (name : String) (v : Value) : Except Misfit Settings :=
  if name = "node" then return { s with node := ← node v }
  else if name = "health" then return { s with health := ← health v }
  else if name = "metrics" then return { s with endpoint := ← endpoint v }
  else if name = "cluster" then return { s with cluster := ← cluster v }
  else return s

/-- The settings in the table of a document. -/
def settings (rows : Rows) : Except Misfit Settings := overRows setSection {} rows

end Decode

end Upkeep
