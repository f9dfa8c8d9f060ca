import Upkeep.Cycle.Outcome
import Upkeep.Failure
import Upkeep.Heartbeat.Message
import Upkeep.Text.Quoted

/-!
# Reports

Everything that the program tells its operators is a `Report`.  `Report.line` gives the line
that is written for it: how urgent it is, the part of the program that it comes from, a fixed
text, and named fields.
-/

namespace Upkeep

/-- How urgent a line is. -/
inductive Level
  /-- For those who look for a mistake. -/
  | debug
  /-- For the record. -/
  | info
  /-- Something may need attention. -/
  | warn
  /-- Something went wrong. -/
  | error
  deriving Repr, DecidableEq

namespace Level

/-- The word for a level. -/
def word : Level → String
  | debug => "DEBUG"
  | info => "INFO"
  | warn => "WARN"
  | error => "ERROR"

/-- Levels by urgency, the most urgent first. -/
def rank : Level → Nat
  | error => 1
  | warn => 2
  | info => 3
  | debug => 4

end Level

/-- The part of the program that a line comes from. -/
inductive Area
  /-- The program around the health loop: its start, its end, its settings. -/
  | monitor
  /-- The directory. -/
  | directory
  /-- The check that repairs local copies. -/
  | repair
  /-- The check that looks for copies without a status. -/
  | audit
  /-- The check that looks for silent peers. -/
  | stall
  /-- The cycle and its schedule. -/
  | cycle
  /-- The sending of heartbeats. -/
  | heartbeat
  /-- The monitoring endpoint. -/
  | counters
  deriving Repr, DecidableEq

/-- The path by which a filter names a part of the program. -/
def Area.path : Area → String
  | monitor => "replica_health"
  | directory => "replica_health::cluster::memory"
  | repair => "replica_health::health::recovery"
  | audit => "replica_health::health::auditor"
  | stall => "replica_health::health::stall"
  | cycle => "replica_health::health::cycle"
  | heartbeat => "replica_health::heartbeat::fanout"
  | counters => "replica_health::metrics"

/-- The value of a field. -/
inductive FieldValue
  /-- A text that is written as it is. -/
  | text (s : String)
  /-- A text that the console writes between quotes. -/
  | quoted (s : String)
  /-- A number. -/
  | number (n : Nat)
  /-- A yes or a no. -/
  | flag (b : Bool)
  deriving Repr, DecidableEq

/-- A line written for the operators. -/
structure Line where
  /-- How urgent it is. -/
  level : Level
  /-- Where it comes from. -/
  area : Area
  /-- What it says. -/
  message : String
  /-- What it says it about. -/
  fields : List (String × FieldValue)
  deriving Repr, DecidableEq

/-- Something that the program tells its operators. -/
inductive Report
  /-- A status was written into the directory. -/
  | statusWritten (key : CopyKey) (status : CopyStatus)
  /-- The home node is no full member, so it repairs nothing. -/
  | repairLeftOut (home : Node) (status : MemberStatus)
  /-- Nobody else serves the database, so the local copy is taken as the good one. -/
  | lastCopyTaken (home : Node) (database : Database)
  /-- A copy is about to be installed from another node. -/
  | recoveryStarted (home remote : Node) (database : Database)
  /-- The copy is installed and online. -/
  | recoveryCompleted (home : Node) (database : Database)
  /-- The copy could not be installed. -/
  | recoveryFailed (home : Node) (database : Database) (reason : String)
  /-- A hosted database has no status for the local copy. -/
  | statusMissing (home : Node) (database : Database)
  /-- The home node is no full member, so it sends no heartbeats. -/
  | stallLeftOut (home : Node) (status : MemberStatus)
  /-- A heartbeat round starts. -/
  | roundStarted (home : Node) (peers : List Node) (database : Database)
  /-- Nobody answered a round. -/
  | roundUnanswered (home : Node) (database : Database)
  /-- A peer was silent and its copy is set offline. -/
  | peerDemoted (home peer : Node) (database : Database) (timeoutMs : Nat)
  /-- A peer was silent, but its copy must not be set offline. -/
  | demotionSuppressed (home peer : Node) (database : Database) (timeoutMs : Nat)
  /-- A cycle was called while another one was running. -/
  | cycleSkipped (home : Node)
  /-- A cycle starts. -/
  | cycleStarted (home : Node)
  /-- A check ended with a failure. -/
  | checkFailed (home : Node) (check : CheckName) (failure : ClusterFailure)
  /-- A cycle ended. -/
  | cycleEnded (home : Node) (outcome : CycleOutcome)
  /-- The schedule starts. -/
  | scheduleStarted (home : Node) (intervalMs timeoutMs : Nat) (canOffline : Bool)
  /-- There will be no cycles. -/
  | scheduleDisabled
  /-- The schedule ends. -/
  | scheduleEnded
  /-- An answer belongs to another message. -/
  | strayAnswer (peer : Node) (database : Database) (messageId : UInt64)
  /-- A peer could not be asked. -/
  | pingFailed (peer : Node) (database : Database) (failure : ClusterFailure)
  /-- The time for answers is over. -/
  | windowElapsed (database : Database) (outstanding timeoutMs : Nat)
  /-- A copy is pulled from a peer within the process. -/
  | installing (database : Database) (remote : Node) (reachable : Bool)
  /-- The settings were read from a file. -/
  | settingsLoaded (path : String)
  /-- The settings could not be read from a file. -/
  | settingsRejected (path : String) (problem : String)
  /-- No file gave settings. -/
  | defaultSettings
  /-- The program starts. -/
  | monitorStarted (node : Node) (databases peers : Nat)
  /-- The program was asked to end. -/
  | shutdownRequested
  /-- The monitoring endpoint is up. -/
  | endpointListening (address : String)
  /-- The monitoring endpoint could not be brought up. -/
  | endpointFailed (problem : String)
  deriving Repr, DecidableEq

namespace Report

open FieldValue in
/-- The line written for a report. -/
def line : Report → Line
  | statusWritten key status =>
    ⟨.debug, .directory, "Updating database status",
      [("key", text key.render), ("status", text status.word)]⟩
  | repairLeftOut home status =>
    ⟨.debug, .repair, "Node is not ONLINE, skipping recovery",
      [("local", text home), ("status", text status.word)]⟩
  | lastCopyTaken home database =>
    ⟨.info, .repair,
      "No server is ONLINE for database. Considering local copy of database as the good one. " ++
        "Setting status=ONLINE",
      [("local", text home), ("db", text database)]⟩
  | recoveryStarted home remote database =>
    ⟨.info, .repair, "Trying to recover current server for database",
      [("local", text home), ("remote", text remote), ("db", text database)]⟩
  | recoveryCompleted home database =>
    ⟨.info, .repair, "Recover complete for database",
      [("local", text home), ("db", text database)]⟩
  | recoveryFailed home database reason =>
    ⟨.info, .repair, "Recover cannot be completed for database",
      [("local", text home), ("db", text database), ("reason", text reason)]⟩
  | statusMissing home database =>
    ⟨.warn, .audit, "Status of database on server is missing",
      [("local", text home), ("db", text database),
        ("key", text (CopyKey.render ⟨home, database⟩))]⟩
  | stallLeftOut home status =>
    ⟨.debug, .stall, "Node is not ONLINE, skipping stall check",
      [("local", text home), ("status", text status.word)]⟩
  | roundStarted home peers database =>
    ⟨.debug, .stall, "Sending heartbeat message to servers",
      [("local", text home), ("remote", text (Text.quoteList peers)), ("db", text database)]⟩
  | roundUnanswered home database =>
    ⟨.debug, .stall, "No server responded to the heartbeat, the local server could be isolated",
      [("local", text home), ("db", text database)]⟩
  | peerDemoted home peer database timeoutMs =>
    ⟨.warn, .stall,
      "Server did not respond to the heartbeat message. Setting the database as OFFLINE",
      [("local", text home), ("remote", text peer), ("db", text database),
        ("timeout_ms", number timeoutMs)]⟩
  | demotionSuppressed home peer database timeoutMs =>
    ⟨.warn, .stall,
      "Server did not respond to the heartbeat message, but cannot be set OFFLINE by configuration",
      [("local", text home), ("remote", text peer), ("db", text database),
        ("timeout_ms", number timeoutMs)]⟩
  | cycleSkipped home =>
    ⟨.warn, .cycle, "Previous cluster health check still running, skipping",
      [("local", text home)]⟩
  | cycleStarted home =>
    ⟨.debug, .cycle, "Checking cluster health", [("local", text home)]⟩
  | checkFailed home check failure =>
    ⟨.error, .cycle, "Error on checking cluster health",
      [("local", text home), ("check", quoted check.label), ("error", text failure.message)]⟩
  | cycleEnded home outcome =>
    ⟨.debug, .cycle, "Cluster health checking completed",
      [("local", text home), ("outcome", text outcome.word)]⟩
  | scheduleStarted home intervalMs timeoutMs canOffline =>
    ⟨.info, .cycle, "Cluster health checker started",
      [("local", text home), ("interval_ms", number intervalMs),
        ("heartbeat_timeout_ms", number timeoutMs), ("can_offline_server", flag canOffline)]⟩
  | scheduleDisabled => ⟨.info, .cycle, "Cluster health checks are disabled", []⟩
  | scheduleEnded => ⟨.info, .cycle, "Cluster health checker shutting down", []⟩
  | strayAnswer peer database messageId =>
    ⟨.debug, .heartbeat, "Ignoring heartbeat response for another request",
      [("remote", text peer), ("db", text database), ("message_id", number messageId.toNat)]⟩
  | pingFailed peer database failure =>
    ⟨.debug, .heartbeat, "Heartbeat failed",
      [("remote", text peer), ("db", text database), ("error", text failure.message)]⟩
  | windowElapsed database outstanding timeoutMs =>
    ⟨.debug, .heartbeat, "Heartbeat window elapsed",
      [("db", text database), ("outstanding", number outstanding),
        ("timeout_ms", number timeoutMs)]⟩
  | installing database remote reachable =>
    ⟨.info, .monitor, "Installing database copy",
      [("db", text database), ("remote", text remote), ("reachable", flag reachable)]⟩
  | settingsLoaded path => ⟨.info, .monitor, "Loaded configuration", [("path", quoted path)]⟩
  | settingsRejected path problem =>
    ⟨.warn, .monitor, "Failed to load config", [("path", quoted path), ("error", text problem)]⟩
  | defaultSettings => ⟨.info, .monitor, "Using default configuration", []⟩
  | monitorStarted node databases peers =>
    ⟨.info, .monitor, "Replica health monitor starting",
      [("node", text node), ("databases", number databases), ("peers", number peers)]⟩
  | shutdownRequested => ⟨.info, .monitor, "Shutdown requested", []⟩
  | endpointListening address =>
    ⟨.info, .counters, "Metrics server listening", [("addr", text address)]⟩
  | endpointFailed problem =>
    ⟨.error, .monitor, "Metrics server failed", [("error", text problem)]⟩

end Report

end Upkeep
