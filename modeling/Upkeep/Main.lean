import Std.Async.Signal
import Std.Async.TCP
import Upkeep.Endpoint.Exchange
import Upkeep.Monitor.Session

/-!
# The program

Runs a session in real time: the settings come from the working directory, the filter from the
environment, the lines go to standard output, and an interrupt asks the session to end.
Everything that the program decides is decided in `Session`, `Timeline` and `Endpoint`.
-/

namespace Upkeep.Main

open Std.Async

/-- What is found at a path. -/
def read (path : String) : IO FileContent := do
  try
    return .bytes (← IO.FS.readBinFile path)
  catch
    | .noFileOrDirectory .. => return .missing
    | _ => return .directory

/-- An address as the sockets take it; a zone is not handed on. -/
def socketAddress : Address → Std.Net.SocketAddress
  | .v4 bytes port =>
    let b (i : Nat) : UInt8 := (bytes.getD i 0).toUInt8
    .v4 ⟨.ofParts (b 0) (b 1) (b 2) (b 3), port.toUInt16⟩
  | .v6 groups _ port =>
    let g (i : Nat) : UInt16 := (groups.getD i 0).toUInt16
    .v6 ⟨.ofParts (g 0) (g 1) (g 2) (g 3) (g 4) (g 5) (g 6) (g 7), port.toUInt16⟩

/-- Answers one request on a connection. -/
def answer (tally : IO.Ref Tally) (client : TCP.Socket.Client) : Async Unit := do
  if let some request ← client.recv? 4096 then
    let t ← (tally.get : IO Tally)
    if let some text := String.fromUTF8? request then
      client.send (Endpoint.reply t text).toUTF8
  client.shutdown

/-- Answers requests, one connection after another. -/
partial def serve (tally : IO.Ref Tally) (server : TCP.Socket.Server) : Async Unit := do
  let client ← server.accept
  try answer tally client catch _ => pure ()
  serve tally server

/-- Starts the endpoint, if the settings want one and its address can be used; says what kept
it from listening, if anything did. -/
def startEndpoint (s : Settings) (tally : IO.Ref Tally) : IO (Option String) := do
  if s.endpoint.enabled then
    if let .ok address := Endpoint.address s.endpoint.listenAddress then
      try
        let server ← TCP.Socket.Server.mk
        server.bind (socketAddress address)
        server.listen 128
        let _ ← (serve tally server).toIO
      catch e => return some (toString e)
  return none

/-- Writes the lines that were put on record since the last time, and forgets them. -/
def flush (f : Filter) (tally : IO.Ref Tally) (t : Timeline MonitorWorld) :
    IO (Timeline MonitorWorld) := do
  for line in Session.lines f t do
    IO.println line
  (← IO.getStdout).flush
  tally.set t.shared.world.journal.tally
  return { t with shared.world := Monitor.forgetReports t.shared.world }

/-- Waits until an instant, counted in milliseconds from `start`, or for the interrupt; says
whether it came. -/
partial def waitUntil (asked : BaseIO Bool) (start instant : Nat) : IO Bool := do
  if ← asked then return true
  let now := (← IO.monoMsNow) - start
  if instant ≤ now then return false
  IO.sleep (min 50 (instant - now)).toUInt32
  waitUntil asked start instant

/-- Lets a session go on in real time until it is asked to end. -/
partial def run (plan : SchedulePlan MonitorWorld) (f : Filter) (tally : IO.Ref Tally)
    (asked : BaseIO Bool) (start : Nat) (t : Timeline MonitorWorld) : IO Unit := do
  let t := t.poll plan
  let instant := (Session.nextInstant? t).getD (t.now + 1000)
  if ← waitUntil asked start instant then
    let _ ← flush f tally (Session.finish plan t)
  else
    let t ← flush f tally (t.sleep plan (instant - t.now))
    run plan f tally asked start t

/-- A number below `bound`, from the system's source of random bytes. -/
def draw (bound : Nat) : IO Nat := do
  let bytes ← IO.getRandomBytes 16
  return bytes.foldl (fun n b => 256 * n + b.toNat) 0 % max bound 1

/-- Runs a session in the working directory.  The first delay is drawn from the instants
before the first interval is over, so that nodes started together spread their cycles. -/
def session : IO Unit := do
  let interrupt ← (← Signal.Waiter.mk .sigint false).wait
  let f := Filter.ofString ((← IO.getEnv "RUST_LOG").getD "")
  let choice ← Settings.search read Settings.paths
  let tally : IO.Ref Tally ← IO.mkRef .empty
  let c : Circumstances :=
    { firstDelayMs := ← draw choice.settings.health.checkIntervalMs
      endpointProblem? := ← startEndpoint choice.settings tally }
  let t ← flush f tally (Session.started choice c)
  run (Session.plan choice.settings c) f tally (IO.hasFinished interrupt) (← IO.monoMsNow) t

end Upkeep.Main

/-- Runs a session in the working directory. -/
def main : IO Unit := Upkeep.Main.session
