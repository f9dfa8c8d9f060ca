import Upkeep.Counter.Exposition
import Upkeep.Endpoint.Address

/-!
# The monitoring endpoint

The endpoint answers a request by its path: the text of the counters, a sign of life, or
nothing that it knows.
-/

namespace Upkeep

/-- What an answer carries. -/
inductive Body
  /-- The text of the counters. -/
  | exposition
  /-- A fixed text. -/
  | text (s : String)
  deriving Repr, DecidableEq

/-- The text that an answer carries, given the counts. -/
def Body.render (t : Tally) : Body → String
  | exposition => Exposition.text t
  | text s => s

/-- The answer to a request. -/
structure Response where
  /-- The number by which the answer says how the request went. -/
  status : Nat
  /-- What kind of text follows. -/
  contentType : String
  /-- The text. -/
  body : Body
  deriving Repr, DecidableEq

namespace Endpoint

/-- The kind of the counters' text. -/
def expositionType : String := "text/plain; version=0.0.4; charset=utf-8"

/-- The answer to a request for a path. -/
def respond (path : String) : Response :=
  if path = "/metrics" then ⟨200, expositionType, .exposition⟩
  else if path = "/health" then ⟨200, "text/plain", .text "OK"⟩
  else ⟨404, "text/plain", .text "Not Found"⟩

/-- The address at which to listen, if the text is one. -/
def address (listenAddress : String) : Except String Address :=
  match Address.ofString? listenAddress with
  | some a => .ok a
  | none => .error Address.malformed

end Endpoint

end Upkeep
