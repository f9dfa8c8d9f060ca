import Upkeep.Endpoint

/-!
# Requests and answers on a connection

The endpoint speaks the simplest form of HTTP/1: it reads the first line of a request, answers,
and closes the connection.
-/

namespace Upkeep

namespace Endpoint

/-- The path that the first line of a request asks for, without its query. -/
def requestedPath (request : List Char) : List Char :=
  let afterMethod := (request.dropWhile (· ≠ ' ')).drop 1
  afterMethod.takeWhile fun c => c ≠ ' ' && c ≠ '?' && c ≠ '\r' && c ≠ '\n'

/-- The words that go with the number of an answer. -/
def statusWords (status : Nat) : String :=
  if status = 200 then "OK" else if status = 404 then "Not Found" else ""

/-- An answer as it goes over the connection. -/
def encode (t : Tally) (r : Response) : String :=
  let body := r.body.render t
  "HTTP/1.1 " ++ toString r.status ++ " " ++ statusWords r.status ++ "\r\n" ++
    "content-type: " ++ r.contentType ++ "\r\n" ++
    "content-length: " ++ toString body.utf8ByteSize ++ "\r\n" ++
    "connection: close\r\n\r\n" ++ body

/-- The answer to a request as it goes over the connection. -/
def reply (t : Tally) (request : String) : String :=
  encode t (respond (String.ofList (requestedPath request.toList)))

end Endpoint

end Upkeep
