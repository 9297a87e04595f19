import ClipRelay.Json.Text
import ClipRelay.Text.Blank

/-!
# ClipRelay.Http.Message

Requests to the relay's HTTP side, and its answers.
-/

namespace ClipRelay.Http

/-! ## Requests -/

/-- A request. -/
structure Request where
  method : String
  /-- The path and query. -/
  target : String
  headers : List (String × String) := []
  body : Bytes := []
  /-- Whether the connection could be taken over for another protocol. -/
  canUpgrade : Bool := false

namespace Request

/-- The path of a request, with its percent-encoding. -/
def path (r : Request) : String :=
  String.ofList (r.target.toList.takeWhile fun c => c != '?' && c != '#')

/-- The query of a request; empty if it has none. -/
def query (r : Request) : String :=
  String.ofList (((r.target.toList.takeWhile (· != '#')).dropWhile (· != '?')).drop 1)

/-- The first header of a name, in whatever case it is written. -/
def header? (r : Request) (name : String) : Option String :=
  (r.headers.find? fun h => h.1.toLower == name).map (·.2)

/-- The first header of a name, if its value is plain text: visible ASCII
characters, blanks and tabs. -/
def textHeader? (r : Request) (name : String) : Option String :=
  (r.header? name).filter fun v => v.toList.all fun c => c == '\t' || ('\x20' ≤ c && c ≤ '\x7e')

/-- The token of an `Authorization: Bearer` header. -/
def bearer? (r : Request) : Option String :=
  match r.textHeader? "authorization" with
  | none => none
  | some v =>
    let scheme := "Bearer ".toList
    if v.toList.take scheme.length = scheme then
      let token := Text.trim (String.ofList (v.toList.drop scheme.length))
      if token = "" then none else some token
    else none

end Request

/-! ## Answers -/

/-- The body of an answer. -/
inductive Body where
  | empty
  | json (value : Json)
  | text (text : String)
  | bytes (bytes : Bytes)
  /-- The explanation of a request that was turned away before it was looked at. -/
  | rejection

/-- An answer. -/
structure Answer where
  status : Nat
  body : Body := .empty
  disposition : Option String := none
  /-- Whether the answer says what another origin may do. -/
  preflight : Bool := false

namespace Answer

/-- A request that is turned away. -/
def reject (status : Nat) : Answer := { status, body := .rejection }

/-- A value in answer to a request. -/
def json (status : Nat) (value : Json) : Answer := { status, body := .json value }

/-- What is wrong with a request. -/
def error (status : Nat) (message : String) : Answer :=
  .json status (.object [("error", .string message)])

/-- The content type of an answer. -/
def contentType? (a : Answer) : Option String :=
  match a.body with
  | .json _ => some "application/json"
  | .text _ => some "text/plain; charset=utf-8"
  | .bytes _ => some "application/octet-stream"
  | .empty | .rejection => none

/-- The headers of an answer.  Pages of any origin may read it. -/
def headers (a : Answer) : List (String × String) :=
  (a.contentType?.map fun t => ("content-type", t)).toList ++
  (a.disposition.map fun d => ("content-disposition", d)).toList ++
  [("access-control-allow-origin", "*")] ++
  if a.preflight then
    [("access-control-allow-methods", "GET,POST,OPTIONS"), ("access-control-allow-headers", "*")]
  else []

end Answer

end ClipRelay.Http
