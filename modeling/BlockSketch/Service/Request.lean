import BlockSketch.Text.Blank
import BlockSketch.Text.Case

/-!
# Requests

A request of the service: a method, a path, headers, and a body that may be empty.
-/

namespace BlockSketch.Service

structure Request where
  method : String
  path : String
  headers : List (String × String) := []
  body : List UInt8 := []

namespace Request

/-- The value of a header.  Letter case does not matter in its name, and the first one counts. -/
def header? (r : Request) (name : String) : Option String :=
  (r.headers.find? fun h => Text.lowercase h.1 == Text.lowercase name).map Prod.snd

/-- The trimmed value of a header; empty if there is none. -/
def header (r : Request) (name : String) : String := Text.strip ((r.header? name).getD "")

/-- The main type and the subtype of a content type; without exactly one slash it is plain text. -/
def contentKind (value : String) : String × String :=
  let kind := Text.lowercase (Text.strip (String.ofList (value.toList.takeWhile (· != ';'))))
  match kind.toList.splitOn '/' with
  | [main, sub] => (String.ofList main, String.ofList sub)
  | _ => ("text", "plain")

/-- Whether the content type says that the body is JSON. -/
def isJson (r : Request) : Bool :=
  match r.header? "content-type" with
  | none => false
  | some value =>
    let (main, sub) := contentKind value
    main == "application" && (sub == "json" || sub.endsWith "+json")

/-- The identifier that the caller gave the request, or a fresh one. -/
def traceId (r : Request) (fresh : String) : String :=
  let given := r.header "X-Trace-Id"
  if given.isEmpty then fresh else given

end Request

end BlockSketch.Service
