import BlockSketch.Json.Writer
import BlockSketch.Service.Auth
import BlockSketch.Service.Task
import BlockSketch.Text.WideUnits

/-!
# Responses

How the service answers a request.  A request that leads to an endpoint has its body read, then its
token checked, then its body checked against the schema, and then its task done.  However it ends, it
ends in one of a few ways, each with a status, a body and records.
-/

namespace BlockSketch.Service

/-- The ways in which a request can end. -/
inductive Ending where
  | answered (document : Document)
  | redirected
  | notFound
  | notAllowed
  | denied (reason : Denial)
  /-- The body is not text, or it holds a number that is too long or values that are nested too
  deeply. -/
  | unreadable
  | flawed (flaws : List Flaw)
  /-- The project is at fault. -/
  | refused (failure : Failure)
  /-- Anything else that goes wrong. -/
  | broken (message : String)

/-- Makes an end of a failure. -/
def Ending.ofFailure (f : Failure) : Ending := if f.isDomain then .refused f else .broken f.message

/-- How deeply values in a body can be nested. -/
def maxBodyDepth : Nat := 950

/-- The characters of a body.  The mark of the byte order in front of units of one byte does not count. -/
def bodyText? (body : List UInt8) : Option String :=
  let cs? := match body with
    | 0xEF :: 0xBB :: 0xBF :: bytes => (Utf8.decode bytes).toOption
    | bytes => Text.decodeUnits? bytes
  cs?.map String.ofList

/-- Reads a body.  An empty one is none; one that is not JSON by its type is a text, which is no
mapping. -/
def bodyOf (r : Request) : Except Ending (Option Document) :=
  if r.body.isEmpty then .ok none
  else if !r.isJson then
    match Utf8.decode r.body with
    | .ok cs => .ok (some (.text (String.ofList cs)))
    | .error _ => .error .unreadable
  else
    match (bodyText? r.body).map fun text => Json.read text maxBodyDepth with
    | some (.ok d) => .ok (some d)
    | some (.error (.malformed fault)) =>
      .error (.flawed
        [⟨.notJson fault.problem, [.field "body", .position fault.offset], .map []⟩])
    | _ => .error .unreadable

/-- The body of a request to an endpoint, if the endpoint takes one. -/
def Endpoint.body (e : Endpoint) (r : Request) : Except Ending (Option Document) :=
  if e.takesBody then bodyOf r else .ok none

/-- Checks the token of a request. -/
def Endpoint.authorise (e : Endpoint) (app : App) (r : Request) : Except Ending Unit :=
  if e.isOpen then .ok ()
  else
    match verdict app.token (r.header "Authorization") with
    | .granted => .ok ()
    | .denied reason => .error (.denied reason)
    | .incomparable => .error (.broken incomparableMessage)

/-- The task of a request to an endpoint. -/
def Endpoint.accept (e : Endpoint) (app : App) (r : Request) : Except Ending Task := do
  let body ← e.body r
  e.authorise app r
  match e.task body with
  | .ok task => return task
  | .flawed flaws => throw (.flawed flaws)

/-- The end of a task. -/
def Task.ending (app : App) (now : Instant) (t : Task) : Ending :=
  match t.perform app now with
  | .ok d => .answered d
  | .error f => .ofFailure f

/-- How a request ends, and what is reported while it is worked on. -/
def App.handle (app : App) (now : Instant) (r : Request) : Ending × List Log.Record :=
  match route r.method r.path with
  | .notFound => (.notFound, [])
  | .notAllowed => (.notAllowed, [])
  | .redirect => (.redirected, [])
  | .endpoint e =>
    match e.accept app r with
    | .error ending => (ending, [])
    | .ok task => (task.ending app now, task.records app now)

/-- The number and the reason of a failure of the project. -/
def refusal : Failure → Nat × String
  | .blocked _ => (409, "generation_blocked")
  | .emptyPrompt => (422, "empty_prompt")
  | .unknownBoard _ => (400, "unknown_board")
  | _ => (400, "invalid_request")

/-- What is said of anything else that goes wrong. -/
def brokenReason : String := "internal_error"

/-- What is said of a body that cannot be read. -/
def unreadableMessage : String := "There was an error parsing the body"

namespace Ending

def status : Ending → Nat
  | answered _ => 200
  | redirected => 307
  | notFound => 404
  | notAllowed => 405
  | denied reason => reason.status
  | unreadable => 400
  | flawed _ => 422
  | refused failure => (refusal failure).1
  | broken _ => 500

/-- A body that says why a request failed. -/
def reasonBody (reason detail trace : String) : List (String × Document) :=
  [("reason", .text reason), ("detail", .text detail), ("trace_id", .text trace)]

/-- The body of a response. -/
def body (trace : String) : Ending → Document
  | answered d => d
  | redirected => .null
  | notFound => .object [("detail", .text "Not Found")]
  | notAllowed => .object [("detail", .text "Method Not Allowed")]
  | denied reason => .object (reasonBody reason.message reason.message trace)
  | unreadable => .object [("detail", .text unreadableMessage)]
  | flawed flaws => .object [("detail", .list (flaws.map Flaw.toRecord))]
  | refused failure =>
    .object (reasonBody (refusal failure).2 failure.message trace ++
      match failure with
      | .blocked report => [("report", report.toRecord)]
      | _ => [])
  | broken message =>
    .object (reasonBody brokenReason (if message.isEmpty then brokenReason else message) trace)

/-- Whether the response bears the identifier of the request in a header. -/
def bearsTrace : Ending → Bool
  | broken _ => false
  | _ => true

/-- The message and the level of the record about an end, and the name of the event. -/
def notice? : Ending → Option (Log.Level × String × String)
  | denied _ => some (.info, "HTTPException", "http_exception")
  | refused _ => some (.info, "ArdublockError", "domain_error")
  | broken _ => some (.error, "Unhandled exception", "unhandled_exception")
  | _ => none

end Ending

/-- What is sent back. -/
structure Response where
  status : Nat
  /-- The identifier of the request, if the response bears it in a header. -/
  trace : Option String
  body : Document

/-- The record of every request.  One that ends in an unexpected way has no status there. -/
def accessRecord (r : Request) (trace : String) (ending : Ending) (milliseconds : Nat) : Log.Record :=
  let status : Document := if ending.bearsTrace then .int ending.status else .null
  ⟨"ardublock_service.middleware_trace", .info, "access",
    [("event", .text "access"), ("method", .text r.method), ("path", .text r.path),
      ("status", status), ("duration_ms", .int milliseconds), ("trace_id", .text trace)]⟩

/-- The record about the end of a request, if the end deserves one. -/
def noticeRecords (r : Request) (trace : String) (ending : Ending) : List Log.Record :=
  match ending.notice? with
  | none => []
  | some (level, message, event) =>
    [⟨"ardublock_service.exceptions", level, message,
      [("trace_id", .text trace), ("path", .text r.path), ("method", .text r.method),
        ("status", .int ending.status), ("event", .text event)]⟩]

mutual

/-- The first fault of a text in a document that is to be written in eight-bit units. -/
def unsendable? : Document → Option Text.EncodingFault
  | .text s => Text.Encoding.utf8.fault? s.toList
  | .list ds => anyUnsendable? ds
  | .map es => entryUnsendable? es
  | _ => none

def anyUnsendable? : List Document → Option Text.EncodingFault
  | [] => none
  | d :: ds => (unsendable? d).or (anyUnsendable? ds)

def entryUnsendable? : List (Document × Document) → Option Text.EncodingFault
  | [] => none
  | (k, d) :: es => ((unsendable? k).or (unsendable? d)).or (entryUnsendable? es)

end

/-- What is said of numbers that cannot be written. -/
def notFiniteMessage : String := "Out of range float values are not JSON compliant"

/-- What keeps the body of an end from being sent: numbers in a report on flaws that are not finite, or
characters that cannot be written.  Those of an answer are counted from the start of their own text,
others from the start of the whole body. -/
def Ending.obstacle? (trace : String) : Ending → Option String
  | .answered d =>
    (unsendable? d).map fun fault => s!"Error serializing to JSON: UnicodeEncodeError: {fault.message}"
  | .broken _ => none
  | .flawed flaws =>
    if reportable flaws then wholeObstacle? (.flawed flaws) else some notFiniteMessage
  | ending => wholeObstacle? ending
where
  wholeObstacle? (ending : Ending) : Option String :=
    (Text.Encoding.utf8.fault? (Json.render Json.compact 0 (ending.body trace))).map (·.message)

/-- The end that is sent. -/
def Ending.sent (trace : String) (ending : Ending) : Ending :=
  match ending.obstacle? trace with
  | some message => .broken message
  | none => ending

/-- Answers a request.  `fresh` is an identifier for a request that has none.  An unexpected end is
noted after the access, every other one before it. -/
def App.respond (app : App) (now : Instant) (fresh : String) (milliseconds : Nat) (r : Request) :
    Response × List Log.Record :=
  let trace := r.traceId fresh
  let (ending, records) := app.handle now r
  let sent := ending.sent trace
  let early := if ending.bearsTrace then noticeRecords r trace ending else []
  let late := if sent.bearsTrace then [] else noticeRecords r trace sent
  (⟨sent.status, if sent.bearsTrace then some trace else none, sent.body trace⟩,
    records ++ early ++ accessRecord r trace sent milliseconds :: late)

end BlockSketch.Service
