import BlockSketch.Proofs.Bearers

/-! # Strangers

A request that does not bear the token is refused before anything in its body is looked at. The body
is read before that, though, and one that cannot be read is answered first. So strangers learn from
the answer whether the body can be read, and nothing else about it.
-/

namespace BlockSketch.Service

open Text

variable {app : App} {e : Endpoint} {r r' : Request} {x : Ending} {fresh trace : String}

/-- The body is empty, or a text or JSON that can be read, by its type. -/
def Readable (r : Request) : Prop := ∃ body, bodyOf r = .ok body

theorem isOpen_of_takesBody (h : e.takesBody = true) : e.isOpen = false := by
  cases e with
  | health => cases h
  | _ => rfl

theorem body_of_takesBody (h : e.takesBody = true) : e.body r = bodyOf r := by
  rw [Endpoint.body, h]
  rfl

/-- How a request ends that is not let through: with a text that the token decides, under the
identifier of the request. -/
inductive Refusal : Ending → Prop
  | denied {reason : Denial} : Refusal (.denied reason)
  | incomparable : Refusal (.broken incomparableMessage)

theorem Refusal.status (h : Refusal x) : x.status ∈ [401, 403, 500] := by
  cases h with
  | @denied reason => cases reason <;> decide
  | incomparable => decide

theorem Refusal.sent (h : Refusal x) (hw : Json.Whole trace.toList) : x.sent trace = x := by
  cases h with
  | denied => exact Ending.sent_denied hw
  | incomparable => rfl

/-- How a request ends whose body cannot be read. -/
inductive Illegible : Ending → Prop
  | unreadable : Illegible .unreadable
  | malformed {problem : Json.Problem} {offset : Nat} : Illegible
      (.flawed [⟨.notJson problem, [.field "body", .position offset], .map []⟩])

theorem Illegible.sent (h : Illegible x) : x.sent trace = x := by
  cases h with
  | unreadable => exact Ending.sent_plain (by simp)
  | @malformed problem offset =>
    have message : Json.Whole problem.message.toList := by
      cases problem <;> decide
    refine Ending.sent_of_sendable ?_ ?_
    · simp [Ending.body, Flaw.toRecord, FlawKind.id, FlawKind.message, FlawKind.context,
        PathStep.toDocument, message]
    · rintro flaws ⟨⟩
      rfl

theorem Illegible.status (h : Illegible x) : x.status ∈ [400, 422] := by
  cases h <;> simp [Ending.status]

/-! ## Answers -/

/-- A request that sends JSON to a path, without a token. -/
def posted (path body : String) : Request :=
  ⟨"POST", path, [("X-Trace-Id", "t1"), ("Content-Type", "application/json")],
    Utf8.encode body.toList⟩

theorem traceId_posted (path body fresh : String) : (posted path body).traceId fresh = "t1" := by
  have header : (posted path body).header "X-Trace-Id" = (posted "" "").header "X-Trace-Id" := rfl
  have given : (posted "" "").header "X-Trace-Id" = "t1" := by decide +kernel
  rw [Request.traceId, header, given]
  rfl

end BlockSketch.Service
