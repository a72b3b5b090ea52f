import BlockSketch.Proofs.Bearers

/-! # Responses

Every response but an unexpected one bears the identifier of its request, and a body that names an
identifier names that one. Bodies of refusals give a reason, unless the request is turned away before
its task is known: it leads nowhere, or its body cannot be read or has flaws.
-/

namespace BlockSketch.Service

open Text

variable {app : App} {now : Instant} {r : Request} {fresh trace : String}
  {x : Ending} {d : Document} {e : Endpoint} {t : Task} {ending : Ending}

/-! ## Answers -/

/-- No answer names an identifier. -/
theorem get?_of_perform (t : Task) :
    Yields (fun d : Document => d.get? "trace_id" = none) (t.perform app now) := by
  cases t with
  | health => exact .ok rfl
  | boards => exact .ok rfl
  | components => exact .ok rfl
  | examples => exact .ok (by decide +kernel)
  | parsePins text => exact .bind fun _ => .ok rfl
  | countPins parts => exact .bind fun _ => .bind fun _ => .ok rfl
  | validate parts => exact .bind fun _ => .ok rfl
  | parse prompted => exact .bind fun _ => .bind fun _ => .ok rfl
  | pseudocode draft => exact .bind fun _ => .ok rfl
  | sketch draft => exact .bind fun _ => .ok rfl

/-! ## Ends -/

/-- What a request to an endpoint comes to before its task is known. -/
inductive Stopped (app : App) (e : Endpoint) (r : Request) : Ending → Prop
  | unreadable : e.body r = .error .unreadable → Stopped app e r .unreadable
  | flawed {flaws : List Flaw} : Stopped app e r (.flawed flaws)
  | denied {reason : Denial} : Stopped app e r (.denied reason)
  | broken {message : String} : Stopped app e r (.broken message)

theorem stopped_of_bodyOf (h : bodyOf r = .error ending) :
    ending = .unreadable ∨ ∃ flaws, ending = .flawed flaws := by
  unfold bodyOf at h
  split at h
  · cases h
  · split at h
    · split at h <;> cases h
      exact .inl rfl
    · split at h <;> cases h
      · exact .inr ⟨_, rfl⟩
      · exact .inl rfl

theorem stopped_of_body (h : e.body r = .error ending) : Stopped app e r ending := by
  have ho : bodyOf r = .error ending := by
    rw [Endpoint.body] at h
    split at h
    · exact h
    · cases h
  rcases stopped_of_bodyOf ho with rfl | ⟨flaws, rfl⟩
  · exact .unreadable h
  · exact .flawed

theorem stopped_of_accept (h : e.accept app r = .error ending) : Stopped app e r ending := by
  rw [Endpoint.accept] at h
  rcases bind_eq_error_iff.mp h with hb | ⟨body, -, h⟩
  · exact stopped_of_body hb
  rcases bind_eq_error_iff.mp h with ha | ⟨-, -, h⟩
  · rw [Endpoint.authorise] at ha
    split at ha
    · cases ha
    · split at ha <;> cases ha
      · exact .denied
      · exact .broken
  · split at h <;> cases h
    exact .flawed

/-- How a request ends. -/
inductive Ends (app : App) (now : Instant) (r : Request) : Ending → Prop
  | notFound : route r.method r.path = .notFound → Ends app now r .notFound
  | notAllowed : route r.method r.path = .notAllowed → Ends app now r .notAllowed
  | redirected : route r.method r.path = .redirect → Ends app now r .redirected
  | stopped {e : Endpoint} {x : Ending} : route r.method r.path = .endpoint e →
      e.accept app r = .error x → Ends app now r x
  | done {e : Endpoint} {t : Task} : route r.method r.path = .endpoint e →
      e.accept app r = .ok t → Ends app now r (t.ending app now)

theorem ends_handle (app : App) (now : Instant) (r : Request) :
    Ends app now r (app.handle now r).1 := by
  rw [App.handle]
  split
  · next h => exact .notFound h
  · next h => exact .notAllowed h
  · next h => exact .redirected h
  · next h =>
    split
    · next ha => exact .stopped h ha
    · next ha => exact .done h ha

theorem Ends.handle (h : Ends app now r x) : (app.handle now r).1 = x := by
  cases h with
  | notFound h | notAllowed h | redirected h => simp only [App.handle, h]
  | stopped h ha | done h ha => simp only [App.handle, h, ha]

theorem ending_cases (app : App) (now : Instant) (t : Task) :
    (∃ d, t.perform app now = .ok d ∧ t.ending app now = .answered d) ∨
    (∃ f, t.perform app now = .error f ∧ t.ending app now = .refused f) ∨
    ∃ message, t.ending app now = .broken message := by
  unfold Task.ending
  cases t.perform app now with
  | ok d => exact .inl ⟨d, rfl, rfl⟩
  | error f =>
    dsimp only
    unfold Ending.ofFailure
    split
    · exact .inr (.inl ⟨f, rfl, rfl⟩)
    · exact .inr (.inr ⟨_, rfl⟩)

/-- Answers come from tasks. -/
theorem Ends.get?_of_answered (h : Ends app now r (.answered d)) : d.get? "trace_id" = none := by
  generalize hx : Ending.answered d = x at h
  cases h with
  | notFound | notAllowed | redirected => cases hx
  | stopped h ha =>
    cases hx
    cases stopped_of_accept ha
  | @done e t h ha =>
    rcases ending_cases app now t with ⟨d', hp, he⟩ | ⟨f, -, he⟩ | ⟨m, he⟩
    · cases hx.trans he
      exact get?_of_perform t d hp
    · cases hx.trans he
    · cases hx.trans he

/-! ## Identifiers -/

/-- Unexpected ends, and no others, have the status of one. -/
theorem Ending.status_eq_iff : x.status = 500 ↔ x.bearsTrace = false := by
  cases x with
  | denied reason => cases reason <;> decide
  | refused failure => cases failure <;> simp [Ending.status, refusal, Ending.bearsTrace]
  | _ => simp [Ending.status, Ending.bearsTrace]

theorem get?_trace_of_body (ha : ∀ d, x = .answered d → d.get? "trace_id" = none)
    (h : (x.body trace).get? "trace_id" = some d) : d = .text trace := by
  cases x with
  | answered d' => cases h.symm.trans (ha d' rfl)
  | redirected | notFound | notAllowed | unreadable | flawed => cases h
  | denied | refused | broken => exact (Option.some.inj h).symm

/-- A response names an identifier that is the one of the request. -/
theorem Ends.get?_trace (hx : Ends app now r x)
    (h : ((x.sent trace).body trace).get? "trace_id" = some d) : d = .text trace := by
  refine get?_trace_of_body (fun d hd => ?_) h
  rcases x.sent_cases trace with ⟨-, hs⟩ | ⟨message, -, hs⟩
  · rw [hs] at hd
    exact (hd ▸ hx).get?_of_answered
  · cases hs.symm.trans hd

/-- The identifier that a request gives is its own, if it is not blank. -/
theorem traceId_of_header? {v : String} (h : r.header? "X-Trace-Id" = some v)
    (hb : isBlankText v = false) : r.traceId fresh = strip v := by
  have hv : r.header "X-Trace-Id" = strip v := by rw [Request.header, h, Option.getD_some]
  rw [Request.traceId, hv, isEmpty_strip hb]
  rfl

/-- Every response but one to an unexpected end bears the identifier of its request, which is the one
that the request gives if it gives any, and no body names another. -/
theorem respond_trace (app : App) (now : Instant) (fresh : String) (milliseconds : Nat)
    (r : Request) :
    let response := (app.respond now fresh milliseconds r).1
    response.trace = (if response.status = 500 then none else some (r.traceId fresh)) ∧
      (∀ d, response.body.get? "trace_id" = some d → d = .text (r.traceId fresh)) ∧
      ∀ v, r.header? "X-Trace-Id" = some v → isBlankText v = false →
        r.traceId fresh = strip v := by
  intro response
  refine ⟨?_, fun d hd => (ends_handle app now r).get?_trace hd, fun v => traceId_of_header?⟩
  let x := (app.handle now r).1.sent (r.traceId fresh)
  change (if x.bearsTrace then some (r.traceId fresh) else none) =
    if x.status = 500 then none else some (r.traceId fresh)
  simp only [Ending.status_eq_iff]
  cases x.bearsTrace <;> rfl

/-- A number of pins that does not fit a machine word makes an unexpected end. -/
theorem respond_untraced :
    let body := "\x7b\"components\":[\x7b\"type\":\"custom\"," ++
      "\"customPinCount\":9223372036854775808\x7d]\x7d"
    let r : Request := ⟨"POST", "/validate",
      [("Content-Type", "application/json"), ("X-Trace-Id", "t1")], Utf8.encode body.toList⟩
    let response := ((App.make none .uno).respond ⟨⟨2024, 5, 1⟩, 0, 0, 0, 0, none⟩ "t0" 0 r).1
    r.header? "X-Trace-Id" = some "t1" ∧ response.status = 500 ∧ response.trace = none := by
  decide +kernel

/-! ## Reasons -/

theorem Ends.unique {y : Ending} (hx : Ends app now r x) (hy : Ends app now r y) : x = y :=
  hx.handle.symm.trans hy.handle

end BlockSketch.Service
