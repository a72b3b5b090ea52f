import BlockSketch.Proofs.Blocking
import BlockSketch.Proofs.Comments
import BlockSketch.Proofs.Halves
import BlockSketch.Proofs.Strangers

/-! # Sketches that are exported and sketches that are sent

The service answers a request for a sketch with the text that an export makes of the same project, and
refuses it as the export does, with two exceptions. An export does not look at whether the prompt is
blank. And an export may return halves of characters, or fail for other reasons than the project; both
are unexpected ends of a request.
-/

namespace BlockSketch

namespace Project

variable {p : Project} {now now' : Instant} {code : String} {report : Report} {f : Failure}

/-- Only the day of an export is in a sketch. -/
theorem exportSketch_congr (h : now'.date = now.date) : p.exportSketch now' = p.exportSketch now := by
  rw [exportSketch, exportSketch, h]

theorem report_of_exportSketch (h : p.exportSketch now = .ok code) :
    ∃ report, p.report = .ok report := by
  obtain ⟨report, hr, -⟩ := bind_eq_ok_iff.mp h
  exact ⟨report, hr⟩

/-- Of the failures that are about the project, an export of a sketch has only the blocked ones. -/
theorem blocked_of_exportSketch (h : p.exportSketch now = .error f) (hf : f.isDomain = true) :
    ∃ report, p.report = .ok report ∧ f = .blocked report := by
  rcases bind_eq_error_iff.mp h with h | ⟨report, hr, h⟩
  · obtain ⟨fault, -, rfl⟩ := mapError_eq_error_iff.mp h
    cases hf
  refine ⟨report, hr, ?_⟩
  rcases bind_eq_error_iff.mp h with h | ⟨_, -, h⟩
  · rw [gate] at h
    split at h <;> cases h
    rfl
  rcases bind_eq_error_iff.mp h with h | ⟨actions, -, h⟩
  · obtain ⟨fault, -, rfl⟩ := mapError_eq_error_iff.mp h
    cases hf
  · obtain ⟨fault, -, rfl⟩ := mapError_eq_error_iff.mp h
    cases fault <;> cases hf

end Project

namespace Service

open Json
open Text (isBlankText)

variable {app : App} {e : Endpoint} {r : Request} {t : Task} {fresh trace : String}
  {milliseconds : Nat} {now : Instant} {draft : Draft} {p : Project} {f : Failure} {code : String}
  {d : Document}

/-! ## Tasks that are accepted -/

namespace Ending

/-- The response that tells of an end. -/
def response (trace : String) (x : Ending) : Response :=
  ⟨x.status, if x.bearsTrace then some trace else none, x.body trace⟩

/-- What is sent back at an end. -/
def sentResponse (trace : String) (x : Ending) : Response := (x.sent trace).response trace

theorem sentResponse_of_obstacle? {x : Ending} (h : x.obstacle? trace = none) :
    x.sentResponse trace = x.response trace := by
  rw [sentResponse, sent_of_obstacle? h]

theorem exists_sentResponse {x : Ending} (h : x.obstacle? trace ≠ none) :
    ∃ message, x.sentResponse trace = (broken message).response trace := by
  rcases x.sent_cases trace with ⟨ho, -⟩ | ⟨message, -, hs⟩
  · exact absurd ho h
  · exact ⟨message, by rw [sentResponse, hs]⟩

end Ending

theorem respond_of_accept_ok (now : Instant) (milliseconds : Nat)
    (hr : route r.method r.path = .endpoint e) (h : e.accept app r = .ok t) :
    (app.respond now fresh milliseconds r).1 =
      (t.ending app now).sentResponse (r.traceId fresh) := by
  have handled : app.handle now r = (t.ending app now, t.records app now) := by
    rw [App.handle, hr]
    simp only [h]
  rw [App.respond, handled]
  rfl

/-! ## Sketches of drafts -/

theorem project_prompt (h : draft.project app = .ok p) : p.prompt = draft.prompt := by
  obtain ⟨board, -, h⟩ := bind_eq_ok_iff.mp h
  obtain ⟨components, -, h⟩ := bind_eq_ok_iff.mp h
  rw [← pure_eq_ok_iff.mp h]

theorem sketch_of_blank (h : isBlankText draft.prompt = true) :
    draft.sketch app now = .error .emptyPrompt := by
  rw [Draft.sketch, if_pos h]
  rfl

/-- A draft with a prompt has the sketch that its project is exported as. -/
theorem sketch_of_project (hb : isBlankText draft.prompt = false)
    (hp : draft.project app = .ok p) : draft.sketch app now =
      p.exportSketch now >>= fun code => p.report.map fun report => (code, report) := by
  simp only [Draft.sketch, Project.exportSketch, hb, hp, bind, Except.bind]
  cases p.report with
  | error f => rfl
  | ok report =>
    dsimp only
    cases Project.gate report with
    | error f => rfl
    | ok _ =>
      dsimp only
      cases p.actions with
      | error f => rfl
      | ok actions => rfl

theorem ending_sketch_of_error (h : draft.sketch app now = .error f) :
    (Task.sketch draft).ending app now = .ofFailure f := by
  rw [Task.ending, Task.perform, h]
  rfl

theorem ending_sketch_of_ok {report : Report} (h : draft.sketch app now = .ok (code, report)) :
    (Task.sketch draft).ending app now =
      .answered (.object [("code", .text code), ("report", report.toRecord)]) := by
  rw [Task.ending, Task.perform, h]
  rfl

/-! ## Answers -/

/-- The response gives the sketch in its field, or refuses with the same failure of the project. -/
inductive SameAnswer (trace : String) : Except Failure String → Response → Prop
  | sketch {code : String} {a : Response} : a.status = 200 →
      a.body.get? "code" = some (.text code) → SameAnswer trace (.ok code) a
  | refusal {f : Failure} {a : Response} : f.isDomain = true → a.status = (refusal f).1 →
      a.body = (Ending.refused f).body trace → SameAnswer trace (.error f) a

theorem not_sameAnswer_broken {x : Except Failure String} {message : String} :
    ¬ SameAnswer trace x ((Ending.broken message).response trace) := by
  rintro (⟨hs, -⟩ | ⟨-, hs, -⟩)
  · cases hs
  · next f =>
    cases f <;> cases hs

theorem sameAnswer_sent_iff {x : Except Failure String} {y : Ending}
    (h : SameAnswer trace x (y.response trace)) :
    SameAnswer trace x (y.sentResponse trace) ↔ y.obstacle? trace = none := by
  by_cases ho : y.obstacle? trace = none
  · rw [Ending.sentResponse_of_obstacle? ho]
    exact iff_of_true h ho
  · obtain ⟨message, hs⟩ := Ending.exists_sentResponse ho
    rw [hs]
    exact iff_of_false not_sameAnswer_broken ho

theorem not_sameAnswer_emptyPrompt {x : Except Failure String}
    (hx : ∀ f, x = .error f → f.isDomain = true → ∃ report, f = .blocked report) :
    ¬ SameAnswer trace x ((Ending.refused .emptyPrompt).sentResponse trace) := by
  by_cases ho : (Ending.refused .emptyPrompt).obstacle? trace = none
  · rw [Ending.sentResponse_of_obstacle? ho]
    rintro (⟨hs, -⟩ | ⟨hf, hs, -⟩)
    · cases hs
    · obtain ⟨report, rfl⟩ := hx _ rfl hf
      cases hs
  · obtain ⟨message, hs⟩ := Ending.exists_sentResponse ho
    rw [hs]
    exact not_sameAnswer_broken

theorem whole_blocked (report : Report) : Whole (Failure.blocked report).message.toList := by
  have lead : Whole "Generation blocked: ".toList := by simp
  have tail : Whole " error(s) in the component configuration".toList := by simp
  have split : (Failure.blocked report).message = "Generation blocked: " ++
      toString report.errorCount ++ " error(s) in the component configuration" := rfl
  rw [split, String.toList_append, String.toList_append]
  exact whole_append_iff.mpr ⟨whole_append_iff.mpr ⟨lead, whole_toString_nat _⟩, tail⟩

/-- The service answers with the sketch that an export makes on the same day, or refuses as the export
does, exactly if the prompt is not blank, whatever the export fails with is about the project, and
neither the sketch nor the report holds halves of characters. Headers hold whole characters, so the
identifier of the request can be written. -/
theorem respond_sketch_iff {now now' : Instant} (fresh : String) (milliseconds : Nat)
    (hr : route r.method r.path = .endpoint .sketch)
    (ha : Endpoint.sketch.accept app r = .ok (.sketch draft)) (hp : draft.project app = .ok p)
    (hd : now'.date = now.date) (hw : Whole (r.traceId fresh).toList) :
    SameAnswer (r.traceId fresh) (p.exportSketch now) (app.respond now' fresh milliseconds r).1 ↔
      isBlankText p.prompt = false ∧
      (∀ f, p.exportSketch now = .error f → f.isDomain = true) ∧
      (∀ code, p.exportSketch now = .ok code → Whole code.toList) ∧
      ∀ report, p.report = .ok report → Sendable report.toRecord := by
  rw [respond_of_accept_ok now' milliseconds hr ha, ← Project.exportSketch_congr hd,
    project_prompt hp]
  generalize r.traceId fresh = trace at hw ⊢
  cases hb : isBlankText draft.prompt with
  | true =>
    -- An export does not fail for its prompt, so this refusal is not what it comes to.
    have hn : ¬ SameAnswer trace (p.exportSketch now')
        ((Ending.refused .emptyPrompt).sentResponse trace) :=
      not_sameAnswer_emptyPrompt fun f hx hf =>
        (Project.blocked_of_exportSketch hx hf).imp fun _ => And.right
    rw [ending_sketch_of_error (sketch_of_blank hb)]
    exact iff_of_false hn (by simp)
  | false =>
    have made : draft.sketch app now' =
        p.exportSketch now' >>= fun code => p.report.map fun report => (code, report) :=
      sketch_of_project hb hp
    cases hx : p.exportSketch now' with
    | ok code =>
      obtain ⟨report, hrep⟩ := Project.report_of_exportSketch hx
      rw [hx, hrep] at made
      rw [ending_sketch_of_ok made, sameAnswer_sent_iff (.sketch rfl rfl),
        Ending.obstacle?_answered_iff]
      simp [hrep]
    | error f =>
      rw [hx] at made
      rw [ending_sketch_of_error made, Ending.ofFailure]
      cases hf : f.isDomain with
      | false => exact iff_of_false not_sameAnswer_broken (by simp [hf])
      | true =>
        obtain ⟨report, hrep, rfl⟩ := Project.blocked_of_exportSketch hx hf
        rw [if_pos rfl, sameAnswer_sent_iff (.refusal rfl rfl rfl), Ending.obstacle?_refused_iff hw]
        simp [hrep, whole_blocked, Failure.isDomain]

/-! ## Requests without parts -/

theorem accept_posted {path body : String} (fields : List (String × Document)) {task : Task}
    (ho : app.token = "") (he : e.takesBody = true)
    (hb : (bodyOf (posted path body)).toOption.any
      (fun d => d.any (Document.same (.object fields))) = true)
    (ht : e.task (some (.object fields)) = .ok task) :
    e.accept app (posted path body) = .ok task := by
  obtain ⟨d, hd, same⟩ := exists_ok_of_any hb
  obtain ⟨document, rfl, same⟩ := (Option.any_eq_true _ _).mp same
  have free : e.authorise app (posted path body) = .ok () := by
    rw [authorise_eq_ok_iff (isOpen_of_takesBody he), ho]
    rfl
  rw [Endpoint.accept, body_of_takesBody he, hd, ← Document.eq_of_same same]
  simp only [bind, Except.bind, free, ht]
  rfl

/-- A prompt without numbers has the sketch that it is exported as. -/
theorem respond_sketch_iff_led :
    let p : Project := ⟨"turn on led", .uno, []⟩
    let r := posted "/sketch" "\x7b\"prompt\": \"turn on led\"\x7d"
    SameAnswer "t1" (p.exportSketch Project.dawn)
      ((App.make none .uno).respond Project.dawn "t0" 0 r).1 := by
  intro p r
  let light : Action := { kind := .set, component := some "led", value := some (.text "HIGH") }
  have hr : route r.method r.path = .endpoint .sketch := by decide +kernel
  have ha : Endpoint.sketch.accept (App.make none .uno) r =
      .ok (.sketch ⟨"turn on led", [], none⟩) :=
    accept_posted [("prompt", .text "turn on led")] rfl rfl (by decide +kernel) rfl
  have hp : Draft.project (App.make none .uno) ⟨"turn on led", [], none⟩ = .ok p := rfl
  have trace : r.traceId "t0" = "t1" := traceId_posted _ _ _
  have actions : Prompt.actions "turn on led" = .ok [light] := rfl
  have written : (Sketch.lines [light] p.components p.board Project.dawn.date).toOption.any
      (fun ls => decide (∀ l ∈ ls, Whole l.toList)) = true := by
    decide +kernel
  obtain ⟨ls, hl, whole⟩ := exists_ok_of_any written
  have hx := Project.exportSketch_of_lines (by decide +kernel) actions hl
  have hrep : p.report = .ok ⟨[], 0, ⟨0, 0⟩⟩ := rfl
  have answers := respond_sketch_iff "t0" 0 hr ha hp (rfl : Project.dawn.date = _)
    (by rw [trace]; decide +kernel)
  rw [trace, hx, hrep] at answers
  rw [hx]
  refine answers.mpr ⟨by decide +kernel, by simp, ?_, ?_⟩
  · rintro _ ⟨⟩
    exact whole_sketch_iff.mpr (of_decide_eq_true whole)
  · rintro _ ⟨⟩
    decide +kernel

/-- A blank prompt has a sketch when it is exported, and is refused by the service. -/
theorem respond_sketch_blank :
    let p : Project := ⟨" ", .uno, []⟩
    let r := posted "/sketch" "\x7b\"prompt\": \" \"\x7d"
    Endpoint.sketch.accept (App.make none .uno) r = .ok (.sketch ⟨" ", [], none⟩) ∧
      Draft.project (App.make none .uno) ⟨" ", [], none⟩ = .ok p ∧
      (∃ code, p.exportSketch Project.dawn = .ok code) ∧
      ((App.make none .uno).respond Project.dawn "t0" 0 r).1.status = 422 :=
  ⟨accept_posted [("prompt", .text " ")] rfl rfl (by decide +kernel) rfl, rfl,
    exists_ok_of_isOk (by decide +kernel), by decide +kernel⟩

end Service

end BlockSketch
