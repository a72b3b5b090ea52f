import BlockSketch.Proofs.Requests
import BlockSketch.Proofs.SketchAnswers

/-! # Drafts

The endpoints for programs and for sketches take the same bodies, and for most of them both answer or
both refuse in the same way. They differ in two cases. A draft with a blank prompt that is wrong in
another way too is refused for its prompt by one of them and for its board or a component by the
other. And a half of a character in a label keeps a sketch from being sent, but not a program.

The labels of a draft that was read are texts, so whether a sketch can be written depends on the
numbers in its prompt alone, as it does for the program.
-/

namespace BlockSketch

namespace Service

open Json
open PinSetup (Labelled)
open Text (isBlankText)

variable {app : App} {e : Endpoint} {r : Request} {t : Task} {fresh trace trace' : String}
  {now now' : Instant} {draft : Draft} {p : Project} {f : Failure} {d : Document}
  {place : List PathStep}

/-! ## Labels -/

namespace Checked

variable {α β : Type} {x : Checked α} {b : β}

theorem map_eq_ok_iff {g : α → β} : x.map g = .ok b ↔ ∃ a, x = .ok a ∧ g a = b := by
  cases x <;> simp [map]

theorem apply_eq_ok_iff {g : Checked (α → β)} :
    g.apply x = .ok b ↔ ∃ h a, g = .ok h ∧ x = .ok a ∧ h a = b := by
  cases g <;> cases x <;> simp [apply]

theorem all_eq_ok_iff {xs : List (Checked α)} {as : List α} :
    all xs = .ok as ↔ xs = as.map .ok := by
  induction xs generalizing as with
  | nil => cases as <;> simp [all]
  | cons x xs ih =>
    simp only [all, apply_eq_ok_iff, map_eq_ok_iff, ih]
    constructor
    · rintro ⟨_, bs, ⟨b, rfl, rfl⟩, rfl, rfl⟩
      rfl
    · intro h
      obtain ⟨b, bs, rfl, hx, hxs⟩ := List.map_eq_cons_iff.mp h.symm
      exact ⟨_, bs, ⟨b, hx.symm, rfl⟩, hxs.symm, rfl⟩

end Checked

theorem mem_of_get? {es : List (String × Document)} {key : String} {v : Document}
    (h : (Document.object es).get? key = some v) : (key, v) ∈ es := by
  induction es with
  | nil => cases h
  | cons e es ih =>
    rw [Document.get?_object_cons] at h
    split at h
    · next hk =>
      obtain rfl := Option.some.inj h
      subst hk
      exact List.mem_cons_self
    · exact List.mem_cons_of_mem _ (ih h)

theorem defaulted_eq_ok {α : Type} {reader : Reader α} {default a : α} {keys : List String}
    (h : defaulted reader default keys place d = .ok a) :
    a = default ∨ ∃ place v, reader place v = .ok a := by
  unfold defaulted at h
  split at h
  · exact .inr ⟨_, _, h⟩
  · exact .inl (Checked.ok.inj h).symm

/-- The labels among the entries of a field are texts. -/
def GivesLabels (field : Reader (List (String × Document))) : Prop :=
  ∀ place d es, field place d = .ok es → ∀ v, ("label", v) ∈ es → IsText v

theorem GivesLabels.defaulted {field : Reader (List (String × Document))}
    (h : GivesLabels field) {default : List (String × Document)} {keys : List String}
    (hd : ∀ v, ("label", v) ∈ default → IsText v) :
    GivesLabels (Service.defaulted field default keys) := by
  intro place d es he v hv
  rcases defaulted_eq_ok he with rfl | ⟨place, d, he⟩
  · exact hd v hv
  · exact h place d es he v hv

theorem GivesLabels.entry {α : Type} {reader : Reader α} {write : α → Document} {key : String}
    (h : key = "label" → ∀ a, IsText (write a)) : GivesLabels (Reader.entry reader write key) := by
  intro place d es he v hv
  obtain ⟨a, -, rfl⟩ := Checked.map_eq_ok_iff.mp he
  obtain ⟨rfl, rfl⟩ := Prod.mk.inj (List.mem_singleton.mp hv)
  exact h rfl a

theorem GivesLabels.textEntry (key : String) : GivesLabels (Reader.textEntry key) := by
  refine (entry fun _ s => ⟨s, rfl⟩).defaulted fun v hv => ?_
  exact ⟨"", (Prod.mk.inj (List.mem_singleton.mp hv)).2⟩

theorem GivesLabels.required {field : Reader (List (String × Document))} (h : GivesLabels field)
    (key : String) : GivesLabels (Service.required field key) := by
  intro place d es he
  unfold Service.required at he
  split at he
  · exact h _ _ es he
  · cases he

theorem GivesLabels.optionalEntry {α : Type} {reader : Reader α} {write : α → Document}
    {keys : List String} (h : keys.headD "" = "label" → ∀ a, IsText (write a)) :
    GivesLabels (Reader.optionalEntry reader write keys) := by
  refine GivesLabels.defaulted (fun place d es he v hv => ?_) (by simp)
  obtain ⟨o, -, rfl⟩ := Checked.map_eq_ok_iff.mp he
  obtain ⟨a, -, ha⟩ := List.mem_map.mp (Option.toList_map ▸ hv)
  obtain ⟨hk, rfl⟩ := Prod.mk.inj ha
  exact h hk a

theorem givesLabels_of_mem {field : Reader (List (String × Document))}
    (h : field ∈ Reader.componentFields) : GivesLabels field := by
  simp only [Reader.componentFields, List.mem_cons, List.not_mem_nil, or_false] at h
  rcases h with rfl | rfl | rfl | rfl | rfl | rfl | rfl | rfl | rfl
  · exact .textEntry "id"
  · exact .required (.entry fun _ s => ⟨s, rfl⟩) "type"
  · exact .textEntry "pins"
  · exact .optionalEntry fun _ s => ⟨s, rfl⟩
  all_goals exact .optionalEntry (by simp)

/-- The label in the record of a component is a text. -/
theorem isText_label {record v : Document} (h : Reader.component place d = .ok record)
    (hv : record.get? "label" = some v) : IsText v := by
  cases d with
  | map es =>
    obtain ⟨entries, he, rfl⟩ := Checked.map_eq_ok_iff.mp h
    obtain ⟨fields, hf, hm⟩ := List.mem_flatten.mp (mem_of_get? hv)
    have given : Checked.ok fields ∈
        Reader.componentFields.map fun field => field place (.map es) := by
      rw [Checked.all_eq_ok_iff.mp he]
      exact List.mem_map_of_mem hf
    obtain ⟨field, hc, hr⟩ := List.mem_map.mp given
    exact givesLabels_of_mem hc _ _ _ hr v hm
  | _ => cases h

theorem labelled_of_ofRecord {record : Document} {fallback : String} {c : Component}
    (h : Component.ofRecord record fallback = .ok c)
    (hl : ∀ v, record.get? "label" = some v → IsText v) : Labelled c := by
  intro v hv
  rw [(Component.fields_of_ofRecord h).2, Option.mem_def, Option.ite_none_right_eq_some,
    Option.some.injEq] at hv
  obtain ⟨ht, rfl⟩ := hv
  cases hr : record.get? "label" with
  | none =>
    rw [Document.get_of_none hr] at ht
    cases ht
  | some w =>
    rw [Document.get_of_get? hr]
    exact hl w hr

theorem labelled_of_readComponents {records : List Document} {components : List Component}
    {n : Nat} (h : readComponents n records = .ok components)
    (hl : ∀ record ∈ records, ∀ v, record.get? "label" = some v → IsText v) :
    ∀ c ∈ components, Labelled c := by
  induction records generalizing n components with
  | nil =>
    obtain rfl := Except.ok.inj h
    simp
  | cons record records ih =>
    obtain ⟨hr, hrs⟩ := List.forall_mem_cons.mp hl
    rw [readComponents] at h
    split at h
    · next c hc =>
      obtain ⟨cs, hcs, hp⟩ := bind_eq_ok_iff.mp h
      obtain rfl := pure_eq_ok_iff.mp hp
      exact List.forall_mem_cons.mpr ⟨labelled_of_ofRecord hc hr, ih hcs hrs⟩
    · cases h

theorem components_of_readBody {body : Option Document}
    (h : readBody Reader.draft body = .ok draft) :
    ∃ place d, Reader.components place d = .ok draft.components := by
  cases body with
  | none => cases h
  | some d =>
    cases d with
    | map es =>
      obtain ⟨_, board, ha, -, he⟩ := Checked.apply_eq_ok_iff.mp h
      obtain ⟨_, components, hp, hc, rfl⟩ := Checked.apply_eq_ok_iff.mp ha
      obtain ⟨prompt, -, rfl⟩ := Checked.map_eq_ok_iff.mp hp
      subst he
      exact ⟨_, _, hc⟩
    | _ => cases h

/-- The components of a draft that was read have labels that are texts. -/
theorem labelled_of_readBody {body : Option Document} (h : readBody Reader.draft body = .ok draft)
    (hp : draft.project app = .ok p) : ∀ c ∈ p.components, Labelled c := by
  obtain ⟨board, -, hp⟩ := bind_eq_ok_iff.mp hp
  obtain ⟨components, hc, hp⟩ := bind_eq_ok_iff.mp hp
  obtain rfl := pure_eq_ok_iff.mp hp
  refine labelled_of_readComponents hc fun record hm v hv => ?_
  obtain ⟨place, d, hd⟩ := components_of_readBody h
  rcases defaulted_eq_ok hd with he | ⟨place, d, hd⟩
  · rw [he] at hm
    cases hm
  · cases d with
    | list ds =>
      have read : Checked.ok record ∈
          ds.mapIdx fun i d => Reader.component (place ++ [.position i]) d := by
        rw [Checked.all_eq_ok_iff.mp hd]
        exact List.mem_map_of_mem hm
      obtain ⟨i, hi, hr⟩ := List.mem_mapIdx.mp read
      exact isText_label hr hv
    | _ => cases hd

/-! ## Programs and sketches of a project -/

/-- What the program and the sketch of a project come to: the same failure, two failures to write
numbers, or texts that can be sent under the same conditions, up to the definitions of pins. -/
inductive Twins (p : Project) :
    Except Failure Project.Generated → Except Failure String → Prop where
  | failed {f : Failure} : Twins p (.error f) (.error f)
  | unwritable {f g : Failure} : f.isDomain = false → g.isDomain = false →
      Twins p (.error f) (.error g)
  | made {g : Project.Generated} {code : String} : p.report = .ok g.report →
      (Whole code.toList ↔ (∀ c ∈ p.components, c.IsDefinedWhole) ∧
        (∀ d ∈ Action.toRecords g.actions, Sendable d) ∧ ∀ s ∈ g.steps, Sendable s.toRecord) →
      Twins p (.ok g) (.ok code)

theorem isDomain_ofSketch (fault : SketchFault) : (Failure.ofSketch fault).isDomain = false := by
  cases fault <;> rfl

/-- With a report that allows it, the steps and the sketch depend on the actions. -/
theorem twins_of_allowed {report : Report} (now : Instant) (hl : ∀ c ∈ p.components, Labelled c)
    (hb : isBlankText p.prompt = false) (hr : p.report = .ok report)
    (ha : report.allowsGeneration = true) : Twins p p.generate (p.exportSketch now) := by
  rw [Project.generate_of_allowed hb hr ha, Project.exportSketch_of_allowed hr ha]
  cases hs : p.actions with
  | error f => exact .failed
  | ok actions =>
    have read : Prompt.actions p.prompt = .ok actions := mapError_eq_ok_iff.mp hs
    have spoken : ∀ a ∈ actions, Prompt.Spoken (Prompt.spoken p.prompt) a :=
      fun a hm => Prompt.spoken_of_actions read hm
    have faithful := Prompt.leaves_of_spoken spoken
    have readable := (Validation.report_eq_ok_iff.mp (mapError_eq_ok_iff.mp hr)).1
    -- The program and the sketch hold the same numbers, so they are written or not together.
    have written : (∃ steps, Program.steps actions p.components = .ok steps) ↔
        ∃ code, Sketch.render actions p.components p.board now.date = .ok code := by
      rw [exists_steps_iff_exists_body readable faithful,
        exists_render_iff_exists_body p.board now.date readable fun c hc _ => hl c hc]
    simp only [bind, Except.bind]
    cases hst : Program.steps actions p.components with
    | error e =>
      cases hsk : Sketch.render actions p.components p.board now.date with
      | error e' => exact .unwritable rfl (isDomain_ofSketch e')
      | ok code =>
        obtain ⟨steps, hw⟩ := written.mpr ⟨code, hsk⟩
        cases hst.symm.trans hw
    | ok steps =>
      obtain ⟨code, hsk⟩ := written.mp ⟨steps, hst⟩
      rw [hsk]
      obtain ⟨ls, hls, rfl⟩ := map_eq_ok_iff.mp hsk
      refine .made hr ?_
      have records : (∀ d ∈ Action.toRecords actions, Sendable d) ↔
          ∀ l ∈ Program.expandAll 1 actions, l.instruction.IsWhole :=
        Prompt.sendable_toRecords_iff spoken
      rw [whole_sketch_iff, whole_sketchLines_iff hls, sendable_steps_iff hst, records,
        ← whole_lines_iff faithful]
      constructor
      · rintro ⟨defined, parts, body⟩
        exact ⟨defined, body, parts, body⟩
      · rintro ⟨defined, -, parts, body⟩
        exact ⟨defined, parts, body⟩

theorem twins (now : Instant) (hb : isBlankText p.prompt = false)
    (hl : ∀ c ∈ p.components, Labelled c) : Twins p p.generate (p.exportSketch now) := by
  cases hr : p.report with
  | error f =>
    have sketch : p.exportSketch now = .error f := by
      rw [Project.exportSketch, hr]
      rfl
    rw [Project.generate_of_report_error hb hr, sketch]
    exact .failed
  | ok report =>
    cases ha : report.allowsGeneration with
    | false =>
      have sketch : p.exportSketch now = .error (.blocked report) := by
        have hg : Project.gate report = .error (.blocked report) := by rw [Project.gate, ha]; rfl
        rw [Project.exportSketch, hr]
        simp only [bind, Except.bind, hg]
      rw [Project.generate_of_refused hb hr ha, sketch]
      exact .failed
    | true => exact twins_of_allowed now hl hb hr ha

/-! ## Refusals -/

/-- The numbers of refusals for which the project is at fault. -/
def refusals : List Nat := [400, 409, 422]

/-- Both answer, or neither does; and if one refuses, the other does so with the same number, reason,
detail and report. -/
structure RefuseAlike (a b : Response) : Prop where
  answered : a.status = 200 ↔ b.status = 200
  refused : a.status ∈ refusals ∨ b.status ∈ refusals →
    a.status = b.status ∧ ∀ key ∈ ["reason", "detail", "report"], a.body.get? key = b.body.get? key

namespace RefuseAlike

theorem refl_of_status {a b : Response} (h : a.status = 500) (h' : b.status = 500) :
    RefuseAlike a b where
  answered := by simp [h, h']
  refused := by simp [h, h', refusals]

theorem refused_self (f : Failure) (hw : Whole trace.toList) (hw' : Whole trace'.toList) :
    RefuseAlike ((Ending.refused f).sentResponse trace)
      ((Ending.refused f).sentResponse trace') := by
  have both : (Ending.refused f).obstacle? trace = none ↔
      (Ending.refused f).obstacle? trace' = none :=
    (Ending.obstacle?_refused_iff hw).trans (Ending.obstacle?_refused_iff hw').symm
  by_cases ho : (Ending.refused f).obstacle? trace = none
  · rw [Ending.sentResponse_of_obstacle? ho, Ending.sentResponse_of_obstacle? (both.mp ho)]
    refine ⟨Iff.rfl, fun _ => ⟨rfl, ?_⟩⟩
    cases f <;> simp [Ending.response, Ending.body, Ending.reasonBody, Document.get?_object_cons]
  · obtain ⟨m, hm⟩ := Ending.exists_sentResponse ho
    obtain ⟨m', hm'⟩ := Ending.exists_sentResponse (mt both.mpr ho)
    rw [hm, hm']
    exact refl_of_status rfl rfl

theorem ofFailure_self (f : Failure) (hw : Whole trace.toList) (hw' : Whole trace'.toList) :
    RefuseAlike ((Ending.ofFailure f).sentResponse trace)
      ((Ending.ofFailure f).sentResponse trace') := by
  cases hf : f.isDomain with
  | true =>
    rw [Ending.ofFailure, if_pos hf]
    exact refused_self f hw hw'
  | false =>
    rw [Ending.ofFailure, if_neg (by simp [hf])]
    exact refl_of_status rfl rfl

theorem ofFailure_of_not_domain {f g : Failure} (hf : f.isDomain = false) (hg : g.isDomain = false) :
    RefuseAlike ((Ending.ofFailure f).sentResponse trace)
      ((Ending.ofFailure g).sentResponse trace') := by
  rw [Ending.ofFailure, Ending.ofFailure, if_neg (by simp [hf]), if_neg (by simp [hg])]
  exact refl_of_status rfl rfl

theorem status_ofFailure (f : Failure) (trace : String) :
    ((Ending.ofFailure f).sentResponse trace).status ∈ [(refusal f).1, 500] := by
  unfold Ending.ofFailure
  split
  · by_cases ho : (Ending.refused f).obstacle? trace = none
    · rw [Ending.sentResponse_of_obstacle? ho]
      exact List.mem_cons_self
    · obtain ⟨m, hm⟩ := Ending.exists_sentResponse ho
      rw [hm]
      exact List.mem_cons_of_mem _ List.mem_cons_self
  · exact List.mem_cons_of_mem _ List.mem_cons_self

theorem status_ofFailure_ne (f : Failure) (trace : String) :
    ((Ending.ofFailure f).sentResponse trace).status ≠ 200 := by
  intro h
  have hm := h ▸ status_ofFailure f trace
  cases f <;> simp [refusal] at hm

theorem status_answered (d : Document) (trace : String) :
    ((Ending.answered d).sentResponse trace).status = if Sendable d then 200 else 500 := by
  by_cases h : Sendable d
  · rw [Ending.sentResponse_of_obstacle? (Ending.obstacle?_answered_iff.mpr h), if_pos h]
    rfl
  · obtain ⟨m, hm⟩ := Ending.exists_sentResponse (mt Ending.obstacle?_answered_iff.mp h)
    rw [hm, if_neg h]
    rfl

theorem answered_iff {d d' : Document} :
    RefuseAlike ((Ending.answered d).sentResponse trace)
      ((Ending.answered d').sentResponse trace') ↔ (Sendable d ↔ Sendable d') := by
  constructor
  · intro h
    simpa [status_answered] using h.answered
  · intro h
    refine ⟨by simp [status_answered, h], fun hm => ?_⟩
    by_cases hs : Sendable d <;> by_cases hs' : Sendable d' <;>
      simp [status_answered, refusals, hs, hs'] at hm

end RefuseAlike

/-! ## Requests to both endpoints -/

/-- The request with the method and the path of an endpoint. -/
def Request.sentTo (r : Request) (e : Endpoint) : Request :=
  { r with method := e.method, path := e.path }

theorem route_sentTo (r : Request) (e : Endpoint) :
    route (r.sentTo e).method (r.sentTo e).path = .endpoint e := by
  have path : Endpoint.ofPath? (r.sentTo e).path = some e := Endpoint.ofPath?_path e
  rw [route, path]
  exact if_pos rfl

/-- A body that is taken for a program is taken for a sketch. -/
theorem accept_sketch_of_accept_pseudocode
    (h : Endpoint.pseudocode.accept app (r.sentTo .pseudocode) = .ok (.pseudocode draft)) :
    Endpoint.sketch.accept app (r.sentTo .sketch) = .ok (.sketch draft) ∧
      ∃ body, readBody Reader.draft body = .ok draft := by
  obtain ⟨body, hb, ha, ht⟩ := accept_eq_ok_iff.mp h
  obtain ⟨_, hr, he⟩ := Checked.map_eq_ok_iff.mp ht
  obtain rfl := Task.pseudocode.inj he
  exact ⟨accept_eq_ok_iff.mpr ⟨body, hb, ha, Checked.map_eq_ok_iff.mpr ⟨_, hr, rfl⟩⟩, body, hr⟩

theorem ending_pseudocode_of_error (h : draft.pseudocode app = .error f) :
    (Task.pseudocode draft).ending app now = .ofFailure f := by
  rw [Task.ending, Task.perform, h]
  rfl

theorem ending_pseudocode_of_ok {g : Project.Generated} (h : draft.pseudocode app = .ok g) :
    (Task.pseudocode draft).ending app now =
      .answered (.object [("actions", .list (Action.toRecords g.actions)),
        ("steps", .list (g.steps.map Step.toRecord)), ("report", g.report.toRecord)]) := by
  rw [Task.ending, Task.perform, h]
  rfl

theorem refusal_of_readComponents_error {records : List Document} {n : Nat}
    (h : readComponents n records = .error f) : (refusal f).1 = 400 := by
  induction records generalizing n with
  | nil => cases h
  | cons record records ih =>
    rw [readComponents] at h
    split at h
    · rcases bind_eq_error_iff.mp h with h | ⟨components, -, h⟩
      · exact ih h
      · cases h
    · obtain rfl := Except.error.inj h
      split <;> rfl

/-- A draft that is no project is refused for its board or for a component. -/
theorem refusal_of_project_error (h : draft.project app = .error f) : (refusal f).1 = 400 := by
  rcases bind_eq_error_iff.mp h with h | ⟨board, -, h⟩
  · unfold App.board at h
    split at h
    · cases h
    · split at h
      · cases h
      · obtain ⟨name, -, rfl⟩ := mapError_eq_error_iff.mp h
        rfl
  rcases bind_eq_error_iff.mp h with h | ⟨components, -, h⟩
  · exact refusal_of_readComponents_error h
  · cases h

/-- The ways that both endpoints go for a draft. -/
inductive Outcomes (app : App) (draft : Draft) (trace trace' : String) : Response → Response → Prop
  /-- The sketch is refused for its prompt, and the program for something else. -/
  | apart {a b : Response} : isBlankText draft.prompt = true →
      (∀ p, draft.project app ≠ .ok p) → a.status ∈ [400, 500] → b.status = 422 →
      Outcomes app draft trace trace' a b
  | refused {a b : Response} :
      (isBlankText draft.prompt = true → ∃ p, draft.project app = .ok p) → RefuseAlike a b →
      a.status ≠ 200 → Outcomes app draft trace trace' a b
  | made {p : Project} {d d' : Document} : isBlankText draft.prompt = false →
      draft.project app = .ok p →
      (Sendable d' ↔ Sendable d ∧ ∀ c ∈ p.components, c.IsDefinedWhole) →
      Outcomes app draft trace trace' ((Ending.answered d).sentResponse trace)
        ((Ending.answered d').sentResponse trace')

theorem outcomes_of_project_error (hw : Whole trace.toList) (hw' : Whole trace'.toList)
    (hp : draft.project app = .error f) : Outcomes app draft trace trace'
      (((Task.pseudocode draft).ending app now).sentResponse trace)
      (((Task.sketch draft).ending app now').sentResponse trace') := by
  have program : draft.pseudocode app = .error f := by rw [Draft.pseudocode, hp]; rfl
  rw [ending_pseudocode_of_error program]
  cases hb : isBlankText draft.prompt with
  | true =>
    rw [ending_sketch_of_error (sketch_of_blank hb)]
    refine .apart hb (by simp [hp]) ?_ ?_
    · rw [← refusal_of_project_error hp]
      exact RefuseAlike.status_ofFailure f trace
    · have sent : (Ending.refused .emptyPrompt).obstacle? trace' = none :=
        (Ending.obstacle?_refused_iff hw').mpr ⟨by decide, by simp⟩
      have refused : Ending.ofFailure .emptyPrompt = .refused .emptyPrompt := rfl
      rw [refused, Ending.sentResponse_of_obstacle? sent]
      rfl
  | false =>
    have sketch : draft.sketch app now' = .error f := by
      simp only [Draft.sketch, hb, hp]
      rfl
    rw [ending_sketch_of_error sketch]
    exact .refused (by simp [hb]) (.ofFailure_self f hw hw') (RefuseAlike.status_ofFailure_ne f _)

theorem outcomes_of_twins {x : Except Failure Project.Generated} {y : Except Failure String}
    (h : Twins p x y) (hw : Whole trace.toList) (hw' : Whole trace'.toList)
    (hb : isBlankText draft.prompt = false) (hp : draft.project app = .ok p)
    (hx : draft.pseudocode app = x)
    (hy : draft.sketch app now' = y >>= fun code => p.report.map fun report => (code, report)) :
    Outcomes app draft trace trace' (((Task.pseudocode draft).ending app now).sentResponse trace)
      (((Task.sketch draft).ending app now').sentResponse trace') := by
  cases h with
  | failed =>
    rw [ending_pseudocode_of_error hx, ending_sketch_of_error hy]
    exact .refused (by simp [hb]) (.ofFailure_self _ hw hw') (RefuseAlike.status_ofFailure_ne _ _)
  | unwritable hf hg =>
    rw [ending_pseudocode_of_error hx, ending_sketch_of_error hy]
    exact .refused (by simp [hb]) (.ofFailure_of_not_domain hf hg)
      (RefuseAlike.status_ofFailure_ne _ _)
  | @made g code hr hc =>
    rw [hr] at hy
    rw [ending_pseudocode_of_ok hx, ending_sketch_of_ok hy]
    have program : Sendable (.object [("actions", .list (Action.toRecords g.actions)),
          ("steps", .list (g.steps.map Step.toRecord)), ("report", g.report.toRecord)]) ↔
        (∀ d ∈ Action.toRecords g.actions, Sendable d) ∧ (∀ s ∈ g.steps, Sendable s.toRecord) ∧
          Sendable g.report.toRecord := by
      simp
    have sketch : Sendable (.object [("code", .text code), ("report", g.report.toRecord)]) ↔
        Whole code.toList ∧ Sendable g.report.toRecord := by
      simp
    refine .made hb hp ?_
    rw [sketch, program, hc]
    constructor
    · rintro ⟨⟨defined, actions, steps⟩, report⟩
      exact ⟨⟨actions, steps, report⟩, defined⟩
    · rintro ⟨⟨actions, steps, report⟩, defined⟩
      exact ⟨⟨defined, actions, steps⟩, report⟩

theorem outcomes {body : Option Document} (hbody : readBody Reader.draft body = .ok draft)
    (hw : Whole trace.toList) (hw' : Whole trace'.toList) : Outcomes app draft trace trace'
      (((Task.pseudocode draft).ending app now).sentResponse trace)
      (((Task.sketch draft).ending app now').sentResponse trace') := by
  cases hp : draft.project app with
  | error f => exact outcomes_of_project_error hw hw' hp
  | ok p =>
    have program : draft.pseudocode app = p.generate := by rw [Draft.pseudocode, hp]; rfl
    cases hb : isBlankText draft.prompt with
    | true =>
      have blank : p.generate = .error .emptyPrompt := by
        rw [Project.generate_eq_emptyPrompt_iff, project_prompt hp, hb]
      rw [ending_pseudocode_of_error (program.trans blank),
        ending_sketch_of_error (sketch_of_blank hb)]
      exact .refused (fun _ => ⟨p, hp⟩) (.ofFailure_self _ hw hw')
        (RefuseAlike.status_ofFailure_ne _ _)
    | false =>
      have prompt : isBlankText p.prompt = false := by rw [project_prompt hp, hb]
      exact outcomes_of_twins (twins now' prompt (labelled_of_readBody hbody hp)) hw hw' hb hp
        program (sketch_of_project hb hp)

/-- The endpoints for programs and for sketches refuse alike exactly if a draft with a blank prompt
is one of a project otherwise, and the definitions of the pins can be sent if the program can. -/
theorem respond_drafts_iff (now now' : Instant) (fresh fresh' : String)
    (milliseconds milliseconds' : Nat)
    (ha : Endpoint.pseudocode.accept app (r.sentTo .pseudocode) = .ok (.pseudocode draft))
    (hw : Whole (r.traceId fresh).toList) (hw' : Whole (r.traceId fresh').toList) :
    let a := (app.respond now fresh milliseconds (r.sentTo .pseudocode)).1
    let b := (app.respond now' fresh' milliseconds' (r.sentTo .sketch)).1
    (RefuseAlike a b ↔
      (isBlankText draft.prompt = true → ∃ p, draft.project app = .ok p) ∧
      (a.status = 200 → ∀ p, draft.project app = .ok p → ∀ c ∈ p.components, c.IsDefinedWhole)) ∧
    (b.status = 200 → a.status = 200) := by
  intro a b
  obtain ⟨hs, body, hbody⟩ := accept_sketch_of_accept_pseudocode ha
  have both : Outcomes app draft (r.traceId fresh) (r.traceId fresh') a b := by
    have program : a = ((Task.pseudocode draft).ending app now).sentResponse (r.traceId fresh) :=
      respond_of_accept_ok now milliseconds (route_sentTo r _) ha
    have sketch : b = ((Task.sketch draft).ending app now').sentResponse (r.traceId fresh') :=
      respond_of_accept_ok now' milliseconds' (route_sentTo r _) hs
    rw [program, sketch]
    exact outcomes hbody hw hw'
  -- How the responses came about is in the cases.
  generalize a = a, b = b at both
  cases both with
  | apart hb hp hsa hsb =>
    refine ⟨iff_of_false (fun h => ?_) (fun h => ?_), fun h => ?_⟩
    · have same := (h.refused (.inr (by simp [hsb, refusals]))).1
      simp [same, hsb] at hsa
    · obtain ⟨p, hp'⟩ := h.1 hb
      exact hp p hp'
    · rw [hsb] at h
      cases h
  | refused hp h hn =>
    exact ⟨iff_of_true h ⟨hp, fun h200 => absurd h200 hn⟩, h.answered.mpr⟩
  | made hb hp h =>
    rw [RefuseAlike.answered_iff, h]
    simp +contextual [RefuseAlike.status_answered, hb, hp, h]

/-- A prompt without numbers and parts is answered by both. -/
theorem respond_drafts_iff_led :
    let app := App.make none .uno
    let r := posted "" "\x7b\"prompt\": \"turn on led\"\x7d"
    let a := (app.respond Project.dawn "t0" 0 (r.sentTo .pseudocode)).1
    let b := (app.respond Project.dawn "t0" 0 (r.sentTo .sketch)).1
    RefuseAlike a b := by
  intro app r
  have ha : Endpoint.pseudocode.accept app (r.sentTo .pseudocode) =
      .ok (.pseudocode ⟨"turn on led", [], none⟩) :=
    accept_posted [("prompt", .text "turn on led")] rfl rfl (by decide +kernel) rfl
  have whole : Whole (r.traceId "t0").toList := by
    rw [traceId_posted]
    decide +kernel
  refine (respond_drafts_iff Project.dawn Project.dawn "t0" "t0" 0 0 ha whole whole).1.mpr
    ⟨fun hb => ?_, fun _ p hp => ?_⟩
  · cases hb
  · obtain rfl := Except.ok.inj hp
    simp

/-- A blank prompt for a board that there is not is refused for the board by one endpoint and for the
prompt by the other. -/
theorem respond_drafts_apart :
    let app := App.make none .uno
    let r := posted "" "\x7b\"prompt\": \" \", \"board\": \"nano\"\x7d"
    let a := (app.respond Project.dawn "t0" 0 (r.sentTo .pseudocode)).1
    let b := (app.respond Project.dawn "t0" 0 (r.sentTo .sketch)).1
    Endpoint.pseudocode.accept app (r.sentTo .pseudocode) =
        .ok (.pseudocode ⟨" ", [], some "nano"⟩) ∧
      a.status = 400 ∧ b.status = 422 :=
  ⟨accept_posted [("prompt", .text " "), ("board", .text "nano")] rfl rfl (by decide +kernel) rfl,
    by decide +kernel, by decide +kernel⟩

end Service

end BlockSketch
