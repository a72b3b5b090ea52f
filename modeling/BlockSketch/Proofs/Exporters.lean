import BlockSketch.Proofs.Exports
import BlockSketch.Proofs.Halves
import BlockSketch.Proofs.Renderings
import BlockSketch.Proofs.Stops

/-! # Exports of generated projects

What can be generated can also be exported as an instruction sheet and, unless its components are too
many to be counted, as a document. A sketch names numbered pins after the label of their part, so it
can be written exactly if these labels are texts; nothing else keeps it from being written.
-/

namespace BlockSketch

open Json (IsShort hasLongNumber_int hasLongNumber_list hasLongNumber_map hasLongNumber_object)
open Numeral (Printable maxDigits)
open PinName (Nameable)

variable {c : Component} {cs : List Component} {d r : Document} {ds : List Document} {key : String}
  {board : Board} {p : Project} {now : Instant}

/-! ## Values of short documents -/

theorem Document.exists_mem_of_lookup {es : List (Document × Document)} {v : Document}
    (h : lookup key es = some v) : ∃ k, (k, v) ∈ es := by
  induction es with
  | nil => cases h
  | cons e es ih =>
    obtain ⟨k, w⟩ := e
    rw [lookup] at h
    split at h
    · obtain rfl := Option.some.inj h
      exact ⟨k, List.mem_cons_self⟩
    · obtain ⟨k', hk⟩ := ih h
      exact ⟨k', List.mem_cons_of_mem _ hk⟩

theorem isShort_get (h : IsShort d) (key : String) : IsShort (d.get key) := by
  cases d with
  | map es =>
    cases hv : Document.lookup key es with
    | none =>
      rw [Document.get, Document.get?, hv]
      rfl
    | some v =>
      obtain ⟨k, hk⟩ := Document.exists_mem_of_lookup hv
      rw [Document.get, Document.get?, hv]
      exact hasLongNumber_map.mp h _ hk
  | _ => rfl

theorem isShort_of_records (h : IsShort d) (hd : Project.Records d ds) : ∀ r ∈ ds, IsShort r := by
  have given : IsShort ((d.get "components").orElse (.list [])) := by
    unfold Document.orElse
    split
    · exact isShort_get h "components"
    · rfl
  rw [hd.2] at given
  exact hasLongNumber_list.mp given

/-- Labels are taken from the document as they are. -/
theorem isShort_label (h : IsShort d) (hp : Project.ofDocument d board = .ok p) :
    ∀ c ∈ p.components, ∀ l ∈ c.label, IsShort l := by
  obtain ⟨ds, hd, hr⟩ := Project.readComponents_of_ofDocument hp
  intro c hc l hl
  obtain ⟨record, hm, k, hr⟩ := Project.exists_record_of_readComponents hr c hc
  rw [(Component.fields_of_ofRecord hr).2, Option.mem_def, Option.ite_none_right_eq_some,
    Option.some.injEq] at hl
  rw [← hl.2]
  exact isShort_get (isShort_of_records h hd record hm) "label"

/-! ## Records -/

theorem isShort_texts {α : Type} (xs : List α) (f : α → String) :
    IsShort (.list (xs.map fun x => .text (f x))) :=
  hasLongNumber_list.mpr (List.forall_mem_map.mpr fun _ _ => rfl)

theorem Component.isShort_toRecord (hl : ∀ l ∈ c.label, IsShort l)
    (hn : ∀ part, c.kind = .custom part → Printable part.pinCount) : IsShort c.toRecord := by
  refine hasLongNumber_object.mpr (List.forall_mem_append.mpr
    ⟨List.forall_mem_append.mpr ⟨?_, ?_⟩, ?_⟩)
  · simp [Json.hasLongNumber]
  · split
    · next l he => exact List.forall_mem_singleton.mpr (hl l he)
    · exact List.forall_mem_nil _
  · split
    · exact List.forall_mem_nil _
    · next part he =>
      simp only [List.forall_mem_cons]
      exact ⟨rfl, hasLongNumber_int.mpr (hn part he), isShort_texts _ PinType.id,
        isShort_texts _ (fun s => s), rfl, List.forall_mem_nil _⟩

theorem Step.isShort_toRecord {s : Step} (h : Printable s.level) : IsShort s.toRecord := by
  refine hasLongNumber_object.mpr (List.forall_mem_append.mpr ⟨?_, ?_⟩)
  · simp only [List.forall_mem_cons]
    exact ⟨hasLongNumber_int.mpr h, rfl, rfl, List.forall_mem_nil _⟩
  · split
    · exact List.forall_mem_singleton.mpr rfl
    · exact List.forall_mem_nil _

theorem Issue.isShort_toRecord (i : Issue) : IsShort i.toRecord := by
  refine hasLongNumber_object.mpr (List.forall_mem_append.mpr ⟨?_, ?_⟩)
  · simp [Json.hasLongNumber]
  · split
    · exact List.forall_mem_singleton.mpr rfl
    · exact List.forall_mem_nil _

/-- No number in a report can be too long but that of the components. -/
theorem Report.isShort_toRecord_iff {r : Report} (hd : Printable r.pins.digital)
    (ha : Printable r.pins.analog) : IsShort r.toRecord ↔ Printable r.componentCount := by
  have issues : IsShort (.list (r.issues.map Issue.toRecord)) :=
    hasLongNumber_list.mpr (List.forall_mem_map.mpr fun i _ => i.isShort_toRecord)
  have text (s : String) : IsShort (.text s) := rfl
  rw [IsShort, toRecord, hasLongNumber_object]
  simp only [List.forall_mem_cons, text, issues, hasLongNumber_int, hd, ha, true_and, and_true,
    List.not_mem_nil, false_implies, implies_true]

/-! ## Counts -/

theorem printable_of_le {n m : Nat} (h : n ≤ m) (hm : m < powerOfTen 3) : Printable n :=
  Numeral.printable_of_lt (h.trans_lt hm) (by decide)

theorem Board.pins_lt (b : Board) : b.profile.digitalPins.length + b.profile.analogPins.length <
    powerOfTen 3 := by
  cases b <;> decide

namespace Validation

variable {b : Board}

theorem Fits.length_pinList_le (h : Fits b cs) (hc : c ∈ cs) :
    c.pinList.length ≤ b.profile.digitalPins.length + b.profile.analogPins.length := by
  have all : (cs.flatMap Component.pinList).length ≤
      b.profile.digitalPins.length + b.profile.analogPins.length := by
    rw [← Pin.count_of_nodup h.distinct]
    exact Nat.add_le_add h.count_le.1 h.count_le.2
  have part : c.pinList.Sublist (cs.flatMap Component.pinList) :=
    List.sublist_flatten_of_mem (List.mem_map_of_mem hc)
  exact part.length_le.trans all

/-- A part that fits has as many pins as it counts. -/
theorem Fits.printable_pinCount (h : Fits b cs) (hc : c ∈ cs) {part : CustomPart}
    (hk : c.kind = .custom part) : Printable part.pinCount := by
  have hs : c.spec? = some ⟨part.name, part.pinTypes, part.pinCount, part.blocks, part.category,
      none⟩ := by
    rw [Component.spec?, hk]
  have counted : (c.pinList.length : Int) = part.pinCount := h.counted c hc _ hs
  rw [← counted]
  exact printable_of_le (h.length_pinList_le hc) b.pins_lt

end Validation

/-! ## Names of pins -/

namespace Sketch

variable {f : SketchFault} {i : Nat}

theorem pinName_error {n : Int} (h : pinName c n = .error f) :
    ∃ l ∈ c.label, (∀ s, l ≠ .text s) ∧ f = .labelNotText l.kindName := by
  unfold pinName at h
  split at h
  · cases h
  · cases h
  · next l ht hl =>
    exact ⟨l, hl, ht, (Except.error.inj h).symm⟩

/-- Only the name of a numbered pin can fail, for a label that is no text. -/
theorem nameLines_error {ps : List Pin} (h : nameLines c i ps = .error f) :
    (∃ n, Pin.number n ∈ ps) ∧
      ∃ l ∈ c.label, (∀ s, l ≠ .text s) ∧ f = .labelNotText l.kindName := by
  induction ps generalizing i with
  | nil => cases h
  | cons p ps ih =>
    cases p with
    | name s =>
      obtain ⟨⟨n, hn⟩, hl⟩ := ih h
      exact ⟨⟨n, List.mem_cons_of_mem _ hn⟩, hl⟩
    | number n =>
      refine ⟨⟨n, List.mem_cons_self⟩, ?_⟩
      rcases bind_eq_error_iff.mp h with h | ⟨name, -, h⟩
      · exact pinName_error h
      · rcases bind_eq_error_iff.mp h with h | ⟨rest, -, h⟩
        · exact (ih h).2
        · cases h

theorem definitions_error (hr : Validation.Readable c) (h : definitions c = .error f) :
    (∃ n, Pin.number n ∈ c.pinList) ∧
      ∃ l ∈ c.label, (∀ s, l ≠ .text s) ∧ f = .labelNotText l.kindName := by
  unfold definitions at h
  split at h
  · cases h
  · have pins : (liftM (Pin.readAll c.pins) : Except SketchFault (List Pin)) = .ok c.pinList :=
      mapError_eq_ok_iff.mpr hr
    rw [pins] at h
    rcases bind_eq_error_iff.mp h with h | ⟨ps, hp, h⟩
    · cases h
    · obtain rfl := Except.ok.inj hp
      rcases bind_eq_error_iff.mp h with h | ⟨names, -, h⟩
      · exact nameLines_error h
      · cases h

/-- If the loop of a sketch can be written and pins can be read, a label is to blame. -/
theorem lines_error {as : List Action} {day : Date} {body : List String}
    (hr : ∀ c ∈ cs, Validation.Readable c)
    (hb : (placeAll 1 as).mapM Placed.text = .ok body)
    (h : lines as cs board day = .error f) : ∃ c ∈ cs, (∃ n, Pin.number n ∈ c.pinList) ∧
      ∃ l ∈ c.label, (∀ s, l ≠ .text s) ∧ f = .labelNotText l.kindName := by
  have counts : Validation.pinCounts cs = .ok (Pin.count (cs.flatMap Component.pinList)) :=
    map_eq_ok_iff.mpr ⟨_, Validation.allPins_eq_ok_iff.mpr ⟨hr, rfl⟩, rfl⟩
  obtain ⟨modes, hm⟩ : ∃ tss, cs.mapM modeLines = .ok tss :=
    exists_mapM fun c hc => PinSetup.exists_modeLines (hr c hc)
  rcases bind_eq_error_iff.mp h with h | ⟨pins, -, h⟩
  · rw [counts] at h
    cases h
  rcases bind_eq_error_iff.mp h with h | ⟨names, -, h⟩
  · obtain ⟨c, hc, hd⟩ := exists_error_of_mapM h
    exact ⟨c, hc, definitions_error (hr c hc) hd⟩
  rcases bind_eq_error_iff.mp h with h | ⟨_, -, h⟩
  · rw [hm] at h
    cases h
  rcases bind_eq_error_iff.mp h with h | ⟨_, -, h⟩
  · rw [hb] at h
    cases h
  · cases h

theorem render_error {as : List Action} {day : Date} {body : List String}
    (hr : ∀ c ∈ cs, Validation.Readable c)
    (hb : (placeAll 1 as).mapM Placed.text = .ok body)
    (h : render as cs board day = .error f) : ∃ c ∈ cs, (∃ n, Pin.number n ∈ c.pinList) ∧
      ∃ l ∈ c.label, (∀ s, l ≠ .text s) ∧ f = .labelNotText l.kindName := by
  cases hls : lines as cs board day with
  | ok ls =>
    rw [render, hls] at h
    cases h
  | error f' =>
    rw [render, hls] at h
    obtain rfl := Except.error.inj h
    exact lines_error hr hb hls

end Sketch

theorem PinName.nameable_iff : Nameable c ↔ PinSetup.Named c := by
  have places : PinName.places c ≠ [] ↔ ∃ n, Pin.number n ∈ c.pinList := by
    rw [PinName.places, ne_eq, List.map_eq_nil_iff, numbered, List.filter_eq_nil_iff]
    push Not
    constructor
    · rintro ⟨q, hq, hn⟩
      cases hp : q.1 with
      | number n => exact ⟨n, hp ▸ List.fst_mem_of_mem_zipIdx hq⟩
      | name s => simp [hp, Pin.isNumber] at hn
    · rintro ⟨n, hn⟩
      obtain ⟨i, hi, he⟩ := List.getElem_of_mem hn
      exact ⟨(Pin.number n, i), List.mem_zipIdx_iff_getElem?.mpr (by simp [hi, he]), rfl⟩
  exact imp_congr places Iff.rfl

/-! ## Exports -/

namespace Project

variable {g : Generated} {text : String} {depth : Nat}

theorem report_of_generate (hg : p.generate = .ok g) : p.report = .ok g.report :=
  mapError_eq_ok_iff.mpr (generate_eq_ok hg).1

theorem actions_of_generate (hg : p.generate = .ok g) : p.actions = .ok g.actions :=
  mapError_eq_ok_iff.mpr (generate_eq_ok hg).2.2.1

theorem steps_of_generate (hg : p.generate = .ok g) :
    (liftM (Program.steps g.actions p.components) : Except Failure (List Step)) = .ok g.steps :=
  mapError_eq_ok_iff.mpr (generate_eq_ok hg).2.2.2

theorem exportSheet_of_generate (hg : p.generate = .ok g) (now : Instant) :
    p.exportSheet now =
      .ok ("\n".intercalate (p.sheetLines now g.report g.steps) ++ "\n") := by
  simp only [exportSheet, report_of_generate hg, actions_of_generate hg, bind, Except.bind,
    steps_of_generate hg]
  rfl

theorem exportRecord_of_generate (hg : p.generate = .ok g) (now : Instant) :
    p.exportRecord now = .ok (.object [("model", .text p.board.id), ("prompt", .text p.prompt),
      ("components", .list (p.components.map Component.toRecord)),
      ("pseudocode", .list (g.steps.map Step.toRecord)), ("debugReport", g.report.toRecord),
      ("timestamp", .text (now.text "T")), ("version", .text version)]) := by
  simp only [exportRecord, report_of_generate hg, actions_of_generate hg, bind, Except.bind,
    steps_of_generate hg]
  rfl

theorem exportSketch_of_generate (hg : p.generate = .ok g) (now : Instant) :
    p.exportSketch now = liftM (Sketch.render g.actions p.components p.board now.date) := by
  have allowed : g.report.allowsGeneration = true := by
    simpa [Report.allowsGeneration] using (generate_eq_ok hg).2.1
  rw [exportSketch_of_allowed (report_of_generate hg) allowed, actions_of_generate hg]
  rfl

/-- Every number in the document of a generated project is small, but for the number of its
components. -/
theorem isShort_exportRecord_iff (hl : ∀ c ∈ p.components, ∀ l ∈ c.label, IsShort l)
    (hg : p.generate = .ok g) (hr : p.exportRecord now = .ok r) :
    IsShort r ↔ Printable p.components.length := by
  obtain ⟨hv, hs, ha, hp⟩ := generate_eq_ok hg
  have fits := Validation.fits_of_report hv hs
  obtain ⟨-, -, hn, hc⟩ := Validation.report_eq_ok_iff.mp hv
  have components : IsShort (.list (p.components.map Component.toRecord)) :=
    hasLongNumber_list.mpr (List.forall_mem_map.mpr fun c hm =>
      Component.isShort_toRecord (hl c hm) fun part => fits.printable_pinCount hm)
  have steps : IsShort (.list (g.steps.map Step.toRecord)) := by
    refine hasLongNumber_list.mpr (List.forall_mem_map.mpr fun s hm => ?_)
    have level := Prompt.level_of_mem_steps (fun a => Prompt.spoken_of_actions ha) hp hm
    have small : s.level.natAbs < powerOfTen 1 := by
      have ten : powerOfTen 1 = 10 := rfl
      omega
    exact Step.isShort_toRecord (small.trans_le (Numeral.powerOfTen_le (by decide)))
  have report : IsShort g.report.toRecord ↔ Printable p.components.length := by
    rw [← hn]
    have pins := p.board.pins_lt
    refine Report.isShort_toRecord_iff ?_ ?_
    · rw [hc]
      exact printable_of_le fits.count_le.1 (by omega)
    · rw [hc]
      exact printable_of_le fits.count_le.2 (by omega)
  have text (s : String) : IsShort (.text s) := rfl
  rw [exportRecord_of_generate hg] at hr
  obtain rfl := Except.ok.inj hr
  rw [IsShort, hasLongNumber_object]
  simp only [List.forall_mem_cons, text, components, steps, report, true_and, and_true,
    List.not_mem_nil, false_implies, implies_true]

theorem exists_exportDocument_iff (hr : p.exportRecord now = .ok r) :
    (∃ t, p.exportDocument now = .ok t) ↔ IsShort r := by
  rw [exportDocument, hr]
  simp only [bind, Except.bind, Json.write]
  cases hs : Json.hasLongNumber r with
  | false => exact iff_of_true ⟨_, rfl⟩ hs
  | true => exact iff_of_false (by rintro ⟨t, ⟨⟩⟩) (by rw [IsShort, hs]; decide)

/-- What is generated from a document can be exported as an instruction sheet. It can be exported as
a document if its components are not too many to be counted, and as a sketch if the labels that
numbered pins are named after are texts. No other label keeps a sketch from being written, and
nothing else does. -/
theorem exports_of_generate (hd : Json.read text depth = .ok d) (hp : ofDocument d board = .ok p)
    (hg : p.generate = .ok g) (now : Instant) :
    (∃ sheet, p.exportSheet now = .ok sheet) ∧
    ((∃ document, p.exportDocument now = .ok document) ↔
      p.components.length < powerOfTen maxDigits) ∧
    ((∃ sketch, p.exportSketch now = .ok sketch) ↔ ∀ c ∈ p.components, Nameable c) ∧
    ∀ e, p.exportSketch now = .error e → ∃ c ∈ p.components,
      (∃ n, Pin.number n ∈ c.pinList) ∧ ∃ l ∈ c.label, (∀ s, l ≠ .text s) ∧
        e = .labelNotText l.kindName := by
  obtain ⟨hv, hs, ha, hp'⟩ := generate_eq_ok hg
  have short := Json.isShort_of_read hd
  have readable := (Validation.report_eq_ok_iff.mp hv).1
  have fits := Validation.fits_of_report hv hs
  obtain ⟨body, hb⟩ := (exists_steps_iff_exists_body readable (Prompt.leaves_of_spoken
    fun a => Prompt.spoken_of_actions ha)).mp ⟨g.steps, hp'⟩
  have sketch := exportSketch_of_generate hg now
  refine ⟨⟨_, exportSheet_of_generate hg now⟩, ?_, ?_, ?_⟩
  · have record := exportRecord_of_generate hg now
    rw [exists_exportDocument_iff record,
      isShort_exportRecord_iff (isShort_label short hp) hg record]
    exact Iff.rfl
  · rw [sketch]
    constructor
    · rintro ⟨t, ht⟩
      obtain ⟨ls, hls, -⟩ := map_eq_ok_iff.mp (mapError_eq_ok_iff.mp ht)
      exact (PinName.ofSketch_lines fits.known hls).2
    · intro hn
      have named := fun c hc => PinName.nameable_iff.mp (hn c hc)
      obtain ⟨t, ht⟩ :=
        (exists_render_iff_exists_body p.board now.date readable named).mpr ⟨body, hb⟩
      exact ⟨t, mapError_eq_ok_iff.mpr ht⟩
  · intro e he
    rw [sketch] at he
    obtain ⟨f, hf, rfl⟩ := mapError_eq_error_iff.mp he
    obtain ⟨c, hc, hn, l, hl, ht, rfl⟩ := Sketch.render_error readable hb hf
    exact ⟨c, hc, hn, l, hl, ht, rfl⟩

/-- The document of a project with one part of the given pins and label. -/
def labelled (pins : String) (label : Int) : Document :=
  .object [("prompt", .text "blink"), ("components", .list [.object
    [("type", .text "led"), ("pins", .text pins), ("label", .int label)]])]

theorem read_labelled {n : Int} (h : Printable n) (pins : String) :
    Json.read (Json.textOf Json.compact (labelled pins n)) = .ok (labelled pins n) := by
  have record : IsShort (.object [("type", .text "led"), ("pins", .text pins),
      ("label", .int n)]) := by
    refine hasLongNumber_object.mpr ?_
    simp only [List.forall_mem_cons]
    exact ⟨rfl, rfl, hasLongNumber_int.mpr h, List.forall_mem_nil _⟩
  have short : IsShort (labelled pins n) := by
    refine hasLongNumber_object.mpr ?_
    simp only [List.forall_mem_cons]
    exact ⟨rfl, hasLongNumber_list.mpr (List.forall_mem_singleton.mpr record),
      List.forall_mem_nil _⟩
  have regular : Json.Regular Json.maxDepth (labelled pins n) :=
    .object (by decide : ["prompt", "components"].Nodup) (by
      simp only [List.forall_mem_cons, Json.Regular.text, true_and]
      refine ⟨.list (List.forall_mem_singleton.mpr (.object
        (by decide : ["type", "pins", "label"].Nodup) ?_)), List.forall_mem_nil _⟩
      simp [Json.Regular.text, Json.Regular.int])
  have written : Json.write Json.compact (labelled pins n) =
      .ok (Json.textOf Json.compact (labelled pins n)) := by
    rw [Json.write, short]
    rfl
  exact Json.read_of_write rfl regular written

/-- A named pin gets no name, so that the label of its part need not be a text. -/
theorem exports_of_generate_named : ∃ text d p g, Json.read text = .ok d ∧
    ofDocument d .uno = .ok p ∧ p.generate = .ok g ∧ (∃ sheet, p.exportSheet dawn = .ok sheet) ∧
    (∃ document, p.exportDocument dawn = .ok document) ∧
    ∃ sketch, p.exportSketch dawn = .ok sketch := by
  have seven : Printable 7 := Numeral.printable_of_lt (n := 7) (m := 1) (by decide) (by decide)
  have hd := read_labelled seven "A0"
  have hp : ofDocument (labelled "A0" 7) .uno =
      .ok ⟨"blink", .uno, [⟨"1", .known "led", "A0", some (.int 7)⟩]⟩ := rfl
  obtain ⟨g, hg⟩ : ∃ g, generate ⟨"blink", .uno, [⟨"1", .known "led", "A0", some (.int 7)⟩]⟩ =
      .ok g := exists_ok_of_isOk (by decide +kernel)
  obtain ⟨sheet, document, sketch, -⟩ := exports_of_generate hd hp hg dawn
  refine ⟨_, _, _, g, hd, hp, hg, sheet, document.mpr ?_, sketch.mpr ?_⟩
  · exact Numeral.printable_one
  · refine List.forall_mem_singleton.mpr fun hn => ?_
    exact absurd rfl hn

/-- The label of a light with a numbered pin is a number, which is no name for the pin. -/
theorem exportSketch_labelNotText : ∃ text d p g, Json.read text = .ok d ∧
    ofDocument d .uno = .ok p ∧ p.generate = .ok g ∧
    p.exportSketch dawn = .error (.labelNotText "int") := by
  have seven : Printable 7 := Numeral.printable_of_lt (n := 7) (m := 1) (by decide) (by decide)
  obtain ⟨g, hg⟩ : ∃ g, generate ⟨"blink", .uno, [⟨"1", .known "led", "13", some (.int 7)⟩]⟩ =
      .ok g := exists_ok_of_isOk (by decide +kernel)
  refine ⟨_, _, _, g, read_labelled seven "13", rfl, hg, ?_⟩
  rfl

end Project

end BlockSketch
