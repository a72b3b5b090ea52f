import BlockSketch.Project.Export
import BlockSketch.Proofs.Emitters
import BlockSketch.Proofs.PinNames

/-! # Comments of sketches

Names of parts, pins and conditions stand in comments of a sketch. If generation is allowed, the
lines of its text are the emitted ones exactly if no name and no pins hold a line break. Then every
comment ends with its line exactly if no pins, no condition and no name of a part with pins end with
a backslash.
-/

namespace BlockSketch

open Text
open Sketch (Statement Placed)

variable {s t : String} {c : Component} {cs : List Component} {spec : Spec} {b : Board}
  {as : List Action} {day : Date} {ts ls : List String} {l : Int}

/-! ## Ends of lines -/

/-- The text does not end with a backslash. -/
def Finished (s : String) : Prop := s.toList.getLast? ≠ some '\\'

instance : DecidablePred Finished :=
  fun s => inferInstanceAs (Decidable (s.toList.getLast? ≠ some '\\'))

/-- A comment begins in the line. -/
def Remarks (t : String) : Prop := "//".toList <:+: t.toList

/-- If a comment begins in the line, it ends there too. -/
def Enclosed (t : String) : Prop := Remarks t → Finished t

/-- The text holds neither a line break nor a backslash. -/
def Inert (s : String) : Prop := '\n' ∉ s.toList ∧ '\\' ∉ s.toList

instance : DecidablePred Inert :=
  fun s => inferInstanceAs (Decidable ('\n' ∉ s.toList ∧ '\\' ∉ s.toList))

theorem finished_append_iff (hs : Finished s) : Finished (s ++ t) ↔ Finished t := by
  unfold Finished at *
  rw [String.toList_append, List.getLast?_append]
  cases t.toList.getLast? with
  | none => simpa using hs
  | some d => simp

theorem finished_append_of_ne (hn : t ≠ "") (ht : Finished t) : Finished (s ++ t) := by
  obtain ⟨d, hd⟩ := Option.ne_none_iff_exists'.mp
    (mt (List.getLast?_eq_none_iff.trans String.toList_eq_nil_iff).mp hn)
  unfold Finished at *
  rwa [String.toList_append, List.getLast?_append, hd, Option.some_or, ← hd]

theorem enclosed_iff (h : Remarks t) : Enclosed t ↔ Finished t := forall_prop_of_true h

theorem remarks_append (h : Remarks s) : Remarks (s ++ t) := by
  rw [Remarks, String.toList_append]
  exact h.trans (List.prefix_append _ _).isInfix

theorem remarks_append_right (h : Remarks t) : Remarks (s ++ t) := by
  rw [Remarks, String.toList_append]
  exact h.trans (List.suffix_append _ _).isInfix

theorem Inert.append (hs : Inert s) (ht : Inert t) : Inert (s ++ t) := by
  simp only [Inert, String.toList_append, List.mem_append, not_or]
  exact ⟨⟨hs.1, ht.1⟩, hs.2, ht.2⟩

theorem Inert.finished (h : Inert s) : Finished s := fun hl => h.2 (List.mem_of_mem_getLast? hl)

theorem inert_of_isDigit (h : ∀ d ∈ s.toList, d.isDigit = true) : Inert s :=
  ⟨fun hm => absurd (h _ hm) (by decide), fun hm => absurd (h _ hm) (by decide)⟩

theorem inert_toString_int (n : Int) : Inert (toString n) :=
  ⟨fun hm => absurd (isSigned_of_mem_toString hm) (by decide),
    fun hm => absurd (isSigned_of_mem_toString hm) (by decide)⟩

theorem inert_padded (width n : Nat) : Inert (padded width n) := by
  refine inert_of_isDigit fun d hd => ?_
  rw [padded, String.toList_ofList, List.mem_append] at hd
  rcases hd with hd | hd
  · obtain rfl := List.eq_of_mem_replicate hd
    decide
  · exact Nat.isDigit_of_mem_toDigits (by decide) (by decide) hd

/-! ## Lines outside the loop -/

theorem inert_of_mem_header {n : Nat} {pins : Pin.Counts} (h : t ∈ Sketch.header b day n pins) :
    Inert t := by
  have number (n : Nat) : Inert (toString n) := inert_toString_int n
  have date : Inert day.text :=
    ((((inert_padded 4 _).append (by decide)).append (inert_padded 2 _)).append (by decide)).append
      (inert_padded 2 _)
  have name : Inert b.profile.name := by cases b <;> decide
  simp only [Sketch.header, List.mem_cons, List.not_mem_nil, or_false] at h
  rcases h with rfl | rfl | rfl | rfl | rfl | rfl | rfl | rfl | rfl | rfl
  · decide
  · decide
  · exact Inert.append (by decide) name
  · exact Inert.append (by decide) date
  · exact Inert.append (by decide) (number _)
  · exact Inert.append (by decide) (number _)
  · exact Inert.append (by decide) (number _)
  all_goals decide

theorem unbroken_of_mem_nameLines {i : Nat} {ps : List Pin} (h : Sketch.nameLines c i ps = .ok ts)
    (ht : t ∈ ts) : Unbroken t ∧ Finished t := by
  induction ps generalizing i ts with
  | nil =>
    obtain rfl := Except.ok.inj h
    cases ht
  | cons p ps ih =>
    cases p with
    | name s => exact ih h ht
    | number n =>
      simp only [Sketch.nameLines, bind_eq_ok_iff, pure_eq_ok_iff] at h
      obtain ⟨name, hn, rest, hr, rfl⟩ := h
      rcases List.mem_cons.mp ht with rfl | ht
      · obtain ⟨rfl, -⟩ := Sketch.pinName_eq_ok hn
        have stem : Unbroken (Sketch.stem c i) := fun hm =>
          absurd (Sketch.not_isBlank_of_mem_stem hm) (by decide)
        have lead : Unbroken ("#define " ++ (Sketch.stem c i ++ "_PIN") ++ " ") :=
          .around (by decide) (stem.append (by decide)) (by decide)
        have number := inert_toString_int n
        exact ⟨lead.append number.1, (finished_append_iff (finished_append_of_ne (by decide)
          (by decide))).mpr number.finished⟩
      · exact ih hr ht

theorem unbroken_definitions_iff (hs : c.spec? = some spec) (h : Sketch.definitions c = .ok ts) :
    (∀ t ∈ ts, Unbroken t) ↔ Unbroken spec.name ∧ Unbroken c.pins := by
  obtain ⟨names, hn, rfl⟩ := Sketch.definitions_eq_ok hs h
  have first : Unbroken s!"// {spec.name}: {c.pins}" ↔ Unbroken spec.name ∧ Unbroken c.pins := by
    simp only [toString, unbroken_append_iff]
    have lead : Unbroken "// " := by decide
    have middle : Unbroken ": " := by decide
    tauto
  rw [List.forall_mem_cons, first]
  exact and_iff_left fun t ht => (unbroken_of_mem_nameLines hn ht).1

theorem enclosed_definitions_iff (hs : c.spec? = some spec) (h : Sketch.definitions c = .ok ts) :
    (∀ t ∈ ts, Enclosed t) ↔ Finished c.pins := by
  obtain ⟨names, hn, rfl⟩ := Sketch.definitions_eq_ok hs h
  have first : Enclosed s!"// {spec.name}: {c.pins}" ↔ Finished c.pins := by
    have remark : Remarks s!"// {spec.name}: " :=
      remarks_append (remarks_append ⟨[], [' '], rfl⟩)
    exact (enclosed_iff (remarks_append remark)).trans
      (finished_append_iff (finished_append_of_ne (by decide) (by decide)))
  rw [List.forall_mem_cons, first]
  exact and_iff_left fun t ht _ => (unbroken_of_mem_nameLines hn ht).2

theorem inert_shown {p : Pin} (h : Validation.OnBoard b p) : Inert p.shown := by
  cases p with
  | number n => exact inert_toString_int n
  | name s =>
    have names : ∀ s ∈ b.profile.analogPins, Inert s := by cases b <;> decide
    exact names s h

theorem unbroken_modeLines_iff (hs : c.spec? = some spec)
    (hp : ∀ p ∈ c.pinList, Validation.OnBoard b p) (h : Sketch.modeLines c = .ok ts) :
    (∀ t ∈ ts, Unbroken t) ↔ (c.pinList ≠ [] → Unbroken spec.name) := by
  obtain rfl := Sketch.modeLines_eq_ok hs h
  have each : ∀ p ∈ c.pinList,
      (Unbroken s!"{Sketch.indent}pinMode({p.shown}, {c.pinMode.text}); // {spec.name}" ↔
        Unbroken spec.name) := by
    intro p hm
    simp only [toString, unbroken_append_iff]
    have mode : Unbroken c.pinMode.text := by cases c.pinMode <;> decide
    have pin : Unbroken p.shown := (inert_shown (hp p hm)).1
    exact and_iff_right ⟨⟨⟨⟨⟨by decide, by decide⟩, pin⟩, by decide⟩, mode⟩, by decide⟩
  rw [List.forall_mem_map]
  exact (forall₂_congr each).trans ⟨fun h hn => (List.exists_mem_of_ne_nil _ hn).elim h,
    fun h p hm => h (List.ne_nil_of_mem hm)⟩

theorem enclosed_modeLines_iff (hs : c.spec? = some spec) (h : Sketch.modeLines c = .ok ts) :
    (∀ t ∈ ts, Enclosed t) ↔ (c.pinList ≠ [] → Finished spec.name) := by
  obtain rfl := Sketch.modeLines_eq_ok hs h
  have each (p : Pin) :
      Enclosed s!"{Sketch.indent}pinMode({p.shown}, {c.pinMode.text}); // {spec.name}" ↔
        Finished spec.name := by
    have remark : Remarks s!"{Sketch.indent}pinMode({p.shown}, {c.pinMode.text}); // " :=
      remarks_append_right ⟨[')', ';', ' '], [' '], rfl⟩
    exact (enclosed_iff (remarks_append remark)).trans
      (finished_append_iff (finished_append_of_ne (by decide) (by decide)))
  simp only [List.forall_mem_map, each]
  exact ⟨fun h hn => (List.exists_mem_of_ne_nil _ hn).elim h,
    fun h p hm => h (List.ne_nil_of_mem hm)⟩

/-! ## Lines of the loop -/

/-- No condition that the statement notes ends with a backslash. -/
def EndsNote : Statement → Prop
  | .conditionNote c => Finished (c.getD missingValue)
  | _ => True

/-- The condition of the action, if it has one, does not end with a backslash. -/
def Action.Concluded (a : Action) : Prop :=
  a.kind = .conditional → Finished (a.condition.getD missingValue)

theorem finished_pinText {p : Option Int} (h : pinText p = .ok t) : Finished t :=
  fun hl => not_mem_pinText h (by decide) (List.mem_of_mem_getLast? hl)

theorem enclosed_text_iff {st : Statement} (h : Placed.text ⟨l, st⟩ = .ok t) :
    Enclosed t ↔ EndsNote st := by
  obtain ⟨u, hu, ht⟩ := bind_eq_ok_iff.mp h
  obtain rfl := pure_eq_ok_iff.mp ht
  have indent : Finished (Step.repeated Sketch.indent l) := fun hl =>
    absurd (eq_space_of_mem_indent (List.mem_of_mem_getLast? hl)) (by decide)
  have closed (hf : Finished u) : Enclosed (Step.repeated Sketch.indent l ++ u) :=
    fun _ => (finished_append_iff indent).mpr hf
  cases st with
  | conditionNote c =>
    obtain rfl := Except.ok.inj hu
    have remark : Remarks s!"// if {c.getD missingValue}" :=
      remarks_append ⟨[], " if ".toList, rfl⟩
    rw [enclosed_iff (remarks_append_right remark), finished_append_iff indent]
    exact finished_append_iff (by decide)
  | echoNote p =>
    simp only [Statement.text, bind_eq_ok_iff, pure_eq_ok_iff] at hu
    obtain ⟨q, hq, rfl⟩ := hu
    exact iff_of_true (closed ((finished_append_iff (by decide)).mpr (finished_pinText hq))) trivial
  | closeLoop =>
    obtain rfl := Except.ok.inj hu
    exact iff_of_true (closed (by decide)) trivial
  | servoWrite p v =>
    simp only [Statement.text, bind_eq_ok_iff, pure_eq_ok_iff] at hu
    obtain ⟨q, -, w, -, rfl⟩ := hu
    exact iff_of_true (closed (finished_append_of_ne (by decide) (by decide))) trivial
  | _ =>
    -- The other statements end with a fixed text after their only value.
    simp only [Statement.text, bind_eq_ok_iff, pure_eq_ok_iff] at hu
    obtain ⟨q, -, rfl⟩ := hu
    exact iff_of_true (closed (finished_append_of_ne (by decide) (by decide))) trivial

theorem endsNote_statements_iff (a : Action) :
    (∀ st ∈ Sketch.statements a, EndsNote st) ↔ a.Concluded := by
  have setting : ∀ st ∈ Sketch.setting a, EndsNote st := by
    unfold Sketch.setting
    repeat' split
    all_goals simp [EndsNote]
  unfold Sketch.statements Action.Concluded
  cases a.kind with
  | set => exact iff_of_true setting nofun
  | conditional => simp [EndsNote]
  | read => by_cases hu : a.component = some "ultrasonic" <;> simp [hu, EndsNote]
  | delay | print | repetition => simp [EndsNote]

theorem unbroken_of_mem_body (ha : Leaves Action.Faithful as)
    (h : (Sketch.placeAll l as).mapM Placed.text = .ok ts) (ht : t ∈ ts) : Unbroken t := by
  have stays : ∀ q ∈ Sketch.placeAll l as, StaysOnLine q.statement :=
    (forall_mem_placeAll_iff (fun _ => trivial) trivial).mpr
      (ha.imp fun _ hf _ => hf.staysOnLine)
  obtain ⟨q, hq, hx⟩ := exists_of_mem_mapM h ht
  exact unbroken_placed (stays q hq) hx

theorem enclosed_body_iff (h : (Sketch.placeAll l as).mapM Placed.text = .ok ts) :
    (∀ t ∈ ts, Enclosed t) ↔ Leaves Action.Concluded as := by
  have lines : (∀ t ∈ ts, Enclosed t) ↔ ∀ q ∈ Sketch.placeAll l as, EndsNote q.statement :=
    forall_mem_iff_of_forall₂ (mapM_eq_ok_iff.mp h) fun _ _ _ => enclosed_text_iff
  rw [lines, forall_mem_placeAll_iff (fun _ => trivial) trivial]
  exact ⟨fun h => h.imp fun a => (endsNote_statements_iff a).mp,
    fun h => h.imp fun a => (endsNote_statements_iff a).mpr⟩

/-! ## Whole sketches -/

namespace Component

/-- Neither the name of the part nor its pins hold a line break. -/
def OnOneLine (c : Component) : Prop := ∀ spec ∈ c.spec?, Unbroken spec.name ∧ Unbroken c.pins

/-- Neither the pins of the part nor, if it has any, its name end with a backslash. -/
def EndsNotes (c : Component) : Prop :=
  ∀ spec ∈ c.spec?, Finished c.pins ∧ (c.pinList ≠ [] → Finished spec.name)

end Component

/-- The lines of every sketch, apart from its header. -/
def fixedLines : List String :=
  ["", "void setup() \x7b", s!"{Sketch.indent}// Initialize serial communication",
    s!"{Sketch.indent}Serial.begin(9600);", "\x7d", "void loop() \x7b"]

/-- What holds for the header and for the lines of every sketch is decided by the others. -/
theorem forall_mem_lines_iff_of_fixed {Q : String → Prop}
    (hh : ∀ n pins, ∀ t ∈ Sketch.header b day n pins, Q t) (hf : ∀ t ∈ fixedLines, Q t)
    (h : Sketch.lines as cs b day = .ok ls) : ∃ names modes body,
      List.Forall₂ (fun c ts => Sketch.definitions c = .ok ts) cs names ∧
      List.Forall₂ (fun c ts => Sketch.modeLines c = .ok ts) cs modes ∧
      (Sketch.placeAll 1 as).mapM Placed.text = .ok body ∧
      ((∀ t ∈ ls, Q t) ↔ (∀ t ∈ names.flatten, Q t) ∧ (∀ t ∈ modes.flatten, Q t) ∧
        ∀ t ∈ body, Q t) := by
  obtain ⟨pins, names, modes, body, hn, hm, hb, rfl⟩ := Effect.parts_of_lines h
  have fixed {ts : List String} (hs : ts ⊆ fixedLines) : ∀ t ∈ ts, Q t := fun t ht => hf t (hs ht)
  refine ⟨names, modes, body, hn, hm, hb, ?_⟩
  simp only [List.forall_mem_append (p := Q)]
  have start : ∀ t ∈ ["", "void setup() \x7b", s!"{Sketch.indent}// Initialize serial communication",
      s!"{Sketch.indent}Serial.begin(9600);", ""], Q t := fixed (by decide)
  have middle : ∀ t ∈ ["\x7d", "", "void loop() \x7b"], Q t := fixed (by decide)
  have last : ∀ t ∈ ["\x7d"], Q t := fixed (by decide)
  rw [and_iff_right (hh _ _), and_iff_left start, and_iff_left middle, and_iff_left last, and_assoc]

/-- Only lines that hold something else than numbers and the name of the board matter. -/
theorem forall_mem_lines_iff {Q : String → Prop} (hi : ∀ t, Inert t → Q t)
    (h : Sketch.lines as cs b day = .ok ls) : ∃ names modes body,
      List.Forall₂ (fun c ts => Sketch.definitions c = .ok ts) cs names ∧
      List.Forall₂ (fun c ts => Sketch.modeLines c = .ok ts) cs modes ∧
      (Sketch.placeAll 1 as).mapM Placed.text = .ok body ∧
      ((∀ t ∈ ls, Q t) ↔ (∀ t ∈ names.flatten, Q t) ∧ (∀ t ∈ modes.flatten, Q t) ∧
        ∀ t ∈ body, Q t) :=
  have inert : ∀ t ∈ fixedLines, Inert t := by decide
  forall_mem_lines_iff_of_fixed (fun _ _ t ht => hi t (inert_of_mem_header ht))
    (fun t ht => hi t (inert t ht)) h

theorem unbroken_lines_iff (hf : Validation.Fits b cs) (ha : Leaves Action.Faithful as)
    (h : Sketch.lines as cs b day = .ok ls) :
    (∀ t ∈ ls, Unbroken t) ↔ ∀ c ∈ cs, c.OnOneLine := by
  obtain ⟨names, modes, body, hn, hm, hb, he⟩ :=
    forall_mem_lines_iff (Q := Unbroken) (fun _ ht => ht.1) h
  have named : (∀ t ∈ names.flatten, Unbroken t) ↔ ∀ c ∈ cs, c.OnOneLine := by
    refine forall_mem_flatten_iff hn fun c hc ts ht => ?_
    obtain ⟨spec, hs⟩ := Option.isSome_iff_exists.mp (hf.known c hc)
    simpa [Component.OnOneLine, hs] using unbroken_definitions_iff hs ht
  have moded : (∀ t ∈ modes.flatten, Unbroken t) ↔
      ∀ c ∈ cs, ∀ spec ∈ c.spec?, c.pinList ≠ [] → Unbroken spec.name := by
    refine forall_mem_flatten_iff hm fun c hc ts ht => ?_
    obtain ⟨spec, hs⟩ := Option.isSome_iff_exists.mp (hf.known c hc)
    simpa [hs] using unbroken_modeLines_iff hs (hf.available c hc) ht
  rw [he, named, moded]
  -- The definitions show all names and pins already.
  exact and_iff_left_of_imp fun h => ⟨fun c hc spec hs _ => (h c hc spec hs).1,
    fun t => unbroken_of_mem_body ha hb⟩

theorem enclosed_lines_iff (hk : ∀ c ∈ cs, c.spec?.isSome)
    (h : Sketch.lines as cs b day = .ok ls) :
    (∀ t ∈ ls, Enclosed t) ↔ (∀ c ∈ cs, c.EndsNotes) ∧ Leaves Action.Concluded as := by
  obtain ⟨names, modes, body, hn, hm, hb, he⟩ :=
    forall_mem_lines_iff (Q := Enclosed) (fun _ ht _ => ht.finished) h
  have named : (∀ t ∈ names.flatten, Enclosed t) ↔ ∀ c ∈ cs, Finished c.pins := by
    refine forall_mem_flatten_iff hn fun c hc ts ht => ?_
    obtain ⟨spec, hs⟩ := Option.isSome_iff_exists.mp (hk c hc)
    exact enclosed_definitions_iff hs ht
  have moded : (∀ t ∈ modes.flatten, Enclosed t) ↔
      ∀ c ∈ cs, ∀ spec ∈ c.spec?, c.pinList ≠ [] → Finished spec.name := by
    refine forall_mem_flatten_iff hm fun c hc ts ht => ?_
    obtain ⟨spec, hs⟩ := Option.isSome_iff_exists.mp (hk c hc)
    simpa [hs] using enclosed_modeLines_iff hs ht
  have both : (∀ c ∈ cs, c.EndsNotes) ↔ (∀ c ∈ cs, Finished c.pins) ∧
      ∀ c ∈ cs, ∀ spec ∈ c.spec?, c.pinList ≠ [] → Finished spec.name := by
    rw [← forall₂_and]
    refine forall₂_congr fun c hc => ?_
    obtain ⟨spec, hs⟩ := Option.isSome_iff_exists.mp (hk c hc)
    simp [Component.EndsNotes, hs]
  rw [he, named, moded, enclosed_body_iff hb, both, and_assoc]

namespace Project

open PinSetup

variable {p : Project} {now : Instant} {text : String}

theorem status_of_gate {r : Report} (h : gate r = .ok ()) : r.status ≠ .error := by
  unfold gate at h
  split at h
  · next hs => simpa [Report.allowsGeneration] using hs
  · cases h

theorem exportSketch_eq_ok (h : p.exportSketch now = .ok text) : ∃ r as,
    Validation.report p.board p.components = .ok r ∧ r.status ≠ .error ∧
      Prompt.actions p.prompt = .ok as ∧
      Sketch.render as p.components p.board now.date = .ok text := by
  obtain ⟨r, hr, h⟩ := bind_eq_ok_iff.mp h
  obtain ⟨⟨⟩, hg, h⟩ := bind_eq_ok_iff.mp h
  obtain ⟨as, ha, h⟩ := bind_eq_ok_iff.mp h
  exact ⟨r, as, mapError_eq_ok_iff.mp hr, status_of_gate hg, mapError_eq_ok_iff.mp ha,
    mapError_eq_ok_iff.mp h⟩

theorem exportSketch_of_allowed {report : Report} (hr : p.report = .ok report)
    (ha : report.allowsGeneration = true) : p.exportSketch now = p.actions >>= fun actions =>
      liftM (Sketch.render actions p.components p.board now.date) := by
  have hg : gate report = .ok () := by rw [gate, ha]; rfl
  rw [exportSketch, hr]
  simp only [bind, Except.bind, hg]

/-- The lines of an exported sketch are the emitted ones exactly if no name of a part and no pins
hold a line break. If so, every comment ends with its line exactly if no pins, no condition and no
name of a part with pins end with a backslash. -/
theorem exportSketch_comments (h : p.exportSketch now = .ok text) : ∃ as ls,
    p.actions = .ok as ∧ Sketch.lines as p.components p.board now.date = .ok ls ∧
      (textLines text = ls ++ [""] ↔ ∀ c ∈ p.components, c.OnOneLine) ∧
      (textLines text = ls ++ [""] → ((∀ t ∈ textLines text, Enclosed t) ↔
        (∀ c ∈ p.components, c.EndsNotes) ∧ Leaves Action.Concluded as)) := by
  obtain ⟨r, as, hr, hs, ha, ht⟩ := exportSketch_eq_ok h
  have fits := Validation.fits_of_report hr hs
  have faithful : Leaves Action.Faithful as :=
    Prompt.leaves_of_spoken fun a hm => Prompt.spoken_of_actions ha hm
  obtain ⟨ls, hl, rfl⟩ := map_eq_ok_iff.mp ht
  refine ⟨as, ls, mapError_eq_ok_iff.mpr ha, hl,
    (textLines_eq_iff (ne_nil_of_lines hl)).trans (unbroken_lines_iff fits faithful hl),
    fun hu => ?_⟩
  rw [hu, List.forall_mem_append, enclosed_lines_iff fits.known hl]
  exact and_iff_left fun t ht => by
    obtain rfl := List.mem_singleton.mp ht
    exact fun _ => by decide

/-- The start of a day. -/
def dawn : Instant := ⟨⟨2024, 5, 1⟩, 0, 0, 0, 0, none⟩

/-- Turning on the light on pin 4. -/
def lightOn : Action := {
  kind := .set, component := some "led", pin := some 4, value := some (.text "HIGH") }

/-- A label and a printed text do not leave their lines. -/
theorem exportSketch_comments_label :
    let p : Project := ⟨"If dark; print \"a // b\\\"; turn on led on pin 4", .uno,
      [⟨"1", .known "led", "4", some (.text "main\nled\\")⟩]⟩
    ∃ text as ls, p.exportSketch dawn = .ok text ∧ p.actions = .ok as ∧
      Sketch.lines as p.components p.board dawn.date = .ok ls ∧ textLines text = ls ++ [""] ∧
      ∀ t ∈ textLines text, Enclosed t := by
  intro p
  let check : Action := { kind := .conditional, condition := some "dark" }
  let print : Action := {
    kind := .print, component := some "lcd", value := some (.text "a // b\\") }
  have hp : Prompt.actions "If dark; print \"a // b\\\"; turn on led on pin 4" =
    .ok [check, print, lightOn] := rfl
  obtain ⟨text, h⟩ : ∃ text, p.exportSketch dawn = .ok text :=
    exists_ok_of_isOk (by decide +kernel)
  obtain ⟨as, ls, ha, hl, broken, enclosed⟩ := exportSketch_comments h
  have ha' : Prompt.actions p.prompt = .ok as := mapError_eq_ok_iff.mp ha
  obtain rfl := Except.ok.inj (hp.symm.trans ha')
  have one : ∀ c ∈ p.components, c.OnOneLine := by
    rintro c (_ | ⟨_, ⟨⟩⟩) spec ⟨⟩
    decide
  have notes : ∀ c ∈ p.components, c.EndsNotes := by
    rintro c (_ | ⟨_, ⟨⟩⟩) spec ⟨⟩
    exact ⟨by decide, fun _ => by decide⟩
  have concluded : Leaves Action.Concluded [check, print, lightOn] :=
    .once nofun (fun _ => by decide) (.once nofun nofun (.once nofun nofun .nil))
  have whole := broken.mpr one
  exact ⟨text, _, ls, h, ha, hl, whole, (enclosed whole).mpr ⟨notes, concluded⟩⟩

theorem exportSketch_of_lines (h : (p.exportSketch now).isOk)
    (ha : Prompt.actions p.prompt = .ok as)
    (hl : Sketch.lines as p.components p.board now.date = .ok ls) :
    p.exportSketch now = .ok ("\n".intercalate ls ++ "\n") := by
  obtain ⟨text, h⟩ := exists_ok_of_isOk h
  obtain ⟨r, as', -, -, ha', ht⟩ := exportSketch_eq_ok h
  obtain ⟨ls', hl', rfl⟩ := map_eq_ok_iff.mp ht
  obtain rfl := Except.ok.inj (ha.symm.trans ha')
  obtain rfl := Except.ok.inj (hl.symm.trans hl')
  exact h

/-- A project with one part on an Uno. -/
def single (prompt : String) (kind : PartKind) (pins : String) : Project :=
  ⟨prompt, .uno, [⟨"1", kind, pins, none⟩]⟩

/-- A part whose name holds a line break. -/
def relay : PartKind := .custom ⟨"Relay\nint x = 0;", 1, [.digital], [], "Custom"⟩

/-- A name of a part with a line break puts a line into the sketch. Pins or a condition with a
backslash at their end take the next line into their comment, here a definition and the brace that
closes the loop. -/
theorem exportSketch_escapes :
    (∃ text ls, (single "" relay "4").exportSketch dawn = .ok text ∧
      (single "" relay "4").actions = .ok [] ∧
      Sketch.lines [] (single "" relay "4").components .uno dawn.date = .ok ls ∧
      textLines text ≠ ls ++ [""] ∧ "int x = 0;" ∈ textLines text) ∧
    (∃ text, (single "" (.known "led") "4\\").exportSketch dawn = .ok text ∧
      "// LED: 4\\" ∈ textLines text ∧ ¬ Enclosed "// LED: 4\\") ∧
    ∃ text, (single "if dark \\" (.known "led") "4").exportSketch dawn = .ok text ∧
      "  // if dark \\" ∈ textLines text ∧ ¬ Enclosed "  // if dark \\" := by
  refine ⟨?_, ?_, ?_⟩
  · obtain ⟨ls, hl, hm⟩ : ∃ ls, Sketch.lines [] (single "" relay "4").components .uno dawn.date =
        .ok ls ∧ "  pinMode(4, OUTPUT); // Relay\nint x = 0;" ∈ ls := ⟨_, rfl, by decide⟩
    have ht := exportSketch_of_lines (p := single "" relay "4") (by decide +kernel) rfl hl
    have hn := ne_nil_of_lines hl
    exact ⟨_, ls, ht, rfl, hl, fun he => absurd ((textLines_eq_iff hn).mp he _ hm) (by decide),
      mem_textLines hn hm (by decide)⟩
  · obtain ⟨ls, hl, hm⟩ : ∃ ls, Sketch.lines [] (single "" (.known "led") "4\\").components .uno
        dawn.date = .ok ls ∧ "// LED: 4\\" ∈ ls := ⟨_, rfl, by decide⟩
    have ht := exportSketch_of_lines (p := single "" (.known "led") "4\\")
      (by decide +kernel) rfl hl
    exact ⟨_, ht, mem_textLines (ne_nil_of_lines hl) hm (by decide),
      fun he => absurd (he ⟨[], _, rfl⟩) (by decide)⟩
  · obtain ⟨ls, hl, hm⟩ : ∃ ls, Sketch.lines [{ kind := .conditional, condition := some "dark \\" }]
        (single "if dark \\" (.known "led") "4").components .uno dawn.date = .ok ls ∧
        "  // if dark \\" ∈ ls := ⟨_, rfl, by decide⟩
    have ht := exportSketch_of_lines (p := single "if dark \\" (.known "led") "4")
      (by decide +kernel) rfl hl
    exact ⟨_, ht, mem_textLines (ne_nil_of_lines hl) hm (by decide),
      fun he => absurd (he ⟨[' ', ' '], _, rfl⟩) (by decide)⟩

end Project

end BlockSketch
