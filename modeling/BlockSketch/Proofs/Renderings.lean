import BlockSketch.Proofs.Beginnings
import BlockSketch.Proofs.Captures

/-! # Rendered steps

The sentence of every step goes on in one line and begins with a letter, if no name of a part breaks
a line. So the lines of a rendered program are those of its steps, the spaces in front of a line tell
the level, and what follows them is the sentence.
-/

namespace BlockSketch

variable {i : Instruction} {t indent : String} {s u : Step} {ss : List Step} {as : List Action}
  {c : Component} {cs : List Component} {spec : Spec} {p q : Project} {g : Project.Generated}

/-! ## Lines of steps -/

theorem Instruction.head?_text (h : i.text = .ok t) : t.toList.head? = some 'A' := by
  cases i with
  | program | setup | loop =>
    obtain rfl := Except.ok.inj h
    rfl
  | pinMode part pin mode =>
    obtain rfl := Except.ok.inj h
    iterate 5 apply head?_append_of_head?
    rfl
  | conditional c =>
    obtain rfl := Except.ok.inj h
    iterate 2 apply head?_append_of_head?
    rfl
  | setDigitalPin p v =>
    simp only [text, bind_eq_ok_iff, pure_eq_ok_iff] at h
    obtain ⟨q, -, w, -, rfl⟩ := h
    iterate 3 apply head?_append_of_head?
    rfl
  | servoWrite p v =>
    simp only [text, bind_eq_ok_iff, pure_eq_ok_iff] at h
    obtain ⟨q, -, w, -, rfl⟩ := h
    iterate 4 apply head?_append_of_head?
    rfl
  | ultrasonicRead p | digitalRead p =>
    simp only [text, bind_eq_ok_iff, pure_eq_ok_iff] at h
    obtain ⟨q, -, rfl⟩ := h
    apply head?_append_of_head?
    rfl
  | delay n | lcdPrint v | repetition n =>
    simp only [text, bind_eq_ok_iff, pure_eq_ok_iff] at h
    obtain ⟨q, -, rfl⟩ := h
    iterate 2 apply head?_append_of_head?
    rfl

theorem Step.head?_text {x : Line} (h : x.step = .ok s) : s.text.toList.head? = some 'A' := by
  obtain ⟨t, ht, hs⟩ := bind_eq_ok_iff.mp h
  obtain rfl := pure_eq_ok_iff.mp hs
  exact Instruction.head?_text ht

/-- If the part brings its own name, the name breaks no line. -/
def Component.NamedOnOneLine (c : Component) : Prop :=
  ∀ part, c.kind = .custom part → Unbroken part.name

theorem Component.unbroken_name (hc : c.NamedOnOneLine) (h : c.spec? = some spec) :
    Unbroken spec.name := by
  have known : ∀ entry ∈ catalogue, Unbroken entry.2.name := by decide
  unfold Component.spec? at h
  split at h
  · next kind _ =>
    obtain ⟨before, after, he, -⟩ := List.lookup_eq_some_iff.mp h
    exact known (kind, spec) (by rw [he]; simp)
  · next part hk =>
    obtain rfl := Option.some.inj h
    exact hc part hk

theorem Effect.SetsPin.unbroken_words {b : Board} {x : Line} (hc : ∀ c ∈ cs, c.NamedOnOneLine)
    (hf : Validation.Fits b cs) (h : SetsPin cs x) : ∀ w ∈ x.instruction.words, Unbroken w := by
  obtain ⟨c, hm, spec, ps, pin, hs, hr, hp, rfl⟩ := h
  have available : Validation.OnBoard b pin := by
    rw [← Component.pinList_of_ok hr] at hp
    exact hf.available c hm pin hp
  have mode : Unbroken c.pinMode.text := by cases c.pinMode <;> decide
  simp only [Instruction.words, List.forall_mem_cons, List.not_mem_nil, false_implies, implies_true,
    and_true]
  exact ⟨Component.unbroken_name (hc c hm) hs, (inert_shown available).1, mode⟩

/-- The step stands on a line of its own: its sentence is one line that begins with no space. -/
structure Step.OnOneLine (s : Step) : Prop where
  level_nonneg : 0 ≤ s.level
  unbroken : Unbroken s.text
  begins : s.text.toList.head? = some 'A'

theorem Step.onOneLine_of_mem_steps {b : Board} {prompt : String}
    (hc : ∀ c ∈ cs, c.NamedOnOneLine) (hf : Validation.Fits b cs)
    (ha : ∀ a ∈ as, Prompt.Spoken (Prompt.spoken prompt) a) (h : Program.steps as cs = .ok ss)
    (hs : s ∈ ss) : s.OnOneLine := by
  obtain ⟨x, hx, line⟩ := Effect.line_of_mem_steps h hs
  have ordinary (c : Char) (hc : Ordinary c) : c ≠ '\n' := by
    rintro rfl
    exact absurd hc (by decide)
  refine ⟨(Prompt.level_of_mem_steps ha h hs).1, ?_, Step.head?_text hx⟩
  rw [unbroken_iff, throughout_step_iff ordinary hx]
  intro w hw
  apply unbroken_iff.mp
  rcases line with frame | pin | action
  · have fixed : ∀ x ∈ ([⟨0, .program⟩, ⟨0, .setup⟩, ⟨0, .loop⟩] : List Line),
        x.instruction.words = [] := by
      decide
    rw [fixed x frame] at hw
    cases hw
  · exact pin.unbroken_words hc hf w hw
  · obtain ⟨u, hu, heard⟩ := Prompt.Spoken.heard_words ha action w hw
    exact unbroken_iff.mpr ((heard.separate hu).mono fun _ => And.right)

/-! ## Reading rendered steps -/

/-- What is seen of a step: its level and its sentence. -/
def Step.entry (s : Step) : Int × String := (s.level, s.text)

/-- What a line tells of its step; every level takes as many spaces as the width. -/
def Step.readEntry (width : Nat) (t : String) : Int × String :=
  ((spaces t.toList / width : Nat), String.ofList (unindented t.toList))

/-- The text indents by one space or more. -/
structure Indents (indent : String) : Prop where
  ne_empty : indent ≠ ""
  eq_space : ∀ c ∈ indent.toList, c = ' '

theorem Indents.length_pos (hi : Indents indent) : 0 < indent.length :=
  Nat.pos_of_ne_zero fun h => hi.ne_empty (String.length_eq_zero_iff.mp h)

/-- The line of a step. -/
def Step.rendered (indent : String) (s : Step) : String := repeated indent s.level ++ s.text

namespace Step.OnOneLine

theorem unbroken_rendered (h : s.OnOneLine) (hi : Indents indent) :
    Unbroken (s.rendered indent) := by
  apply Unbroken.append _ h.unbroken
  intro hm
  exact absurd (hi.eq_space _ (mem_of_mem_repeated hm)) (by decide)

/-- The spaces in front of a line are those of its level, and then comes the sentence. -/
theorem spaces_rendered (h : s.OnOneLine) (hi : Indents indent) :
    spaces (s.rendered indent).toList = indent.length * s.level.toNat ∧
      unindented (s.rendered indent).toList = s.text.toList := by
  have lead : ∀ c ∈ (repeated indent s.level).toList, (c == ' ') = true :=
    fun c hc => beq_iff_eq.mpr (hi.eq_space c (mem_of_mem_repeated hc))
  have first : ∀ c ∈ s.text.toList.head?, (c == ' ') = false := by
    intro c hc
    obtain rfl := Option.some.inj (h.begins.symm.trans hc)
    decide
  obtain ⟨run, left⟩ := run_append lead first
  rw [rendered, spaces, unindented, String.toList_append, run, left, length_repeated,
    String.length_toList]
  exact ⟨rfl, rfl⟩

theorem readEntry_rendered (h : s.OnOneLine) (hi : Indents indent) :
    readEntry indent.length (s.rendered indent) = s.entry := by
  obtain ⟨count, left⟩ := h.spaces_rendered hi
  rw [readEntry, entry, count, left, Nat.mul_div_cancel_left _ hi.length_pos,
    Int.toNat_of_nonneg h.level_nonneg, String.ofList_toList]

end Step.OnOneLine

/-- The lines of rendered steps are those of the single steps. -/
theorem Step.textLines_render (hn : ss ≠ []) (h : ∀ s ∈ ss, s.OnOneLine) (hi : Indents indent) :
    PinSetup.textLines (Step.render indent ss) = ss.map (Step.rendered indent) := by
  have lines : ∀ t ∈ ss.map (Step.rendered indent), Unbroken t :=
    List.forall_mem_map.mpr fun s hs => (h s hs).unbroken_rendered hi
  have pieces := Effect.pieces_intercalate_of_unbroken (mt List.map_eq_nil_iff.mp hn) lines
  exact (congrArg (List.map String.ofList) pieces).trans (by simp)

theorem Step.readback (hn : ss ≠ []) (h : ∀ s ∈ ss, s.OnOneLine) (hi : Indents indent) :
    (PinSetup.textLines (Step.render indent ss)).map (Step.readEntry indent.length) =
      ss.map Step.entry := by
  rw [Step.textLines_render hn h hi, List.map_map]
  exact List.map_congr_left fun s hs => (h s hs).readEntry_rendered hi

namespace Project

open PinSetup

theorem generate_eq_ok (h : p.generate = .ok g) :
    Validation.report p.board p.components = .ok g.report ∧ g.report.status ≠ .error ∧
      Prompt.actions p.prompt = .ok g.actions ∧
      Program.steps g.actions p.components = .ok g.steps := by
  dsimp only [generate] at h
  split at h
  · cases h
  · obtain ⟨r, hr, h⟩ := bind_eq_ok_iff.mp h
    obtain ⟨⟨⟩, hg, h⟩ := bind_eq_ok_iff.mp h
    obtain ⟨as, ha, h⟩ := bind_eq_ok_iff.mp h
    obtain ⟨ss, hs, h⟩ := bind_eq_ok_iff.mp h
    obtain rfl := pure_eq_ok_iff.mp h
    exact ⟨mapError_eq_ok_iff.mp hr, status_of_gate hg, mapError_eq_ok_iff.mp ha,
      mapError_eq_ok_iff.mp hs⟩

theorem onOneLine_of_generate (hc : ∀ c ∈ p.components, c.NamedOnOneLine)
    (h : p.generate = .ok g) : g.steps ≠ [] ∧ ∀ s ∈ g.steps, s.OnOneLine := by
  obtain ⟨hr, hs, ha, hp⟩ := generate_eq_ok h
  constructor
  · obtain ⟨ls, -, hm⟩ := Effect.steps_eq_ok hp
    have counted := (mapM_eq_ok_iff.mp hm).length_eq
    rintro he
    rw [he] at counted
    simp at counted
  · exact fun s => Step.onOneLine_of_mem_steps hc (Validation.fits_of_report hr hs)
      (fun a => Prompt.spoken_of_actions ha) hp

/-- The lines of a rendered program are those of its steps: the spaces in front of a line are as many
for each level as the indentation has, and what follows them is the sentence. So programs that are
rendered alike have the same sentences on the same levels. -/
theorem readback_of_generate (hc : ∀ c ∈ p.components, c.NamedOnOneLine) (h : p.generate = .ok g)
    (hi : Indents indent) :
    (textLines (Step.render indent g.steps)).map (Step.readEntry indent.length) =
        g.steps.map Step.entry ∧
      (∀ t ∈ textLines (Step.render indent g.steps), indent.length ∣ spaces t.toList) ∧
      ∀ q g', (∀ c ∈ q.components, c.NamedOnOneLine) → generate q = .ok g' →
        Step.render indent g'.steps = Step.render indent g.steps →
        g'.steps.map Step.entry = g.steps.map Step.entry := by
  obtain ⟨hn, lines⟩ := onOneLine_of_generate hc h
  have read := Step.readback hn lines hi
  refine ⟨read, ?_, ?_⟩
  · rw [Step.textLines_render hn lines hi, List.forall_mem_map]
    intro s hs
    rw [((lines s hs).spaces_rendered hi).1]
    exact Nat.dvd_mul_right _ _
  · intro q g' hq h' he
    obtain ⟨hn', lines'⟩ := onOneLine_of_generate hq h'
    rw [← Step.readback hn' lines' hi, he, read]

/-- A relay on one pin, a light on another, a printed text and a check. -/
def dim : Project := ⟨"Print ' a'; if dark; turn on led", .uno,
  [⟨"1", .custom ⟨"Relay (5 V)", 1, [.digital], [], "Custom"⟩, "A0", none⟩,
    ⟨"2", .known "led", "4", some (.text "lamp")⟩]⟩

/-- The same in other words, on another board. -/
def dimmer : Project := ⟨"PRINT \" a\". If dark, Turn on LED!", .mega,
  [⟨"a", .custom ⟨"Relay (5 V)", 1, [], ["Tone"], "Other"⟩, " in: A0", none⟩,
    ⟨"b", .known "led", "+4", none⟩]⟩

theorem readback_of_generate_dim : ∃ g g', dim.generate = .ok g ∧ dimmer.generate = .ok g' ∧
    (textLines (Step.render "   " g.steps)).map (Step.readEntry 3) = g.steps.map Step.entry ∧
    (∀ t ∈ textLines (Step.render "   " g.steps), 3 ∣ spaces t.toList) ∧
    Step.render "   " g'.steps = Step.render "   " g.steps ∧
    g'.steps.map Step.entry = g.steps.map Step.entry := by
  obtain ⟨g, hg⟩ := exists_ok_of_isOk (x := dim.generate) (by decide +kernel)
  obtain ⟨g', hg'⟩ := exists_ok_of_isOk (x := dimmer.generate) (by decide +kernel)
  have named : ∀ c ∈ dim.components ++ dimmer.components, c.NamedOnOneLine := by
    rintro c (_ | ⟨_, _ | ⟨_, _ | ⟨_, _ | ⟨_, ⟨⟩⟩⟩⟩⟩) part ⟨⟩
    all_goals decide
  have same : dim.generate.toOption.map Generated.steps =
      dimmer.generate.toOption.map Generated.steps := by
    decide +kernel
  rw [hg, hg'] at same
  have steps : g.steps = g'.steps := Option.some.inj same
  obtain ⟨here, there⟩ := List.forall_mem_append.mp named
  have indents : Indents "   " := ⟨by decide, by decide⟩
  obtain ⟨read, divides, alike⟩ := readback_of_generate here hg indents
  have rendered : Step.render "   " g'.steps = Step.render "   " g.steps := by rw [steps]
  exact ⟨g, g', hg, hg', read, divides, rendered, alike dimmer g' there hg' rendered⟩

end Project

end BlockSketch
