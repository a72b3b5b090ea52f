import BlockSketch.Proofs.Comments
import BlockSketch.Proofs.LowerCase

/-! # Captured texts

The texts that actions take from a sentence hold no separator, no line break and no letter in upper
case. So the steps of a prompt stand on three levels, and neither in them nor in the loop of its sketch
is anything missing where a number is written.
-/

namespace BlockSketch

open Text
open Sketch (Statement Placed)

variable {as : List Action} {a : Action} {s : List Char} {ss : List (List Char)} {i : Instruction}
  {st : Statement} {l : Int} {x : Line} {q : Placed} {t : String} {prompt : String}

/-! ## Texts of actions -/

/-- The texts of a value. -/
def ActionValue.texts : ActionValue → List String
  | text s => [s]
  | number _ => []

/-- The texts of an action, apart from those of its inner actions. -/
def Action.texts (a : Action) : List String :=
  a.component.toList ++ a.value.toList.flatMap ActionValue.texts ++ a.condition.toList

theorem words_of_carrying (h : st ∈ carrying i) : st.words ⊆ i.words := by
  cases i with
  | ultrasonicRead p => rcases List.mem_pair.mp h with rfl | rfl <;> simp [Statement.words]
  | program | setup | loop | pinMode | repetition => cases h
  | _ =>
    obtain rfl := List.mem_singleton.mp h
    simp [Statement.words, Instruction.words]

theorem Text.trim_subset (s : List Char) : trim s ⊆ s := by
  intro c hc
  have hr := (List.dropWhile_suffix _).subset (List.mem_reverse.mp hc)
  exact (List.dropWhile_suffix _).subset (List.mem_reverse.mp hr)

namespace Prompt

/-- The texts that the rules give of their own. -/
def vocabulary : List String := ["led", "servo", "dc-motor", "lcd", "blink", "HIGH", "LOW"]

/-- The text belongs to the rules or stands in one line of the sentence. -/
def Heard (s : List Char) (t : String) : Prop := t ∈ vocabulary ∨ t.toList ⊆ s ∧ '\n' ∉ t.toList

theorem heard_of_subset {w : List Char} (hw : w ⊆ s) (hn : '\n' ∉ w) : Heard s (String.ofList w) := by
  right
  rw [String.toList_ofList]
  exact ⟨hw, hn⟩

theorem WordOf.heard {w : List Char} (h : WordOf s w) : Heard s (String.ofList w) :=
  heard_of_subset h.subset fun hn => absurd (h.isWord _ hn) (by decide)

theorem Shape.heard (h : Shape s a) (ht : t ∈ a.texts) : Heard s t := by
  cases h with
  | blink pin d => exact .inl ((by decide : ["led", "blink"] ⊆ vocabulary) ht)
  | servo pin n => exact .inl ((by decide : ["servo"] ⊆ vocabulary) ht)
  | motor pin d => exact .inl ((by decide : ["dc-motor", "HIGH"] ⊆ vocabulary) ht)
  | delay d => cases ht
  | turn on pin hw =>
    rcases List.mem_pair.mp ht with rfl | rfl
    · exact hw.heard
    · left
      cases on <;> decide
  | sensor pin hw =>
    obtain rfl := List.mem_singleton.mp ht
    exact hw.heard
  | print hq hw =>
    rcases List.mem_pair.mp ht with rfl | rfl
    · exact .inl (by decide)
    · exact heard_of_subset hw fun hn => (hq _ hn).2 rfl
  | conditional _ hn hw =>
    obtain rfl := List.mem_singleton.mp ht
    exact heard_of_subset hw hn

theorem Shape.childless (h : Shape s a) : a.actions = [] := by cases h <;> rfl

/-- Nothing is missing that an instruction of the action writes. -/
theorem Shape.words_subset (h : Shape s a) :
    ∀ i ∈ Program.instructions a, i.words ⊆ "HIGH" :: "LOW" :: a.texts := by
  cases h with
  | blink pin d =>
    simp [Program.instructions, Program.setting, Instruction.words, valueWords, numberWords]
  | @turn w on pin hw =>
    have plain : (if on then "HIGH" else "LOW") ≠ "blink" := by cases on <;> decide
    by_cases hs : String.ofList w = "servo" <;>
      simp [Program.instructions, Program.setting, Instruction.words, valueWords, numberWords, hs,
        plain, hw.ne_motor, Action.texts, ActionValue.texts]
  | servo pin n =>
    simp [Program.instructions, Program.setting, Instruction.words, valueWords]
  | motor pin d =>
    by_cases hd : 0 < d <;>
      simp [Program.instructions, Program.setting, Instruction.words, valueWords, numberWords, hd]
  | delay d => simp [Program.instructions, Instruction.words, numberWords]
  | @sensor w pin hw =>
    by_cases hs : String.ofList w = "ultrasonic" <;>
      simp [Program.instructions, Instruction.words, hs]
  | print hq hw =>
    simp [Program.instructions, Instruction.words, valueWords, Action.texts, ActionValue.texts]
  | conditional hn hl hw => simp [Program.instructions, Instruction.words, Action.texts]

/-- A longer blink is still what the rule for blinks makes. -/
theorem Shape.lengthened (h : Shape s a) : Shape s a.lengthened := by
  by_cases hb : a.Instant
  · rw [Action.lengthened_of_instant hb]
    cases h with
    | blink pin d => exact .blink pin 1000
    | turn on pin hw =>
      have level : some (ActionValue.text (if on then "HIGH" else "LOW")) ≠ some (.text "blink") := by
        cases on <;> decide
      exact absurd hb.1.2.2 level
    | _ => exact absurd hb.1 (by simp [Action.Blinks])
  · rwa [Action.lengthened_of_not_instant hb]

theorem Shape.heard_words (h : Shape s a) (hi : i ∈ Program.instructions a) (ht : t ∈ i.words) :
    Heard s t := by
  rcases List.mem_cons.mp (h.words_subset i hi ht) with rfl | ht
  · exact .inl (by decide)
  · rcases List.mem_cons.mp ht with rfl | ht
    · exact .inl (by decide)
    · exact h.heard ht

theorem Shape.heard_statement (h : Shape s a) (hst : st ∈ Sketch.statements a) (ht : t ∈ st.words) :
    Heard s t := by
  rw [h.faithful.statements_eq] at hst
  obtain ⟨i, hi, hc⟩ := List.mem_flatMap.mp hst
  exact h.lengthened.heard_words hi (words_of_carrying hc ht)

/-! ## Sentences of a prompt -/

theorem mem_separators {c : Char} (h : isSeparator c = true) : c ∈ [',', '.', ';'] := by
  simpa [isSeparator, or_assoc] using h

theorem not_isSeparator_of_mem_spoken {c : Char} (hs : s ∈ spoken prompt) (hc : c ∈ s) :
    isSeparator c = false := by
  obtain ⟨u, hu, rfl⟩ := List.mem_map.mp hs
  obtain ⟨v, hv, rfl⟩ := List.mem_map.mp (List.mem_filter.mp hu).1
  rw [Bool.eq_false_iff]
  intro hsep
  -- Lowering makes no separators, and pieces between separators hold none.
  have stands : ∀ c ∈ [',', '.', ';'], c ∈ lower (trim v) → c ∈ trim v := by
    intro c hm hc
    have ascii : ∀ c ∈ [',', '.', ';'], c.toNat < 128 ∧ c.isLower = false ∧ c ∉ lowered := by decide
    obtain ⟨hb, hn, hl⟩ := ascii c hm
    exact mem_of_mem_lower hc hb hn hl
  have hv := Pin.all_of_mem_pieces hv c (trim_subset v (stands c (mem_separators hsep) hc))
  exact absurd hsep (by simp [hv])

theorem Heard.separate (h : Heard s t) (hs : s ∈ spoken prompt) :
    Throughout (fun c => isSeparator c = false ∧ c ≠ '\n') t := by
  rcases h with ht | ⟨ht, hn⟩
  · have rules : ∀ t ∈ vocabulary, Throughout (fun c => isSeparator c = false ∧ c ≠ '\n') t := by
      decide
    exact rules t ht
  · intro c hc
    refine ⟨not_isSeparator_of_mem_spoken hs (ht hc), ?_⟩
    rintro rfl
    exact hn hc

/-- No text that is heard begins the word for what is missing. -/
theorem Heard.small (h : Heard s t) (hs : s ∈ spoken prompt) : Throughout (· ≠ 'N') t := by
  rcases h with ht | ⟨ht, -⟩
  · have rules : ∀ t ∈ vocabulary, Throughout (· ≠ 'N') t := by decide
    exact rules t ht
  · obtain ⟨u, -, rfl⟩ := List.mem_map.mp hs
    rintro c hc rfl
    exact absurd (isUpper_of_mem_lower (ht hc)) (by decide)

/-! ## Forests of a prompt -/

/-- What the rules make stands at the level of the actions or, repeated, on the next one. -/
theorem Spoken.of_mem_expandAll (h : ∀ a ∈ as, Spoken ss a) (hx : x ∈ Program.expandAll l as) :
    (x.level = l ∨ x.level = l + 1) ∧ ((∃ k : Int, x.instruction = .repetition (some k)) ∨
      ∃ s ∈ ss, ∃ b, Shape s b ∧ x.instruction ∈ Program.instructions b) := by
  induction as with
  | nil => cases hx
  | cons a as ih =>
    obtain ⟨⟨s, hs, ha⟩, has⟩ := List.forall_mem_cons.mp h
    rcases ha with ha | ⟨b, k, -, hb, rfl⟩
    · rw [expandAll_once ha.once] at hx
      rcases List.mem_append.mp hx with hx | hx
      · obtain ⟨i, hi, rfl⟩ := List.mem_map.mp hx
        exact ⟨.inl rfl, .inr ⟨s, hs, a, ha, hi⟩⟩
      · exact ih has hx
    · rw [expandAll_loop rfl] at hx
      rcases List.mem_cons.mp hx with rfl | hx
      · exact ⟨.inl rfl, .inl ⟨k, rfl⟩⟩
      · rcases List.mem_append.mp hx with hx | hx
        · have inner : x ∈ (Program.instructions b).map (⟨l + 1, ·⟩) := by
            simpa [Action.repeating, expandAll_once hb.once, Program.expandAll] using hx
          obtain ⟨i, hi, rfl⟩ := List.mem_map.mp inner
          exact ⟨.inr rfl, .inr ⟨s, hs, b, hb, hi⟩⟩
        · exact ih has hx

/-- The statements are those of what the rules make, and loops around them. -/
theorem Spoken.of_mem_placeAll (h : ∀ a ∈ as, Spoken ss a) (hq : q ∈ Sketch.placeAll l as) :
    (∃ k : Int, q.statement = .openLoop (some k)) ∨ q.statement = .closeLoop ∨
      ∃ s ∈ ss, ∃ b, Shape s b ∧ q.statement ∈ Sketch.statements b := by
  induction as with
  | nil => cases hq
  | cons a as ih =>
    obtain ⟨⟨s, hs, ha⟩, has⟩ := List.forall_mem_cons.mp h
    rcases ha with ha | ⟨b, k, -, hb, rfl⟩
    · rw [placeAll_once ha.once] at hq
      rcases List.mem_append.mp hq with hq | hq
      · obtain ⟨st, hst, rfl⟩ := List.mem_map.mp hq
        exact .inr (.inr ⟨s, hs, a, ha, hst⟩)
      · exact ih has hq
    · rw [placeAll_loop rfl] at hq
      simp only [List.mem_cons, List.mem_append] at hq
      rcases hq with rfl | hq | rfl | hq
      · exact .inl ⟨k, rfl⟩
      · have inner : q ∈ (Sketch.statements b).map (⟨l + 1, ·⟩) := by
          simpa [Action.repeating, placeAll_once hb.once, Sketch.placeAll] using hq
        obtain ⟨st, hst, rfl⟩ := List.mem_map.mp inner
        exact .inr (.inr ⟨s, hs, b, hb, hst⟩)
      · exact .inr (.inl rfl)
      · exact ih has hq

theorem Spoken.heard_words (h : ∀ a ∈ as, Spoken ss a) (hx : x ∈ Program.expandAll l as) :
    ∀ w ∈ x.instruction.words, ∃ s ∈ ss, Heard s w := by
  intro w hw
  rcases (of_mem_expandAll h hx).2 with ⟨k, hk⟩ | ⟨s, hs, b, hb, hi⟩
  · rw [hk] at hw
    cases hw
  · exact ⟨s, hs, hb.heard_words hi hw⟩

theorem Spoken.small_statement (h : ∀ a ∈ as, Spoken (spoken prompt) a)
    (hq : q ∈ Sketch.placeAll l as) : ∀ w ∈ q.statement.words, Throughout (· ≠ 'N') w := by
  intro w hw
  rcases of_mem_placeAll h hq with ⟨k, hk⟩ | hc | ⟨s, hs, b, hb, hst⟩
  · rw [hk] at hw
    cases hw
  · rw [hc] at hw
    cases hw
  · exact (hb.heard_statement hst hw).small hs

theorem Spoken.separate {b : Action} (h : Spoken (spoken prompt) a) (hb : b ∈ a :: a.actions)
    (ht : t ∈ b.texts) : Throughout (fun c => isSeparator c = false ∧ c ≠ '\n') t := by
  obtain ⟨s, hs, hshape | ⟨c, k, -, hc, rfl⟩⟩ := h
  · rw [hshape.childless, List.mem_singleton] at hb
    rw [hb] at ht
    exact (hshape.heard ht).separate hs
  · rcases List.mem_pair.mp hb with rfl | rfl
    · cases ht
    · exact (hc.heard ht).separate hs

/-! ## Steps and lines -/

theorem ne_of_ordinary {c : Char} (h : Ordinary c) : c ≠ 'N' := h.2.2

theorem not_missing (h : Throughout (· ≠ 'N') t) : ¬ missingValue.toList <:+: t.toList :=
  fun hm => h 'N' (hm.subset (by decide)) rfl

theorem level_of_mem_steps {cs : List Component} {steps : List Step} {u : Step}
    (h : ∀ a ∈ as, Spoken ss a) (hp : Program.steps as cs = .ok steps) (hu : u ∈ steps) :
    0 ≤ u.level ∧ u.level ≤ 2 := by
  obtain ⟨x, hxu, hx⟩ := Effect.line_of_mem_steps hp hu
  rw [Effect.level_of_step hxu]
  rcases hx with hx | ⟨c, -, spec, ps, p, -, -, -, rfl⟩ | hx
  · have frame : ∀ x ∈ ([⟨0, .program⟩, ⟨0, .setup⟩, ⟨0, .loop⟩] : List Line), x.level = 0 := by
      decide
    have hl := frame x hx
    omega
  · constructor <;> simp
  · obtain ⟨hl, -⟩ := Spoken.of_mem_expandAll h hx
    omega

theorem not_missing_of_mem_steps {cs : List Component} {steps : List Step} {u : Step}
    (h : ∀ a ∈ as, Spoken (spoken prompt) a) (hp : Program.steps as cs = .ok steps) (hu : u ∈ steps)
    (hn : u.block ≠ some "Pin Mode") : ¬ missingValue.toList <:+: u.text.toList := by
  obtain ⟨x, hxu, hx⟩ := Effect.line_of_mem_steps hp hu
  rw [Effect.block_of_step hxu] at hn
  apply not_missing
  rw [throughout_step_iff (fun _ => ne_of_ordinary) hxu]
  rcases hx with hx | ⟨c, -, spec, ps, p, -, -, -, rfl⟩ | hx
  · have frame : ∀ x ∈ ([⟨0, .program⟩, ⟨0, .setup⟩, ⟨0, .loop⟩] : List Line),
        x.instruction.words = [] := by
      decide
    simp [frame x hx]
  · exact absurd rfl hn
  · intro w hw
    obtain ⟨s, hs, heard⟩ := Spoken.heard_words h hx w hw
    exact heard.small hs

theorem not_missing_of_mem_body {body : List String} (h : ∀ a ∈ as, Spoken (spoken prompt) a)
    (hb : (Sketch.placeAll 1 as).mapM Placed.text = .ok body) (ht : t ∈ body) :
    ¬ missingValue.toList <:+: t.toList := by
  obtain ⟨q, hq, hqt⟩ := exists_of_mem_mapM hb ht
  apply not_missing
  rw [throughout_placed_iff (fun _ => ne_of_ordinary) hqt]
  exact Spoken.small_statement h hq

/-- Every action of a prompt has the shape of a rule or repeats one that has, and the texts that it took
from the prompt hold no separator and no line break. The steps are on the levels from zero to two, and
where a number is written, in them or in the loop of the sketch, none is missing. -/
theorem actions_shapes (h : actions prompt = .ok as) :
    (∀ a ∈ as, Spoken (spoken prompt) a) ∧
    (∀ a ∈ as, ∀ b ∈ a :: a.actions, ∀ t ∈ b.texts,
      Throughout (fun c => isSeparator c = false ∧ c ≠ '\n') t) ∧
    (∀ cs steps, Program.steps as cs = .ok steps → ∀ u ∈ steps, (0 ≤ u.level ∧ u.level ≤ 2) ∧
      (u.block ≠ some "Pin Mode" → ¬ missingValue.toList <:+: u.text.toList)) ∧
    ∀ cs board day sketch, Sketch.render as cs board day = .ok sketch →
      ∃ body, Effect.loopLines? sketch = some body ∧ ∀ t ∈ body, ¬ missingValue.toList <:+: t := by
  have made : ∀ a ∈ as, Spoken (spoken prompt) a := fun a => spoken_of_actions h
  refine ⟨made, ?_, ?_, ?_⟩
  · exact fun a ha b hb t ht => (made a ha).separate hb ht
  · intro cs steps hp u hu
    exact ⟨level_of_mem_steps made hp hu, not_missing_of_mem_steps made hp hu⟩
  · intro cs board day sketch hr
    obtain ⟨body, hb, lines⟩ := Effect.loopLines?_of_render hr
    refine ⟨_, lines fun t => unbroken_of_mem_body (leaves_of_spoken made) hb, ?_⟩
    rw [List.forall_mem_map]
    exact fun t => not_missing_of_mem_body made hb

/-- A text and a condition that are the word for what is missing, in lower case. -/
def nones : List Action := [
  Action.repeating 2 { kind := .print, component := some "lcd", value := some (.text "none") },
  { kind := .conditional, condition := some "none" }]

theorem actions_shapes_nones : ∃ steps sketch body,
    actions "Repeat 2 times; print 'None'; if None" = .ok nones ∧ Program.steps nones [] = .ok steps ∧
      Sketch.render nones [] .uno ⟨2024, 5, 1⟩ = .ok sketch ∧ Effect.loopLines? sketch = some body ∧
      (∀ a ∈ nones, Spoken (spoken "Repeat 2 times; print 'None'; if None") a) ∧
      (∀ u ∈ steps, u.level ≤ 2) ∧ ∀ t ∈ body, ¬ missingValue.toList <:+: t := by
  have ha : actions "Repeat 2 times; print 'None'; if None" = .ok nones := rfl
  obtain ⟨steps, hp⟩ := exists_ok_of_isOk (x := Program.steps nones []) (by decide +kernel)
  obtain ⟨sketch, hr⟩ := exists_ok_of_isOk (x := Sketch.render nones [] .uno ⟨2024, 5, 1⟩)
    (by decide +kernel)
  obtain ⟨made, -, levels, loop⟩ := actions_shapes ha
  obtain ⟨body, hb, clear⟩ := loop _ _ _ _ hr
  exact ⟨steps, sketch, body, ha, hp, hr, hb, made, fun u hu => (levels _ _ hp u hu).1.2, clear⟩

end Prompt

end BlockSketch
