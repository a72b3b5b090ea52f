import BlockSketch.Proofs.Outcome
import BlockSketch.Proofs.Templates

/-! # Prompts written from sentences

Every sentence of the templates is taken for what it is, whatever its words, numbers and letter case
are. A prompt that is written from sentences therefore gives exactly what they ask for.
-/

namespace BlockSketch.Prompt

open Text

variable {α : Type} {f : List Char → Option α} {keys : List (List Char)} {l p s t : List Char}
  {xs : List Sentence} {a : Action} {r : Rule} {c : Char}

/-! ## Numbers -/

theorem ofDigits_chars (n : Digits) : Numeral.ofDigits n.chars = .ok n.value :=
  if_neg (Nat.not_lt.mpr n.length_le)

theorem optionalNumber_chars (pin : Option Digits) :
    optionalNumber (pin.map Digits.chars) = .ok (pin.map fun n => (n.value : Int)) := by
  cases pin with
  | none => rfl
  | some n =>
    have hn := ofDigits_chars n
    obtain ⟨c, s, he⟩ := List.exists_cons_of_ne_nil n.ne_nil
    rw [he] at hn
    simp only [Option.map_some, he, optionalNumber, hn]
    rfl

theorem milliseconds_span (d : Duration) : d.span.milliseconds = .ok d.milliseconds := by
  rw [Span.milliseconds, Duration.span, ofDigits_chars]
  refine congrArg Except.ok (?_ : (if d.unit.isSeconds then _ else _ : Int) = d.milliseconds)
  unfold Duration.milliseconds
  split
  · rfl
  · exact (Int.mul_one _).symm

/-! ## Rules -/

/-- The rule of a request makes its action. -/
theorem Request.apply_tokens (x : Request) : x.rule.apply (joined x.tokens) = .ok (some x.action) := by
  cases x with
  | blink pin time =>
    have hb : occurs "blink".toList (joined (blink pin time).tokens) = true :=
      occurs_iff.mpr ⟨[], _, rfl⟩
    have hl : occurs "led".toList (joined (blink pin time).tokens) = true :=
      occurs_iff.mpr ⟨"blink ".toList, spaced (onPin pin ++ forTime time), rfl⟩
    simp only [rule, Rule.apply, Prompt.blink, hb, hl, search_span?_blink,
      search_pinAfterWord?_blink, optionalNumber_chars]
    cases time with
    | none => rfl
    | some d =>
      simp only [Option.map_some, milliseconds_span]
      rfl
  | turn on word pin =>
    simp only [rule, Rule.apply, Prompt.turn, search_of_some (turnAt?_tokens on word),
      optionalNumber_chars]
    rfl
  | servo pin degrees apart =>
    simp only [rule, Rule.apply, Prompt.servo, search_of_some (servoAt?_tokens degrees apart),
      optionalNumber_chars, ofDigits_chars]
    rfl
  | motor verb dc pin time =>
    simp only [rule, Rule.apply, Prompt.motor, search_of_some (motorAt?_tokens verb dc time),
      optionalNumber_chars]
    cases time with
    | none => rfl
    | some d =>
      simp only [Option.map_some, milliseconds_span]
      rfl
  | delay verb filler time =>
    simp only [rule, Rule.apply, Prompt.delay, search_of_some (delayAt?_tokens verb filler time),
      milliseconds_span]
    rfl
  | sensor word pin =>
    simp only [rule, Rule.apply, Prompt.sensor, search_of_some (sensorAt?_tokens word),
      optionalNumber_chars]
    rfl
  | print filler quote word lcd =>
    simp only [rule, Rule.apply, Prompt.print,
      search_of_some (printAt?_tokens filler quote word lcd)]
    rfl

/-- The recogniser fails if `sensor` comes right after its keyword. -/
def RejectsSensor (keys : List (List Char)) (f : List Char → Option α) : Prop :=
  ∀ k ∈ keys, ∀ s, f (k ++ ' ' :: ("sensor".toList ++ s)) = none

namespace Request

theorem search_eq_none (hf : Keyed keys f) (x : Request) (hk : keys ⊆ x.rule.earlier)
    (hw : ∀ u ∈ x.followers, ∀ k ∈ keys, ∀ r, f (k ++ ' ' :: (u ++ r)) = none) :
    search f (joined x.tokens) = none :=
  hf.search_joined (fun t ht => ((Sentence.request x).isToken_of_mem t ht).solid)
    (x.isChain_tokens hf hk hw)

theorem search_repeatAt? (x : Request) : search repeatAt? (joined x.tokens) = none := by
  refine x.search_eq_none keyed_repeatAt? (by simp [Rule.earlier]) fun u hu k hk r => ?_
  obtain rfl := List.mem_singleton.mp hk
  cases x with
  | turn on word pin =>
    obtain rfl := List.mem_singleton.mp hu
    rfl
  | sensor word pin =>
    obtain rfl := List.mem_singleton.mp hu
    rfl
  | _ => simp [followers] at hu

theorem blink_tokens (x : Request) (hx : x.rule ≠ .blink) :
    Prompt.blink (joined x.tokens) = .ok none := by
  have hb : occurs "blink".toList (joined x.tokens) = false := by
    rw [← Bool.not_eq_true, occurs_iff]
    intro h
    obtain ⟨t, ht, hi⟩ := infix_joined (by decide) (by decide) h
    exact x.not_blink hx t ht hi
  rw [Prompt.blink, hb]
  rfl

/-- A template that is tried before that of a request does not apply. -/
theorem search_before (hf : Keyed r.keywords f) (x : Request) (hr : r ∈ x.rule.before)
    (hs : r ∈ Rule.sensor.before → RejectsSensor r.keywords f) :
    search f (joined x.tokens) = none := by
  have hk : r.keywords ⊆ x.rule.earlier := fun k hk =>
    List.mem_cons_of_mem _ (List.mem_flatMap.mpr ⟨r, hr, hk⟩)
  refine x.search_eq_none hf hk fun u hu k hm => ?_
  cases x with
  | turn on word pin =>
    obtain rfl : r = .blink := by simpa [rule, Rule.before, Rule.all] using hr
    exact absurd hm List.not_mem_nil
  | sensor word pin =>
    obtain rfl := List.mem_singleton.mp hu
    exact hs hr k hm
  | _ => simp [followers] at hu

theorem apply_before (x : Request) (hr : r ∈ x.rule.before) :
    r.apply (joined x.tokens) = .ok none := by
  cases r with
  | blink => exact x.blink_tokens (by rintro h; simp [h, Rule.before, Rule.all] at hr)
  | turn =>
    have hs : RejectsSensor Rule.turn.keywords turnAt? :=
      List.forall_mem_singleton.mpr fun s => rfl
    rw [Rule.apply, Prompt.turn, search_before keyed_turnAt? x hr fun _ => hs]
  | servo =>
    have hs : RejectsSensor Rule.servo.keywords servoAt? :=
      List.forall_mem_singleton.mpr fun s => rfl
    rw [Rule.apply, Prompt.servo, search_before keyed_servoAt? x hr fun _ => hs]
  | motor =>
    have hs : RejectsSensor Rule.motor.keywords motorAt? := by
      simp only [RejectsSensor, Rule.keywords, List.forall_mem_cons]
      exact ⟨fun s => rfl, fun s => rfl, fun s => rfl, by simp⟩
    rw [Rule.apply, Prompt.motor, search_before keyed_motorAt? x hr fun _ => hs]
  | delay =>
    have hs : RejectsSensor Rule.delay.keywords delayAt? := by
      simp only [RejectsSensor, Rule.keywords, List.forall_mem_cons]
      exact ⟨fun s => rfl, fun s => rfl, by simp⟩
    rw [Rule.apply, Prompt.delay, search_before keyed_delayAt? x hr fun _ => hs]
  | sensor =>
    have hs : Rule.sensor ∉ Rule.sensor.before := by decide
    rw [Rule.apply, Prompt.sensor, search_before keyed_sensorAt? x hr fun h => absurd h hs]
  | print => cases x <;> simp [rule, Rule.before, Rule.all] at hr
  | conditional => cases x <;> simp [rule, Rule.before, Rule.all] at hr

end Request

theorem sentence_of_apply (h : r.apply s = .ok (some a))
    (hb : ∀ q ∈ r.before, q.apply s = .ok none) : sentence s = .ok (some (r, a)) := by
  have first (rs us : List Rule) (hr : ∀ q ∈ rs, q.apply s = .ok none) :
      firstOf s (rs ++ r :: us) = .ok (some (r, a)) := by
    induction rs with
    | nil => simp only [List.nil_append, firstOf, h]; rfl
    | cons q rs ih =>
      obtain ⟨hq, hr⟩ := List.forall_mem_cons.mp hr
      rw [List.cons_append, firstOf, hq]
      exact ih hr
  have hd : ∃ us, Rule.all = r.before ++ r :: us := by cases r <;> exact ⟨_, rfl⟩
  obtain ⟨us, hu⟩ := hd
  rw [sentence, hu]
  exact first _ us hb

theorem clause_request (x : Request) :
    clause (joined x.tokens) = .ok (.action x.rule x.action) := by
  rw [clause, x.search_repeatAt?, sentence_of_apply x.apply_tokens fun q => x.apply_before]
  rfl

theorem clause_repetition (n : Digits) :
    clause (joined (Sentence.repetition n).tokens) = .ok (.directive n.value) := by
  rw [clause, search_of_some (repeatAt?_tokens n)]
  exact congrArg (Except.map Clause.directive) (ofDigits_chars n)

/-- What the parts of a prompt say. -/
def Sentence.clause : Sentence → Clause
  | .request x => .action x.rule x.action
  | .repetition n => .directive n.value

theorem clause_of_spells {x : Sentence} (h : Spells x t) : clause (lower t) = .ok x.clause := by
  rw [lower_eq_map h.1, h.2]
  cases x with
  | request x => exact clause_request x
  | repetition n => exact clause_repetition n

/-! ## Segments -/

theorem segments_append (hc : isSeparator c = true) :
    segments (s ++ c :: p) = segments s ++ segments p := by
  rw [segments, Pin.pieces_append_cons hc, List.map_append, List.filter_append]
  rfl

theorem dropWhile_isBlank_append (hl : ∀ c ∈ l, isBlank c = true)
    (ht : ∀ c ∈ t.head?, isBlank c = false) : (l ++ t).dropWhile isBlank = t := by
  rw [List.dropWhile_append_of_pos hl]
  cases t with
  | nil => rfl
  | cons c t => exact List.dropWhile_cons_of_neg (by simp [ht c rfl])

theorem trim_append (hl : ∀ c ∈ l, isBlank c = true) (hp : ∀ c ∈ p, isBlank c = true)
    (hn : t ≠ []) (hh : ∀ c ∈ t.head?, isBlank c = false)
    (ht : ∀ c ∈ t.getLast?, isBlank c = false) : trim (l ++ t ++ p) = t := by
  have hd : (l ++ (t ++ p)).dropWhile isBlank = t ++ p :=
    dropWhile_isBlank_append hl (by rwa [List.head?_append_of_ne_nil _ hn])
  rw [trim, trimLeft, List.append_assoc, hd, trimRight, List.reverse_append,
    dropWhile_isBlank_append (by simpa using hp) (by simpa using ht), List.reverse_reverse]

theorem trim_of_forall (hl : ∀ c ∈ l, isBlank c = true) : trim l = [] := by
  have hd := dropWhile_isBlank_append hl (t := []) (by simp)
  rw [List.append_nil] at hd
  rw [trim, trimLeft, hd]
  rfl

theorem not_isSeparator_of_isBlank (h : isBlank c = true) : isSeparator c = false := by
  rw [← Bool.not_eq_true]
  intro hc
  simp only [isSeparator, Bool.or_eq_true, beq_iff_eq] at hc
  rcases hc with (rfl | rfl) | rfl <;> exact absurd h (by decide)

theorem IsToken.not_isSeparator (h : IsToken t) : ∀ c ∈ t, isSeparator c = false := by
  intro c hc
  rw [← Bool.not_eq_true]
  intro hx
  simp only [isSeparator, Bool.or_eq_true, beq_iff_eq] at hx
  have := h.2 c hc
  rcases hx with (rfl | rfl) | rfl <;> exact absurd this (by decide)

theorem Sentence.solid_of_mem (x : Sentence) : ∀ t ∈ x.tokens, t ≠ [] ∧ Solid t :=
  fun t ht => ⟨(x.isToken_of_mem t ht).1, (x.isToken_of_mem t ht).solid⟩

theorem Sentence.tokens_ne_nil (x : Sentence) : x.tokens ≠ [] := by
  cases x with
  | request r => cases r <;> simp [tokens, Request.tokens]
  | repetition n => simp [tokens]

theorem not_isBlank_of_toLower {o : Option Char}
    (ho : ∀ c ∈ o.map Char.toLower, isBlank c = false) : ∀ c ∈ o, isBlank c = false := by
  intro c hc
  by_contra hb
  rw [Bool.not_eq_false] at hb
  have := ho c.toLower (by simp [Option.mem_def.mp hc])
  rw [toLower_of_isBlank hb, hb] at this
  contradiction

namespace Spells

variable {x : Sentence} (h : Spells x t)
include h

theorem ne_nil : t ≠ [] := by
  have hj : joined x.tokens ≠ [] := joined_ne_nil x.solid_of_mem x.tokens_ne_nil
  rintro rfl
  exact hj h.2.symm

theorem not_isSeparator : ∀ c ∈ t, isSeparator c = false := by
  intro c hc
  rw [← Bool.not_eq_true]
  intro hx
  have hm : c.toLower ∈ joined x.tokens := h.2 ▸ List.mem_map_of_mem hc
  have hl : c.toLower = c := by
    simp only [isSeparator, Bool.or_eq_true, beq_iff_eq] at hx
    rcases hx with (rfl | rfl) | rfl <;> rfl
  rw [hl] at hm
  rcases mem_joined hm with rfl | ⟨t, ht, hm⟩
  · exact absurd hx (by decide)
  · simp [(x.isToken_of_mem t ht).not_isSeparator c hm] at hx

theorem head?_not_isBlank : ∀ c ∈ t.head?, isBlank c = false := by
  refine not_isBlank_of_toLower ?_
  rw [← List.head?_map, h.2]
  exact not_isBlank_head?_joined x.solid_of_mem

theorem getLast?_not_isBlank : ∀ c ∈ t.getLast?, isBlank c = false := by
  refine not_isBlank_of_toLower ?_
  rw [← List.getLast?_map, h.2]
  exact not_isBlank_getLast?_joined x.solid_of_mem

end Spells

/-- The segments of a piece of a prompt spell its sentences. -/
theorem segments_piece (h : Piece xs s) :
    List.Forall₂ (fun t x => Spells x t) (segments s) xs := by
  cases h with
  | blank hl =>
    have hs : ∀ c ∈ s, isSeparator c = false := fun c hc => not_isSeparator_of_isBlank (hl c hc)
    simp [segments, Pin.pieces_of_forall hs, trim_of_forall hl]
  | @sentence x l t r hl hr ht =>
    have hs : ∀ c ∈ l ++ t ++ r, isSeparator c = false := by
      simp only [List.mem_append]
      rintro c ((hc | hc) | hc)
      · exact not_isSeparator_of_isBlank (hl c hc)
      · exact ht.not_isSeparator c hc
      · exact not_isSeparator_of_isBlank (hr c hc)
    have he : trim (l ++ t ++ r) = t :=
      trim_append hl hr ht.ne_nil ht.head?_not_isBlank ht.getLast?_not_isBlank
    have hp : segments (l ++ t ++ r) = [t] := by
      rw [segments, Pin.pieces_of_forall hs, List.map_singleton, he]
      simp [ht.ne_nil]
    exact hp ▸ .cons ht .nil

theorem segments_written (h : Written xs s) : List.Forall₂ (fun t x => Spells x t) (segments s) xs := by
  induction h with
  | piece h => exact segments_piece h
  | join h hc _ ih =>
    rw [segments_append hc]
    exact List.rel_append (segments_piece h) ih

/-! ## Prompts -/

theorem clauses_written (h : Written xs s) : clauses s = .ok (xs.map Sentence.clause) := by
  refine mapM_eq_ok_iff.mpr (List.forall₂_map_right_iff.mpr ?_)
  exact (segments_written h).imp fun t x => clause_of_spells

/-- The count that waits after a sentence. -/
def countAfter : Option Sentence → Nat
  | some (.repetition n) => n.value
  | _ => 1

theorem assemble_clauses (before : Option Sentence) :
    assemble (countAfter before) (xs.map Sentence.clause) = performedAfter before xs := by
  induction xs generalizing before with
  | nil => rfl
  | cons x xs ih =>
    cases x with
    | request x =>
      have hr : (if 1 < countAfter before then Action.repeating (countAfter before) x.action
          else x.action) = repeatedAfter before x.action := by
        rcases before with _ | _ | n <;> rfl
      exact congrArg₂ List.cons hr (ih (some (.request x)))
    | repetition n => exact ih (some (.repetition n))

/-- A prompt that is written from sentences gives the action of each request, in order. -/
theorem actions_written {prompt : String} (h : Written xs prompt.toList) :
    actions prompt = .ok (performed xs) := by
  rw [actions, clauses_written h]
  exact congrArg Except.ok (assemble_clauses none)

theorem actions_written_lamp :
    actions "Repeat 3 times; Turn ON Lamp on pin 9" = .ok [Action.repeating 3 {
      kind := .set, component := some "lamp", pin := some 9, value := some (.text "HIGH") }] := by
  let three : Digits := ⟨['3'], by decide, by decide, by decide⟩
  let nine : Digits := ⟨['9'], by decide, by decide, by decide⟩
  let lamp : Word := ⟨"lamp".toList, by decide, by decide, by decide⟩
  have first : Piece [.repetition three] ([] ++ "Repeat 3 times".toList ++ []) :=
    .sentence (by simp) (by simp) ⟨by decide, by decide⟩
  have second : Piece [.request (.turn true lamp (some nine))]
      ([' '] ++ "Turn ON Lamp on pin 9".toList ++ []) :=
    .sentence (by decide) (by simp) ⟨by decide, by decide⟩
  have written : Written [.repetition three, .request (.turn true lamp (some nine))]
      "Repeat 3 times; Turn ON Lamp on pin 9".toList := .join first (by decide) (.piece second)
  exact actions_written written

end BlockSketch.Prompt
