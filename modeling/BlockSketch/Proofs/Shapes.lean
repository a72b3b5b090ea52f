import BlockSketch.Proofs.Repeats
import Mathlib.Data.List.TakeWhile

/-! # Shapes of actions

Every rule makes actions of one shape, with texts that stand in the sentence. An action of a prompt
has the shape of a rule or repeats one that has.
-/

namespace BlockSketch.Prompt

open Text

variable {s t rest : List Char} {ss : List (List Char)} {as : List Action} {a : Action} {r : Rule}

/-- A run of word characters of the sentence. -/
structure WordOf (s w : List Char) : Prop where
  ne_nil : w ≠ []
  isWord : ∀ c ∈ w, isWord c = true
  subset : w ⊆ s

/-- The actions that the rules make of the sentence `s`. -/
inductive Shape (s : List Char) : Action → Prop where
  | blink (pin : Option Nat) (duration : Nat) : Shape s {
      kind := .set, component := some "led", pin := pin.map Int.ofNat,
      value := some (.text "blink"), duration := some duration }
  | turn {w : List Char} (on : Bool) (pin : Option Nat) : WordOf s w → Shape s {
      kind := .set, component := some (String.ofList w), pin := pin.map Int.ofNat,
      value := some (.text (if on then "HIGH" else "LOW")) }
  | servo (pin : Option Nat) (degrees : Nat) : Shape s {
      kind := .set, component := some "servo", pin := pin.map Int.ofNat,
      value := some (.number degrees) }
  | motor (pin : Option Nat) (duration : Nat) : Shape s {
      kind := .set, component := some "dc-motor", pin := pin.map Int.ofNat,
      value := some (.text "HIGH"), duration := some duration }
  | delay (duration : Nat) : Shape s { kind := .delay, duration := some duration }
  | sensor {w : List Char} (pin : Option Nat) : WordOf s w → Shape s {
      kind := .read, component := some (String.ofList w), pin := pin.map Int.ofNat }
  | print {t : List Char} : (∀ c ∈ t, isQuote c = false ∧ c ≠ '\n') → t ⊆ s → Shape s {
      kind := .print, component := some "lcd", value := some (.text (String.ofList t)) }
  | conditional {t : List Char} : t ≠ [] → '\n' ∉ t → t ⊆ s → Shape s {
      kind := .conditional, condition := some (String.ofList t) }

/-- The action has the shape of a rule or repeats one that has. -/
def Spoken (ss : List (List Char)) (a : Action) : Prop :=
  ∃ s ∈ ss, Shape s a ∨ ∃ b k, 1 < k ∧ Shape s b ∧ a = Action.repeating (k : Nat) b

/-! ## Recognisers -/

theorem subset_of_after? {w : List Char} (h : after? w s = some rest) : rest ⊆ s := by
  rw [after?_eq_some_iff.mp h]
  exact List.subset_append_right w rest

theorem subset_of_blanks? (h : blanks? s = some rest) : rest ⊆ s := by
  cases s with
  | nil => simp [blanks?] at h
  | cons c s =>
    simp only [blanks?, Option.ite_none_right_eq_some, Option.some.injEq] at h
    obtain ⟨-, rfl⟩ := h
    exact fun d hd => List.mem_cons_of_mem _ ((List.dropWhile_suffix _).subset hd)

theorem subset_skip? {part : List Char → Option (List Char)}
    (h : ∀ r, part s = some r → r ⊆ s) : skip? part s ⊆ s := by
  unfold skip?
  cases hp : part s with
  | none => exact List.Subset.refl s
  | some r => exact h r hp

theorem word?_eq_some (h : word? s = some (t, rest)) : WordOf s t ∧ rest ⊆ s := by
  unfold word? run? at h
  split at h
  · simp at h
  · next c cs hw =>
    obtain ⟨rfl, rfl⟩ := Prod.mk.inj (Option.some.inj h)
    rw [← hw]
    refine ⟨⟨by simp [hw], fun c hc => List.mem_takeWhile_imp hc, ?_⟩, ?_⟩
    · exact (List.takeWhile_prefix _).subset
    · exact (List.dropWhile_suffix _).subset

theorem quotedText?_eq_some (h : quotedText? s = some t) :
    (∀ c ∈ t, isQuote c = false ∧ c ≠ '\n') ∧ t ⊆ s := by
  cases s with
  | nil => simp [quotedText?] at h
  | cons q s =>
    obtain rfl : t = s.takeWhile fun c => !isQuote c && c != '\n' := by
      simp only [quotedText?] at h
      split at h
      · split at h
        · exact (Option.some.inj (Option.ite_none_right_eq_some.mp h).2).symm
        · cases h
      · cases h
    refine ⟨fun c hc => by simpa using List.mem_takeWhile_imp hc, fun c hc => ?_⟩
    exact List.mem_cons_of_mem _ ((List.takeWhile_prefix _).subset hc)

theorem restOfLine?_eq_some (h : restOfLine? s = some t) : t ≠ [] ∧ '\n' ∉ t ∧ t ⊆ s := by
  unfold restOfLine? at h
  split at h
  · cases h
  · next b gap hg hr =>
    -- nothing but blanks is left, and one of them is the rest
    obtain ⟨c, hc, rfl⟩ := Option.map_eq_some_iff.mp h
    have hn : c ≠ '\n' := by simpa using List.find?_some hc
    have hm : c ∈ s.takeWhile isBlank := by
      rw [hg]
      exact List.mem_cons_of_mem _ (List.mem_reverse.mp (List.mem_of_find?_eq_some hc))
    refine ⟨by simp, fun hc => hn (List.mem_singleton.mp hc).symm, ?_⟩
    exact List.cons_subset.mpr ⟨(List.takeWhile_prefix _).subset hm, List.nil_subset _⟩
  · next g rest hg hr =>
    obtain rfl := Option.some.inj h
    refine ⟨?_, fun hc => by simpa using List.mem_takeWhile_imp hc, ?_⟩
    · -- the first character that is left is not blank, so it breaks no line
      obtain ⟨b, gap, hb⟩ := List.exists_cons_of_ne_nil fun hn => hg hn
      obtain ⟨c, r, hc⟩ := List.exists_cons_of_ne_nil fun hn => hr b gap hb hn
      have hn : isBlank c = false := head?_trimLeft s c (by simp [trimLeft, hc])
      have hl : (c != '\n') = true := by
        simp only [bne_iff_ne, ne_eq]
        rintro rfl
        exact absurd hn (by decide)
      simp [hc, hl]
    · exact List.Subset.trans (List.takeWhile_prefix _).subset
        (List.dropWhile_suffix isBlank).subset

/-! ## Numbers -/

theorem optionalNumber_eq_ok {o : Option (List Char)} {p : Option Int}
    (h : optionalNumber o = .ok p) : ∃ q : Option Nat, p = q.map Int.ofNat := by
  rcases o with _ | _ | ⟨c, ds⟩
  · exact ⟨none, (Except.ok.inj h).symm⟩
  · exact ⟨none, (Except.ok.inj h).symm⟩
  · simp only [optionalNumber, map_eq_ok_iff, bind_eq_ok_iff, pure_eq_ok_iff] at h
    obtain ⟨_, ⟨n, -, rfl⟩, rfl⟩ := h
    exact ⟨some n, rfl⟩

theorem milliseconds_eq_ok {t : Span} {d : Int} (h : t.milliseconds = .ok d) : ∃ n : Nat, d = n := by
  obtain ⟨n, -, hd⟩ := bind_eq_ok_iff.mp h
  obtain rfl := pure_eq_ok_iff.mp hd
  cases t.seconds with
  | true => exact ⟨n * 1000, by simp⟩
  | false => exact ⟨n, by simp⟩

/-! ## Rules -/

theorem WordOf.mono {w : List Char} (h : WordOf s w) (hs : s ⊆ t) : WordOf t w :=
  ⟨h.ne_nil, h.isWord, List.Subset.trans h.subset hs⟩

theorem turnAt?_eq_some {x : Turn} (h : turnAt? s = some x) : WordOf s x.word := by
  simp only [turnAt?, Option.bind_eq_bind, Option.bind_eq_some_iff] at h
  obtain ⟨u, ⟨u', hu', hu⟩, h⟩ := h
  have hs := List.Subset.trans (subset_of_blanks? hu) (subset_of_after? hu')
  have word {v : List Char} {y : List Char × List Char} (hv : v ⊆ u)
      (hw : ∃ b, blanks? v = some b ∧ word? b = some y) : WordOf s y.1 := by
    obtain ⟨b, hb, hw⟩ := hw
    exact (word?_eq_some hw).1.mono
      (List.Subset.trans (subset_of_blanks? hb) (List.Subset.trans hv hs))
  cases ho : after? "on".toList u with
  | some v =>
    simp only [ho, Option.bind_eq_some_iff] at h
    obtain ⟨_, hv, y, hy, h⟩ := h
    obtain rfl := Option.some.inj hv
    obtain rfl := Option.some.inj h
    exact word (subset_of_after? ho) hy
  | none =>
    simp only [ho, Option.bind_eq_some_iff, Option.map_eq_some_iff] at h
    obtain ⟨_, ⟨v, hv, rfl⟩, y, hy, h⟩ := h
    obtain rfl := Option.some.inj h
    exact word (subset_of_after? hv) hy

theorem sensorAt?_eq_some {x : SensorRead} (h : sensorAt? s = some x) : WordOf s x.word := by
  simp only [sensorAt?, Option.bind_eq_bind, Option.bind_eq_some_iff] at h
  obtain ⟨⟨w, u⟩, ⟨v, ⟨v', hv', hv⟩, hw⟩, u', hu', h⟩ := h
  obtain rfl := Option.some.inj h
  exact (word?_eq_some hw).1.mono
    (List.Subset.trans (subset_of_blanks? hv) (subset_of_after? hv'))

theorem printAt?_eq_some (h : printAt? s = some t) :
    (∀ c ∈ t, isQuote c = false ∧ c ≠ '\n') ∧ t ⊆ s := by
  simp only [printAt?, Option.bind_eq_bind, Option.bind_eq_some_iff] at h
  obtain ⟨u, ⟨v, hv, hu⟩, h⟩ := h
  have hs := List.Subset.trans (subset_of_blanks? hu) (subset_of_after? hv)
  obtain ⟨hq, ht⟩ := quotedText?_eq_some h
  refine ⟨hq, List.Subset.trans ht (List.Subset.trans (subset_skip? fun r hr => ?_) hs)⟩
  obtain ⟨b, hb, hr⟩ := Option.bind_eq_some_iff.mp hr
  exact List.Subset.trans (subset_of_blanks? hr) (subset_of_after? hb)

theorem ifAt?_eq_some (h : ifAt? s = some t) : t ≠ [] ∧ '\n' ∉ t ∧ t ⊆ s := by
  simp only [ifAt?, Option.bind_eq_bind, Option.bind_eq_some_iff] at h
  obtain ⟨u, hu, h⟩ := h
  obtain ⟨hn, hl, ht⟩ := restOfLine?_eq_some h
  exact ⟨hn, hl, List.Subset.trans ht (subset_of_after? hu)⟩

theorem blink_eq_ok (h : blink s = .ok (some a)) : Shape s a := by
  unfold blink at h
  split at h
  · simp at h
  · cases hs : search span? s with
    | none =>
      simp only [hs, pure_bind, bind_eq_ok_iff] at h
      obtain ⟨p, hp, h⟩ := h
      obtain ⟨q, rfl⟩ := optionalNumber_eq_ok hp
      obtain rfl := Option.some.inj (pure_eq_ok_iff.mp h)
      exact .blink q 1000
    | some t =>
      simp only [hs, bind_eq_ok_iff] at h
      obtain ⟨d, hd, p, hp, h⟩ := h
      obtain ⟨n, rfl⟩ := milliseconds_eq_ok hd
      obtain ⟨q, rfl⟩ := optionalNumber_eq_ok hp
      obtain rfl := Option.some.inj (pure_eq_ok_iff.mp h)
      exact .blink q n

theorem turn_eq_ok (h : turn s = .ok (some a)) : Shape s a := by
  unfold turn at h
  split at h
  · simp at h
  · next t ht =>
    simp only [bind_eq_ok_iff] at h
    obtain ⟨p, hp, h⟩ := h
    obtain ⟨q, rfl⟩ := optionalNumber_eq_ok hp
    obtain rfl := Option.some.inj (pure_eq_ok_iff.mp h)
    obtain ⟨u, hu, hf⟩ := exists_suffix_of_search ht
    exact .turn t.on q ((turnAt?_eq_some hf).mono hu.subset)

theorem servo_eq_ok (h : servo s = .ok (some a)) : Shape s a := by
  unfold servo at h
  split at h
  · simp at h
  · next t ht =>
    simp only [bind_eq_ok_iff] at h
    obtain ⟨p, hp, n, -, h⟩ := h
    obtain ⟨q, rfl⟩ := optionalNumber_eq_ok hp
    obtain rfl := Option.some.inj (pure_eq_ok_iff.mp h)
    exact .servo q n

theorem motor_eq_ok (h : motor s = .ok (some a)) : Shape s a := by
  unfold motor at h
  split at h
  · simp at h
  · next t ht =>
    cases hs : t.span with
    | none =>
      simp only [hs, pure_bind, bind_eq_ok_iff] at h
      obtain ⟨p, hp, h⟩ := h
      obtain ⟨q, rfl⟩ := optionalNumber_eq_ok hp
      obtain rfl := Option.some.inj (pure_eq_ok_iff.mp h)
      exact .motor q 0
    | some u =>
      simp only [hs, bind_eq_ok_iff] at h
      obtain ⟨d, hd, p, hp, h⟩ := h
      obtain ⟨n, rfl⟩ := milliseconds_eq_ok hd
      obtain ⟨q, rfl⟩ := optionalNumber_eq_ok hp
      obtain rfl := Option.some.inj (pure_eq_ok_iff.mp h)
      exact .motor q n

theorem delay_eq_ok (h : delay s = .ok (some a)) : Shape s a := by
  unfold delay at h
  split at h
  · simp at h
  · next t ht =>
    obtain ⟨d, hd, h⟩ := bind_eq_ok_iff.mp h
    obtain ⟨n, rfl⟩ := milliseconds_eq_ok hd
    obtain rfl := Option.some.inj (pure_eq_ok_iff.mp h)
    exact .delay n

theorem sensor_eq_ok (h : sensor s = .ok (some a)) : Shape s a := by
  unfold sensor at h
  split at h
  · simp at h
  · next t ht =>
    obtain ⟨p, hp, h⟩ := bind_eq_ok_iff.mp h
    obtain ⟨q, rfl⟩ := optionalNumber_eq_ok hp
    obtain rfl := Option.some.inj (pure_eq_ok_iff.mp h)
    obtain ⟨u, hu, hf⟩ := exists_suffix_of_search ht
    exact .sensor q ((sensorAt?_eq_some hf).mono hu.subset)

theorem print_eq_ok (h : print s = .ok (some a)) : Shape s a := by
  obtain ⟨t, ht, rfl⟩ := Option.map_eq_some_iff.mp (Except.ok.inj h)
  obtain ⟨u, hu, hf⟩ := exists_suffix_of_search ht
  obtain ⟨hq, hs⟩ := printAt?_eq_some hf
  exact .print hq (List.Subset.trans hs hu.subset)

theorem conditional_eq_ok (h : conditional s = .ok (some a)) : Shape s a := by
  obtain ⟨t, ht, rfl⟩ := Option.map_eq_some_iff.mp (Except.ok.inj h)
  obtain ⟨u, hu, hf⟩ := exists_suffix_of_search ht
  obtain ⟨hn, hl, hs⟩ := ifAt?_eq_some hf
  exact .conditional hn hl (List.Subset.trans hs hu.subset)

theorem shape_of_apply (h : r.apply s = .ok (some a)) : Shape s a := by
  cases r with
  | blink => exact blink_eq_ok h
  | turn => exact turn_eq_ok h
  | servo => exact servo_eq_ok h
  | motor => exact motor_eq_ok h
  | delay => exact delay_eq_ok h
  | sensor => exact sensor_eq_ok h
  | print => exact print_eq_ok h
  | conditional => exact conditional_eq_ok h

theorem firstOf_eq_ok {rs : List Rule} (h : firstOf s rs = .ok (some (r, a))) :
    r.apply s = .ok (some a) := by
  induction rs with
  | nil => simp [firstOf] at h
  | cons q rs ih =>
    obtain ⟨o, ho, h⟩ := bind_eq_ok_iff.mp h
    cases o with
    | none => exact ih h
    | some b =>
      obtain ⟨rfl, rfl⟩ := Prod.mk.inj (Option.some.inj (pure_eq_ok_iff.mp h))
      exact ho

theorem Acts.shape (h : Acts s a) : Shape s a := by
  obtain ⟨-, r, hr⟩ := h
  exact shape_of_apply (firstOf_eq_ok hr)

/-! ## Prompts -/

theorem mem_assemble {n : Nat} {cs : List Clause} (h : a ∈ assemble n cs) :
    ∃ r b, Clause.action r b ∈ cs ∧ (a = b ∨ ∃ k : Nat, 1 < k ∧ a = Action.repeating k b) := by
  induction cs generalizing n with
  | nil => simp [assemble] at h
  | cons c cs ih =>
    have later {m : Nat} (h : a ∈ assemble m cs) : ∃ r b, Clause.action r b ∈ c :: cs ∧
        (a = b ∨ ∃ k : Nat, 1 < k ∧ a = Action.repeating k b) := by
      obtain ⟨r, b, hm, hb⟩ := ih h
      exact ⟨r, b, List.mem_cons_of_mem _ hm, hb⟩
    cases c with
    | directive m => exact later h
    | unknown => exact later h
    | action r b =>
      rcases List.mem_cons.mp h with h | h
      · refine ⟨r, b, List.mem_cons_self, ?_⟩
        split at h
        · next hn => exact .inr ⟨n, hn, h⟩
        · exact .inl h
      · exact later h

/-- Every action of a prompt is spoken in one of its sentences. -/
theorem spoken_of_actions {prompt : String} (h : actions prompt = .ok as) (ha : a ∈ as) :
    Spoken (spoken prompt) a := by
  obtain ⟨cs, hc, rfl⟩ := map_eq_ok_iff.mp h
  obtain ⟨r, b, hm, hb⟩ := mem_assemble ha
  obtain ⟨t, ht, hr⟩ := exists_of_mem_mapM hc hm
  have hs := (clause_action_iff.mp ⟨r, hr⟩).shape
  refine ⟨lower t, List.mem_map_of_mem ht, ?_⟩
  rcases hb with rfl | ⟨k, hk, rfl⟩
  · exact .inl hs
  · exact .inr ⟨b, k, hk, hs, rfl⟩

end BlockSketch.Prompt
