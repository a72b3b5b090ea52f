import BlockSketch.Proofs.Keywords
import BlockSketch.Proofs.Outcome
import Mathlib.Data.List.TakeWhile

/-! # Templates

Each recogniser of a template finds in a sentence that follows it what the sentence says. Together
with the keywords this gives the clause of every sentence.
-/

namespace BlockSketch.Prompt

open Text

variable {p : Char → Bool} {w r : List Char} {ts : List (List Char)} {v : String}
  {pin : Option Digits}

/-! ## Parts -/

theorem run?_append (hn : w ≠ []) (hw : ∀ c ∈ w, p c = true) (hr : ∀ c ∈ r.head?, p c = false) :
    run? p (w ++ r) = some (w, r) := by
  obtain ⟨taken, left⟩ := run_append hw hr
  obtain ⟨c, w, rfl⟩ := List.exists_cons_of_ne_nil hn
  rw [run?, taken, left]

theorem eq_space_of_head?_spaced : ∀ c ∈ (spaced ts).head?, c = ' ' := by
  cases ts with
  | nil => simp
  | cons t ts => simp

theorem Digits.all_isDigit (n : Digits) : ∀ c ∈ n.chars, Text.isDigit c = true :=
  fun c hc => isDigit_of_ascii (n.isDigit c hc)

theorem digits?_append (n : Digits) (hr : ∀ c ∈ r.head?, Text.isDigit c = false) :
    digits? (n.chars ++ r) = some (n.chars, r) := run?_append n.ne_nil n.all_isDigit hr

theorem digits?_joined (n : Digits) : digits? (joined (n.chars :: ts)) = some (n.chars, spaced ts) :=
  digits?_append n fun c hc => by rw [eq_space_of_head?_spaced c hc]; decide

theorem word?_joined (w : Word) : word? (joined (w.chars :: ts)) = some (w.chars, spaced ts) :=
  run?_append w.ne_nil (fun c hc => isWord_of_isPlain (w.isPlain c hc)) fun c hc => by
    rw [eq_space_of_head?_spaced c hc]; decide

theorem after?_joined : after? w (joined (w :: ts)) = some (spaced ts) := after?_append _ _

theorem blanks?_spaced (hw : IsToken w) : blanks? (spaced (w :: ts)) = some (joined (w :: ts)) := by
  obtain ⟨c, w, rfl⟩ := List.exists_cons_of_ne_nil hw.1
  have hc := hw.solid c List.mem_cons_self
  simp [blanks?, isBlank_space, hc]

theorem blanksThen?_spaced (hv : v ∈ words) :
    blanksThen? v (spaced (v.toList :: ts)) = some (spaced ts) := by
  rw [blanksThen?, blanks?_spaced (isToken_of_mem_words v hv)]
  exact after?_joined

theorem optionalPin_spaced (h : onPin? (spaced ts) = none) :
    optionalPin (spaced (onPin pin ++ ts)) = (pin.map Digits.chars, spaced ts) := by
  cases pin with
  | none => simp [onPin, optionalPin, h]
  | some n =>
    have ho : "on" ∈ words := by decide
    have hi : IsToken "pin".toList := isToken_of_mem_words "pin" (by decide)
    have hp : onPin? (spaced (onPin (some n) ++ ts)) = some (n.chars, spaced ts) := by
      simp only [onPin, onPin?, pinAfterWord?, List.cons_append, List.nil_append,
        blanksThen?_spaced ho, blanks?_spaced hi, after?_joined, blanks?_spaced n.isToken,
        digits?_joined, Option.bind_eq_bind, Option.bind_some]
    rw [optionalPin, hp]
    rfl

theorem optionalPin_onPin : optionalPin (spaced (onPin pin)) = (pin.map Digits.chars, []) := by
  have h : optionalPin (spaced (onPin pin ++ [])) = (pin.map Digits.chars, spaced []) :=
    optionalPin_spaced rfl
  simpa using h

/-! ## Durations -/

theorem not_isDigit_of_mem_words : ∀ v ∈ words, ∀ c ∈ v.toList.head?, Text.isDigit c = false := by
  intro v hv c hc
  have hw : ∀ v ∈ words, v.toList.head?.any Text.isDigit = false := by decide
  have hd := hw v hv
  rw [Option.mem_def.mp hc] at hd
  exact hd

theorem blanks?_measured (n : Digits) (apart : Bool) (hv : v ∈ words) :
    blanks? (spaced (measured n apart v)) = some (joined (measured n apart v)) := by
  cases apart with
  | false => exact blanks?_spaced (n.isToken.append (isToken_of_mem_words v hv))
  | true => exact blanks?_spaced n.isToken

/-- A duration does not begin like a word. -/
theorem after?_measured (n : Digits) (apart : Bool) {c : Char} (hc : c.isDigit = false) :
    after? (c :: w) (joined (measured n apart v)) = none := by
  obtain ⟨d, t, he⟩ := List.exists_cons_of_ne_nil n.ne_nil
  have hd := n.isDigit d (by simp [he])
  have hn : c ≠ d := by
    rintro rfl
    simp [hc] at hd
  cases apart <;> simp [measured, he, after?, hn]

theorem digits?_measured (n : Digits) (apart : Bool) (hv : v ∈ words) :
    ∃ r, digits? (joined (measured n apart v)) = some (n.chars, r) ∧
      r.dropWhile isBlank = v.toList := by
  have ht := isToken_of_mem_words v hv
  obtain ⟨c, t, he⟩ := List.exists_cons_of_ne_nil ht.1
  have hd : v.toList.dropWhile isBlank = v.toList := by
    rw [he, List.dropWhile_cons_of_neg (by simp [ht.solid c (by simp [he])])]
  cases apart with
  | false =>
    refine ⟨v.toList, ?_, hd⟩
    simpa [measured] using digits?_append n (not_isDigit_of_mem_words v hv)
  | true =>
    refine ⟨' ' :: v.toList, ?_, ?_⟩
    · have hn : digits? (joined [n.chars, v.toList]) = some (n.chars, spaced [v.toList]) :=
        digits?_joined n
      simpa [measured] using hn
    · rw [List.dropWhile_cons_of_pos isBlank_space, hd]

/-- The duration as a recogniser finds it. -/
def Duration.span (d : Duration) : Span := ⟨d.amount.chars, d.unit.isSeconds⟩

theorem Duration.tokens_ne_nil (d : Duration) : d.tokens ≠ [] := by
  cases h : d.apart <;> simp [tokens, measured, h]

theorem unit?_text (u : TimeUnit) : unit? u.text.toList = some u.isSeconds := by cases u <;> rfl

theorem span?_tokens (d : Duration) : span? (joined d.tokens) = some d.span := by
  obtain ⟨r, hr, hu⟩ := digits?_measured d.amount d.apart d.unit.text_mem
  rw [span?, Duration.tokens, hr]
  simp only [Option.bind_eq_bind, Option.bind_some, hu, unit?_text]
  rfl

/-! ## Templates -/

theorem turnAt?_tokens (on : Bool) (w : Word) :
    turnAt? (joined (Request.turn on w pin).tokens) = some ⟨on, w.chars, pin.map Digits.chars⟩ := by
  have ho : IsToken "on".toList := isToken_of_mem_words "on" (by decide)
  have hf : IsToken "off".toList := isToken_of_mem_words "off" (by decide)
  have hx : after? "on".toList (joined ("off".toList :: w.chars :: onPin pin)) = none := rfl
  cases on with
  | true =>
    simp only [turnAt?, Request.tokens, if_true, List.cons_append, List.nil_append, after?_joined,
      blanks?_spaced ho, blanks?_spaced w.isToken, word?_joined, optionalPin_onPin,
      Option.bind_eq_bind, Option.bind_some]
    rfl
  | false =>
    simp only [turnAt?, Request.tokens, Bool.false_eq_true, if_false, List.cons_append,
      List.nil_append, after?_joined, hx, blanks?_spaced hf, blanks?_spaced w.isToken,
      word?_joined, optionalPin_onPin, Option.bind_eq_bind, Option.bind_some, Option.map_some]
    rfl

theorem servoAt?_tokens (n : Digits) (apart : Bool) :
    servoAt? (joined (Request.servo pin n apart).tokens) = some ⟨pin.map Digits.chars, n.chars⟩ := by
  have hm : "degrees" ∈ words := by decide
  obtain ⟨r, hr, hd⟩ := digits?_measured n apart hm
  have hs : "servo" ∈ words := by decide
  have ht : "to" ∈ words := by decide
  have hp : onPin? (spaced ("to".toList :: measured n apart "degrees")) = none := rfl
  have hg : after? "degree".toList "degrees".toList = some ['s'] := rfl
  simp only [servoAt?, Request.tokens, List.append_assoc, List.cons_append, List.nil_append,
    after?_joined, blanksThen?_spaced hs, optionalPin_spaced hp, blanksThen?_spaced ht,
    blanks?_measured n apart hm, hr, hd, hg, Option.bind_eq_bind, Option.bind_some]
  rfl

theorem motorVerb?_append (v : MotorVerb) : motorVerb? (v.text.toList ++ r) = some r := by
  cases v <;> rfl

theorem delayVerb?_append (v : DelayVerb) : delayVerb? (v.text.toList ++ r) = some r := by
  cases v <;> rfl

theorem blanksThen?_forTime (time : Option Duration) :
    (blanksThen? "for" (spaced (forTime time)) >>= blanks? >>= span?) = time.map Duration.span := by
  cases time with
  | none => rfl
  | some d =>
    have hf : "for" ∈ words := by decide
    have hb : blanks? (spaced d.tokens) = some (joined d.tokens) :=
      blanks?_measured _ _ d.unit.text_mem
    simp only [forTime, blanksThen?_spaced hf, hb, Option.bind_eq_bind, Option.bind_some]
    exact span?_tokens d

theorem motorAt?_tokens (verb : MotorVerb) (dc : Bool) (time : Option Duration) :
    motorAt? (joined (Request.motor verb dc pin time).tokens) =
      some ⟨pin.map Digits.chars, time.map Duration.span⟩ := by
  have hv (ts : List (List Char)) : motorVerb? (joined (verb.text.toList :: ts)) = some (spaced ts) :=
    motorVerb?_append verb
  have hm : IsToken "motor".toList := isToken_of_mem_words "motor" (by decide)
  have hc : IsToken "dc".toList := isToken_of_mem_words "dc" (by decide)
  have hp : onPin? (spaced (forTime time)) = none := by cases time <;> rfl
  have hx (ts : List (List Char)) : after? "dc".toList (joined ("motor".toList :: ts)) = none := rfl
  have ht := blanksThen?_forTime time
  simp only [Option.bind_eq_bind] at ht
  cases dc with
  | true =>
    simp only [motorAt?, Request.tokens, optionalWord, if_true, List.cons_append, List.nil_append,
      hv, blanks?_spaced hc, skip?, after?_joined, blanks?_spaced hm, Option.getD_some,
      optionalPin_spaced hp, ht, Option.bind_eq_bind, Option.bind_some]
    rfl
  | false =>
    simp only [motorAt?, Request.tokens, optionalWord, Bool.false_eq_true, if_false,
      List.cons_append, List.nil_append, hv, blanks?_spaced hm, skip?, hx, Option.bind_none,
      Option.getD_none, after?_joined, optionalPin_spaced hp, ht, Option.bind_eq_bind,
      Option.bind_some]
    rfl

theorem delayAt?_tokens (verb : DelayVerb) (filler : Bool) (time : Duration) :
    delayAt? (joined (Request.delay verb filler time).tokens) = some time.span := by
  have hv (ts : List (List Char)) : delayVerb? (joined (verb.text.toList :: ts)) = some (spaced ts) :=
    delayVerb?_append verb
  have hf : "for" ∈ words := by decide
  have hb : blanks? (spaced time.tokens) = some (joined time.tokens) :=
    blanks?_measured _ _ time.unit.text_mem
  have hx : blanksThen? "for" (spaced time.tokens) = none := by
    rw [blanksThen?, hb]
    exact after?_measured _ _ (by decide)
  cases filler with
  | true =>
    simp only [delayAt?, Request.tokens, optionalWord, if_true, List.cons_append, List.nil_append,
      hv, skip?, blanksThen?_spaced hf, Option.getD_some, hb, Option.bind_eq_bind, Option.bind_some]
    exact span?_tokens time
  | false =>
    simp only [delayAt?, Request.tokens, optionalWord, Bool.false_eq_true, if_false,
      List.cons_append, List.nil_append, hv, skip?, hx, Option.getD_none, hb, Option.bind_eq_bind,
      Option.bind_some]
    exact span?_tokens time

theorem sensorPins?_onPin : sensorPins? (spaced (onPin pin)) = pin.map Digits.chars := by
  cases pin with
  | none => rfl
  | some n =>
    have ho : "on" ∈ words := by decide
    have hi : "pin" ∈ words := by decide
    have hx (ts : List (List Char)) : after? ['s'] (spaced (n.chars :: ts)) = none := by
      simp [after?]
    have hr : run? (fun c => isDigit c || c == ',') (joined [n.chars]) = some (n.chars, []) :=
      run?_append n.ne_nil (fun c hc => by simp [n.all_isDigit c hc]) (by simp)
    have hc : n.chars.takeWhile (· != ',') = n.chars := by
      refine List.takeWhile_eq_self_iff.mpr fun c hc => ?_
      simp only [bne_iff_ne, ne_eq]
      rintro rfl
      exact absurd (n.isDigit _ hc) (by decide)
    simp only [sensorPins?, onPin, blanksThen?_spaced ho, blanksThen?_spaced hi, skip?, hx,
      Option.getD_none, blanks?_spaced n.isToken, hr, hc, Option.bind_eq_bind, Option.bind_some]
    rfl

theorem sensorAt?_tokens (w : Word) :
    sensorAt? (joined (Request.sensor w pin).tokens) = some ⟨w.chars, pin.map Digits.chars⟩ := by
  have hs : "sensor" ∈ words := by decide
  have hp : sensorPins? (spaced (onPin pin)) = pin.map Digits.chars := sensorPins?_onPin
  simp only [sensorAt?, Request.tokens, List.cons_append, List.nil_append, after?_joined,
    blanks?_spaced w.isToken, word?_joined, blanksThen?_spaced hs, hp, Option.bind_eq_bind,
    Option.bind_some]
  rfl

theorem quotedText?_joined (q : Quote) (w : Word) :
    quotedText? (joined ((q.char :: (w.chars ++ [q.char])) :: ts)) = some w.chars := by
  have hq : isQuote q.char = true := by cases q <;> decide
  have hw : ∀ c ∈ w.chars, (!isQuote c && c != '\n') = true := fun c hc =>
    forall_ascii (P := fun c => isPlain c = true → (!isQuote c && c != '\n') = true)
      (by decide +kernel) (toNat_lt_of_isPlain (w.isPlain c hc)) (w.isPlain c hc)
  simp [quotedText?, hq, List.takeWhile_append_of_pos hw]

theorem printAt?_tokens (filler : Bool) (q : Quote) (w : Word) (lcd : Bool) :
    printAt? (joined (Request.print filler q w lcd).tokens) = some w.chars := by
  have ht : IsToken "text".toList := isToken_of_mem_words "text" (by decide)
  have hq : IsToken (q.char :: (w.chars ++ [q.char])) :=
    q.isToken.append (w.isToken.append q.isToken)
  have hx (ts : List (List Char)) :
      after? "text".toList (joined ((q.char :: (w.chars ++ [q.char])) :: ts)) = none := by
    cases q <;> rfl
  cases filler with
  | true =>
    simp only [printAt?, Request.tokens, optionalWord, if_true, List.cons_append, List.nil_append,
      after?_joined, blanks?_spaced ht, skip?, blanks?_spaced hq, Option.getD_some,
      Option.bind_eq_bind, Option.bind_some]
    exact quotedText?_joined q w
  | false =>
    simp only [printAt?, Request.tokens, optionalWord, Bool.false_eq_true, if_false,
      List.cons_append, List.nil_append, after?_joined, hx, skip?, blanks?_spaced hq,
      Option.getD_none, Option.bind_eq_bind, Option.bind_some, Option.bind_none]
    exact quotedText?_joined q w

theorem repeatAt?_tokens (n : Digits) :
    repeatAt? (joined (Sentence.repetition n).tokens) = some n.chars := by
  have ht : blanksThen? "time" (spaced ["times".toList]) = some ['s'] := rfl
  simp only [repeatAt?, Sentence.tokens, after?_joined, blanks?_spaced n.isToken, digits?_joined,
    ht, Option.bind_eq_bind, Option.bind_some]
  rfl

/-! ## Blinking -/

/-- Durations are looked for among the digits only. -/
theorem search_span?_append (h : ∀ c ∈ w, Text.isDigit c = false) :
    search span? (w ++ r) = search span? r := by
  refine search_append fun u hu hs => ?_
  obtain ⟨c, u, rfl⟩ := List.exists_cons_of_ne_nil hu
  have hc := h c (hs.subset List.mem_cons_self)
  have hd : digits? (c :: u ++ r) = none := by simp [digits?, run?, hc]
  rw [span?, hd]
  rfl

/-- Digits are passed over if no unit follows them. -/
theorem search_span?_digits (n : Digits) (hr : ∀ c ∈ r.head?, Text.isDigit c = false)
    (hu : unit? (r.dropWhile isBlank) = none) : search span? (n.chars ++ r) = search span? r := by
  refine search_append fun u hn hs => ?_
  have hd : digits? (u ++ r) = some (u, r) :=
    run?_append hn (fun c hc => n.all_isDigit c (hs.subset hc)) hr
  rw [span?, hd]
  simp [hu]

theorem search_span?_forTime (time : Option Duration) :
    search span? (spaced (forTime time)) = time.map Duration.span := by
  cases time with
  | none => rfl
  | some d =>
    obtain ⟨t, ts, he⟩ := List.exists_cons_of_ne_nil d.tokens_ne_nil
    have hw : ∀ c ∈ " for ".toList, Text.isDigit c = false := by decide
    have hf : spaced (forTime (some d)) = " for ".toList ++ joined d.tokens := by
      simp [forTime, he]
    rw [hf, search_span?_append hw, search_of_some (span?_tokens d)]
    rfl

theorem search_span?_blink (time : Option Duration) :
    search span? (joined (Request.blink pin time).tokens) = time.map Duration.span := by
  cases pin with
  | none =>
    have hw : ∀ c ∈ "blink led".toList, Text.isDigit c = false := by decide
    have he : joined (Request.blink none time).tokens = "blink led".toList ++ spaced (forTime time) :=
      rfl
    rw [he, search_span?_append hw, search_span?_forTime]
  | some n =>
    have hw : ∀ c ∈ "blink led on pin ".toList, Text.isDigit c = false := by decide
    have he : joined (Request.blink (some n) time).tokens =
        "blink led on pin ".toList ++ (n.chars ++ spaced (forTime time)) := by
      simp [Request.tokens, onPin]
    have hu : unit? ((spaced (forTime time)).dropWhile isBlank) = none := by
      cases time <;> rfl
    rw [he, search_span?_append hw, search_span?_digits n ?_ hu, search_span?_forTime]
    exact fun c hc => by rw [eq_space_of_head?_spaced c hc]; decide

theorem keyed_pinAfterWord? : Keyed ["pin".toList] pinAfterWord? :=
  keyed_of_blanks? (by decide) (by decide) fun s h => by
    rw [pinAfterWord?, h _ List.mem_cons_self]
    rfl

theorem pinAfterWord?_joined (n : Digits) :
    pinAfterWord? (joined ("pin".toList :: n.chars :: ts)) = some (n.chars, spaced ts) := by
  simp only [pinAfterWord?, after?_joined, blanks?_spaced n.isToken, digits?_joined,
    Option.bind_eq_bind, Option.bind_some]

theorem search_pinAfterWord?_blink (time : Option Duration) :
    (search pinAfterWord? (joined (Request.blink pin time).tokens)).map Prod.fst =
      pin.map Digits.chars := by
  cases pin with
  | none =>
    have hc : ∀ t ∈ ["blink".toList, "led".toList], Clear ["pin".toList] t := by decide
    have hi := isChain_append_of_clear hc (isChain_forTime keyed_pinAfterWord? (by decide) time)
    have ht (t) (h : t ∈ (Request.blink none time).tokens) : Solid t :=
      ((Sentence.request (.blink none time)).isToken_of_mem t h).solid
    rw [keyed_pinAfterWord?.search_joined ht hi]
    rfl
  | some n =>
    have hs : ∀ t ∈ ["blink".toList, "led".toList, "on".toList], Solid t := by decide
    have hc : ∀ t ∈ ["blink".toList, "led".toList, "on".toList], Clear ["pin".toList] t := by decide
    have hp : joined (Request.blink (some n) time).tokens = joined
        (["blink".toList, "led".toList, "on".toList] ++ "pin".toList :: n.chars :: forTime time) :=
      rfl
    rw [hp, keyed_pinAfterWord?.search_clear hs hc, search_of_some (pinAfterWord?_joined n)]
    rfl

end BlockSketch.Prompt
