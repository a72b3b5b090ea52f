import BlockSketch.Proofs.Sentences

/-! # Keywords of the templates

Every template but the last two begins with a keyword and a blank. No token of a request ends with a
keyword that counts before its own, a word apart, and what follows a word fits none of them; so the
templates that are tried first find nothing.
-/

namespace BlockSketch.Prompt

open Text

variable {α : Type} {f : List Char → Option α} {keys ts us : List (List Char)}
  {s t u w : List Char} {n : Digits}

/-- The keywords of the template of a rule. -/
def Rule.keywords : Rule → List (List Char)
  | turn => ["turn".toList]
  | servo => ["set".toList]
  | motor => ["spin".toList, "start".toList, "run".toList]
  | delay => ["wait".toList, "delay".toList]
  | sensor => ["read".toList]
  | _ => []

/-- The rules that are tried before a rule. -/
def Rule.before (r : Rule) : List Rule := all.takeWhile (· ≠ r)

/-- The keywords that are looked for before the rule is tried. -/
def Rule.earlier (r : Rule) : List (List Char) := "repeat".toList :: r.before.flatMap keywords

/-! ## Recognisers -/

theorem keyed_of_blanks? (hn : ∀ k ∈ keys, k ≠ []) (hl : ∀ k ∈ keys, ∀ c ∈ k, c.isLower = true)
    (h : ∀ s, (∀ k ∈ keys, (after? k s >>= blanks?) = none) → f s = none) : Keyed keys f := by
  refine ⟨hn, hl, fun s hs => ?_⟩
  by_contra hk
  refine hs (h s fun k hm => ?_)
  cases hr : after? k s with
  | none => rfl
  | some r =>
    rw [after?_eq_some_iff] at hr
    cases r with
    | nil => rfl
    | cons b r =>
      by_cases hb : isBlank b = true
      · exact absurd ⟨k, hm, b, r, hb, hr⟩ hk
      · simp [blanks?, hb]

theorem blanks?_eq_none (hs : after? w s = some t) (h : (after? w s >>= blanks?) = none) :
    blanks? t = none := by
  rw [hs] at h
  exact h

theorem keyed_repeatAt? : Keyed ["repeat".toList] repeatAt? :=
  keyed_of_blanks? (by decide) (by decide) fun s h => by
    rw [repeatAt?, h _ List.mem_cons_self]
    rfl

theorem keyed_turnAt? : Keyed Rule.turn.keywords turnAt? :=
  keyed_of_blanks? (by decide) (by decide) fun s h => by
    rw [turnAt?, h _ List.mem_cons_self]
    rfl

theorem keyed_servoAt? : Keyed Rule.servo.keywords servoAt? :=
  keyed_of_blanks? (by decide) (by decide) fun s h => by
    have hw : (after? "set".toList s >>= blanksThen? "servo") = none := by
      cases hs : after? "set".toList s with
      | none => rfl
      | some r =>
        exact congrArg (· >>= after? "servo".toList) (blanks?_eq_none hs (h _ List.mem_cons_self))
    rw [servoAt?, hw]
    rfl

theorem keyed_motorAt? : Keyed Rule.motor.keywords motorAt? :=
  keyed_of_blanks? (by decide) (by decide) fun s h => by
    have hw : (motorVerb? s >>= blanks?) = none := by
      cases hv : motorVerb? s with
      | none => rfl
      | some r =>
        obtain ⟨w, hm, hw⟩ := List.exists_of_findSome?_eq_some hv
        exact blanks?_eq_none hw (h w.toList (List.mem_map_of_mem (f := String.toList) hm))
    rw [motorAt?, hw]
    rfl

theorem keyed_delayAt? : Keyed Rule.delay.keywords delayAt? :=
  keyed_of_blanks? (by decide) (by decide) fun s h => by
    cases hv : delayVerb? s with
    | none => rw [delayAt?, hv]; rfl
    | some r =>
      obtain ⟨w, hm, hw⟩ := List.exists_of_findSome?_eq_some hv
      have hb := blanks?_eq_none hw (h w.toList (List.mem_map_of_mem (f := String.toList) hm))
      have hf : skip? (blanksThen? "for") r = r := by rw [skip?, blanksThen?, hb]; rfl
      rw [delayAt?, hv]
      exact (congrArg (blanks? · >>= span?) hf).trans (congrArg (· >>= span?) hb)

theorem keyed_sensorAt? : Keyed Rule.sensor.keywords sensorAt? :=
  keyed_of_blanks? (by decide) (by decide) fun s h => by
    rw [sensorAt?, h _ List.mem_cons_self]
    rfl

/-! ## Tokens of requests -/

/-- The tokens that may follow the word of a request. -/
def Request.followers : Request → List (List Char)
  | turn .. => ["on".toList]
  | sensor .. => ["sensor".toList]
  | _ => []

section
variable (hf : Keyed keys f) (hk : keys ⊆ Rule.print.earlier)
include hf

theorem clear_digits (n : Digits) : Clear keys n.chars := by
  rintro k hm hs
  obtain ⟨c, k, rfl⟩ := List.exists_cons_of_ne_nil (hf.ne_nil k hm)
  have hl := isLower_iff.mp (hf.lower _ hm c List.mem_cons_self)
  have hd := isDigit_iff.mp (n.isDigit c (hs.subset List.mem_cons_self))
  exact absurd (hl.1.trans hd.2) (by decide)

theorem clear_quoted (q : Quote) : Clear keys (q.char :: (w ++ [q.char])) := by
  rintro k hm hs
  rw [← List.cons_append] at hs
  obtain rfl | ⟨k, rfl, -⟩ := List.suffix_concat_iff.mp hs
  · exact hf.ne_nil _ hm rfl
  · have := hf.lower _ hm q.char (by simp)
    cases q <;> exact absurd this (by decide)

theorem isChain_measured (n : Digits) (apart : Bool) (unit : String) :
    (measured n apart unit).IsChain (Passed keys f) := by
  cases apart with
  | false => exact .singleton _
  | true => exact .cons_cons (clear_digits hf n).passed (.singleton _)

theorem isChain_forTime (hc : Clear keys "for".toList) (time : Option Duration) :
    (forTime time).IsChain (Passed keys f) := by
  cases time with
  | none => exact .nil
  | some d =>
    exact isChain_append_of_clear (List.forall_mem_singleton.mpr hc) (isChain_measured hf _ _ _)

end

theorem clear_words {r : Rule} (hk : keys ⊆ r.earlier) (h : ∀ t ∈ ts, Clear r.earlier t) :
    ∀ t ∈ ts, Clear keys t := fun t ht => (h t ht).mono hk

section
variable (hk : keys ⊆ Rule.print.earlier)
include hk

theorem clear_optionalWord (b : Bool) {w : String} (h : Clear Rule.print.earlier w.toList) :
    ∀ t ∈ optionalWord b w, Clear keys t := by
  cases b with
  | false => simp [optionalWord]
  | true => simpa [optionalWord] using h.mono hk

variable (hf : Keyed keys f)
include hf

theorem clear_onPin (pin : Option Digits) : ∀ t ∈ onPin pin, Clear keys t := by
  cases pin with
  | none => simp [onPin]
  | some n =>
    intro t ht
    simp only [onPin, List.mem_cons, List.not_mem_nil, or_false] at ht
    rcases ht with rfl | rfl | rfl
    · exact Clear.mono (by decide) hk
    · exact Clear.mono (by decide) hk
    · exact clear_digits hf n

theorem isChain_onPin (pin : Option Digits) : (onPin pin).IsChain (Passed keys f) := by
  simpa using isChain_append_of_clear (clear_onPin hk hf pin) .nil

end

namespace Request

theorem earlier_subset (x : Request) : x.rule.earlier ⊆ Rule.print.earlier := by
  cases x <;> simp only [rule] <;> decide

/-- The templates that are tried before its own pass over all tokens of a request. -/
theorem isChain_tokens (hf : Keyed keys f) (x : Request) (hk : keys ⊆ x.rule.earlier)
    (hw : ∀ u ∈ x.followers, ∀ k ∈ keys, ∀ r, f (k ++ ' ' :: (u ++ r)) = none) :
    x.tokens.IsChain (Passed keys f) := by
  have hp : keys ⊆ Rule.print.earlier := List.Subset.trans hk x.earlier_subset
  have hr : Clear keys "for".toList := Clear.mono (by decide) hp
  cases x with
  | blink pin time =>
    refine isChain_append_of_clear (List.forall_mem_append.mpr ⟨?_, ?_⟩) (isChain_forTime hf hr time)
    · exact clear_words (r := .blink) hk (by decide)
    · exact clear_onPin hp hf pin
  | turn on word pin =>
    have hc : ∀ t ∈ ["turn".toList, (if on then "on" else "off").toList], Clear keys t :=
      clear_words (r := .turn) hk (by cases on <;> decide)
    have ht : (word.chars :: onPin pin).IsChain (Passed keys f) := by
      cases pin with
      | none => exact .singleton _
      | some n =>
        exact .cons_cons (fun k hm _ => hw "on".toList List.mem_cons_self k hm)
          (isChain_onPin hp hf (some n))
    exact (isChain_append_of_clear hc ht :)
  | servo pin degrees apart =>
    refine isChain_append_of_clear ?_ (isChain_measured hf degrees apart "degrees")
    simp only [List.forall_mem_append]
    refine ⟨⟨?_, ?_⟩, ?_⟩
    · exact clear_words (r := .servo) hk (by decide)
    · exact clear_onPin hp hf pin
    · exact clear_words (r := .servo) hk (by decide)
  | motor verb dc pin time =>
    refine isChain_append_of_clear ?_ (isChain_forTime hf hr time)
    simp only [List.forall_mem_append]
    refine ⟨⟨⟨?_, ?_⟩, ?_⟩, ?_⟩
    · exact clear_words (r := .motor) hk (by cases verb <;> decide)
    · exact clear_optionalWord hp dc (by decide)
    · exact clear_words (r := .motor) hk (by decide)
    · exact clear_onPin hp hf pin
  | delay verb filler time =>
    refine isChain_append_of_clear ?_ (isChain_measured hf _ _ _)
    refine List.forall_mem_append.mpr ⟨?_, ?_⟩
    · exact clear_words (r := .delay) hk (by cases verb <;> decide)
    · exact clear_optionalWord hp filler (by decide)
  | sensor word pin =>
    have hc : ∀ t ∈ ["read".toList], Clear keys t := clear_words (r := .sensor) hk (by decide)
    have hs : ∀ t ∈ ["sensor".toList], Clear keys t := clear_words (r := .sensor) hk (by decide)
    have ht : (word.chars :: (["sensor".toList] ++ onPin pin)).IsChain (Passed keys f) :=
      .cons_cons (fun k hm _ => hw "sensor".toList List.mem_cons_self k hm)
        (isChain_append_of_clear hs (isChain_onPin hp hf pin))
    exact (isChain_append_of_clear hc ht :)
  | print filler quote word lcd =>
    have hl : ∀ t ∈ if lcd then ["on".toList, "lcd".toList] else [], Clear keys t :=
      clear_words (r := .print) hk (by cases lcd <;> decide)
    refine isChain_append_of_clear ?_ (by simpa using isChain_append_of_clear hl .nil)
    simp only [List.forall_mem_append]
    refine ⟨⟨?_, ?_⟩, ?_⟩
    · exact clear_words (r := .print) hk (by decide)
    · exact clear_optionalWord hp filler (by decide)
    · exact List.forall_mem_singleton.mpr (clear_quoted hf quote)

end Request

/-! ## Characters of tokens -/

/-- The fixed words of the templates other than `blink`. -/
def words : List String :=
  ["led", "turn", "on", "off", "set", "servo", "to", "degrees", "spin", "start", "run", "dc",
    "motor", "wait", "delay", "for", "read", "sensor", "print", "text", "lcd", "pin", "repeat",
    "times", "ms", "millisecond", "milliseconds", "second", "seconds"]

theorem MotorVerb.text_mem (v : MotorVerb) : v.text ∈ words := by cases v <;> decide

theorem DelayVerb.text_mem (v : DelayVerb) : v.text ∈ words := by cases v <;> decide

theorem TimeUnit.text_mem (u : TimeUnit) : u.text ∈ words := by cases u <;> decide

section
variable {P : List Char → Prop} {v : String} (hw : ∀ w ∈ words, P w.toList)
  (hd : ∀ n : Digits, P n.chars)
include hw

theorem forall_optionalWord (b : Bool) (hv : v ∈ words) : ∀ t ∈ optionalWord b v, P t := by
  cases b with
  | false => simp [optionalWord]
  | true => simpa [optionalWord] using hw v hv

include hd

theorem forall_onPin (pin : Option Digits) : ∀ t ∈ onPin pin, P t := by
  cases pin with
  | none => simp [onPin]
  | some n =>
    refine List.forall_mem_cons.mpr ⟨hw "on" (by decide), ?_⟩
    exact List.forall_mem_cons.mpr ⟨hw "pin" (by decide), List.forall_mem_singleton.mpr (hd n)⟩

variable (hu : ∀ n : Digits, ∀ w ∈ words, P (n.chars ++ w.toList))
include hu

theorem forall_measured (n : Digits) (apart : Bool) (hv : v ∈ words) :
    ∀ t ∈ measured n apart v, P t := by
  cases apart with
  | false => exact List.forall_mem_singleton.mpr (hu n v hv)
  | true => exact List.forall_mem_cons.mpr ⟨hd n, List.forall_mem_singleton.mpr (hw v hv)⟩

theorem forall_forTime (time : Option Duration) : ∀ t ∈ forTime time, P t := by
  cases time with
  | none => simp [forTime]
  | some d =>
    exact List.forall_mem_cons.mpr
      ⟨hw "for" (by decide), forall_measured hw hd hu d.amount d.apart d.unit.text_mem⟩

/-- What holds of fixed words, digits, words and their compounds holds of all tokens. -/
theorem Request.forall_tokens (hc : ∀ w : Word, P w.chars)
    (hq : ∀ (q : Quote) (w : Word), P (q.char :: (w.chars ++ [q.char]))) (x : Request)
    (hb : x.rule = .blink → P "blink".toList) : ∀ t ∈ x.tokens, P t := by
  cases x with
  | blink pin time =>
    have hl : ∀ t ∈ ["blink".toList, "led".toList], P t :=
      List.forall_mem_cons.mpr ⟨hb rfl, List.forall_mem_singleton.mpr (hw "led" (by decide))⟩
    simp only [tokens, List.forall_mem_append]
    exact ⟨⟨hl, forall_onPin hw hd pin⟩, forall_forTime hw hd hu time⟩
  | turn on word pin =>
    have ho : P (if on then "on" else "off").toList := hw _ (by cases on <;> decide)
    refine List.forall_mem_cons.mpr ⟨hw "turn" (by decide), List.forall_mem_cons.mpr ⟨ho, ?_⟩⟩
    exact List.forall_mem_cons.mpr ⟨hc word, forall_onPin hw hd pin⟩
  | servo pin degrees apart =>
    have hs : ∀ t ∈ ["set".toList, "servo".toList], P t :=
      List.forall_mem_cons.mpr ⟨hw "set" (by decide),
        List.forall_mem_singleton.mpr (hw "servo" (by decide))⟩
    simp only [tokens, List.forall_mem_append, List.forall_mem_singleton]
    exact ⟨⟨⟨hs, forall_onPin hw hd pin⟩, hw "to" (by decide)⟩,
      forall_measured hw hd hu degrees apart (by decide)⟩
  | motor verb dc pin time =>
    simp only [tokens, List.forall_mem_append, List.forall_mem_singleton]
    exact ⟨⟨⟨⟨hw _ verb.text_mem, forall_optionalWord hw dc (by decide)⟩, hw "motor" (by decide)⟩,
      forall_onPin hw hd pin⟩, forall_forTime hw hd hu time⟩
  | delay verb filler time =>
    simp only [tokens, List.forall_mem_append, List.forall_mem_singleton]
    exact ⟨⟨hw _ verb.text_mem, forall_optionalWord hw filler (by decide)⟩,
      forall_measured hw hd hu time.amount time.apart time.unit.text_mem⟩
  | sensor word pin =>
    refine List.forall_mem_cons.mpr ⟨hw "read" (by decide), List.forall_mem_cons.mpr ⟨hc word, ?_⟩⟩
    exact List.forall_mem_cons.mpr ⟨hw "sensor" (by decide), forall_onPin hw hd pin⟩
  | print filler quote word lcd =>
    have hl : ∀ t ∈ if lcd then ["on".toList, "lcd".toList] else [], P t := by
      cases lcd with
      | false => simp
      | true => exact List.forall_mem_cons.mpr ⟨hw "on" (by decide),
          List.forall_mem_singleton.mpr (hw "lcd" (by decide))⟩
    simp only [tokens, List.forall_mem_append, List.forall_mem_singleton]
    exact ⟨⟨⟨hw "print" (by decide), forall_optionalWord hw filler (by decide)⟩, hq quote word⟩, hl⟩

end

/-- The token is not empty and holds word characters and quotes only. -/
def IsToken (t : List Char) : Prop := t ≠ [] ∧ ∀ c ∈ t, isPlain c = true ∨ isQuote c = true

instance : DecidablePred IsToken := fun t =>
  inferInstanceAs (Decidable (t ≠ [] ∧ ∀ c ∈ t, isPlain c = true ∨ isQuote c = true))

theorem IsToken.solid (h : IsToken t) : Solid t := by
  intro c hc
  rcases h.2 c hc with hp | hq
  · exact not_isBlank_of_isPlain hp
  · simp only [isQuote, Bool.or_eq_true, beq_iff_eq] at hq
    rcases hq with rfl | rfl <;> decide

theorem isToken_of_isPlain (hn : t ≠ []) (h : ∀ c ∈ t, isPlain c = true) : IsToken t :=
  ⟨hn, fun c hc => .inl (h c hc)⟩

theorem IsToken.append (ht : IsToken t) (hu : IsToken u) : IsToken (t ++ u) :=
  ⟨by simp [ht.1], fun c hc => (List.mem_append.mp hc).elim (ht.2 c) (hu.2 c)⟩

theorem isToken_of_mem_words : ∀ w ∈ words, IsToken w.toList := by decide

theorem Digits.isToken (n : Digits) : IsToken n.chars :=
  isToken_of_isPlain n.ne_nil fun c hc => isPlain_of_isDigit (n.isDigit c hc)

theorem Word.isToken (w : Word) : IsToken w.chars := isToken_of_isPlain w.ne_nil w.isPlain

theorem Quote.isToken (q : Quote) : IsToken [q.char] := by cases q <;> decide

theorem Sentence.isToken_of_mem (x : Sentence) : ∀ t ∈ x.tokens, IsToken t := by
  cases x with
  | request r =>
    refine Request.forall_tokens isToken_of_mem_words Digits.isToken ?_ Word.isToken ?_ r fun _ =>
      by decide
    · exact fun n w hw => n.isToken.append (isToken_of_mem_words w hw)
    · exact fun q w => q.isToken.append (w.isToken.append q.isToken)
  | repetition n =>
    have hr := isToken_of_mem_words "repeat" (by decide)
    have ht := isToken_of_mem_words "times" (by decide)
    refine List.forall_mem_cons.mpr ⟨hr, List.forall_mem_cons.mpr ⟨n.isToken, ?_⟩⟩
    exact List.forall_mem_singleton.mpr ht

/-- Only a request to blink mentions blinking. -/
theorem Request.not_blink (x : Request) (hx : x.rule ≠ .blink) :
    ∀ t ∈ x.tokens, ¬ "blink".toList <:+: t := by
  have absent {t : List Char} (h : 'b' ∉ t) : ¬ "blink".toList <:+: t :=
    fun hb => h (hb.subset (by decide))
  have digits (n : Digits) : 'b' ∉ n.chars := fun hb => absurd (n.isDigit _ hb) (by decide)
  have fixed : ∀ w ∈ words, 'b' ∉ w.toList := by decide
  refine forall_tokens (fun w hw => absent (fixed w hw)) (fun n => absent (digits n)) ?_
    Word.not_blink ?_ x fun h => absurd h hx
  · exact fun n w hw => absent (by simp only [List.mem_append, not_or]; exact ⟨digits n, fixed w hw⟩)
  · intro q w h
    have hq : q.char ∉ "blink".toList := by cases q <;> decide
    have hn {t : List Char} (h : "blink".toList <:+: t) (ht : t = []) : False := by
      simp [ht] at h
    rcases infix_append_cons (t := []) hq h with h | h
    · exact hn h rfl
    · exact (infix_append_cons hq h).elim w.not_blink fun h => hn h rfl

end BlockSketch.Prompt
