import BlockSketch.Proofs.Leftmost
import BlockSketch.Proofs.Tokens

/-! # Numbers in a sentence about a blinking LED

The pin and the duration are searched for on their own, in the same text. Neither search takes a number
apart: white space stands before a pin, and a duration that began inside a run of digits would begin
one digit earlier too.
-/

namespace BlockSketch.Prompt

open Text

variable {s t u ds before rest : List Char} {pin : Option (List Char)} {time : Option Span}

/-- A whole run of digits of the text, with what stands before it and after it. -/
structure DigitRun (s before ds rest : List Char) : Prop where
  eq : s = before ++ (ds ++ rest)
  ne_nil : ds ≠ []
  digits : ∀ c ∈ ds, isDigit c = true
  before : ∀ c ∈ before.getLast?, isDigit c = false
  after : ∀ c ∈ rest.head?, isDigit c = false

theorem DigitRun.runAt (h : DigitRun s before ds rest) : RunAt isDigit (ds ++ rest) ds rest :=
  ⟨rfl, h.ne_nil, h.digits, h.after⟩

theorem digitRun_of_runAt (h : RunAt isDigit t ds rest)
    (hb : ∀ c ∈ before.getLast?, isDigit c = false) : DigitRun (before ++ t) before ds rest :=
  ⟨by rw [h.eq], h.ne_nil, h.all, hb, h.stop⟩

/-! ## Pins -/

/-- `pin`, white space; then the rest, which begins with a digit. -/
def PinHead (t rest : List Char) : Prop :=
  Begins [.word "pin", .gap] t rest ∧ ∃ c ∈ rest.head?, isDigit c = true

/-- The digits after the first `pin` that has some after it, if there is one. -/
inductive PinSaid (s : List Char) : Option (List Char) → Prop where
  | found {t u ds rest : List Char} : First (fun t => ∃ u, PinHead t u) s t → PinHead t u →
      RunAt isDigit u ds rest → PinSaid s (some ds)
  | absent : (∀ t, t <:+ s → ¬ ∃ u, PinHead t u) → PinSaid s none

theorem pinAfterWord?_eq_some_iff : pinAfterWord? t = some (ds, rest) ↔
    ∃ u, PinHead t u ∧ RunAt isDigit u ds rest := by
  have read : pinAfterWord? t = (opening? [.word "pin", .gap] t >>= digits?) := by
    simp only [pinAfterWord?, opening?, Option.bind_eq_bind, Option.bind_assoc, Option.bind_some]
  have guarded (u : List Char) (hu : Flush u) : Guarded [.word "pin", .gap] u := hu
  rw [read, opening?_bind_digits?_eq_some_iff guarded]
  refine exists_congr fun u => ?_
  constructor
  · rintro ⟨hu, hr⟩
    exact ⟨⟨hu, (run?_iff.mp (run?_eq_some_iff.mpr hr)).1⟩, hr⟩
  · rintro ⟨hu, hr⟩
    exact ⟨hu.1, hr⟩

theorem exists_pinHead_iff (t : List Char) :
    (∃ u, PinHead t u) ↔ ∃ a, pinAfterWord? t = some a := by
  constructor
  · rintro ⟨u, hu⟩
    have run := run?_eq_some_iff.mp (run?_iff.mpr ⟨hu.2, rfl, rfl⟩)
    exact ⟨_, pinAfterWord?_eq_some_iff.mpr ⟨u, hu, run⟩⟩
  · rintro ⟨⟨ds, rest⟩, h⟩
    obtain ⟨u, hu, -⟩ := pinAfterWord?_eq_some_iff.mp h
    exact ⟨u, hu⟩

theorem pinSaid_iff : PinSaid s pin ↔ (search pinAfterWord? s).map Prod.fst = pin := by
  constructor
  · rintro (⟨hf, hu, hr⟩ | h)
    · have said := pinAfterWord?_eq_some_iff.mpr ⟨_, hu, hr⟩
      rw [(search_eq_some_iff_of exists_pinHead_iff).mpr ⟨_, hf, said⟩, Option.map_some]
    · rw [(search_eq_none_iff_of exists_pinHead_iff).mpr h, Option.map_none]
  · rintro rfl
    cases h : search pinAfterWord? s with
    | none => exact .absent ((search_eq_none_iff_of exists_pinHead_iff).mp h)
    | some a =>
      obtain ⟨t, ht, ha⟩ := (search_eq_some_iff_of exists_pinHead_iff).mp h
      obtain ⟨u, hu, hr⟩ := pinAfterWord?_eq_some_iff.mp ha
      exact .found ht hu hr

/-- White space stands before the digits of a pin, so they are a whole run. -/
theorem PinSaid.digitRun (h : PinSaid s (some ds)) : ∃ before rest, DigitRun s before ds rest := by
  cases h with
  | @found t u _ rest hf hu hr =>
    obtain ⟨b, rfl⟩ := hf.suffix
    obtain ⟨begins, -⟩ := hu
    cases begins with
    | word begins =>
      cases begins with
      | @gap g _ _ _ hn hg begins =>
        cases begins
        refine ⟨b ++ ("pin".toList ++ g), rest, ?_⟩
        have split : b ++ ("pin".toList ++ (g ++ u)) = b ++ ("pin".toList ++ g) ++ u := by
          simp only [List.append_assoc]
        rw [split]
        refine digitRun_of_runAt hr fun c hc => ?_
        rw [← List.append_assoc, List.getLast?_append_of_ne_nil _ hn] at hc
        exact (separate_of_isBlank (hg c (List.mem_of_getLast? hc))).2.2

/-! ## Durations -/

/-- The first run of digits that a unit of time comes after, if there is one. -/
inductive TimeSaid (s : List Char) : Option Span → Prop where
  | found {before rest : List Char} {t : Span} : DigitRun s before t.digits rest →
      Timed rest t.seconds →
      (∀ before' ds' rest' seconds', DigitRun s before' ds' rest' → Timed rest' seconds' →
        before.length ≤ before'.length) → TimeSaid s (some t)
  | absent : (∀ before ds rest seconds, DigitRun s before ds rest → ¬ Timed rest seconds) →
      TimeSaid s none

/-- What a duration is read from begins with a run of digits, which a unit comes after. -/
theorem exists_timed_iff (t : List Char) :
    (∃ ds rest seconds, RunAt isDigit t ds rest ∧ Timed rest seconds) ↔ ∃ a, span? t = some a := by
  simp only [span?_eq_some_iff]
  constructor
  · rintro ⟨ds, rest, seconds, hr, ht⟩
    exact ⟨⟨ds, seconds⟩, rest, hr, ht⟩
  · rintro ⟨a, rest, hr, ht⟩
    exact ⟨a.digits, rest, a.seconds, hr, ht⟩

theorem DigitRun.span?_eq (h : DigitRun s before ds rest) {seconds : Bool} (ht : Timed rest seconds) :
    span? (ds ++ rest) = some ⟨ds, seconds⟩ :=
  span?_eq_some_iff.mpr ⟨rest, h.runAt, ht⟩

/-- The first place where a duration can be read is not inside a run of digits: it could be read one
digit earlier. -/
theorem not_isDigit_of_first {b : List Char}
    (hf : First (fun t => ∃ ds rest seconds, RunAt isDigit t ds rest ∧ Timed rest seconds) (b ++ t) t) :
    ∀ c ∈ b.getLast?, isDigit c = false := by
  intro c hc
  obtain ⟨ds, rest, seconds, hr, ht⟩ := hf.holds
  obtain ⟨b, rfl⟩ := List.getLast?_eq_some_iff.mp hc
  by_contra hd
  have longer : RunAt isDigit (c :: t) (c :: ds) rest :=
    ⟨by rw [hr.eq, List.cons_append], List.cons_ne_nil _ _,
      List.forall_mem_cons.mpr ⟨by simpa using hd, hr.all⟩, hr.stop⟩
  have earlier : c :: t <:+ b ++ [c] ++ t := ⟨b, by simp⟩
  have := (hf.first (c :: t) earlier ⟨c :: ds, rest, seconds, longer, ht⟩).length_le
  rw [List.length_cons] at this
  omega

theorem timeSaid_of_search (h : search span? s = time) : TimeSaid s time := by
  subst h
  cases h : search span? s with
  | none =>
    refine .absent fun before ds rest seconds hr ht => ?_
    have := search_eq_none_iff.mp h (ds ++ rest) ⟨before, hr.eq.symm⟩
    rw [hr.span?_eq ht] at this
    cases this
  | some t =>
    obtain ⟨u, hu, ht⟩ := (search_eq_some_iff_of exists_timed_iff).mp h
    obtain ⟨rest, hr, ht⟩ := span?_eq_some_iff.mp ht
    obtain ⟨b, rfl⟩ := hu.suffix
    refine .found (digitRun_of_runAt hr (not_isDigit_of_first hu)) ht ?_
    intro before' ds' rest' seconds' hr' ht'
    have later := hu.first (ds' ++ rest') ⟨before', hr'.eq.symm⟩ ⟨ds', rest', seconds', hr'.runAt, ht'⟩
    have lengths := congrArg List.length hr'.eq
    rw [List.length_append, List.length_append] at lengths
    have := later.length_le
    omega

theorem TimeSaid.unique {time' : Option Span} (h : TimeSaid s time) (h' : TimeSaid s time') :
    time = time' := by
  cases h with
  | absent none =>
    cases h' with
    | absent => rfl
    | found hr ht => exact absurd ht (none _ _ _ _ hr)
  | found hr ht hf =>
    cases h' with
    | absent none => exact absurd ht (none _ _ _ _ hr)
    | found hr' ht' hf' =>
      have same := le_antisymm (hf _ _ _ _ hr' ht') (hf' _ _ _ _ hr ht)
      have text := (List.append_inj (hr.eq.symm.trans hr'.eq) same).2
      have read := hr.span?_eq ht
      rw [text, hr'.span?_eq ht'] at read
      exact read.symm

theorem timeSaid_iff : TimeSaid s time ↔ search span? s = time :=
  ⟨fun h => (timeSaid_of_search rfl).unique h, timeSaid_of_search⟩

theorem TimeSaid.digitRun {t : Span} (h : TimeSaid s (some t)) :
    ∃ before rest, DigitRun s before t.digits rest := by
  cases h with
  | found hr => exact ⟨_, _, hr⟩

/-! ## The rule -/

/-- An LED blinks, at a pin if one is named, and for the usual time if none is named. -/
def blinking (pin : Option (List Char)) (time : Option Span) : Action where
  kind := .set
  component := some "led"
  pin := pin.map fun ds => (digitsValue ds : Int)
  value := some (.text "blink")
  duration := some ((time.map Span.value).getD standardBlink)

theorem blink_eq_heard (hb : "blink".toList <:+: s) (hl : "led".toList <:+: s)
    (hp : PinSaid s pin) (ht : TimeSaid s time) :
    blink s = heard ((time.map Span.digits).toList ++ pin.toList) (blinking pin time) := by
  have nonempty : pin ≠ some [] := by
    rintro rfl
    obtain ⟨_, _, run⟩ := hp.digitRun
    exact run.ne_nil rfl
  rw [blink, occurs_iff.mpr hb, occurs_iff.mpr hl, pinSaid_iff.mp hp, timeSaid_iff.mp ht]
  exact span_bind_heard (f := fun d p => {
    kind := .set, component := some "led", pin := p, value := some (.text "blink"),
    duration := some d }) nonempty

/-- In a text that says `blink` and `led`, and whose numbers can all be read, the pin is the number
after the first `pin` that has one, and the duration is the first number that a unit of time comes
after. Both are whole runs of digits of the text. -/
theorem blink_whole_numbers (hb : "blink".toList <:+: s) (hl : "led".toList <:+: s)
    (hd : ∀ before ds rest, DigitRun s before ds rest → ds.length ≤ Numeral.maxDigits) :
    ∃ pin time, PinSaid s pin ∧ TimeSaid s time ∧ blink s = .ok (some (blinking pin time)) ∧
      ∀ ds ∈ (time.map Span.digits).toList ++ pin.toList, ∃ before rest, DigitRun s before ds rest := by
  obtain ⟨pin, hp⟩ : ∃ pin, PinSaid s pin := ⟨_, pinSaid_iff.mpr rfl⟩
  obtain ⟨time, ht⟩ : ∃ time, TimeSaid s time := ⟨_, timeSaid_iff.mpr rfl⟩
  have whole : ∀ ds ∈ (time.map Span.digits).toList ++ pin.toList,
      ∃ before rest, DigitRun s before ds rest := by
    intro ds hm
    simp only [List.mem_append, Option.mem_toList, Option.map_eq_some_iff] at hm
    rcases hm with ⟨t, rfl, rfl⟩ | rfl
    · exact ht.digitRun
    · exact hp.digitRun
  refine ⟨pin, time, hp, ht, ?_, whole⟩
  rw [blink_eq_heard hb hl hp ht]
  refine heard_eq_ok fun ds hm => ?_
  obtain ⟨before, rest, run⟩ := whole ds hm
  exact hd before ds rest run

/-- Of its seven numbers one is the pin and one the duration. -/
def crowded : List Char := "pin x4 blink led2 on pin 13 for 5 min 250ms or 2 seconds pin 7".toList

theorem blink_whole_numbers_crowded :
    (∀ before ds rest, DigitRun crowded before ds rest → ds.length ≤ Numeral.maxDigits) ∧
    blink crowded = .ok (some {
      kind := .set, component := some "led", pin := some 13, value := some (.text "blink"),
      duration := some 250 }) ∧
    ∃ pin time, PinSaid crowded pin ∧ TimeSaid crowded time ∧
      blink crowded = .ok (some (blinking pin time)) ∧
      ∀ ds ∈ (time.map Span.digits).toList ++ pin.toList,
        ∃ before rest, DigitRun crowded before ds rest := by
  have readable : ∀ before ds rest, DigitRun crowded before ds rest →
      ds.length ≤ Numeral.maxDigits := by
    intro before ds rest h
    have lengths := congrArg List.length h.eq
    rw [List.length_append, List.length_append] at lengths
    have short : crowded.length ≤ Numeral.maxDigits := by decide
    omega
  have blinks : "blink".toList <:+: crowded := ⟨"pin x4 ".toList, _, rfl⟩
  have led : "led".toList <:+: crowded := ⟨"pin x4 blink ".toList, _, rfl⟩
  exact ⟨readable, rfl, blink_whole_numbers blinks led readable⟩

end BlockSketch.Prompt
