import BlockSketch.Proofs.Characters
import BlockSketch.Proofs.Occurrences
import BlockSketch.Prompt.Rule

/-! # Sentences that turn things on and run motors

Which words of a sentence these rules go by is said without a word on how they are looked for. The
first place where the head of the template stands counts; from there on everything is read as far as
it goes, and a part that may be left out is there exactly if the text goes on with it.
-/

namespace BlockSketch.Prompt

open Text

variable {s u rest tail ds : List Char} {pin : Option (List Char)} {t : Span} {on : Bool}

/-! ## Numbers -/

/-- The action that is made of runs of digits, unless one of them is too long to be read. The first
such run is the fault. -/
def heard (runs : List (List Char)) (a : Action) : Except NumeralFault (Option Action) :=
  match runs.find? fun ds => decide (Numeral.maxDigits < ds.length) with
  | some ds => .error (.tooManyDigits ds.length)
  | none => .ok (some a)

/-- The milliseconds that a duration means. -/
def Span.value (t : Span) : Int :=
  if t.seconds then (digitsValue t.digits : Int) * 1000 else digitsValue t.digits

theorem heard_eq_ok {runs : List (List Char)} {a : Action}
    (h : ∀ ds ∈ runs, ds.length ≤ Numeral.maxDigits) : heard runs a = .ok (some a) := by
  have readable : runs.find? (fun ds => decide (Numeral.maxDigits < ds.length)) = none :=
    List.find?_eq_none.mpr fun ds hd => by simpa using h ds hd
  rw [heard, readable]

theorem heard_ne_none {runs : List (List Char)} {a : Action} : heard runs a ≠ .ok none := by
  unfold heard
  split <;> simp

theorem ofDigits_bind_heard (ds : List Char) (runs : List (List Char)) (f : Nat → Action) :
    (Numeral.ofDigits ds >>= fun n => heard runs (f n)) = heard (ds :: runs) (f (digitsValue ds)) := by
  unfold Numeral.ofDigits heard
  by_cases h : Numeral.maxDigits < ds.length
  · rw [List.find?_cons_of_pos (by simpa using h), if_pos h]
    rfl
  · rw [List.find?_cons_of_neg (by simpa using h), if_neg h]
    rfl

theorem optionalNumber_bind_heard {f : Option Int → Action} (hp : pin ≠ some []) :
    (optionalNumber pin >>= fun p => pure (some (f p))) =
      heard pin.toList (f (pin.map fun ds => (digitsValue ds : Int))) := by
  rcases pin with _ | _ | ⟨c, ds⟩
  · rfl
  · exact absurd rfl hp
  · have one := ofDigits_bind_heard (c :: ds) [] fun n => f (some (n : Int))
    have number : optionalNumber (some (c :: ds)) =
        Numeral.ofDigits (c :: ds) >>= fun n => pure (some (n : Int)) := by
      simp only [optionalNumber]
      cases Numeral.ofDigits (c :: ds) <;> rfl
    rw [Option.toList_some, Option.map_some, ← one, number]
    cases Numeral.ofDigits (c :: ds) <;> rfl

/-- A duration is read before a pin; `d` stands in if there is none. -/
theorem span_bind_heard {o : Option Span} {d : Int} {f : Int → Option Int → Action}
    (hp : pin ≠ some []) :
    (match o with
      | some t => t.milliseconds >>= fun d => optionalNumber pin >>= fun p => pure (some (f d p))
      | none => pure d >>= fun d => optionalNumber pin >>= fun p => pure (some (f d p))) =
      heard ((o.map Span.digits).toList ++ pin.toList)
        (f ((o.map Span.value).getD d) (pin.map fun ds => (digitsValue ds : Int))) := by
  cases o with
  | none => exact optionalNumber_bind_heard hp
  | some t =>
    have one := ofDigits_bind_heard t.digits pin.toList fun n =>
      f (if t.seconds then (n : Int) * 1000 else n) (pin.map fun ds => (digitsValue ds : Int))
    simp only [optionalNumber_bind_heard hp]
    rw [Option.map_some, Option.map_some, Option.toList_some, Option.getD_some, List.singleton_append,
      Span.value, ← one, Span.milliseconds]
    cases Numeral.ofDigits t.digits <;> rfl

/-! ## Parts -/

/-- A part that may be left out: it is given if the text goes on with it, and then the rest follows it. -/
inductive Optionally {α : Type} (R : List Char → α → List Char → Prop) :
    List Char → Option α → List Char → Prop where
  | given {s : List Char} {a : α} {rest : List Char} : R s a rest → Optionally R s (some a) rest
  | absent {s : List Char} : (∀ a rest, ¬ R s a rest) → Optionally R s none s

/-- White space, `on`, white space, `pin`, white space and a whole run of digits. -/
def OnPin (s ds rest : List Char) : Prop :=
  ∃ u, Begins [.gap, .word "on", .gap, .word "pin", .gap] s u ∧ RunAt isDigit u ds rest

/-- A unit of time, after white space or right away; units that start with `s` are seconds. -/
def Timed (s : List Char) (seconds : Bool) : Prop :=
  ∃ unit ∈ ["ms", "millisecond", "second"], seconds = (unit.toList.head? == some 's') ∧
    ∃ g rest, (∀ c ∈ g, isBlank c = true) ∧ s = g ++ (unit.toList ++ rest)

/-- White space, `for`, white space, a whole run of digits and a unit of time. -/
def ForTime (s : List Char) (t : Span) (rest : List Char) : Prop :=
  ∃ u, Begins [.gap, .word "for", .gap] s u ∧ RunAt isDigit u t.digits rest ∧ Timed rest t.seconds

theorem flush_of_digits (h : RunAt isDigit s ds rest) : Flush s := by
  obtain ⟨rfl, hn, ha, -⟩ := h
  obtain ⟨c, ds, rfl⟩ := List.exists_cons_of_ne_nil hn
  rintro _ ⟨⟩
  exact not_isBlank_of_isDigit (ha c List.mem_cons_self)

/-- A pattern with a run of digits after it is read from left to right. -/
theorem opening?_bind_digits?_eq_some_iff {ps : List Item} (hg : ∀ u, Flush u → Guarded ps u) :
    (opening? ps s >>= digits?) = some (ds, rest) ↔
      ∃ u, Begins ps s u ∧ RunAt isDigit u ds rest := by
  simp only [Option.bind_eq_bind, Option.bind_eq_some_iff, digits?, run?_eq_some_iff]
  refine exists_congr fun u => and_congr_left fun hu => ?_
  exact opening?_eq_some_iff (hg u (flush_of_digits hu))

theorem onPin?_eq_some_iff : onPin? s = some (ds, rest) ↔ OnPin s ds rest := by
  have last : pinAfterWord? = fun s => after? "pin".toList s >>= blanks? >>= digits? := rfl
  have read : onPin? s = (opening? [.gap, .word "on", .gap, .word "pin", .gap] s >>= digits?) := by
    simp only [onPin?, blanksThen?, last, opening?, Option.bind_eq_bind, Option.bind_assoc,
      Option.bind_some]
  have guarded (u : List Char) (hu : Flush u) :
      Guarded [.gap, .word "on", .gap, .word "pin", .gap] u :=
    ⟨by decide, by decide, by decide, by decide, hu⟩
  rw [read, opening?_bind_digits?_eq_some_iff guarded]
  rfl

theorem optionalPin_iff : optionalPin s = (pin, tail) ↔ Optionally OnPin s pin tail := by
  unfold optionalPin
  constructor
  · intro h
    split at h
    · next ds rest hp =>
      obtain ⟨rfl, rfl⟩ := Prod.mk.inj h
      exact .given (onPin?_eq_some_iff.mp hp)
    · next hp =>
      obtain ⟨rfl, rfl⟩ := Prod.mk.inj h
      exact .absent fun ds rest hr => by simp [onPin?_eq_some_iff.mpr hr] at hp
  · rintro (h | h)
    · rw [onPin?_eq_some_iff.mpr h]
    · have none : onPin? s = none :=
        Option.eq_none_iff_forall_ne_some.mpr fun a ha => h a.1 a.2 (onPin?_eq_some_iff.mp ha)
      rw [none]

/-- A text begins with at most one of the units. -/
theorem unit?_append (rest : List Char) : unit? ("ms".toList ++ rest) = some false ∧
    unit? ("millisecond".toList ++ rest) = some false ∧
    unit? ("second".toList ++ rest) = some true := ⟨rfl, rfl, rfl⟩

theorem unit?_eq_some_iff {seconds : Bool} : unit? s = some seconds ↔
    ∃ unit ∈ ["ms", "millisecond", "second"], seconds = (unit.toList.head? == some 's') ∧
      ∃ rest, s = unit.toList ++ rest := by
  constructor
  · intro h
    obtain ⟨x, hx, h⟩ := List.exists_of_findSome?_eq_some h
    obtain ⟨rest, hr, rfl⟩ := Option.map_eq_some_iff.mp h
    rw [after?_eq_some_iff] at hr
    simp only [units, List.mem_cons, List.not_mem_nil, or_false] at hx
    rcases hx with rfl | rfl | rfl
    · exact ⟨"ms", by simp, rfl, rest, hr⟩
    · exact ⟨"millisecond", by simp, rfl, rest, hr⟩
    · exact ⟨"second", by simp, rfl, rest, hr⟩
  · rintro ⟨unit, hu, rfl, rest, rfl⟩
    simp only [List.mem_cons, List.not_mem_nil, or_false] at hu
    obtain ⟨ms, millisecond, second⟩ := unit?_append rest
    rcases hu with rfl | rfl | rfl
    · exact ms
    · exact millisecond
    · exact second

theorem flush_unit {unit : String} (h : unit ∈ ["ms", "millisecond", "second"]) (rest : List Char) :
    Flush (unit.toList ++ rest) := by
  simp only [List.mem_cons, List.not_mem_nil, or_false] at h
  rcases h with rfl | rfl | rfl <;> rintro c ⟨⟩ <;> decide

theorem unit?_dropWhile_eq_some_iff {seconds : Bool} :
    unit? (s.dropWhile isBlank) = some seconds ↔ Timed s seconds := by
  rw [unit?_eq_some_iff, Timed]
  refine exists_congr fun unit => and_congr_right fun hu => and_congr_right fun _ => ?_
  constructor
  · rintro ⟨rest, hr⟩
    refine ⟨s.takeWhile isBlank, rest, fun c hc => List.mem_takeWhile_imp hc, ?_⟩
    rw [← hr, List.takeWhile_append_dropWhile]
  · rintro ⟨g, rest, hg, rfl⟩
    exact ⟨rest, (run_append hg (flush_unit hu rest)).2⟩

theorem span?_eq_some_iff : span? s = some t ↔
    ∃ rest, RunAt isDigit s t.digits rest ∧ Timed rest t.seconds := by
  have read : span? s = digits? s >>= fun r =>
      unit? (r.2.dropWhile isBlank) >>= fun seconds => some ⟨r.1, seconds⟩ := rfl
  simp only [read, Option.bind_eq_bind, Option.bind_eq_some_iff, unit?_dropWhile_eq_some_iff,
    Option.some.injEq, digits?]
  constructor
  · rintro ⟨⟨ds, rest⟩, hr, seconds, hu, rfl⟩
    exact ⟨rest, run?_eq_some_iff.mp hr, hu⟩
  · rintro ⟨rest, hr, hu⟩
    exact ⟨(t.digits, rest), run?_eq_some_iff.mpr hr, t.seconds, hu, rfl⟩

/-! ## Turning on and off -/

/-- `turn`, white space, `on` or `off`, white space; then the rest, which begins with a word. -/
def TurnHead (on : Bool) (t rest : List Char) : Prop :=
  Begins [.word "turn", .gap, .word (if on then "on" else "off"), .gap] t rest ∧
    ∃ c ∈ rest.head?, isWord c = true

theorem turnHead_iff : TurnHead on s u ↔ (∃ c ∈ u.head?, isWord c = true) ∧
    ∃ t a b, after? "turn".toList s = some t ∧ blanks? t = some a ∧
      after? (if on then "on" else "off").toList a = some b ∧ blanks? b = some u := by
  rw [TurnHead, and_comm]
  refine and_congr_right fun ⟨c, hc, hw⟩ => ?_
  have flush : Flush u := by
    intro d hd
    rw [Option.mem_unique hd hc]
    exact not_isBlank_of_isWord hw
  have guarded : Guarded [.word "turn", .gap, .word (if on then "on" else "off"), .gap] u := by
    cases on <;> exact ⟨by decide, by decide, flush⟩
  rw [← opening?_eq_some_iff guarded]
  simp only [opening?, Option.bind_eq_bind, Option.bind_eq_some_iff, Option.some.injEq]
  constructor
  · rintro ⟨t, ht, a, ha, b, hb, v, hv, rfl⟩
    exact ⟨t, a, b, ht, ha, hb, hv⟩
  · rintro ⟨t, a, b, ht, ha, hb, hv⟩
    exact ⟨t, ht, a, ha, b, hb, u, hv, rfl⟩

/-- What is read after `on` or `off`: white space, a word, and the pin if it comes next. -/
theorem switched_eq_some_iff {x : Turn} :
    ((blanks? s >>= word?) >>= fun r => some (Turn.mk on r.1 (optionalPin r.2).1)) = some x ↔
      ∃ u, blanks? s = some u ∧ (∃ c ∈ u.head?, isWord c = true) ∧ on = x.on ∧
        x.word = u.takeWhile isWord ∧ x.pin = (optionalPin (u.dropWhile isWord)).1 := by
  simp only [Option.bind_eq_bind, Option.bind_eq_some_iff, Option.some.injEq, word?]
  constructor
  · rintro ⟨⟨word, rest⟩, ⟨u, hb, hu⟩, rfl⟩
    obtain ⟨hw, rfl, rfl⟩ := run?_iff.mp hu
    exact ⟨u, hb, hw, rfl, rfl, rfl⟩
  · rintro ⟨u, hb, hw, rfl, hx, hp⟩
    refine ⟨(u.takeWhile isWord, u.dropWhile isWord), ⟨u, hb, run?_iff.mpr ⟨hw, rfl, rfl⟩⟩, ?_⟩
    rw [← hx, ← hp]

theorem after?_on_of_off (h : after? "off".toList s = some rest) : after? "on".toList s = none := by
  rw [after?_eq_some_iff.mp h]
  rfl

theorem turnAt?_eq_some_iff {x : Turn} : turnAt? s = some x ↔ ∃ u, TurnHead x.on s u ∧
    x.word = u.takeWhile isWord ∧ x.pin = (optionalPin (u.dropWhile isWord)).1 := by
  simp only [turnHead_iff]
  unfold turnAt?
  constructor
  · intro h
    obtain ⟨a, ha, h⟩ := Option.bind_eq_some_iff.mp h
    obtain ⟨t, ht, ha⟩ := Option.bind_eq_some_iff.mp ha
    split at h
    · next b hb =>
      obtain ⟨u, hu, hw, hx, hp⟩ := switched_eq_some_iff.mp h
      exact ⟨u, ⟨hw, t, a, b, ht, ha, hx ▸ hb, hu⟩, hp⟩
    · obtain ⟨r, hr, h⟩ := Option.bind_eq_some_iff.mp h
      obtain ⟨b, hb, rfl⟩ := Option.map_eq_some_iff.mp hr
      obtain ⟨u, hu, hw, hx, hp⟩ := switched_eq_some_iff.mp h
      exact ⟨u, ⟨hw, t, a, b, ht, ha, hx ▸ hb, hu⟩, hp⟩
  · rintro ⟨u, ⟨hw, t, a, b, ht, ha, hb, hu⟩, hp⟩
    refine Option.bind_eq_some_iff.mpr ⟨a, Option.bind_eq_some_iff.mpr ⟨t, ht, ha⟩, ?_⟩
    cases hx : x.on with
    | true =>
      rw [hx] at hb
      rw [show after? "on".toList a = some b from hb]
      exact switched_eq_some_iff.mpr ⟨u, hu, hw, hx.symm, hp⟩
    | false =>
      rw [hx] at hb
      have off : after? "off".toList a = some b := hb
      rw [after?_on_of_off off, off]
      exact switched_eq_some_iff.mpr ⟨u, hu, hw, hx.symm, hp⟩

/-! ## Motors -/

/-- `spin`, `start` or `run`, white space, perhaps `dc` and white space, `motor`; then the rest. -/
def MotorHead (t rest : List Char) : Prop :=
  ∃ verb ∈ ["spin", "start", "run"], Begins [.word verb, .gap, .word "motor"] t rest ∨
    Begins [.word verb, .gap, .word "dc", .gap, .word "motor"] t rest

theorem motorVerb?_eq_some_iff :
    motorVerb? s = some rest ↔ ∃ verb ∈ ["spin", "start", "run"], after? verb.toList s = some rest := by
  constructor
  · exact fun h => List.exists_of_findSome?_eq_some h
  · rintro ⟨verb, hv, h⟩
    obtain rfl := after?_eq_some_iff.mp h
    simp only [List.mem_cons, List.not_mem_nil, or_false] at hv
    rcases hv with rfl | rfl | rfl <;> rfl

/-- The text goes on with `motor`, perhaps after `dc` and white space. -/
theorem after?_skip_eq_some_iff :
    after? "motor".toList (skip? (fun s => after? "dc".toList s >>= blanks?) s) = some u ↔
      after? "motor".toList s = some u ∨
        ∃ t a, after? "dc".toList s = some t ∧ blanks? t = some a ∧ after? "motor".toList a = some u := by
  constructor
  · intro h
    cases hd : after? "dc".toList s >>= blanks? with
    | none => exact .inl (by rwa [skip?, hd] at h)
    | some a =>
      rw [skip?, hd] at h
      obtain ⟨t, ht, ha⟩ := Option.bind_eq_some_iff.mp hd
      exact .inr ⟨t, a, ht, ha, h⟩
  · rintro (h | ⟨t, a, ht, ha, h⟩)
    · obtain rfl := after?_eq_some_iff.mp h
      rfl
    · rw [skip?, ht]
      exact (congrArg (fun o => after? "motor".toList (o.getD s)) ha).trans h

theorem motorHead_iff : MotorHead s u ↔ ∃ r a, motorVerb? s = some r ∧ blanks? r = some a ∧
    after? "motor".toList (skip? (fun s => after? "dc".toList s >>= blanks?) a) = some u := by
  have short (verb : String) : Guarded [.word verb, .gap, .word "motor"] u :=
    ⟨by decide, by decide, trivial⟩
  have long (verb : String) : Guarded [.word verb, .gap, .word "dc", .gap, .word "motor"] u :=
    ⟨by decide, by decide, by decide, by decide, trivial⟩
  simp only [after?_skip_eq_some_iff, motorVerb?_eq_some_iff, MotorHead,
    ← opening?_eq_some_iff (short _), ← opening?_eq_some_iff (long _)]
  simp only [opening?, Option.bind_eq_bind, Option.bind_eq_some_iff, Option.some.injEq]
  constructor
  · rintro ⟨verb, hv, ⟨r, hr, a, ha, v, hu, rfl⟩ | ⟨r, hr, a, ha, t, ht, b, hb, v, hu, rfl⟩⟩
    · exact ⟨r, a, ⟨verb, hv, hr⟩, ha, .inl hu⟩
    · exact ⟨r, a, ⟨verb, hv, hr⟩, ha, .inr ⟨t, b, ht, hb, hu⟩⟩
  · rintro ⟨r, a, ⟨verb, hv, hr⟩, ha, hu | ⟨t, b, ht, hb, hu⟩⟩
    · exact ⟨verb, hv, .inl ⟨r, hr, a, ha, u, hu, rfl⟩⟩
    · exact ⟨verb, hv, .inr ⟨r, hr, a, ha, t, ht, b, hb, u, hu, rfl⟩⟩

theorem forTime_iff : (∃ rest, ForTime s t rest) ↔
    (blanksThen? "for" s >>= blanks? >>= span?) = some t := by
  have guarded (u : List Char) (hu : Flush u) : Guarded [.gap, .word "for", .gap] u :=
    ⟨by decide, by decide, hu⟩
  have read : (blanksThen? "for" s >>= blanks? >>= span?) =
      (opening? [.gap, .word "for", .gap] s >>= span?) := by
    simp only [blanksThen?, opening?, Option.bind_eq_bind, Option.bind_assoc, Option.bind_some]
  rw [read]
  simp only [Option.bind_eq_bind, Option.bind_eq_some_iff, span?_eq_some_iff, ForTime]
  constructor
  · rintro ⟨rest, u, hu, hr, ht⟩
    exact ⟨u, (opening?_eq_some_iff (guarded u (flush_of_digits hr))).mpr hu, rest, hr, ht⟩
  · rintro ⟨u, hu, rest, hr, ht⟩
    exact ⟨rest, u, (opening?_eq_some_iff (guarded u (flush_of_digits hr))).mp hu, hr, ht⟩

theorem motorAt?_eq_some_iff {x : MotorRun} : motorAt? s = some x ↔ ∃ u, MotorHead s u ∧
    x.pin = (optionalPin u).1 ∧ ∀ t, x.span = some t ↔ ∃ rest, ForTime (optionalPin u).2 t rest := by
  simp only [motorHead_iff, forTime_iff]
  unfold motorAt?
  constructor
  · intro h
    obtain ⟨a, ha, h⟩ := Option.bind_eq_some_iff.mp h
    obtain ⟨r, hr, ha⟩ := Option.bind_eq_some_iff.mp ha
    obtain ⟨u, hu, h⟩ := Option.bind_eq_some_iff.mp h
    obtain rfl := Option.some.inj h
    exact ⟨u, ⟨r, a, hr, ha, hu⟩, rfl, fun t => Iff.rfl⟩
  · rintro ⟨u, ⟨r, a, hr, ha, hu⟩, hp, ht⟩
    refine Option.bind_eq_some_iff.mpr ⟨a, Option.bind_eq_some_iff.mpr ⟨r, hr, ha⟩, ?_⟩
    refine Option.bind_eq_some_iff.mpr ⟨u, hu, ?_⟩
    obtain ⟨pin, span⟩ := x
    obtain rfl : pin = _ := hp
    obtain rfl : span = _ := Option.ext ht
    rfl

/-! ## The rules -/

/-- Something is turned on or off, at a pin if one is named. -/
def turning (on : Bool) (word : List Char) (pin : Option (List Char)) : Action where
  kind := .set
  component := some (String.ofList word)
  pin := pin.map fun ds => (digitsValue ds : Int)
  value := some (.text (if on then "HIGH" else "LOW"))

/-- A motor is run, at a pin if one is named, for no time if none is named. -/
def running (pin : Option (List Char)) (time : Option Span) : Action where
  kind := .set
  component := some "dc-motor"
  pin := pin.map fun ds => (digitsValue ds : Int)
  value := some (.text "HIGH")
  duration := some ((time.map Span.value).getD 0)

theorem pin_ne_nil (h : Optionally OnPin s pin tail) : pin ≠ some [] := by
  rintro rfl
  cases h with
  | given h =>
    obtain ⟨u, -, hr⟩ := h
    exact hr.ne_nil rfl

theorem optionally_of_forall {α : Type} {R : List Char → α → List Char → Prop} {o : Option α}
    (h : ∀ a, o = some a ↔ ∃ rest, R s a rest) : ∃ rest, Optionally R s o rest := by
  cases o with
  | none => exact ⟨s, .absent fun a rest hr => by simpa using (h a).mpr ⟨rest, hr⟩⟩
  | some a =>
    obtain ⟨rest, hr⟩ := (h a).mp rfl
    exact ⟨rest, .given hr⟩

theorem turnHead_iff_turnAt? (t : List Char) :
    (∃ on u, TurnHead on t u) ↔ ∃ x, turnAt? t = some x := by
  simp only [turnAt?_eq_some_iff]
  constructor
  · rintro ⟨on, u, h⟩
    exact ⟨⟨on, u.takeWhile isWord, (optionalPin (u.dropWhile isWord)).1⟩, u, h, rfl, rfl⟩
  · rintro ⟨x, u, h, -⟩
    exact ⟨x.on, u, h⟩

theorem motorHead_iff_motorAt? (t : List Char) :
    (∃ u, MotorHead t u) ↔ ∃ x, motorAt? t = some x := by
  simp only [motorAt?_eq_some_iff]
  constructor
  · rintro ⟨u, h⟩
    exact ⟨⟨(optionalPin u).1, blanksThen? "for" (optionalPin u).2 >>= blanks? >>= span?⟩, u, h, rfl,
      fun t => forTime_iff.symm⟩
  · rintro ⟨x, u, h, -⟩
    exact ⟨u, h⟩

theorem turn_of_search {x : Turn} (h : search turnAt? s = some x) (hp : x.pin ≠ some []) :
    turn s = heard x.pin.toList (turning x.on x.word x.pin) := by
  rw [turn, h]
  exact optionalNumber_bind_heard (f := fun p => {
    kind := .set, component := some (String.ofList x.word), pin := p,
    value := some (.text (if x.on then "HIGH" else "LOW")) }) hp

theorem motor_of_search {x : MotorRun} (h : search motorAt? s = some x) (hp : x.pin ≠ some []) :
    motor s = heard ((x.span.map Span.digits).toList ++ x.pin.toList) (running x.pin x.span) := by
  rw [motor, h]
  exact span_bind_heard (f := fun d p => {
    kind := .set, component := some "dc-motor", pin := p, value := some (.text "HIGH"),
    duration := some d }) hp

/-- A rule that goes by a search makes nothing of a sentence exactly if the search fails. -/
theorem nothing_iff {α : Type} {f : List Char → Option α} {P : List Char → Prop}
    {r : Except NumeralFault (Option Action)} (hf : ∀ t, P t ↔ ∃ a, f t = some a)
    (hn : search f s = none → r = .ok none) (hs : ∀ x, search f s = some x → r ≠ .ok none) :
    r = .ok none ↔ ∀ t, t <:+ s → ¬ P t := by
  rw [← search_eq_none_iff_of hf]
  refine ⟨fun h => ?_, hn⟩
  by_contra hne
  obtain ⟨x, hx⟩ := Option.ne_none_iff_exists'.mp hne
  exact hs x hx h

theorem exists_turning {x : Turn} (h : search turnAt? s = some x) : ∃ t on u pin tail,
    First (fun t => ∃ on u, TurnHead on t u) s t ∧ TurnHead on t u ∧
      Optionally OnPin (u.dropWhile isWord) pin tail ∧
      turn s = heard pin.toList (turning on (u.takeWhile isWord) pin) := by
  obtain ⟨t, ht, hx⟩ := (search_eq_some_iff_of turnHead_iff_turnAt?).mp h
  obtain ⟨u, hu, hw, hp⟩ := turnAt?_eq_some_iff.mp hx
  have part : Optionally OnPin (u.dropWhile isWord) x.pin (optionalPin (u.dropWhile isWord)).2 :=
    optionalPin_iff.mp (Prod.ext hp.symm rfl)
  exact ⟨t, x.on, u, x.pin, _, ht, hu, part, hw ▸ turn_of_search h (pin_ne_nil part)⟩

theorem exists_running {x : MotorRun} (h : search motorAt? s = some x) : ∃ t u pin tail time rest,
    First (fun t => ∃ u, MotorHead t u) s t ∧ MotorHead t u ∧ Optionally OnPin u pin tail ∧
      Optionally ForTime tail time rest ∧
      motor s = heard ((time.map Span.digits).toList ++ pin.toList) (running pin time) := by
  obtain ⟨t, ht, hx⟩ := (search_eq_some_iff_of motorHead_iff_motorAt?).mp h
  obtain ⟨u, hu, hp, hs⟩ := motorAt?_eq_some_iff.mp hx
  have part : Optionally OnPin u x.pin (optionalPin u).2 := optionalPin_iff.mp (Prod.ext hp.symm rfl)
  obtain ⟨rest, time⟩ := optionally_of_forall hs
  exact ⟨t, u, x.pin, _, x.span, rest, ht, hu, part, time, motor_of_search h (pin_ne_nil part)⟩

/-- `turn` makes an action of a sentence exactly if something is turned on or off somewhere in it. The
first such place says whether it is on or off, the whole word there is the component, and the pin is
the whole run of digits after `on pin`, if that is what comes next. A motor is run in the same way: the
pin is given if `on pin` and digits come right after the head, and the duration if `for`, digits and a
unit come right after both. -/
theorem turn_motor_leftmost (s : List Char) :
    ((turn s = .ok none ↔ ∀ t, t <:+ s → ¬ ∃ on u, TurnHead on t u) ∧
      (turn s ≠ .ok none → ∃ t on u pin tail, First (fun t => ∃ on u, TurnHead on t u) s t ∧
        TurnHead on t u ∧ Optionally OnPin (u.dropWhile isWord) pin tail ∧
        turn s = heard pin.toList (turning on (u.takeWhile isWord) pin))) ∧
    (motor s = .ok none ↔ ∀ t, t <:+ s → ¬ ∃ u, MotorHead t u) ∧
      (motor s ≠ .ok none → ∃ t u pin tail time rest, First (fun t => ∃ u, MotorHead t u) s t ∧
        MotorHead t u ∧ Optionally OnPin u pin tail ∧ Optionally ForTime tail time rest ∧
        motor s = heard ((time.map Span.digits).toList ++ pin.toList) (running pin time)) := by
  have turned (h : search turnAt? s = none) : turn s = .ok none := by rw [turn, h]
  have run (h : search motorAt? s = none) : motor s = .ok none := by rw [motor, h]
  refine ⟨⟨nothing_iff turnHead_iff_turnAt? turned fun x hx => ?_, fun hne => ?_⟩,
    nothing_iff motorHead_iff_motorAt? run fun x hx => ?_, fun hne => ?_⟩
  · obtain ⟨_, _, _, _, _, -, -, -, said⟩ := exists_turning hx
    exact said ▸ heard_ne_none
  · obtain ⟨x, hx⟩ := Option.ne_none_iff_exists'.mp (mt turned hne)
    exact exists_turning hx
  · obtain ⟨_, _, _, _, _, _, -, -, -, -, said⟩ := exists_running hx
    exact said ▸ heard_ne_none
  · obtain ⟨x, hx⟩ := Option.ne_none_iff_exists'.mp (mt run hne)
    exact exists_running hx

/-- Heads that fail come before the ones that count. -/
def stumbling : List Char :=
  "run dcmotor turn onto turn off lamp2 on pin 12 start dc motor for 2 seconds".toList

theorem turn_motor_leftmost_stumbling :
    turn stumbling = .ok (some {
      kind := .set, component := some "lamp2", pin := some 12, value := some (.text "LOW") }) ∧
    motor stumbling = .ok (some {
      kind := .set, component := some "dc-motor", value := some (.text "HIGH"),
      duration := some 2000 }) ∧
    (∃ t on u pin tail, First (fun t => ∃ on u, TurnHead on t u) stumbling t ∧ TurnHead on t u ∧
      Optionally OnPin (u.dropWhile isWord) pin tail ∧
      turn stumbling = heard pin.toList (turning on (u.takeWhile isWord) pin)) ∧
    ∃ t u pin tail time rest, First (fun t => ∃ u, MotorHead t u) stumbling t ∧ MotorHead t u ∧
      Optionally OnPin u pin tail ∧ Optionally ForTime tail time rest ∧
      motor stumbling = heard ((time.map Span.digits).toList ++ pin.toList) (running pin time) := by
  have turned : turn stumbling = .ok (some {
      kind := .set, component := some "lamp2", pin := some 12, value := some (.text "LOW") }) := rfl
  have run : motor stumbling = .ok (some {
      kind := .set, component := some "dc-motor", value := some (.text "HIGH"),
      duration := some 2000 }) := rfl
  obtain ⟨⟨-, turns⟩, -, runs⟩ := turn_motor_leftmost stumbling
  exact ⟨turned, run, turns (by simp [turned]), runs (by simp [run])⟩

end BlockSketch.Prompt
