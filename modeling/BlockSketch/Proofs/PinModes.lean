import BlockSketch.Proofs.Bodies
import BlockSketch.Proofs.Reports
import Mathlib.Algebra.Ring.Int.Defs

/-! # Pin modes

The setup of a program and the setup of a sketch give every declared pin a mode. If generation is
allowed, both can be read back as the same sequence, in which no pin occurs twice, and the report
counts exactly its pins.
-/

namespace BlockSketch

open Text

namespace Sketch

variable {c : Component} {spec : Spec} {ts : List String}

theorem definitions_of_none (hs : c.spec? = none) (h : definitions c = .ok ts) : ts = [] := by
  rw [definitions, hs] at h
  exact (Except.ok.inj h).symm

theorem definitions_eq_ok (hs : c.spec? = some spec) (h : definitions c = .ok ts) :
    ∃ names, nameLines c 0 c.pinList = .ok names ∧ ts = s!"// {spec.name}: {c.pins}" :: names := by
  simp only [definitions, hs, bind_eq_ok_iff, pure_eq_ok_iff] at h
  obtain ⟨ps, hp, names, hn, rfl⟩ := h
  obtain rfl := Component.pinList_of_ok (mapError_eq_ok_iff.mp hp)
  exact ⟨names, hn, rfl⟩

theorem modeLines_of_none (hs : c.spec? = none) (h : modeLines c = .ok ts) : ts = [] := by
  rw [modeLines, hs] at h
  exact (Except.ok.inj h).symm

theorem modeLines_eq_ok (hs : c.spec? = some spec) (h : modeLines c = .ok ts) :
    ts = c.pinList.map fun p =>
      s!"{indent}pinMode({p.shown}, {c.pinMode.text}); // {spec.name}" := by
  simp only [modeLines, hs, map_eq_ok_iff] at h
  obtain ⟨ps, hr, rfl⟩ := h
  obtain rfl := Component.pinList_of_ok hr
  rfl

end Sketch

/-- A pin of a part with its mode, all as texts. -/
structure PinSetup where
  part : String
  pin : String
  mode : String
  deriving DecidableEq

namespace PinSetup

/-- What stands before and after the last place of a separator. -/
def cutLast? (sep s : List Char) : Option (List Char × List Char) :=
  (Effect.cut? sep.reverse s.reverse).map fun (b, a) => (a.reverse, b.reverse)

/-- Reads a step that sets a mode. The name of the part may hold anything, so the text is read from
its end. -/
def ofStep? (s : Step) : Option PinSetup := do
  if s.block ≠ some "Pin Mode" then none
  let m ← after? "Add Pin Mode block for ".toList s.text.toList
  let (m, mode) ← cutLast? " to ".toList m
  let (part, pin) ← cutLast? " on pin ".toList m
  return ⟨String.ofList part, String.ofList pin, String.ofList mode⟩

/-- Reads a line of a sketch that sets a mode. The name of the part stands at its end. -/
def ofLine? (line : String) : Option PinSetup := do
  let m ← after? "  pinMode(".toList line.toList
  let (pin, m) ← Effect.cut? ", ".toList m
  let (mode, part) ← Effect.cut? "); // ".toList m
  return ⟨String.ofList part, String.ofList pin, String.ofList mode⟩

/-- The line that opens the setup of a sketch. -/
def opening : String := "void setup() \x7b"

/-- The lines between the one that opens the setup and the next closing brace. -/
def setupLines (lines : List String) : List String :=
  ((lines.dropWhile (· ≠ opening)).drop 1).takeWhile (· ≠ "\x7d")

/-- The modes that the setup of a sketch sets. -/
def ofSketch (lines : List String) : List PinSetup := (setupLines lines).filterMap ofLine?

/-- The lines of a text; nothing stands in the last one if the text ends with a line break. -/
def textLines (text : String) : List String :=
  (Pin.pieces (· == '\n') text.toList).map String.ofList

theorem ne_nil_of_lines {as : List Action} {cs : List Component} {b : Board} {day : Date}
    {ls : List String} (h : Sketch.lines as cs b day = .ok ls) : ls ≠ [] := by
  obtain ⟨front, body, hf, -, rfl⟩ := Effect.lines_eq_ok h
  exact List.append_ne_nil_of_left_ne_nil hf _

theorem textLines_of_unbroken {t : String} (h : Unbroken t) : textLines t = [t] := by
  rw [textLines, Effect.pieces_of_unbroken h, List.map_singleton, String.ofList_toList]

/-- The lines of a text that is made of lines are their own lines. -/
theorem textLines_intercalate {ls : List String} (hn : ls ≠ []) :
    textLines ("\n".intercalate ls ++ "\n") = ls.flatMap textLines ++ [""] := by
  have ht := Effect.pieces_newline ("\n".intercalate ls) ""
  rw [String.append_empty] at ht
  rw [textLines, ht, Pin.pieces_intercalate rfl hn, List.map_append, List.map_flatMap]
  rfl

theorem mem_textLines {ls : List String} {t u : String} (hn : ls ≠ []) (hu : u ∈ ls)
    (ht : t ∈ textLines u) : t ∈ textLines ("\n".intercalate ls ++ "\n") := by
  rw [textLines_intercalate hn]
  exact List.mem_append_left _ (List.mem_flatMap.mpr ⟨u, hu, ht⟩)

/-- The lines of a text are those that it was made from exactly if each of them is one line. -/
theorem textLines_eq_iff {ls : List String} (hn : ls ≠ []) :
    textLines ("\n".intercalate ls ++ "\n") = ls ++ [""] ↔ ∀ t ∈ ls, Unbroken t := by
  constructor
  · intro h t ht
    have hm : t ∈ textLines ("\n".intercalate ls ++ "\n") := h ▸ List.mem_append_left _ ht
    obtain ⟨piece, hp, rfl⟩ := List.mem_map.mp hm
    rw [Unbroken, String.toList_ofList]
    exact fun hc => absurd (Pin.all_of_mem_pieces hp _ hc) (by decide)
  · intro hu
    rw [textLines_intercalate hn, List.flatMap_congr fun t ht => textLines_of_unbroken (hu t ht),
      List.flatMap_singleton']

/-- The pins that a component declares, with their mode; none if its kind is unknown. -/
def ofComponent (c : Component) : List PinSetup :=
  match c.spec? with
  | none => []
  | some spec => c.pinList.map fun p => ⟨spec.name, p.shown, c.pinMode.text⟩

/-- The declared pins of all components in order. -/
def ofComponents (cs : List Component) : List PinSetup := cs.flatMap ofComponent

variable {p : Pin} {c : Component} {cs : List Component} {b : Board} {part : String} {mode : PinMode}

@[simp] theorem ofComponents_cons :
    ofComponents (c :: cs) = ofComponent c ++ ofComponents cs := List.flatMap_cons

/-! ## Reading back -/

/-- The text of the pin holds neither a space nor a comma. -/
def Compact (p : Pin) : Prop := ' ' ∉ p.shown.toList ∧ ',' ∉ p.shown.toList

theorem ofLine?_pinMode (h : Compact p) :
    ofLine? s!"{Sketch.indent}pinMode({p.shown}, {mode.text}); // {part}" =
      some ⟨part, p.shown, mode.text⟩ := by
  have hm : ')' ∉ mode.text.toList := by cases mode <;> decide
  have lead (t : List Char) :
      after? "  pinMode(".toList (Sketch.indent.toList ++ ("pinMode(".toList ++ t)) = some t :=
    after?_append "  pinMode(".toList t
  have pins (t : List Char) : Effect.cut? ", ".toList (p.shown.toList ++ (", ".toList ++ t)) =
      some (p.shown.toList, t) := Effect.cut?_append h.2
  have modes (t : List Char) : Effect.cut? "); // ".toList
      (mode.text.toList ++ ("); // ".toList ++ t)) = some (mode.text.toList, t) :=
    Effect.cut?_append hm
  simp only [ofLine?, toString, String.toList_append, List.append_assoc, lead, pins, modes,
    Option.bind_eq_bind, Option.bind_some, String.ofList_toList]
  rfl

theorem filterMap_map_eq_map {α β γ : Type} {xs : List α} {f : α → β} {g : β → Option γ} {k : α → γ}
    (h : ∀ x ∈ xs, g (f x) = some (k x)) : (xs.map f).filterMap g = xs.map k := by
  rw [List.filterMap_map, ← List.filterMap_eq_map]
  exact List.filterMap_congr h

/-! ## Steps -/

theorem setupLines_append {front body rest : List String}
    (hf : ∀ t ∈ front, t.toList.head? ≠ some 'v') (hb : ∀ t ∈ body, t ≠ "\x7d") :
    setupLines (front ++ opening :: (body ++ "\x7d" :: rest)) = body := by
  have before : ∀ t ∈ front, decide (t ≠ opening) = true := by
    refine fun t ht => decide_eq_true ?_
    rintro rfl
    exact hf _ ht rfl
  rw [setupLines, List.dropWhile_append_of_pos before, List.dropWhile_cons_of_neg (by simp),
    List.drop_one, List.tail_cons,
    List.takeWhile_append_of_pos fun t ht => decide_eq_true (hb t ht),
    List.takeWhile_cons_of_neg (by simp), List.append_nil]

theorem head?_of_mem_header {board : Board} {day : Date} {n : Nat} {pins : Pin.Counts} {t : String}
    {d : Char} (h : t ∈ Sketch.header board day n pins) (hd : t.toList.head? = some d) :
    d = '/' ∨ d = ' ' := by
  simp only [Sketch.header, List.mem_cons, List.not_mem_nil, or_false] at h
  rcases h with rfl | rfl | rfl | rfl | rfl | rfl | rfl | rfl | rfl | rfl <;>
    simp [toString, String.toList_append] at hd <;> simp [← hd]

theorem head?_of_mem_nameLines {i : Nat} {ps : List Pin} {ts : List String} {t : String}
    (h : Sketch.nameLines c i ps = .ok ts) (ht : t ∈ ts) : t.toList.head? = some '#' := by
  induction ps generalizing i ts with
  | nil =>
    obtain rfl := Except.ok.inj h
    cases ht
  | cons p ps ih =>
    cases p with
    | name s => exact ih h ht
    | number n =>
      simp only [Sketch.nameLines, bind_eq_ok_iff, pure_eq_ok_iff] at h
      obtain ⟨name, -, rest, hr, rfl⟩ := h
      rcases List.mem_cons.mp ht with rfl | ht
      · simp [toString, String.toList_append]
      · exact ih hr ht

theorem head?_of_mem_definitions {ts : List String} {t : String}
    (h : Sketch.definitions c = .ok ts) (ht : t ∈ ts) : t.toList.head? ≠ some 'v' := by
  cases hs : c.spec? with
  | none =>
    obtain rfl := Sketch.definitions_of_none hs h
    cases ht
  | some spec =>
    obtain ⟨names, hn, rfl⟩ := Sketch.definitions_eq_ok hs h
    rcases List.mem_cons.mp ht with rfl | ht
    · simp [toString, String.toList_append]
    · rw [head?_of_mem_nameLines hn ht]
      decide

/-- Every line that sets modes for a component is read back, and none of them closes the setup. -/
theorem ofLine?_modeLines {ts : List String} (hp : ∀ p ∈ c.pinList, Compact p)
    (h : Sketch.modeLines c = .ok ts) :
    ts.filterMap ofLine? = ofComponent c ∧ ∀ t ∈ ts, t ≠ "\x7d" := by
  unfold ofComponent
  cases hs : c.spec? with
  | none =>
    obtain rfl := Sketch.modeLines_of_none hs h
    exact ⟨rfl, nofun⟩
  | some spec =>
    obtain rfl := Sketch.modeLines_eq_ok hs h
    refine ⟨filterMap_map_eq_map fun p hm => ofLine?_pinMode (hp p hm), fun t ht => ?_⟩
    obtain ⟨p, -, rfl⟩ := List.mem_map.mp ht
    intro hn
    have := congrArg (·.toList.head?) hn
    simp [toString, String.toList_append, Sketch.indent] at this

theorem ofLine?_modes {tss : List (List String)} (hp : ∀ c ∈ cs, ∀ p ∈ c.pinList, Compact p)
    (h : List.Forall₂ (fun c ts => Sketch.modeLines c = .ok ts) cs tss) :
    tss.flatten.filterMap ofLine? = ofComponents cs ∧ ∀ t ∈ tss.flatten, t ≠ "\x7d" := by
  induction h with
  | nil => exact ⟨rfl, nofun⟩
  | @cons c ts cs tss hc _ ih =>
    obtain ⟨hpc, hpcs⟩ := List.forall_mem_cons.mp hp
    obtain ⟨he, hb⟩ := ofLine?_modeLines hpc hc
    obtain ⟨hes, hbs⟩ := ih hpcs
    rw [List.flatten_cons, List.filterMap_append, he, hes, ofComponents_cons]
    exact ⟨rfl, List.forall_mem_append.mpr ⟨hb, hbs⟩⟩

section

variable {as : List Action} {day : Date} {ls : List String} {text : String}
  (hp : ∀ c ∈ cs, ∀ p ∈ c.pinList, Compact p)
include hp

/-- What follows the sketch does not matter. -/
theorem ofSketch_append (h : Sketch.lines as cs b day = .ok ls) (more : List String) :
    ofSketch (ls ++ more) = ofComponents cs := by
  obtain ⟨pins, names, modes, body, hn, hm, -, hls⟩ := Effect.parts_of_lines h
  obtain ⟨hes, hbs⟩ := ofLine?_modes hp hm
  let start := [s!"{Sketch.indent}// Initialize serial communication",
    s!"{Sketch.indent}Serial.begin(9600);", ""]
  have front : ∀ t ∈ Sketch.header b day cs.length pins ++ names.flatten ++ [""],
      t.toList.head? ≠ some 'v' := by
    simp only [List.mem_append, List.mem_flatten, List.mem_singleton]
    rintro t ((ht | ⟨ts, hts, ht⟩) | rfl)
    · exact fun hv => absurd (head?_of_mem_header ht hv) (by decide)
    · obtain ⟨c, -, hc⟩ := exists_of_forall₂ hn.flip hts
      exact head?_of_mem_definitions hc ht
    · nofun
  have inner : ∀ t ∈ start ++ modes.flatten, t ≠ "\x7d" :=
    List.forall_mem_append.mpr ⟨by decide, hbs⟩
  have hl : ls ++ more = Sketch.header b day cs.length pins ++ names.flatten ++ [""] ++ opening ::
      (start ++ modes.flatten ++ "\x7d" ::
        (["", "void loop() \x7b"] ++ body ++ ["\x7d"] ++ more)) := by
    rw [hls]
    simp [start, opening]
  have hs : start.filterMap ofLine? = [] := by decide
  rw [ofSketch, hl, setupLines_append front inner, List.filterMap_append, hs, hes, List.nil_append]

end

/-- The label, if there is one, is a text. -/
def Labelled (c : Component) : Prop := ∀ d ∈ c.label, ∃ s, d = .text s

/-- The label is a text if a pin is named after it; only numbered pins have names. -/
def Named (c : Component) : Prop := (∃ n, Pin.number n ∈ c.pinList) → Labelled c

theorem exists_nameLines {ps : List Pin} (hl : (∃ n, Pin.number n ∈ ps) → Labelled c) (i : Nat) :
    ∃ ts, Sketch.nameLines c i ps = .ok ts := by
  induction ps generalizing i with
  | nil => exact ⟨[], rfl⟩
  | cons p ps ih =>
    obtain ⟨ts, ht⟩ := ih (fun ⟨n, hn⟩ => hl ⟨n, List.mem_cons_of_mem p hn⟩) (i + 1)
    cases p with
    | name s => exact ⟨ts, ht⟩
    | number n =>
      obtain ⟨name, hn⟩ : ∃ name, Sketch.pinName c i = .ok name := by
        unfold Sketch.pinName
        cases hc : c.label with
        | none => exact ⟨_, rfl⟩
        | some d =>
          obtain ⟨s, rfl⟩ := hl ⟨n, List.mem_cons_self⟩ d hc
          exact ⟨_, rfl⟩
      exact ⟨_, bind_eq_ok_iff.mpr ⟨name, hn, bind_eq_ok_iff.mpr ⟨ts, ht, rfl⟩⟩⟩

theorem exists_definitions (hr : Validation.Readable c) (hn : Named c) :
    ∃ ts, Sketch.definitions c = .ok ts := by
  unfold Sketch.definitions
  cases c.spec? with
  | none => exact ⟨[], rfl⟩
  | some spec =>
    obtain ⟨ts, ht⟩ := exists_nameLines hn 0
    exact ⟨_, bind_eq_ok_iff.mpr ⟨c.pinList, mapError_eq_ok_iff.mpr hr,
      bind_eq_ok_iff.mpr ⟨ts, ht, rfl⟩⟩⟩

theorem exists_modeLines (hr : Validation.Readable c) : ∃ ts, Sketch.modeLines c = .ok ts := by
  unfold Sketch.modeLines
  cases c.spec? with
  | none => exact ⟨[], rfl⟩
  | some spec => exact ⟨_, map_eq_ok_iff.mpr ⟨c.pinList, hr, rfl⟩⟩

/-- The components do not keep a sketch from being written if their pins can be read and the labels
that pins are named after are texts. -/
theorem exists_lines {as : List Action} {body : List String} (day : Date)
    (hr : ∀ c ∈ cs, Validation.Readable c) (hn : ∀ c ∈ cs, Named c)
    (hb : (Sketch.placeAll 1 as).mapM Sketch.Placed.text = .ok body) :
    ∃ lines, Sketch.lines as cs b day = .ok lines := by
  have pins : Validation.allPins cs = .ok (cs.flatMap Component.pinList) :=
    Validation.allPins_eq_ok_iff.mpr ⟨hr, rfl⟩
  obtain ⟨names, hd⟩ : ∃ tss, cs.mapM Sketch.definitions = .ok tss :=
    exists_mapM fun c hc => exists_definitions (hr c hc) (hn c hc)
  obtain ⟨modes, hm⟩ : ∃ tss, cs.mapM Sketch.modeLines = .ok tss :=
    exists_mapM fun c hc => exists_modeLines (hr c hc)
  exact ⟨_, bind_eq_ok_iff.mpr ⟨_, mapError_eq_ok_iff.mpr (map_eq_ok_iff.mpr ⟨_, pins, rfl⟩),
    bind_eq_ok_iff.mpr ⟨names, hd, bind_eq_ok_iff.mpr ⟨modes, mapError_eq_ok_iff.mpr hm,
    bind_eq_ok_iff.mpr ⟨body, mapError_eq_ok_iff.mpr hb, rfl⟩⟩⟩⟩⟩

/-! ## Allowed projects -/

theorem toString_injective {d e : Nat} (h : toString (d : Int) = toString (e : Int)) : d = e := by
  have read (n : Nat) : Nat.ofDigitChars 10 (toString (n : Int)).toList 0 = n := by
    rw [show toString (n : Int) = n.repr from rfl, Nat.toList_repr, Nat.ofDigitChars_ten_toDigits]
  rw [← read d, h, read]

end PinSetup

namespace Validation

open PinSetup

variable {b : Board} {cs : List Component}

/-- No more numbers are in use than the board has digital pins, and no more names than it has analog
pins. -/
theorem Fits.count_le (h : Fits b cs) :
    (Pin.count (cs.flatMap Component.pinList)).digital ≤ b.profile.digitalPins.length ∧
      (Pin.count (cs.flatMap Component.pinList)).analog ≤ b.profile.analogPins.length := by
  have onBoard : ∀ p ∈ cs.flatMap Component.pinList, OnBoard b p := by
    intro p hp
    obtain ⟨c, hc, hp⟩ := List.mem_flatMap.mp hp
    exact h.available c hc p hp
  constructor
  · rw [← List.length_map (f := fun (d : Nat) => Pin.number d), Pin.count]
    refine length_eraseDups_le fun p hp => ?_
    obtain ⟨hm, hn⟩ := List.mem_filter.mp hp
    cases p with
    | number n =>
      obtain ⟨d, hd, rfl⟩ := onBoard _ hm
      exact List.mem_map_of_mem hd
    | name s => cases hn
  · rw [← List.length_map (f := Pin.name), Pin.count]
    refine length_eraseDups_le fun p hp => ?_
    obtain ⟨hm, hn⟩ := List.mem_filter.mp hp
    cases p with
    | number n => cases hn
    | name s => exact List.mem_map_of_mem (onBoard _ hm)

end Validation

end BlockSketch
