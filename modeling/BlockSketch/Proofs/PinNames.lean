import BlockSketch.Proofs.Characters
import BlockSketch.Proofs.PinModes
import Mathlib.Data.List.Pairwise

/-! # Names of pins

A sketch names every numbered pin, after the label of its part or else after the kind of the part
and the place of the pin. If generation is allowed and no label is used twice, the names are
different exactly if no labelled part has two numbered pins, no two parts of one kind without
labels have numbered pins at one place, and no label reads like a name made from a kind.
-/

namespace BlockSketch

open Text

variable {s : List Char} {d : Char} {c c' : Component} {cs : List Component} {i j : Nat} {b : Board}
  {as : List Action} {day : Date} {ls : List String}

/-! ## Stems -/

/-- An ASCII text is raised character by character. -/
theorem Text.upper_eq_map (h : ∀ d ∈ s, d.toNat < 128) : upper s = s.map Char.toUpper := by
  rw [upper, List.map_eq_flatMap]
  exact List.flatMap_congr fun d hd => upperChar_of_lt (h d hd)

namespace Sketch

theorem not_isBlank_of_mem_joinBlanks (h : d ∈ joinBlanks s) : isBlank d = false := by
  have mark : isBlank '_' = false := by decide
  fun_induction joinBlanks s with
  | case1 => cases h
  | case2 =>
    obtain rfl := List.mem_singleton.mp h
    exact mark
  | case3 _ _ _ _ _ ih => exact ih h
  | case4 _ _ _ _ _ ih =>
    rcases List.mem_cons.mp h with rfl | h
    · exact mark
    · exact ih h
  | case5 e _ he ih =>
    rcases List.mem_cons.mp h with rfl | h
    · simpa using he
    · exact ih h

theorem joinBlanks_eq_self (h : ∀ d ∈ s, isBlank d = false) : joinBlanks s = s := by
  induction s with
  | nil => rfl
  | cons d s ih =>
    obtain ⟨hd, hs⟩ := List.forall_mem_cons.mp h
    simp [joinBlanks, hd, ih hs]

/-- A text as a name: in upper case and without blanks. -/
def folded (s : String) : String := String.ofList (joinBlanks (upper s.toList))

/-- What the name of the pin at a place is made from if the component has no label. -/
def generated (c : Component) (i : Nat) : String := folded s!"{c.kindName}{(i : Int) + 1}"

/-- What the name of the pin at a place is made from. -/
def stem (c : Component) (i : Nat) : String :=
  match c.label with
  | some (.text s) => folded s
  | _ => generated c i

theorem stem_of_label {s : String} (h : c.label = some (.text s)) : stem c i = folded s := by
  rw [stem, h]

theorem stem_of_none (h : c.label = none) : stem c i = generated c i := by rw [stem, h]

theorem not_isBlank_of_mem_stem (h : d ∈ (stem c i).toList) : isBlank d = false := by
  have hf {s : String} (h : d ∈ (folded s).toList) : isBlank d = false := by
    rw [folded, String.toList_ofList] at h
    exact not_isBlank_of_mem_joinBlanks h
  unfold stem at h
  split at h
  · exact hf h
  · exact hf h

theorem pinName_eq_ok {name : String} (h : pinName c i = .ok name) :
    name = stem c i ++ "_PIN" ∧ ∀ l ∈ c.label, ∃ s, l = .text s := by
  unfold pinName at h
  unfold stem
  split at h
  · next hl =>
    rw [hl]
    exact ⟨(Except.ok.inj h).symm, nofun⟩
  · next s hl =>
    rw [hl]
    exact ⟨(Except.ok.inj h).symm, fun l h => ⟨s, (Option.some.inj h).symm⟩⟩
  · cases h

/-! ### Generated stems -/

/-- The names of all kinds of parts. -/
def kinds : List String := Component.customKind :: catalogue.map Prod.fst

theorem kindName_mem_kinds (h : c.spec?.isSome) : c.kindName ∈ kinds := by
  unfold Component.spec? at h
  unfold Component.kindName
  split at h
  · next name _ =>
    obtain ⟨entry, hm, he⟩ := List.lookup_isSome_iff.mp h
    obtain rfl : name = entry.1 := beq_iff_eq.mp he
    exact List.mem_cons_of_mem _ (List.mem_map_of_mem hm)
  · exact List.mem_cons_self

/-- The digits of a place, counted from one. -/
def placeDigits (i : Nat) : List Char := (toString ((i + 1 : Nat) : Int)).toList

theorem isDigit_of_mem_placeDigits (h : d ∈ placeDigits i) : d.isDigit = true := by
  have hr : placeDigits i = Nat.toDigits 10 (i + 1) := Nat.toList_repr
  rw [hr] at h
  exact Nat.isDigit_of_mem_toDigits (by decide) (by decide) h

/-- The names of kinds are in ASCII and hold neither blanks nor digits, in upper case too. -/
theorem plain_of_mem_kinds : ∀ k ∈ kinds, ∀ d ∈ k.toList,
    d.toNat < 128 ∧ isBlank d.toUpper = false ∧ d.toUpper.isDigit = false := by
  decide +kernel

theorem toList_generated (hk : c.kindName ∈ kinds) :
    (generated c i).toList = c.kindName.toList.map Char.toUpper ++ placeDigits i := by
  have text : (s!"{c.kindName}{(i : Int) + 1}").toList = c.kindName.toList ++ placeDigits i := by
    simp [toString, String.toList_append, placeDigits]
  have digit : ∀ d ∈ placeDigits i, d.toNat < 128 ∧ d.toUpper = d ∧ isBlank d = false := by
    intro d hd
    have hd := isDigit_of_mem_placeDigits hd
    have hp := isPlain_of_isDigit hd
    exact ⟨toNat_lt_of_isPlain hp, toUpper_of_isDigit hd, not_isBlank_of_isPlain hp⟩
  have ascii : ∀ d ∈ c.kindName.toList ++ placeDigits i, d.toNat < 128 :=
    List.forall_mem_append.mpr ⟨fun d hd => (plain_of_mem_kinds _ hk d hd).1,
      fun d hd => (digit d hd).1⟩
  have upper_digits : (placeDigits i).map Char.toUpper = placeDigits i :=
    (List.map_congr_left fun d hd => (digit d hd).2.1).trans (List.map_id _)
  rw [generated, folded, String.toList_ofList, text, upper_eq_map ascii, List.map_append,
    upper_digits]
  refine joinBlanks_eq_self (List.forall_mem_append.mpr ⟨?_, fun d hd => (digit d hd).2.2⟩)
  rw [List.forall_mem_map]
  exact fun d hd => (plain_of_mem_kinds _ hk d hd).2.1

end Sketch

/-! ## Names in lines -/

/-- A name with the pin that it stands for, both as texts. -/
structure PinName where
  name : String
  pin : String
  deriving DecidableEq

namespace PinName

open Sketch

/-- Reads a line that defines the name of a pin. -/
def ofLine? (line : String) : Option PinName := do
  let m ← after? "#define ".toList line.toList
  let (name, pin) ← Effect.cut? " ".toList m
  return ⟨String.ofList name, String.ofList pin⟩

/-- The names that the lines of a sketch define. -/
def ofSketch (lines : List String) : List PinName := lines.filterMap ofLine?

/-- The numbered ones of some pins with their places, from a place on. -/
def numbered (i : Nat) (ps : List Pin) : List (Pin × Nat) := (ps.zipIdx i).filter (·.1.isNumber)

/-- The name of a pin of the component at a place. -/
def ofPin (c : Component) (p : Pin × Nat) : PinName := ⟨stem c p.2 ++ "_PIN", p.1.shown⟩

/-- The names of the numbered pins of a component. -/
def ofComponent (c : Component) : List PinName := (numbered 0 c.pinList).map (ofPin c)

/-- The places of the numbered pins of a component. -/
def places (c : Component) : List Nat := (numbered 0 c.pinList).map Prod.snd

theorem head?_of_ofLine? {t : String} (h : (ofLine? t).isSome) : t.toList.head? = some '#' := by
  obtain ⟨r, hr⟩ := Option.isSome_iff_exists.mp h
  obtain ⟨m, hm, -⟩ := Option.bind_eq_some_iff.mp hr
  rw [after?_eq_some_iff.mp hm]
  rfl

/-- Lines that begin otherwise define nothing. -/
theorem ofSketch_of_head? (h : ∀ t ∈ ls, t.toList.head? ≠ some '#') : ofSketch ls = [] := by
  refine List.filterMap_eq_nil_iff.mpr fun t ht => ?_
  rw [← Option.not_isSome_iff_eq_none]
  exact fun hs => h t ht (head?_of_ofLine? hs)

theorem ofLine?_define {name : String} {n : Int} (h : ∀ d ∈ name.toList, isBlank d = false) :
    ofLine? s!"#define {name} {n}" = some ⟨name, toString n⟩ := by
  have hn : ' ' ∉ name.toList := fun hm => absurd (h ' ' hm) (by decide)
  have text : (s!"#define {name} {n}").toList =
      "#define ".toList ++ (name.toList ++ (' ' :: [] ++ (toString n).toList)) := by
    simp [toString, String.toList_append]
  have cut : Effect.cut? " ".toList (name.toList ++ (' ' :: [] ++ (toString n).toList)) =
      some (name.toList, (toString n).toList) := Effect.cut?_append hn
  rw [ofLine?, text, after?_append]
  simp only [Option.bind_eq_bind, Option.bind_some, cut, String.ofList_toList]
  rfl

theorem ofSketch_cons_of_some {t : String} {x : PinName} (h : ofLine? t = some x) :
    ofSketch (t :: ls) = x :: ofSketch ls := List.filterMap_cons_some h

theorem ofSketch_append {ls' : List String} : ofSketch (ls ++ ls') = ofSketch ls ++ ofSketch ls' :=
  List.filterMap_append

/-- The names of numbered pins are read back from their lines. If there are any, the label is a
text. -/
theorem ofSketch_nameLines {ps : List Pin} {ts : List String} (h : nameLines c i ps = .ok ts) :
    ofSketch ts = (numbered i ps).map (ofPin c) ∧
      (numbered i ps ≠ [] → ∀ l ∈ c.label, ∃ s, l = .text s) := by
  induction ps generalizing i ts with
  | nil =>
    obtain rfl := Except.ok.inj h
    exact ⟨rfl, fun hn => absurd rfl hn⟩
  | cons p ps ih =>
    cases p with
    | name s => exact ih h
    | number n =>
      simp only [nameLines, bind_eq_ok_iff, pure_eq_ok_iff] at h
      obtain ⟨name, hn, rest, hr, rfl⟩ := h
      obtain ⟨rfl, hl⟩ := pinName_eq_ok hn
      have blank : ∀ d ∈ (stem c i ++ "_PIN").toList, isBlank d = false := by
        rw [String.toList_append]
        exact List.forall_mem_append.mpr ⟨fun d => not_isBlank_of_mem_stem, by decide⟩
      refine ⟨?_, fun _ => hl⟩
      rw [ofSketch_cons_of_some (ofLine?_define blank), (ih hr).1]
      rfl

/-- The label of a component with numbered pins is a text. -/
def Nameable (c : Component) : Prop := places c ≠ [] → ∀ l ∈ c.label, ∃ s, l = .text s

theorem ofSketch_definitions {ts : List String} (hc : c.spec?.isSome)
    (h : definitions c = .ok ts) : ofSketch ts = ofComponent c ∧ Nameable c := by
  obtain ⟨spec, hs⟩ := Option.isSome_iff_exists.mp hc
  obtain ⟨names, hn, rfl⟩ := definitions_eq_ok hs h
  obtain ⟨he, hl⟩ := ofSketch_nameLines hn
  have first : ofLine? s!"// {spec.name}: {c.pins}" = none := by
    rw [← Option.not_isSome_iff_eq_none]
    intro h
    have hh := head?_of_ofLine? h
    simp [toString, String.toList_append] at hh
  refine ⟨?_, fun hn => hl fun hz => hn ?_⟩
  · rw [ofSketch, List.filterMap_cons_none first]
    exact he
  · rw [places, hz]
    rfl

/-- The names of the numbered pins of all components in order. -/
def ofComponents (cs : List Component) : List PinName := cs.flatMap ofComponent

theorem ofSketch_names {tss : List (List String)} (hk : ∀ c ∈ cs, c.spec?.isSome)
    (h : List.Forall₂ (fun c ts => definitions c = .ok ts) cs tss) :
    ofSketch tss.flatten = ofComponents cs ∧ ∀ c ∈ cs, Nameable c := by
  induction h with
  | nil => exact ⟨rfl, nofun⟩
  | cons hc _ ih =>
    obtain ⟨hkc, hkcs⟩ := List.forall_mem_cons.mp hk
    obtain ⟨he, hn⟩ := ofSketch_definitions hkc hc
    obtain ⟨hes, hns⟩ := ih hkcs
    rw [List.flatten_cons, ofSketch_append, he, hes]
    exact ⟨List.flatMap_cons.symm, List.forall_mem_cons.mpr ⟨hn, hns⟩⟩

theorem head?_of_mem_modeLines {ts : List String} {t : String} (h : modeLines c = .ok ts)
    (ht : t ∈ ts) : t.toList.head? = some ' ' := by
  cases hs : c.spec? with
  | none =>
    obtain rfl := modeLines_of_none hs h
    cases ht
  | some spec =>
    obtain rfl := modeLines_eq_ok hs h
    obtain ⟨p, -, rfl⟩ := List.mem_map.mp ht
    simp [toString, String.toList_append, indent]

/-- The names of pins are read back from a sketch; no other line looks like one of theirs. -/
theorem ofSketch_lines (hk : ∀ c ∈ cs, c.spec?.isSome) (h : Sketch.lines as cs b day = .ok ls) :
    ofSketch ls = ofComponents cs ∧ ∀ c ∈ cs, Nameable c := by
  obtain ⟨pins, names, modes, body, hn, hm, hb, rfl⟩ := Effect.parts_of_lines h
  obtain ⟨he, hnames⟩ := ofSketch_names hk hn
  have header : ofSketch (Sketch.header b day cs.length pins) = [] :=
    ofSketch_of_head? fun t ht hd => absurd (PinSetup.head?_of_mem_header ht hd) (by decide)
  have setup : ofSketch modes.flatten = [] := by
    refine ofSketch_of_head? fun t ht => ?_
    obtain ⟨ts, hts, ht⟩ := List.mem_flatten.mp ht
    obtain ⟨c, -, hc⟩ := exists_of_forall₂ hm.flip hts
    rw [head?_of_mem_modeLines hc ht]
    decide
  have loop : ofSketch body = [] := by
    refine ofSketch_of_head? fun t ht => ?_
    rw [head?_of_mem_body hb ht]
    decide
  have start : ofSketch ["", "void setup() \x7b", s!"{indent}// Initialize serial communication",
    s!"{indent}Serial.begin(9600);", ""] = [] := ofSketch_of_head? (by decide)
  have middle : ofSketch ["\x7d", "", "void loop() \x7b"] = [] := ofSketch_of_head? (by decide)
  have last : ofSketch ["\x7d"] = [] := ofSketch_of_head? (by decide)
  refine ⟨?_, hnames⟩
  simp only [ofSketch_append, header, he, start, setup, middle, loop, last, List.nil_append,
    List.append_nil]

/-- The text of a sketch gives the names of its lines, if none of these is broken. -/
theorem ofSketch_textLines {text : String} (hl : Sketch.lines as cs b day = .ok ls)
    (ht : Sketch.render as cs b day = .ok text) (hu : ∀ t ∈ ls, Unbroken t) :
    ofSketch (PinSetup.textLines text) = ofSketch ls := by
  obtain ⟨ls', hl', rfl⟩ := map_eq_ok_iff.mp ht
  obtain rfl := Except.ok.inj (hl.symm.trans hl')
  rw [(PinSetup.textLines_eq_iff (PinSetup.ne_nil_of_lines hl)).mpr hu, ofSketch_append]
  exact List.append_nil _

/-! ## Different names -/

theorem map_name_ofComponent (c : Component) :
    (ofComponent c).map name = (places c).map fun i => stem c i ++ "_PIN" := by
  rw [ofComponent, places, List.map_map, List.map_map]
  rfl

end PinName

end BlockSketch
