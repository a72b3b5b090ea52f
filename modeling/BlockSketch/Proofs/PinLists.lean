import BlockSketch.Proofs.Generation
import BlockSketch.Proofs.JsonTexts

/-! # Lists of pins

A list of pins is read back from every text that it can be written as. Numbers are written in decimal,
names begin with `A`, a label may stand before each pin, and white space around all of them.
-/

namespace BlockSketch

open Text Numeral
open Prompt (Digits)

namespace Pin

variable {p : Pin} {ps : List Pin} {s t label : List Char} {parts : List String} {n : Nat}
  {spec : Spec}

/-! ## Single pins -/

inductive Sign where
  | unsigned
  | plus
  | minus
  deriving DecidableEq, Repr

namespace Sign

def chars : Sign → List Char
  | unsigned => []
  | plus => ['+']
  | minus => ['-']

def isMinus (sign : Sign) : Bool := sign = minus

end Sign

/-- The text holds no character that ends a pin or a label. -/
def Unmarked (s : List Char) : Prop := ',' ∉ s ∧ ':' ∉ s

instance : DecidablePred Unmarked := fun _ => inferInstanceAs (Decidable (_ ∧ _))

/-- The pin is written as the text, with nothing around it. -/
inductive Spells : Pin → List Char → Prop
  | number (sign : Sign) (n : Digits) :
      Spells (.number (applySign sign.isMinus n.value)) (sign.chars ++ n.chars)
  | name {s : String} (begins : s.toList.head? = some 'A') (unmarked : Unmarked s.toList)
      (ends : ∀ c ∈ s.toList.getLast?, isBlank c = false) : Spells (.name s) s.toList

/-- The digits of a number that can be written. -/
def decimal (n : Nat) (h : n < powerOfTen maxDigits) : Digits where
  chars := Nat.toDigits 10 n
  ne_nil := Nat.toDigits_ne_nil
  isDigit _ := Json.isDigit_of_mem_toDigits
  length_le := Json.length_toDigits_le (by decide) h

theorem spells_toString {k : Int} (h : Printable k) : Spells (.number k) (toString k).toList := by
  have value : (decimal k.natAbs h).value = k.natAbs := Json.digitsValue_toDigits k.natAbs
  rw [Json.toList_toString]
  split
  · next hk =>
    have spelled := Spells.number .minus (decimal k.natAbs h)
    have negative : applySign Sign.minus.isMinus (decimal k.natAbs h).value = k := by
      rw [value]
      exact (Int.eq_neg_natAbs_of_nonpos (Int.le_of_lt hk)).symm
    rwa [negative] at spelled
  · next hk =>
    have spelled := Spells.number .unsigned (decimal k.natAbs h)
    have positive : applySign Sign.unsigned.isMinus (decimal k.natAbs h).value = k := by
      rw [value]
      exact Int.natAbs_of_nonneg (Int.not_lt.mp hk)
    rwa [positive] at spelled

theorem read_number (sign : Sign) (n : Digits) :
    read (sign.chars ++ n.chars) = .ok (.number (applySign sign.isMinus n.value)) := by
  have value := Prompt.ofDigits_chars n
  have run := takeWhile_digits n.isDigit
  obtain ⟨c, cs, hc⟩ := List.exists_cons_of_ne_nil n.ne_nil
  cases sign with
  | unsigned =>
    rw [Sign.chars, List.nil_append, read_digits n.isDigit n.ne_nil, value]
    rfl
  | plus | minus =>
    rw [hc] at value run
    rw [hc, Sign.chars, List.singleton_append, read, if_neg (by simp)]
    simp only [splitSign, run, value]
    rfl

theorem read_of_spells (h : Spells p s) : read s = .ok p := by
  cases h with
  | number sign n => exact read_number sign n
  | name begins _ _ => rw [read, if_pos begins, String.ofList_toList]

/-- No blank is at either end of the text, and nothing in it ends a pin or a label. -/
structure Solid (s : List Char) : Prop where
  ne_nil : s ≠ []
  starts : ∀ c ∈ s.head?, isBlank c = false
  ends : ∀ c ∈ s.getLast?, isBlank c = false
  unmarked : Unmarked s

theorem Spells.solid (h : Spells p s) : Solid s := by
  cases h with
  | number sign n =>
    have each : ∀ c ∈ sign.chars ++ n.chars, isBlank c = false ∧ c ≠ ',' ∧ c ≠ ':' := by
      intro c hc
      rcases List.mem_append.mp hc with hc | hc
      · have signs : ∀ c ∈ sign.chars, isBlank c = false ∧ c ≠ ',' ∧ c ≠ ':' := by
          cases sign <;> decide
        exact signs c hc
      · have digit := n.isDigit c hc
        refine ⟨not_isBlank_of_isPlain (isPlain_of_isDigit digit), ?_, ?_⟩
        · rintro rfl
          exact absurd digit (by decide)
        · rintro rfl
          exact absurd digit (by decide)
    exact {
      ne_nil := List.append_ne_nil_of_right_ne_nil _ n.ne_nil
      starts := fun c hc => (each c (List.mem_of_mem_head? hc)).1
      ends := fun c hc => (each c (List.mem_of_mem_getLast? hc)).1
      unmarked := ⟨fun hm => (each _ hm).2.1 rfl, fun hm => (each _ hm).2.2 rfl⟩ }
  | name begins unmarked ends =>
    refine ⟨?_, ?_, ends, unmarked⟩
    · rintro he
      rw [he] at begins
      cases begins
    · rintro c hc
      obtain rfl := Option.some.inj (begins.symm.trans hc)
      decide

/-! ## Pins between commas -/

/-- The pin is written in the text, with white space around it. -/
inductive Spaced : Pin → List Char → Prop
  | intro {p : Pin} {l s r : List Char} (left : ∀ c ∈ l, isBlank c = true) (spells : Spells p s)
      (right : ∀ c ∈ r, isBlank c = true) : Spaced p (l ++ s ++ r)

/-- The pin is declared by the text, with or without a label. -/
inductive Declares : Pin → List Char → Prop
  | bare {p : Pin} {t : List Char} (h : Spaced p t) : Declares p t
  | labelled {p : Pin} {label t : List Char} (unmarked : Unmarked label) (h : Spaced p t) :
      Declares p (label ++ ':' :: t)

theorem Spells.spaced (h : Spells p s) : Spaced p s := by
  have spaced := Spaced.intro (l := []) (r := []) (by simp) h (by simp)
  rwa [List.nil_append, List.append_nil] at spaced

theorem Spaced.read_trim (h : Spaced p t) : read (trim t) = .ok p := by
  obtain ⟨left, spells, right⟩ := h
  have solid := spells.solid
  rw [Prompt.trim_append left right solid.ne_nil solid.starts solid.ends]
  exact read_of_spells spells

theorem Spaced.unmarked (h : Spaced p t) : Unmarked t := by
  obtain ⟨left, spells, right⟩ := h
  have inner := spells.solid.unmarked
  have blank {l : List Char} (hl : ∀ c ∈ l, isBlank c = true) : Unmarked l :=
    ⟨fun hm => absurd (hl _ hm) (by decide), fun hm => absurd (hl _ hm) (by decide)⟩
  simp only [Unmarked, List.mem_append, not_or]
  exact ⟨⟨⟨(blank left).1, inner.1⟩, (blank right).1⟩, ⟨(blank left).2, inner.2⟩, (blank right).2⟩

theorem Spaced.exists_solid (h : Spaced p t) : ∃ c ∈ t, isBlank c = false := by
  obtain ⟨left, spells, right⟩ := h
  obtain ⟨c, cs, rfl⟩ := List.exists_cons_of_ne_nil spells.solid.ne_nil
  exact ⟨c, by simp, spells.solid.starts c rfl⟩

/-- A label ends at the first colon. -/
theorem afterLabel_append (h : ':' ∉ label) : afterLabel (label ++ ':' :: t) = t := by
  have before : ∀ c ∈ label, (c != ':') = true := fun c hc =>
    bne_iff_ne.mpr (ne_of_mem_of_not_mem hc h)
  rw [afterLabel, if_pos (by simp), List.dropWhile_append_of_pos before]
  rfl

theorem Declares.read_eq (h : Declares p t) : read (trim (afterLabel t)) = .ok p := by
  cases h with
  | bare h => rw [afterLabel_of_not_mem h.unmarked.2, h.read_trim]
  | labelled unmarked h => rw [afterLabel_append unmarked.2, h.read_trim]

theorem Declares.not_mem_comma (h : Declares p t) : ',' ∉ t := by
  cases h with
  | bare h => exact h.unmarked.1
  | labelled unmarked h =>
    simp only [List.mem_append, List.mem_cons, not_or]
    exact ⟨unmarked.1, by decide, h.unmarked.1⟩

theorem Declares.exists_solid (h : Declares p t) : ∃ c ∈ t, isBlank c = false := by
  cases h with
  | bare h => exact h.exists_solid
  | labelled _ h =>
    obtain ⟨c, hc, solid⟩ := h.exists_solid
    exact ⟨c, by simp [hc], solid⟩

/-! ## Lists of pins -/

theorem readAll_intercalate (hn : ps ≠ [])
    (h : List.Forall₂ (fun p t => Declares p t.toList) ps parts) :
    readAll (",".intercalate parts) = .ok ps := by
  have parts_ne : parts ≠ [] := by
    rintro rfl
    cases h
    exact hn rfl
  have each : ∀ t ∈ parts, ∃ p, Declares p t.toList := fun t ht => by
    obtain ⟨p, -, hp⟩ := exists_of_forall₂ h.flip ht
    exact ⟨p, hp⟩
  have split : pieces (· == ',') (",".intercalate parts).toList = parts.map String.toList :=
    pieces_intercalate_of_not_mem rfl parts_ne fun t ht => (each t ht).elim fun _ => (·.not_mem_comma)
  have mixed : (",".intercalate parts).toList.all isBlank ≠ true := by
    intro hb
    have blank := List.all_eq_true.mp hb
    have comma : ',' ∉ (",".intercalate parts).toList := fun hm => absurd (blank _ hm) (by decide)
    rw [pieces_of_not_mem comma] at split
    obtain ⟨t, ht, he⟩ := List.map_eq_singleton_iff.mp split.symm
    obtain ⟨p, hp⟩ := each t (by rw [ht]; exact List.mem_singleton_self t)
    obtain ⟨c, hc, solid⟩ := hp.exists_solid
    rw [he] at hc
    exact absurd (blank c hc) (by simp [solid])
  have readings : List.Forall₂ (fun t p => read (trim (afterLabel t)) = .ok p)
      (parts.map String.toList) ps :=
    List.forall₂_map_left_iff.mpr (h.flip.imp fun _ _ hp => hp.read_eq)
  unfold readAll
  dsimp only
  rw [if_neg mixed, split]
  exact mapM_eq_ok_iff.mpr readings

/-! ## Pins that a new part starts with -/

theorem spaced_toString {k : Nat} (h : k < powerOfTen maxDigits) :
    Spaced (.number k) (toString k).toList := by
  have spelled : Spells (.number k) (toString k).toList := spells_toString (k := k) h
  exact spelled.spaced

theorem forall₂_range' {R : Pin → String → Prop} (hl : parts.length = n)
    (h : ∀ i (hi : i < parts.length), R (.number (i + 2 : Nat)) parts[i]) :
    List.Forall₂ R ((List.range' 2 n).map fun k : Nat => .number k) parts := by
  rw [List.forall₂_iff_get]
  constructor
  · simp [hl]
  · intro i _ hi
    simpa [Nat.add_comm] using h i hi

/-- A new part with several pins gets the numbers from two on. -/
theorem readAll_defaultPins (kind : String) (hc : spec.pinCount = n) (hn : 2 ≤ n)
    (hb : n + 1 < powerOfTen maxDigits) (hl : spec.labels = [] ∨
      spec.labels.length = n ∧ ∀ label ∈ spec.labels, Unmarked label.toList) :
    readAll (spec.defaultPins kind) = .ok ((List.range' 2 n).map fun k : Nat => .number k) := by
  have several : spec.pinCount ≠ 1 := by omega
  have pins_ne : (List.range' 2 n).map (fun k : Nat => Pin.number k) ≠ [] := by
    apply List.ne_nil_of_length_pos
    rw [List.length_map, List.length_range']
    omega
  have small {i : Nat} (hi : i < n) : i + 2 < powerOfTen maxDigits := by omega
  rw [Spec.defaultPins, if_neg several]
  split
  · apply readAll_intercalate pins_ne
    apply forall₂_range'
    · simp [hc]
    · intro i hi
      simp only [hc, List.length_map, List.length_range, Int.toNat_natCast] at hi
      rw [List.getElem_map, List.getElem_range]
      exact .bare (spaced_toString (small hi))
  · next labelled =>
    obtain ⟨count, unmarked⟩ := hl.resolve_left fun he => labelled (by rw [he]; rfl)
    apply readAll_intercalate pins_ne
    apply forall₂_range'
    · rw [List.length_mapIdx, count]
    · intro i hi
      rw [List.length_mapIdx, count] at hi
      rw [List.getElem_mapIdx]
      have free := unmarked _ (List.getElem_mem (count.symm ▸ hi))
      have text : s!"{spec.labels[i]}:{i + 2}".toList =
          spec.labels[i].toList ++ ':' :: (toString (i + 2)).toList := by
        simp only [ToString.toString, String.toList_append, List.append_assoc]
        rfl
      rw [text]
      exact .labelled free (spaced_toString (small hi))

/-- Every number of few enough digits can be written in decimal. A list of pins is read back from each
text that it can be written as, in order and with what is named twice. So a new part with several pins
has the numbers from two on, as long as the last one has few enough digits. -/
theorem readAll_written :
    (∀ k, Printable k → Spells (.number k) (toString k).toList) ∧
    (∀ ps parts, ps ≠ [] → List.Forall₂ (fun p t => Declares p t.toList) ps parts →
      readAll (",".intercalate parts) = .ok ps) ∧
    ∀ (kind : String) (spec : Spec) (n : Nat), spec.pinCount = n → 2 ≤ n →
      n + 1 < powerOfTen maxDigits →
      (spec.labels = [] ∨
        spec.labels.length = n ∧ ∀ label ∈ spec.labels, Unmarked label.toList) →
      readAll (spec.defaultPins kind) = .ok ((List.range' 2 n).map fun k : Nat => .number k) := by
  refine ⟨fun k => spells_toString, fun ps parts => readAll_intercalate, ?_⟩
  intro kind spec n hc hn hb hl
  exact readAll_defaultPins kind hc hn hb hl

/-- Labels that begin like a name or hold nothing, signs, zeros in front and a pin named twice. -/
theorem readAll_written_labels :
    readAll " A 9 :\t+007 ,A0,A 1, :-3,A0" =
        .ok [.number 7, .name "A0", .name "A 1", .number (-3), .name "A0"] ∧
      ∃ spec, Spec.ofKind? "ultrasonic" = some spec ∧ spec.defaultPins "ultrasonic" = "trig:2,echo:3" ∧
        readAll (spec.defaultPins "ultrasonic") = .ok [.number 2, .number 3] := by
  obtain ⟨-, lists, starts⟩ := readAll_written
  constructor
  · have first : Declares (.number 7) " A 9 :\t+007 ".toList := by
      have label : Unmarked " A 9 ".toList := by decide
      have spelled := Spells.number .plus ⟨['0', '0', '7'], by decide, by decide, by decide⟩
      exact .labelled label (.intro (l := ['\t']) (r := [' ']) (by decide) spelled (by decide))
    have minus : Declares (.number (-3)) " :-3".toList := by
      have label : Unmarked [' '] := by decide
      have spelled := Spells.number .minus ⟨['3'], by decide, by decide, by decide⟩
      exact .labelled label spelled.spaced
    have port : Spells (.name "A0") "A0".toList := .name rfl (by decide) (by rintro c ⟨⟩; decide)
    have pair : Spells (.name "A 1") "A 1".toList := .name rfl (by decide) (by rintro c ⟨⟩; decide)
    exact lists _ [" A 9 :\t+007 ", "A0", "A 1", " :-3", "A0"] (by simp)
      (.cons first (.cons (.bare port.spaced) (.cons (.bare pair.spaced)
        (.cons minus (.cons (.bare port.spaced) .nil)))))
  · have bound : 3 < powerOfTen maxDigits := printable_of_lt (n := 3) (m := 1) (by decide) (by decide)
    exact ⟨_, rfl, rfl, starts "ultrasonic" _ 2 rfl (by decide) bound (.inr ⟨rfl, by decide⟩)⟩

end Pin

end BlockSketch
