import BlockSketch.Json.Reader
import BlockSketch.Json.Writer
import BlockSketch.Proofs.Characters
import BlockSketch.Proofs.Numerals
import Mathlib.Data.List.Nodup

/-! # Texts of documents

A document is read back from its text if it can be written, its numbers are whole, the keys of its
mappings are different texts, and it is not nested too deeply.
-/

namespace BlockSketch.Json

open Text

variable {layout : Layout} {depth fuel level n opening : Nat} {c : Char} {r s t : List Char}
  {d : Document} {ds : List Document} {es : List (Document × Document)} {k : String}
  {u v w : List Char}

/-! ## Texts in quotes -/

theorem toNat_eq_codeOf (h : codeOf c < 0xD800) : c.toNat = codeOf c := by
  unfold codeOf at h ⊢
  split
  · next hc =>
    rw [if_pos hc] at h
    simp only [isSurrogate, Bool.and_eq_true, decide_eq_true_eq] at hc
    omega
  · rfl

theorem eq_ofNat_of_codeOf (h : codeOf c = n) (hn : n < 0xD800) : c = Char.ofNat n := by
  rw [← h, ← toNat_eq_codeOf (h ▸ hn), Char.ofNat_toNat]

theorem codeOf_le_toNat (c : Char) : codeOf c ≤ c.toNat := by
  unfold codeOf
  split <;> omega

/-- The digits of a control character are read back. -/
theorem codeEscape_hex (hn : n < 0x20) (ht : t ≠ []) :
    codeEscape (hex 4 n ++ t) = .ok (Char.ofNat n, t) := by
  have digits : ∀ n < 0x20, (hex 4 n).length = 4 ∧
      (hex 4 n).foldl (fun n? c => do return 16 * (← n?) + (← hexValue? c)) (some 0) = some n ∧
      charOfCode n = Char.ofNat n := by decide
  obtain ⟨hl, hv, hc⟩ := digits n hn
  have long : ¬ (hex 4 n ++ t).length ≤ 4 := by
    have := List.length_pos_iff.mpr ht
    rw [List.length_append]
    omega
  have value : hexFour? (hex 4 n ++ t) = some n := by
    rw [hexFour?, if_neg (by omega), List.take_left' hl]
    exact hv
  have low : (decide (0xD800 ≤ n) && decide (n ≤ 0xDBFF)) = false := by
    rw [decide_eq_false (by omega), Bool.false_and]
  rw [codeEscape, if_neg long, value]
  simp only [low, hc, List.drop_left' hl]
  rfl

theorem stringBody_plain (hq : c ≠ '"') (hb : c ≠ '\\') (hc : 0x20 ≤ c.toNat) :
    stringBody opening (fuel + 1) (c :: t) =
      (stringBody opening fuel t).map fun p => (c :: p.1, p.2) := by
  have control : ¬ c.toNat < 0x20 := Nat.not_lt.mpr hc
  rw [stringBody.eq_def]
  simp only [beq_iff_eq, hq, hb, control, if_false]
  cases stringBody opening fuel t <;> rfl

theorem stringBody_codeEscape (hn : n < 0x20) (ht : t ≠ []) :
    stringBody opening (fuel + 1) (codeEscapeOf n ++ t) =
      (stringBody opening fuel t).map fun p => (Char.ofNat n :: p.1, p.2) := by
  have escape : stringBody opening (fuel + 1) (codeEscapeOf n ++ t) =
      (codeEscape (hex 4 n ++ t)).bind fun q =>
        (stringBody opening fuel q.2).bind fun p => .ok (q.1 :: p.1, p.2) := rfl
  rw [escape, codeEscape_hex hn ht]
  cases h : stringBody opening fuel t <;> simp [Except.bind, Except.map, h]

theorem stringBody_escape {e : Char} (he : escapeOf? e = some c) (hu : e ≠ 'u') :
    stringBody opening (fuel + 1) ('\\' :: e :: t) =
      (stringBody opening fuel t).map fun p => (c :: p.1, p.2) := by
  rw [stringBody.eq_def]
  simp only [he]
  cases stringBody opening fuel t <;> simp_all [Except.map]

/-- One character is read back from its form inside quotes. -/
theorem stringBody_stringChar (ht : t ≠ []) :
    stringBody opening (fuel + 1) (stringChar false c ++ t) =
      (stringBody opening fuel t).map fun p => (c :: p.1, p.2) := by
  unfold stringChar
  dsimp only [Bool.false_and]
  split
  · next h =>
    rcases (by simpa using h : c = '"' ∨ c = '\\') with rfl | rfl <;>
      exact stringBody_escape rfl (by decide)
  split
  · next h =>
    obtain rfl := beq_iff_eq.mp h
    exact stringBody_escape rfl (by decide)
  split
  · next h =>
    obtain rfl := beq_iff_eq.mp h
    exact stringBody_escape rfl (by decide)
  split
  · next h =>
    obtain rfl := beq_iff_eq.mp h
    exact stringBody_escape rfl (by decide)
  split
  · next h =>
    obtain rfl := eq_ofNat_of_codeOf (beq_iff_eq.mp h) (by decide)
    exact stringBody_escape rfl (by decide)
  split
  · next h =>
    obtain rfl := eq_ofNat_of_codeOf (beq_iff_eq.mp h) (by decide)
    exact stringBody_escape rfl (by decide)
  split
  · next h =>
    obtain ⟨n, hn⟩ : ∃ n, codeOf c = n := ⟨_, rfl⟩
    rw [hn] at h ⊢
    obtain rfl := eq_ofNat_of_codeOf hn (by omega)
    exact stringBody_codeEscape h ht
  · next hq _ _ _ _ _ hc =>
    simp only [Bool.or_eq_true, beq_iff_eq, not_or] at hq
    exact stringBody_plain hq.1 hq.2 ((Nat.not_lt.mp hc).trans (codeOf_le_toNat c))

theorem stringBody_text (h : s.length < fuel) :
    stringBody opening fuel (s.flatMap (stringChar false) ++ '"' :: r) = .ok (s, r) := by
  induction s generalizing fuel with
  | nil =>
    obtain ⟨fuel, rfl⟩ := Nat.exists_eq_add_one.mpr h
    rfl
  | cons c s ih =>
    obtain ⟨fuel, rfl⟩ := Nat.exists_eq_add_one.mpr (Nat.zero_lt_of_lt h)
    rw [List.flatMap_cons, List.append_assoc, stringBody_stringChar (by simp),
      ih (Nat.lt_of_succ_lt_succ h)]
    rfl

theorem stringChar_ne_nil (c : Char) : stringChar false c ≠ [] := by
  unfold stringChar
  dsimp only [Bool.false_and]
  repeat' split
  all_goals exact List.cons_ne_nil _ _

theorem length_le_flatMap_stringChar (s : List Char) :
    s.length ≤ (s.flatMap (stringChar false)).length := by
  induction s with
  | nil => exact Nat.le_refl 0
  | cons c s ih =>
    have := List.length_pos_iff.mpr (stringChar_ne_nil c)
    rw [List.flatMap_cons, List.length_append, List.length_cons]
    omega

/-- A text is read back from what stands after its opening quote. -/
theorem string_text (s : String) (r : List Char) :
    string (s.toList.flatMap (stringChar false) ++ '"' :: r) = .ok (s, r) := by
  have long := length_le_flatMap_stringChar s.toList
  have fuel : s.toList.length <
      (s.toList.flatMap (stringChar false) ++ '"' :: r).length + 1 := by
    rw [List.length_append]
    omega
  rw [string, stringBody_text fuel]
  exact congrArg (fun t => Except.ok (t, r)) String.ofList_toList

/-! ## Whole numbers -/

/-- The characters that can follow a value. -/
def ends : List Char := [' ', '\t', '\n', '\r', ',', ']', '\x7d']

/-- A value can end in front of the text. -/
def Ends (r : List Char) : Prop := ∀ c ∈ r.head?, c ∈ ends

theorem not_isDigit_of_mem_ends : ∀ c ∈ ends,
    isAsciiDigit c = false ∧ c ≠ '.' ∧ c ≠ 'e' ∧ c ≠ 'E' := by decide

theorem fraction_of_ends (h : Ends r) : fraction r = ([], r) := by
  cases r with
  | nil => rfl
  | cons c r =>
    have hc := (not_isDigit_of_mem_ends c (h c rfl)).2.1
    unfold fraction
    split
    · next he => exact absurd (List.cons.inj he).1 hc
    · rfl

theorem power?_of_ends (h : Ends r) : power? r = none := by
  cases r with
  | nil => rfl
  | cons c r =>
    obtain ⟨-, -, he, hE⟩ := not_isDigit_of_mem_ends c (h c rfl)
    simp [power?, he, hE]

theorem isAsciiDigit_of_isDigit (h : c.isDigit = true) : isAsciiDigit c = true := by
  simpa [isAsciiDigit, Char.isDigit, Char.le_def] using h

theorem isDigit_of_mem_toDigits (h : c ∈ Nat.toDigits 10 n) : c.isDigit = true :=
  Nat.isDigit_of_mem_toDigits (by decide) (by decide) h

theorem digitsValue_toDigits (n : Nat) : digitsValue (Nat.toDigits 10 n) = n := by
  have each : ∀ c, c.isDigit = true → (digitValue? c).getD 0 = c.toNat - '0'.toNat := by
    intro c hc
    exact forall_ascii (P := fun c => c.isDigit = true →
      (digitValue? c).getD 0 = c.toNat - '0'.toNat) (by decide +kernel)
      (toNat_lt_of_isPlain (isPlain_of_isDigit hc)) hc
  have same (ds : List Char) (k : Nat) (h : ∀ c ∈ ds, c.isDigit = true) :
      ds.foldl (fun n c => 10 * n + (digitValue? c).getD 0) k = Nat.ofDigitChars 10 ds k := by
    induction ds generalizing k with
    | nil => rfl
    | cons c ds ih =>
      obtain ⟨hc, hds⟩ := List.forall_mem_cons.mp h
      rw [List.foldl_cons, ih _ hds, each c hc]
      rfl
  rw [digitsValue, same _ _ fun c => isDigit_of_mem_toDigits, Nat.ofDigitChars_ten_toDigits]

theorem length_toDigits_le {m : Nat} (hm : 0 < m) (h : n < powerOfTen m) :
    (Nat.toDigits 10 n).length ≤ m := (Nat.length_toDigits_le_iff (by decide) hm).mpr h

theorem ofDigits_toDigits (h : n < powerOfTen Numeral.maxDigits) :
    Numeral.ofDigits (Nat.toDigits 10 n) = .ok n := by
  have short := length_toDigits_le (by decide) h
  rw [Numeral.ofDigits, if_neg (Nat.not_lt.mpr short), digitsValue_toDigits]

/-- Only the digits of zero begin with a zero. -/
theorem head?_toDigits (h : n ≠ 0) : (Nat.toDigits 10 n).head? ≠ some '0' := by
  induction n using Nat.strongRecOn with
  | ind n ih =>
    have small : ∀ n < 10, n ≠ 0 → n.digitChar ≠ '0' := by decide
    rw [Nat.toDigits_eq_if (by decide)]
    split
    · next hn => simpa using small n hn h
    · next hn =>
      obtain ⟨c, cs, hc⟩ := List.exists_cons_of_ne_nil (Nat.toDigits_ne_nil (n := n / 10) (b := 10))
      have hz := ih (n / 10) (by omega) (by omega)
      rw [hc] at hz ⊢
      exact hz

theorem number?_toDigits {negative : Bool} (h : n < powerOfTen Numeral.maxDigits) (hr : Ends r) :
    number? negative (Nat.toDigits 10 n ++ r) =
      some (.ok (.int (Numeral.applySign negative n), r)) := by
  have value := ofDigits_toDigits h
  by_cases hn : n = 0
  · subst hn
    rw [Nat.toDigits_zero] at value ⊢
    simp [number?, fraction_of_ends hr, power?_of_ends hr, value]
  · have digits : ∀ c ∈ Nat.toDigits 10 n, isAsciiDigit c = true :=
      fun c hc => isAsciiDigit_of_isDigit (isDigit_of_mem_toDigits hc)
    have first := head?_toDigits hn
    obtain ⟨run, left⟩ := run_append digits fun c hc => (not_isDigit_of_mem_ends c (hr c hc)).1
    obtain ⟨c, cs, hc⟩ := List.exists_cons_of_ne_nil (Nat.toDigits_ne_nil (n := n) (b := 10))
    rw [hc] at value run left first ⊢
    unfold number?
    rw [List.cons_append] at run left ⊢
    split
    · next he => exact absurd (congrArg some (List.cons.inj he).1) first
    · simp [run, left, fraction_of_ends hr, power?_of_ends hr, value]

/-- The text of a whole number, with its sign in front. -/
theorem toList_toString (k : Int) : (toString k).toList =
    (if k < 0 then ['-'] else []) ++ Nat.toDigits 10 k.natAbs := by
  rw [Int.toString_eq_repr, Int.repr_eq_if]
  split
  · next h =>
    obtain ⟨m, rfl⟩ := Int.eq_ofNat_of_zero_le h
    simp [Nat.toList_repr]
  · next h =>
    obtain ⟨m, rfl⟩ := Int.exists_eq_neg_ofNat (Int.le_of_lt (Int.not_le.mp h))
    rw [if_pos (Int.not_le.mp h)]
    simp [String.toList_append, Nat.toList_repr]

theorem word?_of_isDigit (h : c.isDigit = true) : word? (c :: s) = none ∧
    word? ('-' :: c :: s) = none := by
  have other : c ≠ 'n' ∧ c ≠ 't' ∧ c ≠ 'f' ∧ c ≠ 'N' ∧ c ≠ 'I' ∧ c ≠ '-' := by
    refine ⟨?_, ?_, ?_, ?_, ?_, ?_⟩ <;> (rintro rfl; cases h)
  simp [word?, words, other, Ne.symm]

/-- A whole number is read back from its digits. -/
theorem scalar_int {k : Int} (h : Numeral.Printable k) (hr : Ends r) :
    scalar ((toString k).toList ++ r) = .ok (.int k, r) := by
  obtain ⟨c, cs, hc⟩ :=
    List.exists_cons_of_ne_nil (Nat.toDigits_ne_nil (n := k.natAbs) (b := 10))
  have digit : c.isDigit = true := isDigit_of_mem_toDigits (hc ▸ List.mem_cons_self)
  have minus : c ≠ '-' := by
    rintro rfl
    cases digit
  have number (negative : Bool) : number? negative (c :: (cs ++ r)) =
      some (.ok (.int (Numeral.applySign negative k.natAbs), r)) := by
    rw [← List.cons_append, ← hc]
    exact number?_toDigits h hr
  rw [toList_toString, hc]
  split
  · next hk =>
    have value : Numeral.applySign true k.natAbs = k := by
      rw [Numeral.applySign, if_pos rfl]
      omega
    have word := (word?_of_isDigit (s := cs ++ r) digit).2
    simp [scalar, word, number, value]
  · next hk =>
    have value : Numeral.applySign false k.natAbs = k := by
      rw [Numeral.applySign, if_neg (by decide)]
      omega
    have word := (word?_of_isDigit (s := cs ++ r) digit).1
    have other (t : List Char) : c :: (cs ++ r) ≠ '-' :: t := fun he => minus (List.cons.inj he).1
    rw [List.nil_append, List.cons_append, scalar, word]
    · simp only [number, value]
    · exact other

/-! ## Steps of the reader -/

theorem value_scalar (hq : c ≠ '"') (hl : c ≠ '[') (hm : c ≠ '\x7b') :
    value (fuel + 1) depth (c :: s) = scalar (c :: s) := by
  rw [value.eq_def]
  split <;> simp_all

theorem value_text (h : string s = .ok (k, r)) :
    value (fuel + 1) depth ('"' :: s) = .ok (.text k, r) := by
  simp only [value, h]
  rfl

theorem value_list (hs : skipSpace s = c :: t) (hc : c ≠ ']')
    (he : elements fuel depth (c :: t) = .ok (ds, r)) :
    value (fuel + 1) (depth + 1) ('[' :: s) = .ok (.list ds, r) := by
  rw [value.eq_def]
  simp only [hs]
  split
  · simp_all
  · rw [he]
    rfl

theorem value_map (hs : skipSpace s = c :: t) (hc : c ≠ '\x7d')
    (he : members fuel depth (c :: t) = .ok (es, r)) :
    value (fuel + 1) (depth + 1) ('\x7b' :: s) = .ok (.map (Document.distinct es), r) := by
  rw [value.eq_def]
  simp only [hs]
  split
  · simp_all
  · rw [he]
    rfl

theorem elements_last (hv : value fuel depth s = .ok (d, t)) (hs : skipSpace t = ']' :: r) :
    elements (fuel + 1) depth s = .ok ([d], r) := by
  rw [elements, hv]
  simp only [bind, Except.bind, hs]
  rfl

theorem elements_more (hv : value fuel depth s = .ok (d, t)) (hs : skipSpace t = ',' :: u)
    (he : elements fuel depth (skipSpace u) = .ok (ds, r)) :
    elements (fuel + 1) depth s = .ok (d :: ds, r) := by
  rw [elements, hv]
  simp only [bind, Except.bind, hs, he]
  rfl

theorem members_last (hn : string s = .ok (k, t)) (hc : skipSpace t = ':' :: u)
    (hv : value fuel depth (skipSpace u) = .ok (d, v)) (hs : skipSpace v = '\x7d' :: r) :
    members (fuel + 1) depth ('"' :: s) = .ok ([(.text k, d)], r) := by
  rw [members, hn]
  simp only [bind, Except.bind, hc, hv, hs]
  rfl

theorem members_more (hn : string s = .ok (k, t)) (hc : skipSpace t = ':' :: u)
    (hv : value fuel depth (skipSpace u) = .ok (d, v)) (hs : skipSpace v = ',' :: w)
    (he : members fuel depth (skipSpace w) = .ok (es, r)) :
    members (fuel + 1) depth ('"' :: s) = .ok ((.text k, d) :: es, r) := by
  rw [members, hn]
  simp only [bind, Except.bind, hc, hv, hs, he]
  rfl

/-! ## Layouts -/

theorem skipSpace_cons (h : isSpace c = false) : skipSpace (c :: s) = c :: s :=
  List.dropWhile_cons_of_neg (by simp [h])

theorem skipSpace_spaces (h : ∀ c ∈ s, isSpace c = true) : skipSpace (s ++ t) = skipSpace t :=
  List.dropWhile_append_of_pos h

theorem isSpace_of_mem_breakTo (h : c ∈ breakTo layout level) : isSpace c = true := by
  unfold breakTo at h
  split at h
  · cases h
  · rcases List.mem_cons.mp h with rfl | h
    · rfl
    · obtain rfl := List.eq_of_mem_replicate h
      rfl

theorem skipSpace_breakTo : skipSpace (breakTo layout level ++ t) = skipSpace t :=
  skipSpace_spaces fun _ => isSpace_of_mem_breakTo

theorem ends_breakTo (h : c ∈ ends) : Ends (breakTo layout level ++ c :: r) := by
  unfold breakTo
  split
  · rintro _ ⟨⟩
    exact h
  · rintro _ ⟨⟩
    decide

theorem separator_append (layout : Layout) (level : Nat) (t : List Char) :
    ∃ u, separator layout level ++ t = ',' :: u ∧ skipSpace u = skipSpace t := by
  unfold separator
  split
  · split
    · exact ⟨' ' :: t, rfl, rfl⟩
    · exact ⟨t, rfl, rfl⟩
  · exact ⟨breakTo layout level ++ t, rfl, skipSpace_breakTo⟩

theorem length_separator_pos (layout : Layout) (level : Nat) :
    0 < (separator layout level).length := by
  obtain ⟨u, hu, -⟩ := separator_append layout level []
  rw [← List.append_nil (separator layout level), hu]
  exact Nat.succ_pos _

theorem colon_append (layout : Layout) (t : List Char) :
    ∃ u, colon layout ++ t = ':' :: u ∧ skipSpace u = skipSpace t := by
  unfold colon
  split
  · exact ⟨' ' :: t, rfl, rfl⟩
  · exact ⟨t, rfl, rfl⟩

theorem ends_separator : Ends (separator layout level ++ t) := by
  obtain ⟨u, hu, -⟩ := separator_append layout level t
  rw [hu]
  rintro _ ⟨⟩
  decide

/-! ## Documents -/

/-- The document is read back from its text in any place, and neither a space nor a bracket that
closes a list nor a byte order mark stands at its front. -/
structure Reads (layout : Layout) (depth : Nat) (d : Document) : Prop where
  head : ∀ level, ∃ c t, render layout level d = c :: t ∧
    isSpace c = false ∧ c ≠ ']' ∧ c ≠ '\uFEFF'
  value : ∀ level fuel r, 2 * (render layout level d).length ≤ fuel → Ends r →
    value fuel depth (render layout level d ++ r) = .ok (d, r)

theorem Reads.skipSpace (h : Reads layout depth d) :
    skipSpace (render layout level d ++ t) = render layout level d ++ t := by
  obtain ⟨c, u, he, hc, -⟩ := h.head level
  rw [he]
  exact skipSpace_cons hc

theorem elements_render (level up fuel : Nat) (r : List Char) (hd : Reads layout depth d)
    (hds : ∀ e ∈ ds, Reads layout depth e)
    (hf : 2 * ((render layout level d).length + (renderItems layout level ds).length) < fuel) :
    elements fuel depth (render layout level d ++ (renderItems layout level ds ++
      (breakTo layout up ++ ']' :: r))) = .ok (d :: ds, r) := by
  obtain ⟨fuel, rfl⟩ := Nat.exists_eq_add_one.mpr (Nat.zero_lt_of_lt hf)
  induction ds generalizing d fuel with
  | nil =>
    have last : Ends (breakTo layout up ++ ']' :: r) := ends_breakTo (by decide)
    have hv := hd.value level fuel _ (by omega) last
    exact elements_last hv (skipSpace_breakTo.trans (skipSpace_cons rfl))
  | cons e ds ih =>
    obtain ⟨he, hes⟩ := List.forall_mem_cons.mp hds
    -- The comma is the character that pays for the step to the next item.
    have pos := length_separator_pos layout level
    simp only [renderItems, List.length_append, List.append_assoc] at hf ⊢
    obtain ⟨u, hu, hs⟩ := separator_append layout level (render layout level e ++
      (renderItems layout level ds ++ (breakTo layout up ++ ']' :: r)))
    refine elements_more (hd.value level fuel _ (by omega) ends_separator)
      (by rw [hu, skipSpace_cons rfl]) ?_
    rw [hs, he.skipSpace]
    obtain ⟨fuel, rfl⟩ := Nat.exists_eq_add_one.mpr (by omega : 0 < fuel)
    exact ih he hes fuel (by omega)

/-- The entries of a mapping with text keys. -/
def keyed (fields : List (String × Document)) : List (Document × Document) :=
  fields.map fun (k, v) => (.text k, v)

theorem keyText_append (ha : layout.asciiOnly = false) : keyText layout (.text k) ++ t =
    '"' :: (k.toList.flatMap (stringChar false) ++ '"' :: t) := by
  simp [keyText, stringText, ha]

/-- What stands after a name is a colon and the value. -/
theorem Reads.value_colon (h : Reads layout depth d) (level fuel : Nat)
    (hf : 2 * (render layout level d).length ≤ fuel) (hr : Ends r) :
    ∃ u, Json.skipSpace (colon layout ++ (render layout level d ++ r)) = ':' :: u ∧
      Json.value fuel depth (Json.skipSpace u) = .ok (d, r) := by
  obtain ⟨u, hu, hs⟩ := colon_append layout (render layout level d ++ r)
  refine ⟨u, by rw [hu, skipSpace_cons rfl], ?_⟩
  rw [hs, h.skipSpace]
  exact h.value level fuel r hf hr

theorem members_render {fields : List (String × Document)} (level up fuel : Nat) (r : List Char)
    (k : String) (ha : layout.asciiOnly = false) (hd : Reads layout depth d)
    (hds : ∀ f ∈ fields, Reads layout depth f.2)
    (hf : 2 * ((render layout level d).length +
      (renderEntries layout level (keyed fields)).length) < fuel) :
    members fuel depth (keyText layout (.text k) ++ (colon layout ++ (render layout level d ++
      (renderEntries layout level (keyed fields) ++ (breakTo layout up ++ '\x7d' :: r))))) =
        .ok ((.text k, d) :: keyed fields, r) := by
  obtain ⟨fuel, rfl⟩ := Nat.exists_eq_add_one.mpr (Nat.zero_lt_of_lt hf)
  rw [keyText_append ha]
  induction fields generalizing k d fuel with
  | nil =>
    have last : Ends (breakTo layout up ++ '\x7d' :: r) := ends_breakTo (by decide)
    obtain ⟨u, hc, hv⟩ := hd.value_colon level fuel (by omega) last
    exact members_last (string_text k _) hc hv (skipSpace_breakTo.trans (skipSpace_cons rfl))
  | cons f fields ih =>
    obtain ⟨he, hes⟩ := List.forall_mem_cons.mp hds
    have pos := length_separator_pos layout level
    have entries : renderEntries layout level (keyed (f :: fields)) =
        separator layout level ++ keyText layout (.text f.1) ++ colon layout ++
          render layout level f.2 ++ renderEntries layout level (keyed fields) := rfl
    simp only [entries, List.length_append, List.append_assoc] at hf ⊢
    obtain ⟨w, hw, hs⟩ := separator_append layout level (keyText layout (.text f.1) ++
      (colon layout ++ (render layout level f.2 ++ (renderEntries layout level (keyed fields) ++
        (breakTo layout up ++ '\x7d' :: r)))))
    obtain ⟨u, hc, hv⟩ := hd.value_colon level fuel (by omega) ends_separator
    refine members_more (string_text k _) hc hv (by rw [hw, skipSpace_cons rfl]) ?_
    rw [hs, keyText_append ha, skipSpace_cons rfl]
    obtain ⟨fuel, rfl⟩ := Nat.exists_eq_add_one.mpr (by omega : 0 < fuel)
    exact ih f.1 he hes fuel (by omega)

theorem insert_of_not_mem {fields : List (String × Document)} (h : k ∉ fields.map Prod.fst) :
    Document.insert (.text k) d (keyed fields) = keyed (fields ++ [(k, d)]) := by
  induction fields with
  | nil => rfl
  | cons f fields ih =>
    obtain ⟨hf, hfs⟩ := not_or.mp (mt List.mem_cons.mpr h)
    have other : (Document.text f.1).sameKey (.text k) = false :=
      beq_eq_false_iff_ne.mpr (Ne.symm hf)
    have first : keyed (f :: fields) = (.text f.1, f.2) :: keyed fields := rfl
    rw [first, Document.insert, if_neg (by simp [other]), ih hfs]
    rfl

/-- Entries with different names are kept as they are. -/
theorem distinct_keyed {fields : List (String × Document)} (h : (fields.map Prod.fst).Nodup) :
    Document.distinct (keyed fields) = keyed fields := by
  induction fields using List.reverseRecOn with
  | nil => rfl
  | append_singleton fields f ih =>
    rw [List.map_append, List.nodup_append'] at h
    have new : f.1 ∉ fields.map Prod.fst := fun hm => h.2.2 hm (List.mem_singleton.mpr rfl)
    have last : keyed (fields ++ [f]) = keyed fields ++ [(.text f.1, f.2)] := List.map_append
    have before := ih h.1
    unfold Document.distinct at before ⊢
    rw [last, List.foldl_append, before]
    exact (insert_of_not_mem new).trans last

/-- Documents without numbers but whole ones, whose mappings have different texts as keys, and that
are nested no deeper than a bound. -/
inductive Regular : Nat → Document → Prop where
  | null {depth : Nat} : Regular depth .null
  | bool {depth : Nat} (b : Bool) : Regular depth (.bool b)
  | int {depth : Nat} (n : Int) : Regular depth (.int n)
  | text {depth : Nat} (s : String) : Regular depth (.text s)
  | list {depth : Nat} {ds : List Document} : (∀ d ∈ ds, Regular depth d) →
      Regular (depth + 1) (.list ds)
  | object {depth : Nat} {fields : List (String × Document)} : (fields.map Prod.fst).Nodup →
      (∀ f ∈ fields, Regular depth f.2) → Regular (depth + 1) (.object fields)

theorem exists_fuel (he : s ≠ []) (hf : 2 * s.length ≤ fuel) : ∃ n, fuel = n + 1 := by
  have := List.length_pos_iff.mpr he
  exact Nat.exists_eq_add_one.mpr (by omega)

theorem reads_scalar (hh : ∀ level, ∃ c t, render layout level d = c :: t ∧
      (isSpace c = false ∧ c ≠ ']' ∧ c ≠ '\uFEFF') ∧ c ≠ '"' ∧ c ≠ '[' ∧ c ≠ '\x7b')
    (hs : ∀ level r, Ends r → scalar (render layout level d ++ r) = .ok (d, r)) :
    Reads layout depth d where
  head level := by
    obtain ⟨c, t, he, hc, -⟩ := hh level
    exact ⟨c, t, he, hc⟩
  value level fuel r hf hr := by
    obtain ⟨c, t, he, -, hq, hl, hm⟩ := hh level
    obtain ⟨fuel, rfl⟩ := exists_fuel (by simp [he]) hf
    have value := hs level r hr
    rw [he, List.cons_append] at value ⊢
    rw [value_scalar hq hl hm, value]

theorem reads_int {n : Int} (h : Numeral.Printable n) : Reads layout depth (.int n) := by
  refine reads_scalar (fun level => ?_) fun level r hr => scalar_int h hr
  obtain ⟨c, cs, hc⟩ := List.exists_cons_of_ne_nil (Nat.toDigits_ne_nil (n := n.natAbs) (b := 10))
  have digit : c.isDigit = true := isDigit_of_mem_toDigits (hc ▸ List.mem_cons_self)
  have text : render layout level (.int n) = (if n < 0 then ['-'] else []) ++ c :: cs :=
    (toList_toString n).trans (congrArg _ hc)
  rw [text]
  split
  · exact ⟨'-', c :: cs, rfl, by decide⟩
  · refine ⟨c, cs, rfl, ?_⟩
    exact forall_ascii (P := fun c => c.isDigit = true →
      (isSpace c = false ∧ c ≠ ']' ∧ c ≠ '\uFEFF') ∧ c ≠ '"' ∧ c ≠ '[' ∧ c ≠ '\x7b')
      (by decide +kernel) (toNat_lt_of_isPlain (isPlain_of_isDigit digit)) digit

theorem reads_text (ha : layout.asciiOnly = false) (s : String) :
    Reads layout depth (.text s) := by
  have text (level : Nat) (r : List Char) : render layout level (.text s) ++ r =
    '"' :: (s.toList.flatMap (stringChar false) ++ '"' :: r) := keyText_append ha
  have first (level : Nat) : render layout level (.text s) =
      '"' :: (s.toList.flatMap (stringChar false) ++ ['"']) := by
    rw [← text, List.append_nil]
  refine ⟨fun level => ⟨_, _, first level, by decide⟩, fun level fuel r hf hr => ?_⟩
  obtain ⟨fuel, rfl⟩ := exists_fuel (by simp [first]) hf
  rw [text]
  exact value_text (string_text s r)

theorem reads_list (h : ∀ d ∈ ds, Reads layout depth d) : Reads layout (depth + 1) (.list ds) := by
  cases ds with
  | nil =>
    refine ⟨fun level => ⟨'[', [']'], rfl, by decide⟩, fun level fuel r hf hr => ?_⟩
    obtain ⟨fuel, rfl⟩ := exists_fuel (by simp [render]) hf
    rfl
  | cons d ds =>
    obtain ⟨hd, hds⟩ := List.forall_mem_cons.mp h
    refine ⟨fun level => ⟨'[', _, rfl, by decide⟩, fun level fuel r hf hr => ?_⟩
    obtain ⟨fuel, rfl⟩ := exists_fuel (by simp [render]) hf
    obtain ⟨c, t, he, hc, hn, -⟩ := hd.head (level + 1)
    simp only [render, List.cons_append, List.append_assoc, List.length_cons, List.length_append,
      List.nil_append] at hf ⊢
    have items := elements_render (level + 1) level fuel r hd hds (by omega)
    rw [he] at items
    refine value_list ?_ hn items
    rw [he, skipSpace_breakTo]
    exact skipSpace_cons hc

theorem reads_object {fields : List (String × Document)} (ha : layout.asciiOnly = false)
    (hn : (fields.map Prod.fst).Nodup) (h : ∀ f ∈ fields, Reads layout depth f.2) :
    Reads layout (depth + 1) (.object fields) := by
  cases fields with
  | nil =>
    refine ⟨fun level => ⟨'\x7b', ['\x7d'], rfl, by decide⟩, fun level fuel r hf hr => ?_⟩
    obtain ⟨fuel, rfl⟩ := exists_fuel (by simp [Document.object, render]) hf
    rfl
  | cons f fields =>
    obtain ⟨hd, hds⟩ := List.forall_mem_cons.mp h
    have text (level : Nat) : render layout level (.object (f :: fields)) =
        '\x7b' :: (breakTo layout (level + 1) ++ (keyText layout (.text f.1) ++ (colon layout ++
          (render layout (level + 1) f.2 ++ (renderEntries layout (level + 1) (keyed fields) ++
            (breakTo layout level ++ ['\x7d'])))))) := by
      simp [Document.object, render, keyed]
    refine ⟨fun level => ⟨'\x7b', _, text level, by decide⟩, fun level fuel r hf hr => ?_⟩
    obtain ⟨fuel, rfl⟩ := exists_fuel (by simp [text]) hf
    simp only [text, List.cons_append, List.append_assoc, List.length_cons, List.length_append,
      List.nil_append] at hf ⊢
    have entries := members_render (level + 1) level fuel r f.1 ha hd hds (by omega)
    rw [keyText_append ha] at entries ⊢
    refine (value_map (skipSpace_breakTo.trans (skipSpace_cons rfl)) (by decide) entries).trans ?_
    have same : (.text f.1, f.2) :: keyed fields = keyed (f :: fields) := rfl
    rw [same, distinct_keyed hn]
    rfl

/-! ### Written documents -/

theorem hasLongNumber_int {n : Int} : hasLongNumber (.int n) = false ↔ Numeral.Printable n := by
  rw [hasLongNumber, decide_eq_false_iff_not, Nat.not_le]
  rfl

theorem hasLongNumber_list :
    hasLongNumber (.list ds) = false ↔ ∀ d ∈ ds, hasLongNumber d = false := by
  rw [hasLongNumber]
  induction ds with
  | nil => exact iff_of_true rfl (List.forall_mem_nil _)
  | cons d ds ih => rw [anyLongNumber, Bool.or_eq_false_iff, List.forall_mem_cons, ih]

theorem hasLongNumber_map {es : List (Document × Document)} :
    hasLongNumber (.map es) = false ↔ ∀ e ∈ es, hasLongNumber e.2 = false := by
  rw [hasLongNumber]
  induction es with
  | nil => exact iff_of_true rfl (List.forall_mem_nil _)
  | cons e es ih => rw [entryLongNumber, Bool.or_eq_false_iff, List.forall_mem_cons, ih]

theorem hasLongNumber_object {fields : List (String × Document)} :
    hasLongNumber (.object fields) = false ↔ ∀ f ∈ fields, hasLongNumber f.2 = false := by
  rw [Document.object, hasLongNumber_map, List.forall_mem_map]

theorem Regular.reads (ha : layout.asciiOnly = false) (h : Regular depth d)
    (hn : hasLongNumber d = false) : Reads layout depth d := by
  induction h with
  | null => exact reads_scalar (fun _ => ⟨'n', _, rfl, by decide⟩) fun _ _ _ => rfl
  | bool b =>
    cases b
    · exact reads_scalar (fun _ => ⟨'f', _, rfl, by decide⟩) fun _ _ _ => rfl
    · exact reads_scalar (fun _ => ⟨'t', _, rfl, by decide⟩) fun _ _ _ => rfl
  | int n => exact reads_int (hasLongNumber_int.mp hn)
  | text s => exact reads_text ha s
  | list _ ih => exact reads_list fun d hd => ih d hd (hasLongNumber_list.mp hn d hd)
  | object hk _ ih => exact reads_object ha hk fun f hf => ih f hf (hasLongNumber_object.mp hn f hf)

/-- A regular document that can be written is read back from its text. -/
theorem read_of_write {text : String} (ha : layout.asciiOnly = false) (h : Regular depth d)
    (hw : write layout d = .ok text) : read text depth = .ok d := by
  unfold write at hw
  split at hw
  · cases hw
  · next hn =>
    obtain rfl := Except.ok.inj hw
    have reads := h.reads ha (Bool.eq_false_iff.mpr hn)
    obtain ⟨c, t, he, hc, -, hm⟩ := reads.head 0
    have value := reads.value 0 (2 * (render layout 0 d).length + 2) [] (by omega) nofun
    rw [List.append_nil] at value
    have mark : ((render layout 0 d).head? == some '\uFEFF') = false := by simp [he, hm]
    have front : skipSpace (render layout 0 d) = render layout 0 d := by
      rw [he]
      exact skipSpace_cons hc
    have whole : document depth (render layout 0 d) = .ok d := by
      rw [document, mark, front, value]
      rfl
    rw [read, textOf, String.toList_ofList, whole]

end BlockSketch.Json
