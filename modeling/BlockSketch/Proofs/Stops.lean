import BlockSketch.Proofs.JsonTexts

/-! # Where reading stops

A text that is read gives a document all of whose whole numbers can be written again. If it is not
read, it is malformed, or there is a reason in the text itself: a run of digits that is too long for
a numeral, or more opening brackets than values may be nested deep.
-/

namespace BlockSketch.Json

open Numeral (maxDigits)

variable {α β : Type} {P : α → Prop} {Q : β → Prop} {s s' r : List Char} {depth fuel : Nat}

/-! ## Outcomes -/

/-- Whether a character opens a list or an object. -/
def isOpening (c : Char) : Bool := c == '[' || c == '\x7b'

/-- How many lists and objects a text opens, if brackets in texts are counted too. -/
def openings (s : List Char) : Nat := s.countP isOpening

/-- What the outcome of reading at the front of a text says about the text: what was read has a
property and the rest is left, or the reason to stop stands in the text. -/
inductive Accounts (P : α → Prop) (depth : Nat) (s : List Char) :
    Except Stop (α × List Char) → Prop where
  | ok {a : α} {r : List Char} : P a → r <:+ s → Accounts P depth s (.ok (a, r))
  | problem (what : Problem) (remaining : Nat) :
      Accounts P depth s (.error (.problem what remaining))
  | numeral {ds : List Char} : ds <:+: s → (∀ c ∈ ds, isAsciiDigit c = true) →
      maxDigits < ds.length → Accounts P depth s (.error (.numeral (.tooManyDigits ds.length)))
  | tooDeep (nest : Nest) : depth < openings s → Accounts P depth s (.error (.tooDeep nest))

theorem openings_le (h : s' <:+ s) : openings s' ≤ openings s := h.sublist.countP_le

theorem openings_cons {c : Char} (h : isOpening c = true) : openings (c :: s) = openings s + 1 :=
  List.countP_cons_of_pos h

namespace Accounts

variable {x : Except Stop (α × List Char)}

theorem of_suffix (h : Accounts P depth s' x) (hs : s' <:+ s) : Accounts P depth s x := by
  cases h with
  | ok ha hr => exact .ok ha (hr.trans hs)
  | problem what n => exact .problem what n
  | numeral hd hc hl => exact .numeral (hd.trans hs.isInfix) hc hl
  | tooDeep nest hd => exact .tooDeep nest (hd.trans_le (openings_le hs))

/-- Behind an opening bracket one level less is left. -/
theorem of_opening {c : Char} (hc : isOpening c = true) (h : Accounts P depth s x) :
    Accounts P (depth + 1) (c :: s) x := by
  have hs : s <:+ c :: s := List.suffix_cons c s
  cases h with
  | ok ha hr => exact .ok ha (hr.trans hs)
  | problem what n => exact .problem what n
  | numeral hd hc hl => exact .numeral (hd.trans hs.isInfix) hc hl
  | tooDeep nest hd => exact .tooDeep nest (by rw [openings_cons hc]; omega)

theorem bind {g : α × List Char → Except Stop (β × List Char)} (h : Accounts P depth s x)
    (hg : ∀ a r, P a → r <:+ s → Accounts Q depth r (g (a, r))) :
    Accounts Q depth s (x >>= g) := by
  cases h with
  | ok ha hr => exact (hg _ _ ha hr).of_suffix hr
  | problem what n => exact .problem what n
  | numeral hd hc hl => exact .numeral hd hc hl
  | tooDeep nest hd => exact .tooDeep nest hd

theorem map {g : α → β} (h : Accounts P depth s x) (hg : ∀ a, P a → Q (g a)) :
    Accounts Q depth s (x >>= fun p => pure (g p.1, p.2)) :=
  h.bind fun a r ha _ => .ok (hg a ha) (List.suffix_refl r)

theorem fail (what : Problem) : Accounts P depth s (Json.fail what r) := .problem what r.length

end Accounts

theorem skipSpace_suffix (s : List Char) : skipSpace s <:+ s := List.dropWhile_suffix _

/-- What follows a character that was looked for stands in the text. -/
theorem suffix_of_skipSpace {c : Char} (h : skipSpace s = c :: r) : r <:+ s :=
  (List.suffix_cons c r).trans (h ▸ skipSpace_suffix s)

/-! ## Texts -/

theorem lowHalf?_cases (s : List Char) : (∃ what n, lowHalf? s = .error (.problem what n)) ∨
    lowHalf? s = .ok none ∨ ∃ code r, lowHalf? s = .ok (some (code, r)) ∧ r <:+ s := by
  unfold lowHalf?
  split
  · next r =>
    split
    · exact .inr (.inl rfl)
    · split
      · exact .inl ⟨_, _, rfl⟩
      · next code _ =>
        split
        · refine .inr (.inr ⟨code, _, rfl, ?_⟩)
          exact (List.drop_suffix 4 r).trans ⟨['\\', 'u'], rfl⟩
        · exact .inr (.inl rfl)
  · exact .inr (.inl rfl)

theorem accounts_codeEscape (depth : Nat) (s : List Char) :
    Accounts (fun _ => True) depth s (codeEscape s) := by
  have four : s.drop 4 <:+ s := List.drop_suffix 4 s
  unfold codeEscape
  split
  · exact .fail _
  · split
    · exact .fail _
    · dsimp only
      split
      · rcases lowHalf?_cases (s.drop 4) with ⟨what, n, h⟩ | h | ⟨low, r, h, hr⟩ <;> rw [h]
        · exact .problem what n
        · exact .ok trivial four
        · exact .ok trivial (hr.trans four)
      · exact .ok trivial four

theorem accounts_stringBody (opening fuel depth : Nat) (s : List Char) :
    Accounts (fun _ => True) depth s (stringBody opening fuel s) := by
  induction fuel generalizing s with
  | zero => exact .problem _ _
  | succ fuel ih =>
    have more (c : Char) {r : List Char} (hr : r <:+ s) :
        Accounts (fun _ => True) depth s (stringBody opening fuel r >>= fun p =>
          pure (c :: p.1, p.2)) :=
      ((ih r).map fun _ _ => trivial).of_suffix hr
    cases s with
    | nil => exact .problem _ _
    | cons c s =>
      unfold stringBody
      split_ifs with hq hb hc
      · exact .ok trivial (List.suffix_cons c s)
      · split
        · exact .problem _ _
        · next r =>
          have hr : r <:+ c :: 'u' :: r := ⟨[c, 'u'], rfl⟩
          exact ((accounts_codeEscape depth r).bind fun d t _ _ =>
            (ih t).map fun _ _ => trivial).of_suffix hr
        · next e r _ =>
          split
          · exact .fail _
          · next d _ => exact more d ⟨[c, e], rfl⟩
      · exact .fail _
      · exact more c (List.suffix_cons c s)

theorem accounts_string (depth : Nat) (s : List Char) :
    Accounts (fun _ => True) depth s (string s) :=
  (accounts_stringBody _ _ depth s).map fun _ _ => trivial

/-! ## Numbers -/

theorem fraction_suffix (s : List Char) : (fraction s).2 <:+ s := by
  unfold fraction
  split
  · next r =>
    split
    · exact List.suffix_refl _
    · exact (List.dropWhile_suffix _).trans (List.suffix_cons '.' r)
  · exact List.suffix_refl _

theorem splitSign_suffix (s : List Char) : (Numeral.splitSign s).2 <:+ s := by
  unfold Numeral.splitSign
  split
  · exact List.suffix_cons _ _
  · exact List.suffix_cons _ _
  · exact List.suffix_refl _

theorem power?_suffix {p : Int × List Char} (h : power? s = some p) : p.2 <:+ s := by
  unfold power? at h
  split at h
  · next c r =>
    split at h
    · dsimp only at h
      split at h
      · cases h
      · obtain rfl := Option.some.inj h
        exact ((List.dropWhile_suffix _).trans (splitSign_suffix r)).trans (List.suffix_cons c r)
    · cases h
  · cases h

/-- The digits of a whole number and what follows them. -/
def wholePart? (s : List Char) : Option (List Char × List Char) :=
  match s with
  | '0' :: r => some (['0'], r)
  | _ =>
    match s.takeWhile isAsciiDigit with
    | [] => none
    | ds => some (ds, s.dropWhile isAsciiDigit)

theorem wholePart?_eq_some {p : List Char × List Char} (h : wholePart? s = some p) :
    s = p.1 ++ p.2 ∧ ∀ c ∈ p.1, isAsciiDigit c = true := by
  unfold wholePart? at h
  split at h
  · obtain rfl := Option.some.inj h
    exact ⟨rfl, fun c hc => by rw [List.mem_singleton.mp hc]; rfl⟩
  · split at h
    · cases h
    · obtain rfl := Option.some.inj h
      exact ⟨List.takeWhile_append_dropWhile.symm, fun c hc => List.mem_takeWhile_imp hc⟩

/-- The number of a document, if it is a whole one, can be written. -/
abbrev IsShort (d : Document) : Prop := hasLongNumber d = false

theorem isShort_applySign {negative : Bool} {n : Nat} (h : Numeral.Printable n) :
    IsShort (.int (Numeral.applySign negative n)) := by
  rw [IsShort, hasLongNumber_int, Numeral.Printable] at *
  cases negative with
  | false => exact h
  | true => rwa [Numeral.applySign, if_pos rfl, Int.natAbs_neg]

theorem accounts_number? {negative : Bool} {x : Except Stop (Document × List Char)}
    (h : number? negative s = some x) : Accounts IsShort depth s x := by
  obtain ⟨⟨whole, rest⟩, hw, rfl⟩ := Option.map_eq_some_iff.mp h
  obtain ⟨rfl, hd⟩ := wholePart?_eq_some hw
  have hr : (fraction rest).2 <:+ whole ++ rest :=
    (fraction_suffix rest).trans (List.suffix_append whole rest)
  dsimp only
  split
  · unfold Numeral.ofDigits
    split_ifs with hl
    · exact .numeral (List.prefix_append whole rest).isInfix hd hl
    · exact .ok (isShort_applySign (Numeral.printable_digitsValue (Nat.not_lt.mp hl))) hr
  · cases hp : power? (fraction rest).2 with
    | none => exact .ok rfl hr
    | some p => exact .ok rfl ((power?_suffix hp).trans hr)

theorem isShort_of_mem_words : ∀ w ∈ words, IsShort w.2 := by decide

theorem word?_suffix {p : Document × List Char} (h : word? s = some p) :
    IsShort p.1 ∧ p.2 <:+ s := by
  obtain ⟨w, hw, h⟩ := List.exists_of_findSome?_eq_some h
  obtain ⟨-, h⟩ := Option.ite_none_right_eq_some.mp h
  obtain rfl := Option.some.inj h
  exact ⟨isShort_of_mem_words w hw, List.drop_suffix _ s⟩

theorem accounts_scalar (depth : Nat) (s : List Char) : Accounts IsShort depth s (scalar s) := by
  unfold scalar
  split
  · next p h => exact .ok (word?_suffix h).1 (word?_suffix h).2
  · split
    next negative r hs =>
    have unsigned : r <:+ s := by
      split at hs <;> obtain ⟨rfl, rfl⟩ := Prod.mk.inj hs
      · exact List.suffix_cons _ _
      · exact List.suffix_refl _
    split
    · next h => exact (accounts_number? h).of_suffix unsigned
    · exact .fail _

/-! ## Nested values -/

theorem forall_insert {P : Document → Prop} {key v : Document} {es : List (Document × Document)}
    (hv : P v) (h : ∀ e ∈ es, P e.2) : ∀ e ∈ Document.insert key v es, P e.2 := by
  induction es with
  | nil => exact List.forall_mem_singleton.mpr hv
  | cons e es ih =>
    obtain ⟨he, hes⟩ := List.forall_mem_cons.mp h
    rw [Document.insert.eq_def]
    dsimp only
    split
    · exact List.forall_mem_cons.mpr ⟨hv, hes⟩
    · exact List.forall_mem_cons.mpr ⟨he, ih hes⟩

theorem forall_distinct {P : Document → Prop} {es : List (Document × Document)}
    (h : ∀ e ∈ es, P e.2) : ∀ e ∈ Document.distinct es, P e.2 := by
  have fold (acc : List (Document × Document)) (ha : ∀ e ∈ acc, P e.2) :
      ∀ e ∈ es.foldl (fun acc e => Document.insert e.1 e.2 acc) acc, P e.2 := by
    induction es generalizing acc with
    | nil => exact ha
    | cons e es ih =>
      obtain ⟨he, hes⟩ := List.forall_mem_cons.mp h
      exact ih hes _ (forall_insert he ha)
  exact fold [] (by simp)

/-- The three parts of the reader call each other with less fuel. A list or an object uses up a
level and begins with an opening bracket, which keeps the count. -/
theorem accounts_value (fuel : Nat) :
    (∀ depth s, Accounts IsShort depth s (value fuel depth s)) ∧
    (∀ depth s, Accounts (fun ds => ∀ d ∈ ds, IsShort d) depth s (elements fuel depth s)) ∧
    ∀ depth s, Accounts (fun es => ∀ e ∈ es, IsShort e.2) depth s (members fuel depth s) := by
  induction fuel with
  | zero =>
    refine ⟨fun depth s => ?_, fun depth s => ?_, fun depth s => ?_⟩
    · exact .fail _
    · exact .fail _
    · exact .fail _
  | succ fuel ih =>
    obtain ⟨hvalue, helements, hmembers⟩ := ih
    refine ⟨fun depth s => ?value, fun depth s => ?elements, fun depth s => ?members⟩
    case value =>
      unfold value
      split
      · next r =>
        exact ((accounts_string depth r).map (g := Document.text) fun _ _ => rfl).of_suffix
          (List.suffix_cons _ r)
      · next r =>
        cases depth with
        | zero => exact .tooDeep _ (by rw [openings_cons rfl]; exact Nat.succ_pos _)
        | succ depth =>
          refine Accounts.of_opening rfl ?_
          dsimp only
          split
          · next h => exact .ok rfl (suffix_of_skipSpace h)
          · exact ((helements depth _).map fun _ => hasLongNumber_list.mpr).of_suffix
              (skipSpace_suffix r)
      · next r =>
        cases depth with
        | zero => exact .tooDeep _ (by rw [openings_cons rfl]; exact Nat.succ_pos _)
        | succ depth =>
          refine Accounts.of_opening rfl ?_
          dsimp only
          split
          · next h => exact .ok rfl (suffix_of_skipSpace h)
          · refine Accounts.of_suffix ?_ (skipSpace_suffix r)
            exact (hmembers depth _).map (g := fun es => Document.map (Document.distinct es))
              fun es h => hasLongNumber_map.mpr (forall_distinct (P := IsShort) h)
      · exact accounts_scalar depth s
    case elements =>
      unfold elements
      refine (hvalue depth s).bind fun d r hd _ => ?_
      dsimp only
      split
      · next h => exact .ok (List.forall_mem_singleton.mpr hd) (suffix_of_skipSpace h)
      · next rest h =>
        refine Accounts.of_suffix ?_ ((skipSpace_suffix rest).trans (suffix_of_skipSpace h))
        exact (helements depth _).map fun ds hds => List.forall_mem_cons.mpr ⟨hd, hds⟩
      · exact .fail _
    case members =>
      unfold members
      split
      · next r =>
        refine Accounts.of_suffix ?_ (List.suffix_cons _ r)
        refine (accounts_string depth r).bind fun name r _ _ => ?_
        dsimp only
        split
        · next r h =>
          refine Accounts.of_suffix ?_ ((skipSpace_suffix r).trans (suffix_of_skipSpace h))
          refine (hvalue depth _).bind fun d r hd _ => ?_
          dsimp only
          split
          · next h => exact .ok (List.forall_mem_singleton.mpr hd) (suffix_of_skipSpace h)
          · next rest h =>
            refine Accounts.of_suffix ?_ ((skipSpace_suffix rest).trans (suffix_of_skipSpace h))
            exact (hmembers depth _).map fun es hes => List.forall_mem_cons.mpr ⟨hd, hes⟩
          · exact .fail _
        · exact .fail _
      · exact .fail _

/-! ## Whole texts -/

theorem accounts_document (depth : Nat) (s : List Char) :
    Accounts IsShort depth s ((document depth s).map fun d => (d, [])) := by
  unfold document
  split
  · exact .fail _
  · have hv := ((accounts_value (2 * s.length + 2)).1 depth (skipSpace s)).of_suffix
      (skipSpace_suffix s)
    generalize value (2 * s.length + 2) depth (skipSpace s) = x at hv ⊢
    cases hv with
    | ok hd hr =>
      simp only [bind, Except.bind]
      split
      · exact .ok hd List.nil_suffix
      · exact .fail _
    | problem what n => exact .problem what n
    | numeral hd hc hl => exact .numeral hd hc hl
    | tooDeep nest hd => exact .tooDeep nest hd

/-- Some run of digits in the text, of the given length, is too long for a numeral. -/
def HasLongRun (s : List Char) (n : Nat) : Prop :=
  ∃ ds, ds <:+: s ∧ (∀ c ∈ ds, isAsciiDigit c = true) ∧ maxDigits < ds.length ∧ ds.length = n

variable {text : String} {d : Document} {f : NumeralFault} {nest : Nest}

theorem read_cases (text : String) (depth : Nat) :
    (∃ d, read text depth = .ok d ∧ IsShort d) ∨
    (∃ fault, read text depth = .error (.malformed fault)) ∨
    (∃ n, read text depth = .error (.numeral (.tooManyDigits n)) ∧ HasLongRun text.toList n) ∨
    ∃ nest, read text depth = .error (.tooDeep nest) ∧ depth < openings text.toList := by
  have accounts := accounts_document depth text.toList
  unfold read
  dsimp only
  generalize document depth text.toList = x at accounts ⊢
  cases x with
  | ok d =>
    cases accounts with
    | ok hd _ => exact .inl ⟨d, rfl, hd⟩
  | error stop =>
    cases accounts with
    | problem what n => exact .inr (.inl ⟨_, rfl⟩)
    | numeral hd hc hl => exact .inr (.inr (.inl ⟨_, rfl, _, hd, hc, hl, rfl⟩))
    | tooDeep nest hd => exact .inr (.inr (.inr ⟨nest, rfl, hd⟩))

theorem isShort_of_read (h : read text depth = .ok d) : IsShort d := by
  rcases read_cases text depth with ⟨d', hd, hs⟩ | ⟨fault, hd⟩ | ⟨n, hd, -⟩ | ⟨nest, hd, -⟩ <;>
    cases h.symm.trans hd
  exact hs

/-! ## Two kinds of texts that are not read -/

/-- Each level takes two units of fuel: one for the list and one for its first item. -/
theorem value_brackets (depth k f : Nat) :
    value (2 * depth + 1 + f) depth (List.replicate (depth + 1 + k) '[') =
      .error (.tooDeep .array) := by
  induction depth with
  | zero =>
    rw [Nat.zero_add, Nat.add_comm 1 k, List.replicate_succ, Nat.add_comm _ f]
    rfl
  | succ depth ih =>
    have hn : depth + 1 + 1 + k = (depth + k + 1) + 1 := by omega
    have hf : 2 * (depth + 1) + 1 + f = (2 * depth + 1 + f + 1) + 1 := by omega
    rw [show depth + 1 + k = depth + k + 1 by omega, List.replicate_succ] at ih
    rw [hn, hf, List.replicate_succ, List.replicate_succ, value.eq_def]
    have items : elements (2 * depth + 1 + f + 1) depth ('[' :: List.replicate (depth + k) '[') =
        .error (.tooDeep .array) := by
      rw [elements, ih]
      rfl
    simp only [skipSpace_cons (show isSpace '[' = false from rfl)]
    split
    · next he => cases (List.cons.inj he).1
    · rw [items]
      rfl

/-- Too many opening brackets are not read. -/
theorem read_brackets {n : Nat} (h : depth < n) :
    read (String.ofList (List.replicate n '[')) depth = .error (.tooDeep .array) := by
  obtain ⟨k, rfl⟩ := Nat.exists_eq_add_of_lt h
  have value : value (2 * (depth + k + 1) + 2) depth ('[' :: List.replicate (depth + k) '[') =
      .error (.tooDeep .array) := by
    rw [← List.replicate_succ, show 2 * (depth + k + 1) + 2 = 2 * depth + 1 + (2 * k + 3) by omega,
      show depth + k + 1 = depth + 1 + k by omega]
    exact value_brackets depth k _
  have document : document depth ('[' :: List.replicate (depth + k) '[') =
      .error (.tooDeep .array) := by
    unfold document
    rw [skipSpace_cons rfl, List.length_cons, List.length_replicate, value]
    rfl
  rw [read, String.toList_ofList, List.replicate_succ, document]

/-- Too long a run of digits is not read. -/
theorem read_ones {n : Nat} (h : maxDigits < n) (depth : Nat) :
    read (String.ofList (List.replicate n '1')) depth = .error (.numeral (.tooManyDigits n)) := by
  obtain ⟨m, rfl⟩ := Nat.exists_eq_add_of_lt h
  have digits : ∀ c ∈ List.replicate (maxDigits + m + 1) '1', isAsciiDigit c = true := by
    intro c hc
    rw [List.eq_of_mem_replicate hc]
    rfl
  have whole := List.takeWhile_eq_self_iff.mpr digits
  have rest := List.dropWhile_eq_nil_iff.mpr digits
  have numeral : Numeral.ofDigits (List.replicate (maxDigits + m + 1) '1') =
      .error (.tooManyDigits (maxDigits + m + 1)) := by
    rw [Numeral.ofDigits, List.length_replicate, if_pos h]
  rw [List.replicate_succ] at whole rest numeral
  have number : number? false ('1' :: List.replicate (maxDigits + m) '1') =
      some (.error (.numeral (.tooManyDigits (maxDigits + m + 1)))) := by
    unfold number?
    split
    · next he => cases (List.cons.inj he).1
    · simp [whole, rest, fraction, power?, numeral]
  have scalar : scalar ('1' :: List.replicate (maxDigits + m) '1') =
      .error (.numeral (.tooManyDigits (maxDigits + m + 1))) := by
    rw [scalar, (word?_of_isDigit rfl).1]
    · simp only [number]
    · intro r he
      cases (List.cons.inj he).1
  have document : document depth ('1' :: List.replicate (maxDigits + m) '1') =
      .error (.numeral (.tooManyDigits (maxDigits + m + 1))) := by
    unfold document
    rw [skipSpace_cons rfl, value_scalar (by decide) (by decide) (by decide), scalar]
    rfl
  rw [read, String.toList_ofList, List.replicate_succ, document]

end BlockSketch.Json
