import BlockSketch.Number.Numeral

/-!
# Pins

A pin specification such as `7,8` or `trig:7,echo:8` lists pins, each optionally after a label.  A pin
is a number, or a name if it starts with `A` or does not start with a number.
-/

namespace BlockSketch

/-- A pin of a board: numbered, or known by name. -/
inductive Pin where
  | number (n : Int)
  | name (s : String)
  deriving DecidableEq, Repr

namespace Pin

open Text

/-- The pieces of a text between the characters that satisfy `p`; there is at least one. -/
def pieces (p : Char → Bool) : List Char → List (List Char)
  | [] => [[]]
  | c :: s =>
    if p c then [] :: pieces p s
    else match pieces p s with
      | [] => [[c]]
      | first :: rest => (c :: first) :: rest

/-- One pin, given without blanks around it.  Digits at the front make a number, whatever follows
them. -/
def read (token : List Char) : Except NumeralFault Pin :=
  if token.head? = some 'A' then .ok (.name (String.ofList token))
  else
    let (negative, body) := Numeral.splitSign token
    match body.takeWhile isDigit with
    | [] => .ok (.name (String.ofList token))
    | ds => (Numeral.ofDigits ds).map fun n => .number (Numeral.applySign negative n)

/-- What stands after the first colon, or everything if there is no colon. -/
def afterLabel (part : List Char) : List Char :=
  if part.contains ':' then (part.dropWhile (· != ':')).drop 1 else part

/-- The pins of a specification in order.  A blank text has none; otherwise each piece between commas
gives one. -/
def readAll (text : String) : Except NumeralFault (List Pin) :=
  let s := text.toList
  if s.all isBlank then .ok []
  else (pieces (· == ',') s).mapM fun part => read (trim (afterLabel part))

/-- The text of a pin. -/
def shown : Pin → String
  | number n => toString n
  | name s => s

/-- Whether the pin is known by its number. -/
def isNumber : Pin → Bool
  | number _ => true
  | name _ => false

/-- How many different numbers and names occur. -/
structure Counts where
  digital : Nat
  analog : Nat
  deriving DecidableEq, Repr

/-- Counts each pin once. -/
def count (pins : List Pin) : Counts where
  digital := (pins.filter isNumber).eraseDups.length
  analog := (pins.filter (!·.isNumber)).eraseDups.length

theorem pieces_ne_nil (p : Char → Bool) (s : List Char) : pieces p s ≠ [] := by
  induction s with
  | nil => simp [pieces]
  | cons c s ih =>
    unfold pieces
    split
    · simp
    · split <;> simp

/-- A separating character splits the pieces before it from those after it. -/
theorem pieces_append_cons {p : Char → Bool} {c : Char} (hc : p c = true) (s t : List Char) :
    pieces p (s ++ c :: t) = pieces p s ++ pieces p t := by
  induction s with
  | nil => simp [pieces, hc]
  | cons d s ih =>
    rw [List.cons_append, pieces, pieces]
    split
    · rw [ih, List.cons_append]
    · obtain ⟨first, rest, hs⟩ := List.exists_cons_of_ne_nil (pieces_ne_nil p s)
      simp [ih, hs]

theorem pieces_of_forall {p : Char → Bool} {s : List Char} (h : ∀ c ∈ s, p c = false) :
    pieces p s = [s] := by
  induction s with
  | nil => rfl
  | cons d s ih =>
    obtain ⟨hd, hs⟩ := List.forall_mem_cons.mp h
    simp [pieces, hd, ih hs]

theorem pieces_of_not_mem {c : Char} {s : List Char} (h : c ∉ s) : pieces (· == c) s = [s] :=
  pieces_of_forall fun _ hd => beq_eq_false_iff_ne.mpr (ne_of_mem_of_not_mem hd h)

/-- A text of one character separates what stands before it from what stands after it. -/
theorem pieces_separated {c : Char} {sep : String} (hs : sep.toList = [c]) (s t : String) :
    pieces (· == c) (s ++ sep ++ t).toList =
      pieces (· == c) s.toList ++ pieces (· == c) t.toList := by
  rw [String.append_assoc, String.toList_append, String.toList_append, hs]
  exact pieces_append_cons (p := (· == c)) (beq_self_eq_true c) s.toList t.toList

/-- The pieces of texts that are put together with a separator are the pieces of each. -/
theorem pieces_intercalate {c : Char} {sep : String} {ts : List String} (hs : sep.toList = [c])
    (hn : ts ≠ []) : pieces (· == c) (sep.intercalate ts).toList =
      ts.flatMap fun t => pieces (· == c) t.toList := by
  induction ts with
  | nil => exact absurd rfl hn
  | cons t ts ih =>
    cases ts with
    | nil => rw [String.intercalate_singleton, List.flatMap_singleton]
    | cons u ts =>
      have hu : u :: ts ≠ [] := List.cons_ne_nil u ts
      rw [String.intercalate_cons_of_ne_nil hu, pieces_separated hs, ih hu]
      rfl

theorem pieces_intercalate_of_not_mem {c : Char} {sep : String} {ts : List String}
    (hs : sep.toList = [c]) (hn : ts ≠ []) (h : ∀ t ∈ ts, c ∉ t.toList) :
    pieces (· == c) (sep.intercalate ts).toList = ts.map String.toList := by
  rw [pieces_intercalate hs hn, List.map_eq_flatMap, List.flatMap_def, List.flatMap_def]
  exact congrArg List.flatten (List.map_congr_left fun t ht => pieces_of_not_mem (h t ht))

/-- No piece holds a separating character. -/
theorem all_of_mem_pieces {p : Char → Bool} {s t : List Char} (h : t ∈ pieces p s) :
    ∀ c ∈ t, p c = false := by
  induction s generalizing t with
  | nil => simp_all [pieces]
  | cons d s ih =>
    unfold pieces at h
    split at h
    · rcases List.mem_cons.mp h with rfl | h
      · simp
      · exact ih h
    · next hd =>
      split at h
      · next hp => exact absurd hp (pieces_ne_nil p s)
      · next first rest hp =>
        rcases List.mem_cons.mp h with rfl | h
        · intro c hc
          rcases List.mem_cons.mp hc with rfl | hc
          · simpa using hd
          · exact ih (by simp [hp]) c hc
        · exact ih (by simp [hp, h])

end Pin

end BlockSketch
