import BlockSketch.Proofs.Beginnings
import BlockSketch.Proofs.Comments
import Mathlib.Algebra.Ring.Parity

/-! # Literals of printed texts

A text that is printed stands between quotes in its line of a sketch. It holds no quote and no line
break of its own, but it may hold backslashes. Its literal ends where the line has the closing quote
exactly if the backslashes at the end of the text are even in number.
-/

namespace BlockSketch

open Text
open Sketch (Statement Placed)

variable {as : List Action} {a : Action} {u r : List Char} {c d : Char} {st : Statement} {k : Placed}
  {t w : String} {v : Option ActionValue} {Q : List Char → Prop} {s : List Char}

/-! ## Literals -/

/-- Reads a literal: the text before the closing quote, as it is written, and what follows the quote.
A character that a backslash has taken along closes nothing, and a line break leaves the literal open. -/
def literal? (taken : Bool) : List Char → Option (List Char × List Char)
  | [] => none
  | c :: s =>
    if c = '\n' then none
    else if c = '"' ∧ taken = false then some ([], s)
    else (literal? (c = '\\' ∧ taken = false) s).map fun x => (c :: x.1, x.2)

/-- Every quote and every backslash of the text belongs to an escape, which is a backslash with the
character after it. -/
inductive Escaped : List Char → Prop where
  | nil : Escaped []
  | plain {c : Char} {s : List Char} : c ≠ '"' → c ≠ '\\' → Escaped s → Escaped (c :: s)
  | escape (c : Char) {s : List Char} : Escaped s → Escaped ('\\' :: c :: s)

def backslashes (u : List Char) : Nat := (u.reverse.takeWhile (· == '\\')).length

theorem Escaped.literal?_append (h : Escaped u) (hn : '\n' ∉ u) :
    literal? false (u ++ '"' :: r) = some (u, r) := by
  induction h with
  | nil => simp [literal?]
  | plain hq hb _ ih =>
    simp only [List.mem_cons, not_or] at hn
    simp [literal?, hq, hb, Ne.symm hn.1, ih hn.2]
  | escape c _ ih =>
    simp only [List.mem_cons, not_or] at hn
    simp [literal?, Ne.symm hn.2.1, ih hn.2.2]

theorem escaped_of_literal? : ∀ {u : List Char},
    literal? false (u ++ '"' :: r) = some (u, r) → '\n' ∉ u ∧ Escaped u
  | [], _ => ⟨List.not_mem_nil, .nil⟩
  | c :: u, h => by
    have hq : c ≠ '"' := by
      rintro rfl
      simp [literal?] at h
    by_cases hb : c = '\\'
    · subst hb
      cases u with
      | nil =>
        -- The backslash takes the quote along, so the literal does not end there.
        simp [literal?] at h
      | cons d u =>
        by_cases hd : d = '\n'
        · simp [literal?, hd] at h
        · obtain ⟨hn, he⟩ := escaped_of_literal? (u := u) (by simpa [literal?, hd] using h)
          exact ⟨by simp [Ne.symm hd, hn], .escape d he⟩
    · by_cases hc : c = '\n'
      · simp [literal?, hc] at h
      · obtain ⟨hn, he⟩ := escaped_of_literal? (u := u) (by simpa [literal?, hq, hb, hc] using h)
        exact ⟨by simp [Ne.symm hc, hn], .plain hq hb he⟩

/-- A text is a literal up to the closing quote exactly if it is in one line and made of escapes and
other characters. -/
theorem literal?_eq_some_iff :
    literal? false (u ++ '"' :: r) = some (u, r) ↔ '\n' ∉ u ∧ Escaped u :=
  ⟨escaped_of_literal?, fun h => h.2.literal?_append h.1⟩

theorem escaped_cons_iff (hq : c ≠ '"') (hb : c ≠ '\\') : Escaped (c :: u) ↔ Escaped u := by
  constructor
  · rintro (_ | ⟨-, -, h⟩ | ⟨_, -⟩)
    · exact h
    · exact absurd rfl hb
  · exact .plain hq hb

theorem escaped_escape_iff : Escaped ('\\' :: c :: u) ↔ Escaped u := by
  constructor
  · rintro (_ | ⟨-, hb, -⟩ | ⟨_, h⟩)
    · exact absurd rfl hb
    · exact h
  · exact .escape c

/-! ### Backslashes at the end -/

theorem backslashes_replicate (n : Nat) : backslashes (List.replicate n '\\') = n := by
  simp [backslashes]

theorem backslashes_cons_of_ne (hb : c ≠ '\\') : backslashes (c :: u) = backslashes u := by
  rw [backslashes, backslashes, List.reverse_cons, List.takeWhile_append]
  split
  · next h => simp [hb, h]
  · rfl

/-- What stands before another character does not count. -/
theorem backslashes_append (h : ∃ d ∈ u, d ≠ '\\') : backslashes (r ++ u) = backslashes u := by
  obtain ⟨d, hd, hne⟩ := h
  have inside : (u.reverse.takeWhile (· == '\\')).length ≠ u.reverse.length := by
    intro hl
    have all := List.takeWhile_eq_self_iff.mp ((List.takeWhile_prefix _).eq_of_length hl)
    exact hne (beq_iff_eq.mp (all d (List.mem_reverse.mpr hd)))
  rw [backslashes, backslashes, List.reverse_append, List.takeWhile_append, if_neg inside]

theorem even_backslashes_escape : Even (backslashes ('\\' :: c :: u)) ↔ Even (backslashes u) := by
  by_cases hb : c = '\\'
  · by_cases hu : ∃ d ∈ u, d ≠ '\\'
    · have more := backslashes_append (r := ['\\', c]) hu
      rw [← more]
      rfl
    · -- All characters are backslashes, and there are two more of them.
      push Not at hu
      obtain ⟨n, rfl⟩ : ∃ n, u = List.replicate n '\\' := ⟨_, List.eq_replicate_of_mem hu⟩
      rw [hb, ← List.replicate_succ, ← List.replicate_succ, backslashes_replicate,
        backslashes_replicate, Nat.even_add_one, Nat.even_add_one, not_not]
  · rw [← List.singleton_append, backslashes_append ⟨c, List.mem_cons_self, hb⟩,
      backslashes_cons_of_ne hb]

/-- A text without quotes is made of escapes and other characters exactly if it does not end with a
backslash that is left over. -/
theorem escaped_iff_even : ∀ {u : List Char}, '"' ∉ u → (Escaped u ↔ Even (backslashes u))
  | [], _ => iff_of_true .nil (by simp [backslashes])
  | [c], h => by
    by_cases hb : c = '\\'
    · subst hb
      refine iff_of_false ?_ (by simp [backslashes])
      rintro (_ | ⟨-, hb, -⟩)
      exact hb rfl
    · simp only [List.mem_cons, not_or] at h
      rw [escaped_cons_iff (Ne.symm h.1) hb, backslashes_cons_of_ne hb, escaped_iff_even h.2]
  | c :: d :: u, h => by
    by_cases hb : c = '\\'
    · subst hb
      simp only [List.mem_cons, not_or] at h
      rw [escaped_escape_iff, even_backslashes_escape, escaped_iff_even h.2.2]
    · rw [List.mem_cons, not_or] at h
      rw [escaped_cons_iff (Ne.symm h.1) hb, backslashes_cons_of_ne hb, escaped_iff_even h.2]

/-! ## Lines -/

def CallsPrint (t : List Char) : Prop := "Serial.println(".toList <+: unindented t

/-- The line prints the text that stands between its quotes. -/
def PrintsText (t u : List Char) : Prop :=
  unindented t = "Serial.println(\"".toList ++ (u ++ '"' :: ");".toList)

/-- The line prints the text as a literal that ends with the last quote of the line. -/
structure PrintsLiteral (t u : List Char) : Prop where
  prints : PrintsText t u
  unbroken : '\n' ∉ u
  escaped : Escaped u
  closes : literal? false (u ++ '"' :: ");".toList) = some (u, ");".toList)

theorem printsLiteral_iff : PrintsLiteral s u ↔ PrintsText s u ∧ '\n' ∉ u ∧ Escaped u := by
  constructor
  · intro h
    exact ⟨h.prints, h.unbroken, h.escaped⟩
  · rintro ⟨hp, hl⟩
    exact ⟨hp, hl.1, hl.2, literal?_eq_some_iff.mpr hl⟩

theorem PrintsText.right_unique {v : List Char} (h : PrintsText s u) (h' : PrintsText s v) :
    u = v :=
  List.append_cancel_right (List.append_cancel_left (h.symm.trans h'))

/-- The text that the statement prints, if it prints one, satisfies the predicate. -/
def Sketch.Statement.Prints (Q : List Char → Prop) : Statement → Prop
  | printLine v => ∀ w, valueText v = .ok w → Q w.toList
  | _ => True

theorem prints_placed_iff (h : k.text = .ok t) :
    (CallsPrint t.toList → ∃ u, PrintsText t.toList u ∧ Q u) ↔ k.statement.Prints Q := by
  have other (hs : k.statement.initial ≠ 'S') (hq : k.statement.Prints Q) :
      (CallsPrint t.toList → ∃ u, PrintsText t.toList u ∧ Q u) ↔ k.statement.Prints Q :=
    iff_of_true (fun hc => absurd (initial_of_isPrefix h hc) hs) hq
  cases hk : k.statement with
  | printLine v =>
    obtain ⟨l, hl, ht⟩ := unindented_placed h
    simp only [hk, Statement.text, bind_eq_ok_iff, pure_eq_ok_iff] at hl
    obtain ⟨w, hw, rfl⟩ := hl
    have printed : PrintsText t.toList w.toList := by
      rw [PrintsText, ht]
      simp only [String.toList_append, List.append_assoc]
      rfl
    have called : CallsPrint t.toList := by
      rw [CallsPrint, printed]
      exact ⟨'"' :: (w.toList ++ '"' :: ");".toList), rfl⟩
    rw [forall_prop_of_true called]
    constructor
    · rintro ⟨u, hu, hq⟩ w' hw'
      obtain rfl := Except.ok.inj (hw.symm.trans hw')
      rwa [printed.right_unique hu]
    · intro hq
      exact ⟨w.toList, printed, hq w hw⟩
  | _ =>
    rw [hk] at other
    exact other (by simp [Statement.initial]) trivial

/-! ## Prompts -/

/-- The action prints a text that ends with a backslash left over. -/
def Action.Dangling (a : Action) : Prop :=
  a.kind = .print ∧ ∃ w, a.value = some (.text w) ∧ Odd (backslashes w.toList)

namespace Prompt

/-- Only the shape of prints puts a text into a statement, and that text has no quotes. -/
theorem Shape.prints_iff (h : Shape s a) : (∀ st ∈ Sketch.statements a, st.Prints Q) ↔
    ∀ w, a.kind = .print → a.value = some (.text w) → Q w.toList := by
  cases h with
  | print => simp [Sketch.statements, Statement.Prints, valueText]
  | @sensor w =>
    by_cases hs : String.ofList w = "ultrasonic" <;> simp [Sketch.statements, Statement.Prints, hs]
  | delay | conditional => simp [Sketch.statements, Statement.Prints]
  | _ =>
    refine iff_of_true ?_ (by simp)
    simp only [Sketch.statements, Sketch.setting]
    repeat' split
    all_goals simp [Statement.Prints]

theorem Shape.plain_of_value (h : Shape s a) (hk : a.kind = .print)
    (hv : a.value = some (.text w)) : '\n' ∉ w.toList ∧ '"' ∉ w.toList := by
  cases h with
  | @print u hu =>
    obtain rfl : String.ofList u = w := by simpa using hv
    rw [String.toList_ofList]
    exact ⟨fun hn => (hu _ hn).2 rfl, fun hq => absurd (hu _ hq).1 (by decide)⟩
  | _ => cases hk

theorem Shape.escaped_iff (h : Shape s a) :
    (∀ st ∈ Sketch.statements a, st.Prints fun u => '\n' ∉ u ∧ Escaped u) ↔ ¬ a.Dangling := by
  rw [h.prints_iff]
  constructor
  · rintro hp ⟨hk, w, hv, hd⟩
    have even := (escaped_iff_even (h.plain_of_value hk hv).2).mp (hp w hk hv).2
    exact Nat.not_even_iff_odd.mpr hd even
  · intro hd w hk hv
    obtain ⟨hn, hq⟩ := h.plain_of_value hk hv
    exact ⟨hn, (escaped_iff_even hq).mpr (Nat.not_odd_iff_even.mp fun ho => hd ⟨hk, w, hv, ho⟩)⟩

/-- The lines that print show a text without line breaks and quotes. The texts are literals that end
with the last quote of their lines exactly if no printed text ends with a backslash left over. -/
theorem printed_literals_iff {prompt sketch : String} {cs : List Component} {board : Board}
    {day : Date} (ha : actions prompt = .ok as) (hr : Sketch.render as cs board day = .ok sketch) :
    ∃ body, Effect.loopLines? sketch = some body ∧
      (∀ t ∈ body, CallsPrint t → ∃ u, PrintsText t u ∧ '\n' ∉ u ∧ '"' ∉ u) ∧
      ((∀ t ∈ body, CallsPrint t → ∃ u, PrintsLiteral t u) ↔
        Leaves (fun a => ¬ a.Dangling) as) := by
  have shapes : Leaves (fun a => ∃ s, Shape s a) as :=
    shapes_of_spoken fun a => spoken_of_actions ha
  obtain ⟨body, hb, found⟩ := Effect.loopLines?_of_render hr
  have lines (Q : List Char → Prop) :
      (∀ t ∈ body.map String.toList, CallsPrint t → ∃ u, PrintsText t u ∧ Q u) ↔
        Leaves (fun a => ∀ st ∈ Sketch.statements a, st.Prints Q) as := by
    rw [List.forall_mem_map,
      forall_mem_iff_of_forall₂ (mapM_eq_ok_iff.mp hb) fun q _ t => prints_placed_iff]
    exact forall_mem_placeAll_iff (fun n => trivial) trivial
  refine ⟨_, found fun t => unbroken_of_mem_body (leaves_of_spoken fun a => spoken_of_actions ha) hb,
    ?_, ?_⟩
  · rw [lines fun u => '\n' ∉ u ∧ '"' ∉ u]
    exact shapes.imp fun a hs => hs.elim fun _ h => h.prints_iff.mpr fun w => h.plain_of_value
  · simp only [printsLiteral_iff]
    rw [lines fun u => '\n' ∉ u ∧ Escaped u]
    exact shapes.congr fun a hs => hs.elim fun _ => Shape.escaped_iff

/-- A printed path, repeatedly, that ends with two backslashes. -/
def printedPath : List Action := [Action.repeating 2 {
  kind := .print, component := some "lcd", value := some (.text "c:\\dir\\\\") }]

theorem printed_literals_iff_path : ∃ sketch body,
    actions "Repeat 2 times; print 'c:\\dir\\\\'" = .ok printedPath ∧
      Sketch.render printedPath [] .uno ⟨2024, 5, 1⟩ = .ok sketch ∧
      Effect.loopLines? sketch = some body ∧ ∀ t ∈ body, CallsPrint t → ∃ u, PrintsLiteral t u := by
  have ha : actions "Repeat 2 times; print 'c:\\dir\\\\'" = .ok printedPath := rfl
  obtain ⟨sketch, hr⟩ := exists_ok_of_isOk (x := Sketch.render printedPath [] .uno ⟨2024, 5, 1⟩)
    (by decide +kernel)
  have two : ¬ Odd (backslashes "c:\\dir\\\\".toList) := by decide
  have even : Leaves (fun a => ¬ a.Dangling) printedPath := by
    refine .loop rfl (.once (by simp) ?_ .nil) .nil
    rintro ⟨-, w, hw, hd⟩
    obtain rfl : "c:\\dir\\\\" = w := by simpa using hw
    exact two hd
  obtain ⟨body, hb, -, literals⟩ := printed_literals_iff ha hr
  exact ⟨sketch, body, ha, hr, hb, literals.mpr even⟩

/-- A printed text that ends with one backslash. -/
def printedSlash : List Action := [{
  kind := .print, component := some "lcd", value := some (.text "a\\") }]

/-- The backslash takes the closing quote along, so the literal does not end in its line. -/
theorem printed_literals_slash : ∃ sketch, actions "print 'a\\'" = .ok printedSlash ∧
    Sketch.render printedSlash [] .uno ⟨2024, 5, 1⟩ = .ok sketch ∧
      Effect.loopLines? sketch = some ["  Serial.println(\"a\\\");".toList] ∧
      CallsPrint "  Serial.println(\"a\\\");".toList ∧
      literal? false "a\\\");".toList = none ∧
      ¬ ∃ u, PrintsLiteral "  Serial.println(\"a\\\");".toList u := by
  have ha : actions "print 'a\\'" = .ok printedSlash := rfl
  obtain ⟨sketch, hr⟩ : ∃ sketch, Sketch.render printedSlash [] .uno ⟨2024, 5, 1⟩ = .ok sketch :=
    ⟨_, rfl⟩
  obtain ⟨body, hb, found⟩ := Effect.loopLines?_of_render hr
  obtain rfl : body = ["  Serial.println(\"a\\\");"] := Except.ok.inj (hb.symm.trans rfl)
  have printed : PrintsText "  Serial.println(\"a\\\");".toList ['a', '\\'] := rfl
  have opened : literal? false "a\\\");".toList = none := rfl
  refine ⟨sketch, ha, hr, found (by decide), ⟨"\"a\\\");".toList, rfl⟩, opened, ?_⟩
  rintro ⟨u, hu⟩
  obtain rfl := printed.right_unique hu.prints
  exact absurd (opened.symm.trans hu.closes) (by simp)

end Prompt

end BlockSketch
