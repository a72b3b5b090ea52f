import BlockSketch.Proofs.Characters
import BlockSketch.Service.Respond

/-! # What is sent

The end of a request is sent as it is, unless its body holds something that cannot be written; then an
unexpected end is sent that says so. Texts are written with the halves of characters that they hold and
with no others.
-/

namespace BlockSketch

namespace Json

open Text

variable {c : Char} {s t : List Char} {d : Document}

/-- A text without halves of characters, which can be written in eight-bit units. -/
def Whole (s : List Char) : Prop := ∀ c ∈ s, isHalf c = false

instance decidableWhole (s : List Char) : Decidable (Whole s) :=
  inferInstanceAs (Decidable (∀ c ∈ s, isHalf c = false))

@[simp]
theorem whole_nil : Whole [] := List.forall_mem_nil _

@[simp]
theorem whole_cons_iff : Whole (c :: s) ↔ isHalf c = false ∧ Whole s := List.forall_mem_cons

@[simp]
theorem whole_append_iff : Whole (s ++ t) ↔ Whole s ∧ Whole t := List.forall_mem_append

/-- What is in a whole text is whole. -/
theorem Whole.mono (h : Whole t) (hs : s ⊆ t) : Whole s := fun c hc => h c (hs hc)

@[simp]
theorem isHalf_of_ascii (h : c.toNat < 128) : isHalf c = false :=
  forall_ascii (P := fun c => isHalf c = false) (by decide +kernel) h

/-! ## Texts in quotes -/

theorem whole_codeEscapeOf : ∀ n < 0x20, Whole (codeEscapeOf n) := by
  decide

theorem whole_stringChar (h : isHalf c = false) : Whole (stringChar false c) := by
  have escape : ∀ d ∈ ['n', 'r', 't', 'b', 'f'], Whole ['\\', d] := by
    decide
  unfold stringChar
  dsimp only
  split
  · simp [h]
  iterate 5
    split
    · exact escape _ (by decide)
  split
  · next hn => exact whole_codeEscapeOf _ hn
  · simpa using h

theorem whole_stringText {k : String} (h : Whole k.toList) : Whole (stringText false k) := by
  refine whole_append_iff.mpr ⟨whole_cons_iff.mpr ⟨by simp, fun c hc => ?_⟩, by simp⟩
  obtain ⟨d, hd, hc⟩ := List.mem_flatMap.mp hc
  exact whole_stringChar (h d hd) c hc

/-- Halves of characters are written as they are. -/
theorem mem_stringChar (h : isHalf c = true) : c ∈ stringChar false c := by
  have code : 0xD800 ≤ codeOf c := by
    simp only [isHalf, isSurrogate, Bool.and_eq_true, decide_eq_true_eq] at h
    exact h.1
  have whole : ∀ d ∈ ['"', '\\', '\n', '\r', '\t'], isHalf d = false := by
    decide
  have plain : ∀ d ∈ ['"', '\\', '\n', '\r', '\t'], c ≠ d := by
    rintro _ hd rfl
    exact absurd (h.symm.trans (whole _ hd)) (by decide)
  have written : stringChar false c = [c] := by
    simp only [List.forall_mem_cons] at plain
    obtain ⟨quote, escape, feed, back, tab, -⟩ := plain
    simp [stringChar, quote, escape, feed, back, tab, show codeOf c ≠ 8 by omega,
      show codeOf c ≠ 12 by omega, show ¬ codeOf c < 0x20 by omega]
  simp [written]

theorem whole_stringText_iff {k : String} : Whole (stringText false k) ↔ Whole k.toList := by
  refine ⟨fun h c hc => ?_, whole_stringText⟩
  cases hh : isHalf c with
  | false => rfl
  | true =>
    have written : c ∈ k.toList.flatMap (stringChar false) :=
      List.mem_flatMap.mpr ⟨c, hc, mem_stringChar hh⟩
    exact hh.symm.trans (h c (List.mem_append_left _ (List.mem_cons_of_mem _ written)))

/-! ## Numbers -/

theorem whole_replicate (n : Nat) (h : isHalf c = false) : Whole (List.replicate n c) := by
  intro d hd
  rwa [List.eq_of_mem_replicate hd]

theorem whole_toDigits (n : Nat) : Whole (Nat.toDigits 10 n) := fun _ hc =>
  isHalf_of_ascii (toNat_lt_of_isPlain
    (isPlain_of_isDigit (Nat.isDigit_of_mem_toDigits (by decide) (by decide) hc)))

theorem whole_toString_nat (n : Nat) : Whole (toString n).toList := by
  rw [Nat.toString_eq_repr, Nat.toList_repr]
  exact whole_toDigits n

theorem whole_toString (n : Int) : Whole (toString n).toList := by
  cases n with
  | ofNat n => exact whole_toString_nat n
  | negSucc n =>
    have hs : (toString (Int.negSucc n)).toList = '-' :: (toString (n + 1)).toList :=
      String.toList_append
    rw [hs]
    exact whole_cons_iff.mpr ⟨by simp, whole_toString_nat _⟩

theorem whole_decimal {d : Double.Decimal} (h : Whole d.digits) : Whole d.text := by
  have zeros (n : Nat) : Whole (List.replicate n '0') :=
    whole_replicate n (by simp)
  have front (n : Nat) : Whole (d.digits.take n) := h.mono (List.take_subset n _)
  have back (n : Nat) : Whole (d.digits.drop n) := h.mono (List.drop_subset n _)
  unfold Double.Decimal.text
  dsimp only
  split
  · simp [zeros, h]
  split
  · split <;> simp [zeros, front, back, h]
  · simp only [whole_append_iff, whole_cons_iff, front, zeros, whole_toDigits, and_true, true_and]
    refine ⟨?_, by simp, ?_⟩
    · split
      · exact whole_nil
      · exact whole_cons_iff.mpr ⟨by simp, back 1⟩
    · split <;> simp

theorem whole_floatText (x : Double) : Whole (floatText x).toList := by
  cases x with
  | nan => decide
  | infinity negative => cases negative <;> decide
  | finite negative m e =>
    have digits : Whole (Double.shortest m e).digits := by
      obtain ⟨n, hn⟩ : ∃ n, (Double.shortest m e).digits =
        ((Nat.toDigits 10 n).reverse.dropWhile (· == '0')).reverse := ⟨_, rfl⟩
      rw [hn]
      refine (whole_toDigits n).mono fun c hc => ?_
      exact List.mem_reverse.mp ((List.dropWhile_sublist _).mem (List.mem_reverse.mp hc))
    have body : Whole (if m = 0 then ['0', '.', '0'] else (Double.shortest m e).text) := by
      split
      · decide
      · exact whole_decimal digits
    have ht : floatText (.finite negative m e) = Double.text (.finite negative m e) := rfl
    rw [ht, Double.text, String.toList_ofList]
    split
    · exact whole_cons_iff.mpr ⟨by simp, body⟩
    · exact body

/-! ## Documents -/

theorem whole_scalarText (h : ∀ s, d = .text s → Whole s.toList) :
    Whole (scalarText compact d) := by
  cases d with
  | text s => exact whole_stringText (h s rfl)
  | null => decide
  | bool b => cases b <;> decide
  | int n => exact whole_toString n
  | float x => exact whole_floatText x
  | _ => exact whole_nil

theorem whole_keyText (h : ∀ s, d = .text s → Whole s.toList) : Whole (keyText compact d) := by
  unfold keyText
  split
  · next s => exact whole_stringText (h s rfl)
  · simp [whole_scalarText h]

/-! ## Lists and objects -/

theorem breakTo_compact (level : Nat) : breakTo compact level = [] := rfl

theorem separator_compact (level : Nat) : separator compact level = [','] := rfl

theorem colon_compact : colon compact = [':'] := rfl

theorem whole_renderItems_iff {ds : List Document} {level : Nat} :
    Whole (renderItems compact level ds) ↔ ∀ d ∈ ds, Whole (render compact level d) := by
  induction ds with
  | nil => simp [renderItems]
  | cons d ds ih => simp [renderItems, separator_compact, ih]

theorem whole_renderEntries_iff {es : List (Document × Document)} {level : Nat} :
    Whole (renderEntries compact level es) ↔
      ∀ e ∈ es, Whole (keyText compact e.1) ∧ Whole (render compact level e.2) := by
  induction es with
  | nil => simp [renderEntries]
  | cons e es ih =>
    simp [renderEntries, separator_compact, colon_compact, ih, and_assoc]

@[simp]
theorem whole_render_list_iff {ds : List Document} {level : Nat} :
    Whole (render compact level (.list ds)) ↔ ∀ d ∈ ds, Whole (render compact (level + 1) d) := by
  cases ds with
  | nil => simp [render]
  | cons d ds => simp [render, breakTo_compact, whole_renderItems_iff]

theorem whole_render_map_iff {es : List (Document × Document)} {level : Nat} :
    Whole (render compact level (.map es)) ↔
      ∀ e ∈ es, Whole (keyText compact e.1) ∧ Whole (render compact (level + 1) e.2) := by
  cases es with
  | nil => simp [render]
  | cons e es =>
    simp [render, breakTo_compact, colon_compact, whole_renderEntries_iff, and_assoc]

@[simp]
theorem whole_render_object_iff {fields : List (String × Document)} {level : Nat} :
    Whole (render compact level (.object fields)) ↔
      ∀ f ∈ fields, Whole f.1.toList ∧ Whole (render compact (level + 1) f.2) := by
  have key (s : String) : Whole (keyText compact (.text s)) ↔ Whole s.toList := whole_stringText_iff
  rw [Document.object, whole_render_map_iff, List.forall_mem_map]
  simp only [key]

@[simp]
theorem whole_render_text_iff {s : String} {level : Nat} :
    Whole (render compact level (.text s)) ↔ Whole s.toList := by
  rw [render]
  · exact whole_stringText_iff
  all_goals simp

@[simp]
theorem whole_render_int (n : Int) (level : Nat) : Whole (render compact level (.int n)) := by
  rw [render]
  · exact whole_toString n
  all_goals simp

end Json

namespace Service

open Json

variable {trace : String} {reason : Denial} {x : Ending} {d : Document}

/-! ## Documents that can be sent -/

/-- No text of the document holds a half of a character. -/
def Sendable (d : Document) : Prop := unsendable? d = none

instance : DecidablePred Sendable := fun d => inferInstanceAs (Decidable (unsendable? d = none))

theorem fault?_eq_none_iff {s : List Char} : Text.Encoding.utf8.fault? s = none ↔ Whole s := by
  rw [Text.Encoding.fault?_eq_none_iff]
  simp [Text.Encoding.holds, Whole]

@[simp]
theorem sendable_text {s : String} : Sendable (.text s) ↔ Whole s.toList := fault?_eq_none_iff

@[simp]
theorem sendable_int (n : Int) : Sendable (.int n) := rfl

theorem anyUnsendable?_eq_none_iff {ds : List Document} :
    anyUnsendable? ds = none ↔ ∀ d ∈ ds, Sendable d := by
  induction ds with
  | nil => simp [anyUnsendable?]
  | cons d ds ih =>
    rw [anyUnsendable?, Option.or_eq_none_iff, ih, List.forall_mem_cons]
    rfl

theorem entryUnsendable?_eq_none_iff {es : List (Document × Document)} :
    entryUnsendable? es = none ↔ ∀ e ∈ es, Sendable e.1 ∧ Sendable e.2 := by
  induction es with
  | nil => simp [entryUnsendable?]
  | cons e es ih =>
    rw [entryUnsendable?, Option.or_eq_none_iff, Option.or_eq_none_iff, ih, List.forall_mem_cons]
    rfl

@[simp]
theorem sendable_list {ds : List Document} : Sendable (.list ds) ↔ ∀ d ∈ ds, Sendable d :=
  anyUnsendable?_eq_none_iff

@[simp]
theorem sendable_map {es : List (Document × Document)} :
    Sendable (.map es) ↔ ∀ e ∈ es, Sendable e.1 ∧ Sendable e.2 :=
  entryUnsendable?_eq_none_iff

@[simp]
theorem sendable_object {fields : List (String × Document)} : Sendable (.object fields) ↔
    ∀ f ∈ fields, Whole f.1.toList ∧ Sendable f.2 := by
  rw [Document.object, sendable_map, List.forall_mem_map]
  simp only [sendable_text]

theorem whole_of_sendable_text {s : String} (h : Sendable d) (hs : d = .text s) :
    Whole s.toList :=
  sendable_text.mp (hs ▸ h)

theorem sizeOf_snd_lt {es : List (Document × Document)} {e : Document × Document} (h : e ∈ es) :
    sizeOf e.2 < sizeOf es := by
  have entry := List.sizeOf_lt_of_mem h
  obtain ⟨k, d⟩ := e
  simp only [Prod.mk.sizeOf_spec] at entry
  dsimp only
  omega

/-- A document that can be sent is written without halves of characters. -/
theorem whole_render (level : Nat) : ∀ {d : Document}, Sendable d → Whole (render compact level d)
  | .list ds, h => whole_render_list_iff.mpr fun d hd =>
      whole_render (level + 1) (sendable_list.mp h d hd)
  | .map es, h => whole_render_map_iff.mpr fun e he => by
      -- The recursion is on the size of the value.
      have smaller := sizeOf_snd_lt he
      obtain ⟨hk, hd⟩ := sendable_map.mp h e he
      exact ⟨whole_keyText fun s => whole_of_sendable_text hk, whole_render (level + 1) hd⟩
  | .text s, h => whole_render_text_iff.mpr (sendable_text.mp h)
  | .null, _ | .bool _, _ | .int _, _ | .float _, _ | .date _, _ | .instant _, _ | .bytes _, _
  | .row _, _ | .keys _, _ | .again _, _ => by simpa [render] using whole_scalarText (by simp)

/-- Reports are objects of texts and numbers, so nothing in them is written otherwise. -/
@[simp]
theorem whole_render_report_iff {report : Report} {level : Nat} :
    Whole (render compact level report.toRecord) ↔ Sendable report.toRecord := by
  have issue (i : Issue) (level : Nat) :
      Whole (render compact level i.toRecord) ↔ Sendable i.toRecord := by
    cases hp : i.complaint.pin? <;> simp [Issue.toRecord, hp]
  simp [Report.toRecord, issue]

namespace Ending

/-- What is sent is the end itself, or an unexpected one. -/
theorem sent_cases (x : Ending) (trace : String) :
    (x.obstacle? trace = none ∧ x.sent trace = x) ∨
      ∃ message, x.obstacle? trace = some message ∧ x.sent trace = .broken message := by
  unfold sent
  cases x.obstacle? trace with
  | none => exact .inl ⟨rfl, rfl⟩
  | some message => exact .inr ⟨message, rfl, rfl⟩

theorem sent_of_obstacle? (h : x.obstacle? trace = none) : x.sent trace = x := by
  rw [sent, h]

@[simp]
theorem sent_broken (message : String) : (broken message).sent trace = broken message := rfl

/-- What holds no half of a character can be sent. A report on flaws must be writable in numbers too. -/
theorem sent_of_sendable (h : Sendable (x.body trace))
    (hf : ∀ flaws, x = flawed flaws → reportable flaws = true) : x.sent trace = x := by
  have whole : obstacle?.wholeObstacle? trace x = none := by
    rw [obstacle?.wholeObstacle?, fault?_eq_none_iff.mpr (whole_render 0 h)]
    rfl
  refine sent_of_obstacle? ?_
  cases x with
  | answered d =>
    have hd : unsendable? d = none := h
    rw [obstacle?, hd]
    rfl
  | broken message => rfl
  | flawed flaws => simpa only [obstacle?, hf flaws rfl, if_true] using whole
  | _ => exact whole

/-- What says no more than that it went wrong can be written. -/
theorem sent_plain (h : x ∈ [notFound, notAllowed, unreadable]) : x.sent trace = x := by
  have texts : ∀ s ∈ ["detail", "Not Found", "Method Not Allowed", unreadableMessage],
      Whole s.toList := by
    decide +kernel
  simp only [List.mem_cons, List.not_mem_nil, or_false] at h
  rcases h with rfl | rfl | rfl <;> exact sent_of_sendable (by simp [body, texts]) (by simp)

theorem obstacle?_answered_iff : (answered d).obstacle? trace = none ↔ Sendable d := by
  rw [obstacle?, Option.map_eq_none_iff]
  rfl

/-- A refusal can be sent if its message and its report can. -/
theorem obstacle?_refused_iff {f : Failure} (h : Whole trace.toList) :
    (refused f).obstacle? trace = none ↔
      Whole f.message.toList ∧ ∀ report, f = .blocked report → Sendable report.toRecord := by
  have reason : Whole (refusal f).2.toList := by
    cases f <;> simp [refusal]
  have same : (refused f).obstacle? trace = none ↔
      Whole (render compact 0 ((refused f).body trace)) :=
    Option.map_eq_none_iff.trans fault?_eq_none_iff
  rw [same]
  cases f with
  | blocked report => simp [body, reasonBody, reason, h]
  | _ => simp [body, reasonBody, reason, h]

/-- Refusals of a token can be written. -/
theorem sent_denied (h : Whole trace.toList) : (denied reason).sent trace = denied reason := by
  have message : Whole reason.message.toList := by
    cases reason <;> decide +kernel
  refine sent_of_sendable ?_ (by simp)
  simp [body, reasonBody, message, h]

end Ending

end Service

end BlockSketch
