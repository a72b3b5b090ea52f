import BlockSketch.Proofs.Forest
import BlockSketch.Proofs.Wording

/-! # Bodies of loops

Statements that carry out the instructions of a forest are read back from the lines between the
braces of the loop, since no value breaks a line and every line of the body is indented.
-/

namespace BlockSketch

open Text
open Sketch (Statement Placed)

variable {n : Option Int} {v : Option ActionValue} {l : Int} {s t : String}
  {sts : List Statement} {ts : List String}

/-! ## Lines -/

/-- The text goes on in one line. -/
def Unbroken (s : String) : Prop := '\n' ∉ s.toList

instance : DecidablePred Unbroken := fun s => inferInstanceAs (Decidable ('\n' ∉ s.toList))

theorem unbroken_append_iff : Unbroken (s ++ t) ↔ Unbroken s ∧ Unbroken t := by
  rw [Unbroken, String.toList_append, List.mem_append, not_or]
  rfl

theorem Unbroken.append (hs : Unbroken s) (ht : Unbroken t) : Unbroken (s ++ t) :=
  unbroken_append_iff.mpr ⟨hs, ht⟩

theorem Unbroken.around {lead tail : String} (hl : Unbroken lead) (hs : Unbroken s)
    (ht : Unbroken tail) : Unbroken (lead ++ s ++ tail) := (hl.append hs).append ht

/-- The value breaks no line. -/
def OneLine (v : Option ActionValue) : Prop := ∀ s, v = some (.text s) → Unbroken s

theorem unbroken_iff : Unbroken s ↔ Throughout (· ≠ '\n') s := by
  constructor
  · rintro h c hc rfl
    exact h hc
  · intro h hm
    exact h '\n' hm rfl

theorem unbroken_of_mem_valueWords (hv : OneLine v) (h : s ∈ valueWords v) : Unbroken s := by
  rcases v with _ | u | n
  · obtain rfl := List.mem_singleton.mp h
    decide
  · obtain rfl := List.mem_singleton.mp h
    exact hv s rfl
  · cases h

theorem unbroken_of_mem_numberWords (h : s ∈ numberWords n) : Unbroken s := by
  cases n with
  | none =>
    obtain rfl := List.mem_singleton.mp h
    decide
  | some n => cases h

/-- The statement writes no value that breaks a line. -/
def StaysOnLine : Statement → Prop
  | .servoWrite _ v | .printLine v => OneLine v
  | .conditionNote c => Unbroken (c.getD missingValue)
  | _ => True

theorem unbroken_of_mem_words {st : Statement} (hst : StaysOnLine st) (h : s ∈ st.words) :
    Unbroken s := by
  cases st with
  | servoWrite p v | printLine v => exact unbroken_of_mem_valueWords hst h
  | conditionNote c =>
    obtain rfl := List.mem_singleton.mp h
    exact hst
  | delay n | openLoop n => exact unbroken_of_mem_numberWords h
  | digitalWrite | echoNote | readEcho | readSensor | closeLoop => cases h

theorem mem_of_mem_repeated {c : Char} (h : c ∈ (Step.repeated s l).toList) : c ∈ s.toList := by
  rw [Step.repeated, String.toList_join, List.mem_flatMap] at h
  obtain ⟨u, hu, hc⟩ := h
  obtain rfl := List.eq_of_mem_replicate hu
  exact hc

theorem eq_space_of_mem_indent {c : Char} (h : c ∈ (Step.repeated Sketch.indent l).toList) :
    c = ' ' := by
  simpa [Sketch.indent] using mem_of_mem_repeated h

theorem throughout_placed_iff {P : Char → Prop} {q : Placed}
    (hP : ∀ c, Ordinary c → P c) (h : q.text = .ok t) :
    Throughout P t ↔ ∀ w ∈ q.statement.words, Throughout P w := by
  obtain ⟨u, hu, ht⟩ := bind_eq_ok_iff.mp h
  obtain rfl := pure_eq_ok_iff.mp ht
  have space : Throughout P (Step.repeated Sketch.indent q.level) := by
    intro c hc
    rw [eq_space_of_mem_indent hc]
    exact hP ' ' (by decide)
  rw [throughout_after_iff space]
  exact Statement.throughout_text_iff hP hu

theorem unbroken_placed {q : Placed} (hst : StaysOnLine q.statement) (h : q.text = .ok t) :
    Unbroken t := by
  have ordinary (c : Char) (hc : Ordinary c) : c ≠ '\n' := by
    rintro rfl
    exact absurd hc (by decide)
  rw [unbroken_iff, throughout_placed_iff ordinary h]
  exact fun w hw => unbroken_iff.mp (unbroken_of_mem_words hst hw)

theorem head?_indent (h : 1 ≤ l) : (Step.repeated Sketch.indent l).toList.head? = some ' ' := by
  obtain ⟨k, hk⟩ := Nat.exists_eq_add_one.mpr (Int.lt_toNat.mpr h)
  rw [Step.repeated, String.toList_join, hk, List.replicate_succ]
  rfl

theorem le_level_of_mem_placeAll {as : List Action} {q : Placed} (h : q ∈ Sketch.placeAll l as) :
    l ≤ q.level := by
  have forest : Leaves (fun _ => True) as := Leaves.of_forall (fun _ => trivial) as
  induction forest generalizing l with
  | nil => cases h
  | once hk _ _ ih =>
    rw [placeAll_once hk] at h
    rcases List.mem_append.mp h with h | h
    · obtain ⟨st, -, rfl⟩ := List.mem_map.mp h
      exact Int.le_refl l
    · exact ih h
  | loop hk _ _ ihi ih =>
    rw [placeAll_loop hk] at h
    simp only [List.mem_cons, List.mem_append] at h
    rcases h with rfl | h | rfl | h
    · exact Int.le_refl l
    · exact Int.le_trans (Int.le_add_one (Int.le_refl l)) (ihi h)
    · exact Int.le_refl l
    · exact ih h

/-- Every line of the body is indented. -/
theorem head?_of_mem_body {as : List Action} {body : List String}
    (h : (Sketch.placeAll 1 as).mapM Placed.text = .ok body) (ht : t ∈ body) :
    t.toList.head? = some ' ' := by
  obtain ⟨q, hq, h⟩ := exists_of_mem_mapM h ht
  obtain ⟨u, -, h⟩ := bind_eq_ok_iff.mp h
  obtain rfl := pure_eq_ok_iff.mp h
  rw [String.toList_append, List.head?_append, head?_indent (le_level_of_mem_placeAll hq)]
  rfl

namespace Effect

/-- A line of the body says the mark. -/
structure MarkedAs (t : String) (m : Mark) : Prop where
  reads : mark? t.toList = some m
  indented : t.toList.head? = some ' '
  unbroken : Unbroken t

theorem mark?_spaces {a r : List Char} {m : Mark} (ha : ∀ c ∈ a, c = ' ')
    (hm : forms.findSome? (fun f => f r) = some m) : mark? (a ++ r) = some m := by
  have hr : r.dropWhile (· == ' ') = r := by
    cases r with
    | nil => rfl
    | cons c r =>
      have hc : c ≠ ' ' := by
        rintro rfl
        cases hm
      simp [hc]
  rw [mark?, List.dropWhile_append_of_pos fun c hc => beq_iff_eq.mpr (ha c hc), hr]
  exact hm

theorem markedAs_of_placed {st : Statement} (hl : 1 ≤ l) (hst : StaysOnLine st)
    (h : Placed.text ⟨l, st⟩ = .ok t) : ∃ m, Says st m ∧ MarkedAs t m := by
  have unbroken := unbroken_placed hst h
  obtain ⟨u, hu, ht⟩ := bind_eq_ok_iff.mp h
  obtain rfl := pure_eq_ok_iff.mp ht
  obtain ⟨m, hs, hm⟩ := says_of_text hu
  refine ⟨m, hs, ?_, ?_, unbroken⟩
  · rw [String.toList_append]
    exact mark?_spaces (fun c => eq_space_of_mem_indent) hm
  · rw [String.toList_append, List.head?_append, head?_indent hl]
    rfl

theorem markedAs_of_statements (hl : 1 ≤ l) (hst : ∀ st ∈ sts, StaysOnLine st)
    (h : (sts.map (⟨l, ·⟩ : Statement → Placed)).mapM Placed.text = .ok ts) :
    ∃ ms, List.Forall₂ Says sts ms ∧ List.Forall₂ MarkedAs ts ms := by
  induction sts generalizing ts with
  | nil =>
    obtain rfl := pure_eq_ok_iff.mp h
    exact ⟨[], .nil, .nil⟩
  | cons st sts ih =>
    obtain ⟨hs, hss⟩ := List.forall_mem_cons.mp hst
    simp only [List.map_cons, List.mapM_cons, bind_eq_ok_iff, pure_eq_ok_iff] at h
    obtain ⟨t, ht, ts, hts, rfl⟩ := h
    obtain ⟨m, hm, hr⟩ := markedAs_of_placed hl hs ht
    obtain ⟨ms, hms, hrs⟩ := ih hss hts
    exact ⟨m :: ms, .cons hm hms, .cons hr hrs⟩

end Effect

/-! ## Instructions -/

/-- The statements that carry out an instruction. -/
def carrying : Instruction → List Statement
  | .setDigitalPin p v => [.digitalWrite p (Sketch.switchesOn v)]
  | .delay d => [.delay d]
  | .servoWrite p v => [.servoWrite p v]
  | .ultrasonicRead p => [.echoNote p, .readEcho p]
  | .digitalRead p => [.readSensor p]
  | .lcdPrint v => [.printLine v]
  | .conditional c => [.conditionNote c]
  | _ => []

/-- The instruction has an effect without a body, and its statements keep all of its values. -/
def Plain : Instruction → Prop
  | .setDigitalPin _ v => v = some (.text "HIGH") ∨ v = some (.text "LOW")
  | .servoWrite _ v | .lcdPrint v => OneLine v
  | .conditional c => Unbroken (c.getD missingValue)
  | .delay _ | .ultrasonicRead _ | .digitalRead _ => True
  | _ => False

theorem staysOnLine_of_carrying {i : Instruction} {st : Statement} (hi : Plain i)
    (h : st ∈ carrying i) : StaysOnLine st := by
  cases i with
  | servoWrite p v =>
    obtain rfl := List.mem_singleton.mp h
    exact hi
  | lcdPrint v =>
    obtain rfl := List.mem_singleton.mp h
    exact hi
  | conditional c =>
    obtain rfl := List.mem_singleton.mp h
    exact hi
  | ultrasonicRead p =>
    rcases List.mem_pair.mp h with rfl | rfl <;> trivial
  | setDigitalPin p v | delay d | digitalRead p =>
    obtain rfl := List.mem_singleton.mp h
    trivial
  | _ => cases hi

namespace Action

/-- A light that blinks. -/
def Blinks (a : Action) : Prop :=
  a.kind = .set ∧ a.component = some "led" ∧ a.value = some (.text "blink")

instance : DecidablePred Blinks := fun _ => inferInstanceAs (Decidable (_ ∧ _ ∧ _))

/-- The action as a sketch does it: a blink that takes no time is one of a second. -/
def lengthened (a : Action) : Action :=
  if a.Blinks then { a with duration := Sketch.blinkDuration a.duration } else a

/-- The statements of the action carry out its instructions. -/
structure Faithful (a : Action) : Prop where
  statements_eq : Sketch.statements a = (Program.instructions a.lengthened).flatMap carrying
  plain : ∀ i ∈ Program.instructions a.lengthened, Plain i

theorem Faithful.staysOnLine {a : Action} {st : Statement} (h : a.Faithful)
    (hst : st ∈ Sketch.statements a) : StaysOnLine st := by
  rw [h.statements_eq] at hst
  obtain ⟨i, hi, hc⟩ := List.mem_flatMap.mp hst
  exact staysOnLine_of_carrying (h.plain i hi) hc

end Action

namespace Effect

variable {i : Instruction} {is : List Instruction} {as : List Action} {es fs : List Effect}
  {ms ns : List Mark}

/-- The marks add the effects to the innermost block. -/
def Adds (ms : List Mark) (es : List Effect) : Prop :=
  ∀ outer done rest, gather outer done (ms ++ rest) = gather outer (done ++ es) rest

theorem adds_nil : Adds [] [] := by
  intro outer done rest
  rw [List.append_nil, List.nil_append]

theorem Adds.append (h : Adds ms es) (h' : Adds ns fs) : Adds (ms ++ ns) (es ++ fs) := by
  intro outer done rest
  rw [List.append_assoc, h, h', List.append_assoc]

theorem Adds.loop {n : String} (h : Adds ms es) :
    Adds (.opening n :: (ms ++ [.closing])) [repetition n es] := by
  intro outer done rest
  rw [List.cons_append, List.append_assoc, gather, h]
  rfl

theorem adds_of_says (hi : Plain i) (h : List.Forall₂ Says (carrying i) ms) :
    ∃ e, Shows i e ∧ Adds ms [e] := by
  cases i with
  | setDigitalPin p v =>
    obtain _ | ⟨hs, _ | _⟩ := h
    cases hs with | digitalWrite _ hp => ?_
    rcases hi with rfl | rfl
    · exact ⟨_, .setPin hp rfl, fun outer done rest => rfl⟩
    · exact ⟨_, .setPin hp rfl, fun outer done rest => rfl⟩
  | delay d =>
    obtain _ | ⟨hs, _ | _⟩ := h
    cases hs with | delay hd => exact ⟨_, .delay hd, fun outer done rest => rfl⟩
  | servoWrite p v =>
    obtain _ | ⟨hs, _ | _⟩ := h
    cases hs with | servoWrite hp hv => exact ⟨_, .turnServo hp hv, fun outer done rest => rfl⟩
  | ultrasonicRead p =>
    obtain _ | ⟨hs, _ | ⟨hr, _ | _⟩⟩ := h
    cases hs with | echoNote hp => ?_
    cases hr with | readEcho hq => ?_
    obtain rfl := Except.ok.inj (hp.symm.trans hq)
    exact ⟨_, .readUltrasonic hp, fun outer done rest => if_pos rfl⟩
  | digitalRead p =>
    obtain _ | ⟨hs, _ | _⟩ := h
    cases hs with | readSensor hp => exact ⟨_, .readDigital hp, fun outer done rest => rfl⟩
  | lcdPrint v =>
    obtain _ | ⟨hs, _ | _⟩ := h
    cases hs with | printLine hv => exact ⟨_, .print hv, fun outer done rest => rfl⟩
  | conditional c =>
    obtain _ | ⟨hs, _ | _⟩ := h
    cases hs with | conditionNote _ => exact ⟨_, .check c, fun outer done rest => rfl⟩
  | _ => cases hi

theorem adds_of_flatMap (hi : ∀ i ∈ is, Plain i)
    (h : List.Forall₂ Says (is.flatMap carrying) ms) :
    ∃ es, List.Forall₂ Shows is es ∧ Adds ms es := by
  induction is generalizing ms with
  | nil =>
    cases h
    exact ⟨[], .nil, adds_nil⟩
  | cons i is ih =>
    obtain ⟨hi, his⟩ := List.forall_mem_cons.mp hi
    have hu := (List.forall₂_take_append _ _ _ h.flip).flip
    have hv := (List.forall₂_drop_append _ _ _ h.flip).flip
    obtain ⟨e, he, hue⟩ := adds_of_says hi hu
    obtain ⟨es, hes, hve⟩ := ih his hv
    refine ⟨e :: es, .cons he hes, ?_⟩
    rw [← List.take_append_drop (carrying i).length ms]
    exact hue.append hve

/-- The lines of a forest are read back by their braces. -/
theorem performs_of_lines (hl : 1 ≤ l) (ha : Leaves Action.Faithful as)
    (h : (Sketch.placeAll l as).mapM Placed.text = .ok ts) :
    ∃ es ms, Performs Action.lengthened as es ∧ List.Forall₂ MarkedAs ts ms ∧ Adds ms es := by
  induction ha generalizing l ts with
  | nil =>
    obtain rfl := pure_eq_ok_iff.mp h
    exact ⟨[], [], .nil, .nil, adds_nil⟩
  | @once a as hk hf _ ih =>
    rw [placeAll_once hk, mapM_append_eq_ok_iff] at h
    obtain ⟨us, vs, hu, hv, rfl⟩ := h
    obtain ⟨ms, hms, hus⟩ := markedAs_of_statements hl (fun _ => hf.staysOnLine) hu
    rw [hf.statements_eq] at hms
    obtain ⟨es, hes, hadd⟩ := adds_of_flatMap hf.plain hms
    obtain ⟨fs, ns, hfs, hvs, hrest⟩ := ih hl hv
    exact ⟨es ++ fs, ms ++ ns, .once hk hes hfs, List.rel_append hus hvs, hadd.append hrest⟩
  | @loop a as hk _ _ ihi ih =>
    rw [placeAll_loop hk] at h
    simp only [List.mapM_cons, bind_eq_ok_iff, pure_eq_ok_iff, mapM_append_eq_ok_iff] at h
    obtain ⟨t, ht, _, ⟨us, _, hu, ⟨t', ht', vs, hv, rfl⟩, rfl⟩, rfl⟩ := h
    obtain ⟨es, ms, hes, hus, hadd⟩ := ihi (Int.le_add_one hl) hu
    obtain ⟨fs, ns, hfs, hvs, hrest⟩ := ih hl hv
    obtain ⟨m, hm, hmt⟩ := markedAs_of_placed hl (by trivial) ht
    obtain ⟨m', hm', hmt'⟩ := markedAs_of_placed hl (by trivial) ht'
    cases hm with | @openLoop _ n hc => ?_
    cases hm'
    refine ⟨repetition n es :: fs, .opening n :: (ms ++ .closing :: ns), .loop hk hc hes hfs,
      .cons hmt (List.rel_append hus (.cons hmt' hvs)), ?_⟩
    have hloop : Adds ((.opening n :: (ms ++ [.closing])) ++ ns) ([repetition n es] ++ fs) :=
      hadd.loop.append hrest
    rwa [List.cons_append, List.append_assoc] at hloop

/-! ## Whole sketches -/

theorem pieces_newline (s t : String) : Pin.pieces (· == '\n') (s ++ "\n" ++ t).toList =
    Pin.pieces (· == '\n') s.toList ++ Pin.pieces (· == '\n') t.toList := Pin.pieces_separated rfl s t

theorem pieces_of_unbroken (h : Unbroken t) : Pin.pieces (· == '\n') t.toList = [t.toList] :=
  Pin.pieces_of_not_mem h

theorem pieces_intercalate_of_unbroken (hn : ts ≠ []) (h : ∀ t ∈ ts, Unbroken t) :
    Pin.pieces (· == '\n') ("\n".intercalate ts).toList = ts.map String.toList :=
  Pin.pieces_intercalate_of_not_mem rfl hn h

/-- Unbroken lines at the end of a text are found, whatever stands before them. -/
theorem pieces_render {front back : List String} (hf : front ≠ []) (hb : back ≠ [])
    (h : ∀ t ∈ back, Unbroken t) :
    Pin.pieces (· == '\n') ("\n".intercalate (front ++ back) ++ "\n").toList =
      Pin.pieces (· == '\n') ("\n".intercalate front).toList ++ back.map String.toList ++ [[]] := by
  have hn := pieces_newline ("\n".intercalate (front ++ back)) ""
  rw [String.append_empty] at hn
  rw [hn, String.intercalate_append_of_ne_nil hf hb, pieces_newline,
    pieces_intercalate_of_unbroken hb h]
  rfl

/-- The last line that opens a loop opens the loop whose lines are indented. -/
theorem loopLines?_of_pieces {sketch : String} {before : List (List Char)}
    (hp : Pin.pieces (· == '\n') sketch.toList =
      before ++ ("void loop() \x7b" :: (ts ++ ["\x7d"])).map String.toList ++ [[]])
    (ht : ∀ t ∈ ts, t.toList.head? = some ' ') :
    loopLines? sketch = some (ts.map String.toList) := by
  have inside : ∀ s ∈ (ts.map String.toList).reverse,
      decide (s ≠ "void loop() \x7b".toList) = true := by
    intro s hs
    obtain ⟨t, hm, rfl⟩ := List.mem_map.mp (List.mem_reverse.mp hs)
    refine decide_eq_true fun hn => ?_
    have hh := ht t hm
    rw [hn] at hh
    exact absurd hh (by decide)
  have reversed : (Pin.pieces (· == '\n') sketch.toList).reverse = [] :: ['}'] ::
      ((ts.map String.toList).reverse ++ "void loop() \x7b".toList :: before.reverse) := by
    simp [hp]
  have last : ((ts.map String.toList).reverse ++ "void loop() \x7b".toList ::
      before.reverse).takeWhile (· ≠ "void loop() \x7b".toList) =
        (ts.map String.toList).reverse := by
    rw [List.takeWhile_append_of_pos inside, List.takeWhile_cons_of_neg (by simp), List.append_nil]
  rw [loopLines?, reversed]
  exact congrArg some ((congrArg List.reverse last).trans (List.reverse_reverse _))

/-- The parts of a sketch: the names of pins, their modes, and the body of the loop. -/
theorem parts_of_lines {cs : List Component} {board : Board} {day : Date} {ls : List String}
    (h : Sketch.lines as cs board day = .ok ls) : ∃ pins names modes body,
      List.Forall₂ (fun c ts => Sketch.definitions c = .ok ts) cs names ∧
      List.Forall₂ (fun c ts => Sketch.modeLines c = .ok ts) cs modes ∧
      (Sketch.placeAll 1 as).mapM Placed.text = .ok body ∧
      ls = Sketch.header board day cs.length pins ++ names.flatten ++
        ["", "void setup() \x7b", s!"{Sketch.indent}// Initialize serial communication",
          s!"{Sketch.indent}Serial.begin(9600);", ""] ++
        modes.flatten ++ ["\x7d", "", "void loop() \x7b"] ++ body ++ ["\x7d"] := by
  obtain ⟨pins, -, h⟩ := bind_eq_ok_iff.mp h
  obtain ⟨names, hn, h⟩ := bind_eq_ok_iff.mp h
  obtain ⟨modes, hm, h⟩ := bind_eq_ok_iff.mp h
  obtain ⟨body, hb, h⟩ := bind_eq_ok_iff.mp h
  exact ⟨pins, names, modes, body, mapM_eq_ok_iff.mp hn,
    mapM_eq_ok_iff.mp (mapError_eq_ok_iff.mp hm), mapError_eq_ok_iff.mp hb,
    (pure_eq_ok_iff.mp h).symm⟩

theorem lines_eq_ok {cs : List Component} {board : Board} {day : Date} {ls : List String}
    (h : Sketch.lines as cs board day = .ok ls) : ∃ front body, front ≠ [] ∧
      (Sketch.placeAll 1 as).mapM Placed.text = .ok body ∧
      ls = front ++ "void loop() \x7b" :: (body ++ ["\x7d"]) := by
  obtain ⟨pins, names, modes, body, -, -, hb, rfl⟩ := parts_of_lines h
  refine ⟨Sketch.header board day cs.length pins ++ names.flatten ++
    ["", "void setup() \x7b", s!"{Sketch.indent}// Initialize serial communication",
      s!"{Sketch.indent}Serial.begin(9600);", ""] ++ modes.flatten ++ ["\x7d", ""],
    body, by simp, hb, ?_⟩
  simp only [List.append_assoc, List.cons_append, List.nil_append]

theorem ofSketch?_eq_some {sketch : String} {ls : List (List Char)}
    (hl : loopLines? sketch = some ls) (hm : ls.mapM mark? = some ms)
    (hg : gather [] [] ms = some es) : ofSketch? sketch = some es := by
  rw [ofSketch?, hl]
  exact (congrArg (· >>= gather [] []) hm).trans hg

/-- The lines of the body are those of the loop, if none of them is broken. -/
theorem loopLines?_of_render {cs : List Component} {board : Board} {day : Date} {sketch : String}
    (h : Sketch.render as cs board day = .ok sketch) : ∃ body,
      (Sketch.placeAll 1 as).mapM Placed.text = .ok body ∧
      ((∀ t ∈ body, Unbroken t) → loopLines? sketch = some (body.map String.toList)) := by
  obtain ⟨ls, hl, rfl⟩ := map_eq_ok_iff.mp h
  obtain ⟨front, body, hf, hb, rfl⟩ := lines_eq_ok hl
  refine ⟨body, hb, fun inner => ?_⟩
  have unbroken : ∀ t ∈ "void loop() \x7b" :: (body ++ ["\x7d"]), Unbroken t := by
    intro t ht
    simp only [List.mem_cons, List.mem_append, List.not_mem_nil, or_false] at ht
    rcases ht with rfl | ht | rfl
    · decide
    · exact inner t ht
    · decide
  exact loopLines?_of_pieces (pieces_render hf (List.cons_ne_nil _ _) unbroken)
    fun t => head?_of_mem_body hb

/-- The loop of a sketch is read back as the effects of its actions, with lengthened blinks. -/
theorem ofSketch?_of_render {cs : List Component} {board : Board} {day : Date} {sketch : String}
    (ha : Leaves Action.Faithful as) (h : Sketch.render as cs board day = .ok sketch) :
    ∃ es, Performs Action.lengthened as es ∧ ofSketch? sketch = some es := by
  obtain ⟨body, hb, lines⟩ := loopLines?_of_render h
  obtain ⟨es, ms, hes, hbs, hadd⟩ := performs_of_lines (Int.le_refl 1) ha hb
  obtain ⟨inner, reads⟩ := (List.forall₂_and_left body ms).mp
    (hbs.imp fun t m h => ⟨h.unbroken, h.reads⟩)
  have marks : (body.map String.toList).mapM mark? = some ms :=
    mapM_eq_some (List.forall₂_map_left_iff.mpr reads)
  have gathered : gather [] [] ms = some es := by
    rw [← List.append_nil ms, hadd]
    rfl
  exact ⟨es, hes, ofSketch?_eq_some (lines inner) marks gathered⟩

end Effect

end BlockSketch
