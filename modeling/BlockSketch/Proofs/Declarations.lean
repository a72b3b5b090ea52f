import BlockSketch.Proofs.Beginnings
import BlockSketch.Proofs.Comments

/-! # Declarations of variables

The body of a sketch's loop is a block, and so is the body of every loop in it. A line declares its
variable in the innermost block around it, and the variable of a loop belongs to the block of that
loop. Every reading of a sensor declares a variable, and there are only two names for these.
-/

namespace BlockSketch

open Text
open Sketch (Statement Placed)

variable {as : List Action} {a b : Action} {l : Int} {n : Option Int} {st : Statement} {k : Placed}
  {sts : List Statement} {t : String} {ts : List String} {lead s : List Char} {c : Char}
  {outer bs : List (List (List Char))} {inner done : List (List Char)} {rest : List (List Char)}

/-! ## Blocks -/

/-- The name that follows the words at the beginning of the line. -/
def nameAfter? (lead t : List Char) : Option (List Char) :=
  (after? lead (unindented t)).map (·.takeWhile (· ≠ ' '))

/-- The variable that the line declares. -/
def declared? (t : List Char) : Option (List Char) := nameAfter? "int ".toList t

/-- The variable of the loop that the line opens. -/
def counter? (t : List Char) : Option (List Char) := nameAfter? "for (int ".toList t

/-- The variables of the blocks that the lines close, in the order of their ends, and at last those of
the block that the lines are in. The blocks around the innermost one wait in `outer`. -/
def blocks (outer : List (List (List Char))) (inner : List (List Char)) :
    List (List Char) → Option (List (List (List Char)))
  | [] =>
    match outer with
    | [] => some [inner]
    | _ :: _ => none
  | t :: ts =>
    match counter? t with
    | some x => blocks (inner :: outer) [x] ts
    | none =>
      if unindented t = ['}'] then
        match outer with
        | [] => none
        | around :: outer => (blocks outer around ts).map (inner :: ·)
      else blocks outer (inner ++ (declared? t).toList) ts

/-! ## Lines -/

def Sketch.Statement.declared? : Statement → Option (List Char)
  | readEcho _ => some "distanceEcho".toList
  | readSensor _ => some "sensorValue".toList
  | _ => none

/-- The statement neither opens nor closes a loop. -/
def Sketch.Statement.Inside : Statement → Prop
  | openLoop _ | closeLoop => False
  | _ => True

theorem nameAfter?_eq_none (h : k.text = .ok t) (hl : lead.head? = some c)
    (hc : k.statement.initial ≠ c) : nameAfter? lead t.toList = none := by
  obtain ⟨lead, rfl⟩ := List.head?_eq_some_iff.mp hl
  rw [nameAfter?, Option.map_eq_none_iff, Option.eq_none_iff_forall_ne_some]
  intro r hr
  exact hc (initial_of_isPrefix h ⟨r, (after?_eq_some_iff.mp hr).symm⟩)

theorem counter?_of_inside (h : k.text = .ok t) (hi : k.statement.Inside) :
    counter? t.toList = none := by
  refine nameAfter?_eq_none (c := 'f') h rfl ?_
  cases hk : k.statement with
  | openLoop => simp [hk, Statement.Inside] at hi
  | _ => simp [Statement.initial]

theorem unindented_ne_of_inside (h : k.text = .ok t) (hi : k.statement.Inside) :
    unindented t.toList ≠ ['}'] := by
  intro ht
  have begins : ['}'] <+: unindented t.toList := ⟨[], by rw [ht, List.append_nil]⟩
  have first : k.statement.initial = '}' := initial_of_isPrefix h begins
  cases hk : k.statement with
  | closeLoop => simp [hk, Statement.Inside] at hi
  | _ => simp [hk, Statement.initial] at first

theorem declared?_placed (h : k.text = .ok t) : declared? t.toList = k.statement.declared? := by
  have other (hs : k.statement.initial ≠ 'i') (hd : k.statement.declared? = none) :
      declared? t.toList = k.statement.declared? :=
    (nameAfter?_eq_none h rfl hs).trans hd.symm
  obtain ⟨u, hu, ht⟩ := unindented_placed h
  cases hk : k.statement with
  | readEcho p =>
    simp only [hk, Statement.text, bind_eq_ok_iff, pure_eq_ok_iff] at hu
    obtain ⟨q, -, rfl⟩ := hu
    rw [declared?, nameAfter?, ht]
    simp only [String.toList_append, List.append_assoc]
    rfl
  | readSensor p =>
    simp only [hk, Statement.text, bind_eq_ok_iff, pure_eq_ok_iff] at hu
    obtain ⟨q, -, rfl⟩ := hu
    rw [declared?, nameAfter?, ht]
    simp only [String.toList_append, List.append_assoc]
    rfl
  | _ =>
    rw [hk] at other
    exact other (by simp [Statement.initial]) rfl

theorem blocks_openLoop (h : Placed.text ⟨l, .openLoop n⟩ = .ok t) :
    blocks outer inner (t.toList :: rest) = blocks (inner :: outer) [['i']] rest := by
  have opens : counter? t.toList = some ['i'] := by
    obtain ⟨u, hu, ht⟩ := unindented_placed h
    simp only [Statement.text, bind_eq_ok_iff, pure_eq_ok_iff] at hu
    obtain ⟨q, -, rfl⟩ := hu
    rw [counter?, nameAfter?, ht]
    simp only [String.toList_append, List.append_assoc]
    rfl
  simp only [blocks, opens]

theorem blocks_closeLoop (h : Placed.text ⟨l, .closeLoop⟩ = .ok t) :
    blocks (done :: outer) inner (t.toList :: rest) = (blocks outer done rest).map (inner :: ·) := by
  have other : counter? t.toList = none :=
    nameAfter?_eq_none (c := 'f') h rfl (by simp [Statement.initial])
  have closes : unindented t.toList = ['}'] := by
    obtain ⟨u, hu, ht⟩ := unindented_placed h
    obtain rfl := Except.ok.inj hu
    exact ht
  simp only [blocks, other, closes, if_true]

theorem blocks_inside (h : k.text = .ok t) (hi : k.statement.Inside) :
    blocks outer inner (t.toList :: rest) =
      blocks outer (inner ++ k.statement.declared?.toList) rest := by
  simp only [blocks, counter?_of_inside h hi, unindented_ne_of_inside h hi, if_false,
    declared?_placed h]

/-- Statements without loops declare their variables in the innermost block. -/
theorem blocks_statements (hi : ∀ st ∈ sts, st.Inside)
    (h : (sts.map (⟨l, ·⟩ : Statement → Placed)).mapM Placed.text = .ok ts) :
    blocks outer inner (ts.map String.toList ++ rest) =
      blocks outer (inner ++ sts.filterMap Statement.declared?) rest := by
  induction sts generalizing inner ts with
  | nil =>
    obtain rfl := pure_eq_ok_iff.mp h
    simp
  | cons st sts ih =>
    obtain ⟨hst, hi⟩ := List.forall_mem_cons.mp hi
    simp only [List.map_cons, List.mapM_cons, bind_eq_ok_iff, pure_eq_ok_iff] at h
    obtain ⟨t, ht, ts, hts, rfl⟩ := h
    rw [List.map_cons, List.cons_append, blocks_inside ht hst, ih hi hts, List.append_assoc,
      List.filterMap_cons]
    cases st.declared? <;> rfl

/-! ## Forests -/

namespace Action

def declared? (a : Action) : Option (List Char) :=
  if a.kind = .read then
    some (if a.component = some "ultrasonic" then "distanceEcho" else "sensorValue").toList
  else none

/-- Both actions read a sensor, and both or neither of these is ultrasonic. -/
def Clashes (a b : Action) : Prop :=
  a.kind = .read ∧ b.kind = .read ∧ (a.component = some "ultrasonic" ↔ b.component = some "ultrasonic")

instance : DecidableRel Clashes := fun _ _ => inferInstanceAs (Decidable (_ ∧ _ ∧ _))

theorem clashes_iff : a.Clashes b ↔ ∃ x, a.declared? = some x ∧ b.declared? = some x := by
  unfold Clashes declared?
  by_cases ha : a.kind = .read <;> by_cases hb : b.kind = .read <;>
    by_cases hu : a.component = some "ultrasonic" <;>
    by_cases hv : b.component = some "ultrasonic" <;> simp [ha, hb, hu, hv]

end Action

/-- The variables of the blocks inside the body of a forest, in the order of their ends. -/
inductive Scopes : List Action → List (List (List Char)) → Prop where
  | nil : Scopes [] []
  | once {a : Action} {as : List Action} {bs : List (List (List Char))} :
      a.kind ≠ .repetition → Scopes as bs → Scopes (a :: as) bs
  | loop {a : Action} {as : List Action} {bs cs : List (List (List Char))} :
      a.kind = .repetition → Scopes a.actions bs → Scopes as cs →
      Scopes (a :: as) (bs ++ (['i'] :: a.actions.filterMap Action.declared?) :: cs)

theorem inside_of_mem_statements (hk : a.kind ≠ .repetition) (h : st ∈ Sketch.statements a) :
    st.Inside := by
  have setting : ∀ st ∈ Sketch.setting a, st.Inside := by
    unfold Sketch.setting
    repeat' split
    all_goals simp [Statement.Inside]
  unfold Sketch.statements at h
  split at h
  · exact setting st h
  · obtain rfl := List.mem_singleton.mp h
    trivial
  · split at h
    · rcases List.mem_pair.mp h with rfl | rfl <;> trivial
    · obtain rfl := List.mem_singleton.mp h
      trivial
  · obtain rfl := List.mem_singleton.mp h
    trivial
  · obtain rfl := List.mem_singleton.mp h
    trivial
  · next hr => exact absurd hr hk

theorem filterMap_statements (a : Action) :
    (Sketch.statements a).filterMap Statement.declared? = a.declared?.toList := by
  have setting : (Sketch.setting a).filterMap Statement.declared? = [] := by
    unfold Sketch.setting
    repeat' split
    all_goals rfl
  unfold Sketch.statements Action.declared?
  cases a.kind with
  | set => exact setting
  | read => by_cases hu : a.component = some "ultrasonic" <;> simp [hu] <;> rfl
  | delay | print | conditional | repetition => rfl

/-- The lines of a forest declare the variables of its own readings in the block around them, and
those of the others in the blocks of their loops. -/
theorem scopes_of_lines (h : (Sketch.placeAll l as).mapM Placed.text = .ok ts) :
    ∃ bs, Scopes as bs ∧ ∀ outer inner rest, blocks outer inner (ts.map String.toList ++ rest) =
      (blocks outer (inner ++ as.filterMap Action.declared?) rest).map (bs ++ ·) := by
  have forest : Leaves (fun _ => True) as := .of_forall (fun _ => trivial) as
  induction forest generalizing l ts with
  | nil =>
    obtain rfl := pure_eq_ok_iff.mp h
    refine ⟨[], .nil, fun outer inner rest => ?_⟩
    simp
  | @once a as hk _ _ ih =>
    rw [placeAll_once hk, mapM_append_eq_ok_iff] at h
    obtain ⟨us, vs, hu, hv, rfl⟩ := h
    obtain ⟨bs, hbs, hrest⟩ := ih hv
    refine ⟨bs, .once hk hbs, fun outer inner rest => ?_⟩
    rw [List.map_append, List.append_assoc,
      blocks_statements (fun _ => inside_of_mem_statements hk) hu, hrest, filterMap_statements,
      List.filterMap_cons, List.append_assoc]
    cases a.declared? <;> rfl
  | @loop a as hk _ _ ihi ih =>
    rw [placeAll_loop hk] at h
    simp only [List.mapM_cons, bind_eq_ok_iff, pure_eq_ok_iff, mapM_append_eq_ok_iff] at h
    obtain ⟨t, ht, _, ⟨us, _, hu, ⟨t', ht', vs, hv, rfl⟩, rfl⟩, rfl⟩ := h
    obtain ⟨bs, hbs, hbody⟩ := ihi hu
    obtain ⟨cs, hcs, hrest⟩ := ih hv
    refine ⟨bs ++ (['i'] :: a.actions.filterMap Action.declared?) :: cs, .loop hk hbs hcs,
      fun outer inner rest => ?_⟩
    have silent : a.declared? = none := by simp [Action.declared?, hk]
    rw [List.filterMap_cons_none silent]
    simp only [List.map_cons, List.map_append, List.cons_append, List.append_assoc]
    rw [blocks_openLoop ht, hbody, blocks_closeLoop ht', hrest, Option.map_map, Option.map_map]
    refine congrArg (Option.map · _) (funext fun cs => ?_)
    simp

theorem nodup_filterMap_iff :
    (as.filterMap Action.declared?).Nodup ↔ as.Pairwise fun a b => ¬ a.Clashes b := by
  rw [List.Nodup, List.pairwise_filterMap]
  refine List.Pairwise.iff fun {a b} => ?_
  rw [Action.clashes_iff]
  constructor
  · rintro h ⟨x, ha, hb⟩
    exact h x ha x hb rfl
  · rintro h x ha y hb rfl
    exact h ⟨x, ha, hb⟩

theorem nodup_loop_of_singleton (a : Action) : (['i'] :: [a].filterMap Action.declared?).Nodup := by
  rw [List.filterMap_cons]
  unfold Action.declared?
  split_ifs <;> simp

/-! ## Prompts -/

namespace Prompt

/-- The loops of a prompt have a single action, so no name clashes inside of them. -/
theorem Spoken.nodup_of_scopes {ss : List (List Char)} (h : ∀ a ∈ as, Spoken ss a)
    (hs : Scopes as bs) : ∀ b ∈ bs, b.Nodup := by
  induction hs with
  | nil => simp
  | once _ _ ih => exact ih (List.forall_mem_cons.mp h).2
  | @loop a as bs cs hk hin _ _ ih =>
    obtain ⟨⟨s, -, ha⟩, has⟩ := List.forall_mem_cons.mp h
    rcases ha with ha | ⟨b, k, -, hb, rfl⟩
    · exact absurd hk ha.once
    · cases hin with
      | loop hr => exact absurd hr hb.once
      | once _ hin =>
        cases hin
        rw [List.nil_append, List.forall_mem_cons]
        exact ⟨nodup_loop_of_singleton b, ih has⟩

/-- The body of a sketch's loop is made of blocks, and no block declares a variable twice exactly if
the prompt, apart from its repetitions, reads at most one ultrasonic sensor and at most one other
sensor. -/
theorem declarations_nodup_iff {prompt sketch : String} {cs : List Component} {board : Board}
    {day : Date} (ha : actions prompt = .ok as) (hr : Sketch.render as cs board day = .ok sketch) :
    ∃ body bs, Effect.loopLines? sketch = some body ∧ blocks [] [] body = some bs ∧
      ((∀ b ∈ bs, b.Nodup) ↔ as.Pairwise fun a b => ¬ a.Clashes b) := by
  have made : ∀ a ∈ as, Spoken (spoken prompt) a := fun a => spoken_of_actions ha
  obtain ⟨body, hb, found⟩ := Effect.loopLines?_of_render hr
  obtain ⟨bs, hs, lines⟩ := scopes_of_lines hb
  have whole := lines [] [] []
  rw [List.append_nil, List.nil_append] at whole
  refine ⟨_, bs ++ [as.filterMap Action.declared?],
    found fun t => unbroken_of_mem_body (leaves_of_spoken made) hb, whole, ?_⟩
  rw [List.forall_mem_append, List.forall_mem_singleton, nodup_filterMap_iff]
  exact and_iff_right (Spoken.nodup_of_scopes made hs)

/-- Two sensors, only one of them ultrasonic, and a third one that is read repeatedly. -/
def readings : List Action := [
  { kind := .read, component := some "ultrasonic", pin := some 7 },
  { kind := .read, component := some "light" },
  Action.repeating 2 { kind := .read, component := some "it" }]

theorem declarations_nodup_iff_readings : ∃ sketch body bs,
    actions "Read ultrasonic sensor on pin 7; read light sensor; repeat 2 times; read it sensor" =
      .ok readings ∧
      Sketch.render readings [] .uno ⟨2024, 5, 1⟩ = .ok sketch ∧
      Effect.loopLines? sketch = some body ∧ blocks [] [] body = some bs ∧ ∀ b ∈ bs, b.Nodup := by
  have ha : actions
      "Read ultrasonic sensor on pin 7; read light sensor; repeat 2 times; read it sensor" =
        .ok readings := rfl
  obtain ⟨sketch, hr⟩ := exists_ok_of_isOk (x := Sketch.render readings [] .uno ⟨2024, 5, 1⟩)
    (by decide +kernel)
  obtain ⟨body, bs, hl, hb, single⟩ := declarations_nodup_iff ha hr
  exact ⟨sketch, body, bs, ha, hr, hl, hb, single.mpr (by decide)⟩

/-- Two sensors that are not ultrasonic. -/
def twoSensors : List Action := [
  { kind := .read, component := some "light", pin := some 4 },
  { kind := .read, component := some "temp", pin := some 5 }]

/-- Both readings declare the same variable. -/
theorem declarations_clash_twoSensors : ∃ sketch,
    actions "read light sensor on pin 4, read temp sensor on pin 5" = .ok twoSensors ∧
      Sketch.render twoSensors [] .uno ⟨2024, 5, 1⟩ = .ok sketch ∧
      Effect.loopLines? sketch = some ["  int sensorValue = digitalRead(4);".toList,
        "  int sensorValue = digitalRead(5);".toList] ∧
      blocks [] [] ["  int sensorValue = digitalRead(4);".toList,
        "  int sensorValue = digitalRead(5);".toList] =
          some [["sensorValue".toList, "sensorValue".toList]] ∧
      ¬ ["sensorValue".toList, "sensorValue".toList].Nodup := by
  have ha : actions "read light sensor on pin 4, read temp sensor on pin 5" = .ok twoSensors := rfl
  obtain ⟨sketch, hr⟩ := exists_ok_of_isOk (x := Sketch.render twoSensors [] .uno ⟨2024, 5, 1⟩)
    (by decide +kernel)
  obtain ⟨body, hb, found⟩ := Effect.loopLines?_of_render hr
  have written : (Sketch.placeAll 1 twoSensors).mapM Placed.text =
      .ok ["  int sensorValue = digitalRead(4);", "  int sensorValue = digitalRead(5);"] := by
    decide +kernel
  obtain rfl := Except.ok.inj (hb.symm.trans written)
  exact ⟨sketch, ha, hr, found (by decide), by decide +kernel, by decide⟩

end Prompt

end BlockSketch
