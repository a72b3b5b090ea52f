import BlockSketch.Proofs.Bodies

/-! # Beginnings of lines

The first character of a line after its indentation tells what kind of statement the line holds.
-/

namespace BlockSketch

open Sketch (Statement Placed)

variable {st : Statement} {k : Placed} {q t : String} {lead : List Char} {c : Char}

/-- The line without its indentation. -/
def unindented (t : List Char) : List Char := t.dropWhile (· == ' ')

/-- The character that a statement begins with. -/
def Sketch.Statement.initial : Statement → Char
  | digitalWrite .. | delay _ => 'd'
  | servoWrite .. => 'a'
  | echoNote _ | conditionNote _ => '/'
  | readEcho _ | readSensor _ => 'i'
  | printLine _ => 'S'
  | openLoop _ => 'f'
  | closeLoop => '}'

theorem head?_append_of_head? {c : Char} (h : q.toList.head? = some c) :
    (q ++ t).toList.head? = some c := by
  rw [String.toList_append, List.head?_append, h, Option.some_or]

theorem Sketch.Statement.head?_text (h : st.text = .ok t) : t.toList.head? = some st.initial := by
  cases st with
  | conditionNote c =>
    obtain rfl := Except.ok.inj h
    exact head?_append_of_head? rfl
  | closeLoop =>
    obtain rfl := Except.ok.inj h
    rfl
  | echoNote p =>
    simp only [Statement.text, bind_eq_ok_iff, pure_eq_ok_iff] at h
    obtain ⟨q, -, rfl⟩ := h
    exact head?_append_of_head? rfl
  | digitalWrite p high =>
    simp only [Statement.text, bind_eq_ok_iff, pure_eq_ok_iff] at h
    obtain ⟨q, -, rfl⟩ := h
    iterate 4 apply head?_append_of_head?
    rfl
  | servoWrite p v =>
    simp only [Statement.text, bind_eq_ok_iff, pure_eq_ok_iff] at h
    obtain ⟨q, -, w, -, rfl⟩ := h
    iterate 4 apply head?_append_of_head?
    rfl
  | _ =>
    simp only [Statement.text, bind_eq_ok_iff, pure_eq_ok_iff] at h
    obtain ⟨q, -, rfl⟩ := h
    iterate 2 apply head?_append_of_head?
    rfl

/-- How many spaces the line begins with. -/
def spaces (t : List Char) : Nat := (t.takeWhile (· == ' ')).length

theorem length_repeated (s : String) (l : Int) :
    (Step.repeated s l).toList.length = s.toList.length * l.toNat := by
  rw [Step.repeated, String.toList_join, List.length_flatMap, List.map_replicate,
    List.sum_replicate_nat, Nat.mul_comm]

theorem Sketch.Statement.initial_ne_space (st : Statement) : st.initial ≠ ' ' := by
  cases st <;> simp [initial]

/-- A line is indented by two spaces for each level, and then comes its statement. -/
theorem spaces_placed (h : k.text = .ok t) : spaces t.toList = 2 * k.level.toNat ∧
    ∃ u, k.statement.text = .ok u ∧ unindented t.toList = u.toList := by
  obtain ⟨u, hu, ht⟩ := bind_eq_ok_iff.mp h
  obtain rfl := pure_eq_ok_iff.mp ht
  have lead : ∀ c ∈ (Step.repeated Sketch.indent k.level).toList, (c == ' ') = true :=
    fun c hc => beq_iff_eq.mpr (eq_space_of_mem_indent hc)
  have first : ∀ c ∈ u.toList.head?, (c == ' ') = false := by
    intro c hc
    obtain rfl := Option.some.inj ((Statement.head?_text hu).symm.trans hc)
    exact beq_eq_false_iff_ne.mpr k.statement.initial_ne_space
  obtain ⟨run, left⟩ := run_append lead first
  rw [spaces, unindented, String.toList_append, run, left, length_repeated]
  exact ⟨rfl, u, hu, rfl⟩

theorem unindented_placed (h : k.text = .ok t) :
    ∃ u, k.statement.text = .ok u ∧ unindented t.toList = u.toList := (spaces_placed h).2

/-- What a line begins with tells the first character of its statement. -/
theorem initial_of_isPrefix (h : k.text = .ok t) (hp : c :: lead <+: unindented t.toList) :
    k.statement.initial = c := by
  obtain ⟨u, hu, ht⟩ := unindented_placed h
  obtain ⟨r, hr⟩ := hp
  have first := Statement.head?_text hu
  rw [← ht, ← hr] at first
  exact (Option.some.inj first).symm

end BlockSketch
