import BlockSketch.Project.Basic
import BlockSketch.Proofs.Outcome

/-! # Refused documents

A document that is no project is refused as such, or for its board, with one exception: the amount
of a count of pins can be a fault of its own. That happens exactly if the first record with a fault
describes a custom part whose count is infinite, or whose count alone decides about its pins and
exceeds what a list can hold.
-/

namespace BlockSketch

variable {d : Document} {fault : ComponentFault}

/-! ## Fields -/

/-- Only an infinite value has an amount that is no whole number. -/
theorem Document.toInt_eq_overflow (h : d.toInt = .error fault) (ho : fault.isOverflow = true) :
    fault = .countIsInfinite ∧ ∃ negative, d = .float (.infinity negative) := by
  cases d with
  | bool b => cases h
  | int n => cases h
  | float x =>
    cases x with
    | nan =>
      obtain rfl := Except.error.inj h
      cases ho
    | infinity negative => exact ⟨(Except.error.inj h).symm, negative, rfl⟩
    | finite negative m e => cases h
  | text s =>
    obtain ⟨f, -, rfl⟩ := mapError_eq_error_iff.mp h
    cases ho
  | bytes b =>
    obtain ⟨f, -, rfl⟩ := mapError_eq_error_iff.mp h
    cases ho
  | _ =>
    obtain rfl := Except.error.inj h
    cases ho

theorem Document.not_overflow_items (h : d.items = .error fault) : fault.isOverflow = false := by
  cases d with
  | list _ | map _ | row _ | keys _ | text _ | bytes _ => cases h
  | _ =>
    obtain rfl := Except.error.inj h
    rfl

namespace CustomPart

variable {record : Document} {n : Int}

theorem not_overflow_pinType (h : pinType d = .error fault) : fault.isOverflow = false := by
  unfold pinType at h
  split at h
  · cases h
  · obtain rfl := Except.error.inj h
    rfl

/-- The count is too large, or too small, for any list. -/
def OutOfRange (n : Int) : Prop := lengthBound ≤ n ∨ n < -lengthBound

theorem digitalPins_eq_error_iff : digitalPins n = .error fault ↔
    fault = .countOutOfRange ∧ OutOfRange n ∨
      fault = .outOfMemory ∧ ¬ OutOfRange n ∧ memoryBound ≤ n := by
  unfold digitalPins
  by_cases hr : OutOfRange n
  · have hb : (lengthBound ≤ n || n < -lengthBound) = true := by simpa [OutOfRange] using hr
    simp [hb, hr, eq_comm]
  · have hb : (lengthBound ≤ n || n < -lengthBound) = false := by simpa [OutOfRange] using hr
    by_cases hm : memoryBound ≤ n <;> simp [hb, hr, hm, eq_comm]

/-- The value that a record gives as its count of pins. -/
def givenCount (record : Document) : Document := (record.get "customPinCount").orElse (.int 1)

/-- The value that a record gives as its types of pins. -/
def givenTypes (record : Document) : Document := (record.get "customPinTypes").orElse (.list [])

/-- The count of a record is at fault for its amount. If no types of pins are given, the count
decides how long their list is. -/
inductive Exceeds (record : Document) : ComponentFault → Prop where
  | infinite {negative : Bool} : givenCount record = .float (.infinity negative) →
      Exceeds record .countIsInfinite
  | range {n : Int} : (givenCount record).toInt = .ok n → (givenTypes record).items = .ok [] →
      OutOfRange n → Exceeds record .countOutOfRange
  | memory {n : Int} : (givenCount record).toInt = .ok n → (givenTypes record).items = .ok [] →
      ¬ OutOfRange n → memoryBound ≤ n → Exceeds record .outOfMemory

theorem Exceeds.isOverflow (h : Exceeds record fault) : fault.isOverflow = true := by
  cases h <;> rfl

theorem readPinTypes_eq_overflow (h : readPinTypes record n = .error fault)
    (ho : fault.isOverflow = true) :
    (givenTypes record).items = .ok [] ∧ digitalPins n = .error fault := by
  rcases bind_eq_error_iff.mp h with h | ⟨listed, hl, h⟩
  · simp [Document.not_overflow_items h] at ho
  · rcases bind_eq_error_iff.mp h with h | ⟨types, ht, h⟩
    · obtain ⟨d, -, hd⟩ := exists_error_of_mapM h
      simp [not_overflow_pinType hd] at ho
    · -- The count is looked at only if no types are left, that is, none were listed.
      cases types with
      | nil =>
        have hn : listed = [] := List.forall₂_nil_right_iff.mp (mapM_eq_ok_iff.mp ht)
        exact ⟨hn ▸ hl, h⟩
      | cons t ts => cases h

theorem readPinTypes_of_no_types (h : (givenTypes record).items = .ok []) :
    readPinTypes record n = digitalPins n := by
  rw [givenTypes] at h
  rw [readPinTypes, h]
  rfl

theorem not_overflow_readBlocks (h : readBlocks record = .error fault) :
    fault.isOverflow = false := by
  rcases bind_eq_error_iff.mp h with h | ⟨listed, -, h⟩
  · exact Document.not_overflow_items h
  · cases h

theorem exceeds_of_ofRecord (h : ofRecord record = .error fault) (ho : fault.isOverflow = true) :
    Exceeds record fault := by
  rcases bind_eq_error_iff.mp h with h | ⟨n, hn, h⟩
  · obtain ⟨rfl, negative, hi⟩ := Document.toInt_eq_overflow h ho
    exact .infinite hi
  rcases bind_eq_error_iff.mp h with h | ⟨types, -, h⟩
  · obtain ⟨ht, hd⟩ := readPinTypes_eq_overflow h ho
    rcases digitalPins_eq_error_iff.mp hd with ⟨rfl, hr⟩ | ⟨rfl, hr, hm⟩
    · exact .range hn ht hr
    · exact .memory hn ht hr hm
  rcases bind_eq_error_iff.mp h with h | ⟨named, -, h⟩
  · simp [not_overflow_readBlocks h] at ho
  · cases h

theorem ofRecord_of_exceeds (h : Exceeds record fault) : ofRecord record = .error fault := by
  have types {n : Int} (hn : (givenCount record).toInt = .ok n)
      (ht : (givenTypes record).items = .ok []) (hd : digitalPins n = .error fault) :
      ofRecord record = .error fault := by
    refine bind_eq_error_iff.mpr (.inr ⟨n, hn, bind_eq_error_iff.mpr (.inl ?_)⟩)
    rw [readPinTypes_of_no_types ht, hd]
  cases h with
  | infinite hi =>
    refine bind_eq_error_iff.mpr (.inl ?_)
    rw [← givenCount, hi]
    rfl
  | range hn ht hr => exact types hn ht (digitalPins_eq_error_iff.mpr (.inl ⟨rfl, hr⟩))
  | memory hn ht hr hm => exact types hn ht (digitalPins_eq_error_iff.mpr (.inr ⟨rfl, hr, hm⟩))

end CustomPart

/-! ## Components -/

namespace Component

variable {record : Document} {fallback : String}

/-- The record describes a custom part whose count is at fault for its amount. -/
structure Excessive (record : Document) (fault : ComponentFault) : Prop where
  mapping : ∃ es, record = .map es
  custom : ((record.get "type").orElse (.text "")).shown = customKind
  exceeds : CustomPart.Exceeds record fault

theorem ofRecord_eq_error_iff : ofRecord record fallback = .error fault ↔
    ((record.get "type").orElse (.text "")).shown = customKind ∧
      CustomPart.ofRecord record = .error fault := by
  unfold ofRecord
  dsimp only
  split
  · next hk =>
    rw [bind_eq_error_iff]
    simp [hk, pure, Except.pure]
  · next hk => simp [hk, pure, Except.pure]

theorem ofRecord_eq_overflow_iff :
    ofRecord record fallback = .error fault ∧ fault.isOverflow = true ↔
      ((record.get "type").orElse (.text "")).shown = customKind ∧
        CustomPart.Exceeds record fault := by
  rw [ofRecord_eq_error_iff]
  constructor
  · rintro ⟨⟨hk, h⟩, ho⟩
    exact ⟨hk, CustomPart.exceeds_of_ofRecord h ho⟩
  · rintro ⟨hk, h⟩
    exact ⟨⟨hk, CustomPart.ofRecord_of_exceeds h⟩, h.isOverflow⟩

end Component

/-! ## Documents -/

namespace Project

variable {ds : List Document} {n : Nat} {e : Failure} {board : Board}

/-- The records of components that a document gives. -/
def Records (d : Document) (ds : List Document) : Prop :=
  (∃ es, d = .map es) ∧ (d.get "components").orElse (.list []) = .list ds

/-- Reads one component, the number of which is given. -/
def readComponent (n : Nat) (d : Document) : Except Failure Component :=
  match d with
  | .map _ => (Component.ofRecord d (toString n)).mapError fun fault =>
    if fault.isOverflow then .component fault else .project (.component n fault)
  | _ => .error (.project (.componentNotMapping n))

theorem readComponents_cons : readComponents n (d :: ds) = do
    return (← readComponent n d) :: (← readComponents (n + 1) ds) := by
  cases d with
  | map es =>
    rw [readComponents, readComponent]
    cases Component.ofRecord (.map es) (toString n) <;> rfl
  | _ => rfl

/-- Every component was read from one of the records. -/
theorem exists_record_of_readComponents {cs : List Component} (h : readComponents n ds = .ok cs) :
    ∀ c ∈ cs, ∃ record ∈ ds, ∃ k : Nat, Component.ofRecord record (toString k) = .ok c := by
  induction ds generalizing n cs with
  | nil =>
    obtain rfl := Except.ok.inj h
    nofun
  | cons d ds ih =>
    rw [readComponents_cons] at h
    obtain ⟨c, hc, h⟩ := bind_eq_ok_iff.mp h
    obtain ⟨cs, hcs, h⟩ := bind_eq_ok_iff.mp h
    obtain rfl := pure_eq_ok_iff.mp h
    refine List.forall_mem_cons.mpr ⟨?_, fun c hm => ?_⟩
    · cases d with
      | map es => exact ⟨_, List.mem_cons_self, n, mapError_eq_ok_iff.mp hc⟩
      | _ => cases hc
    · obtain ⟨record, hr, k, hk⟩ := ih hcs c hm
      exact ⟨record, List.mem_cons_of_mem d hr, k, hk⟩

theorem Records.unique {ds' : List Document} (h : Records d ds) (h' : Records d ds') : ds = ds' :=
  Document.list.inj (h.2.symm.trans h'.2)

/-- The components of a project are those of its records. -/
theorem readComponents_of_ofDocument {p : Project} (h : ofDocument d board = .ok p) :
    ∃ ds, Records d ds ∧ readComponents 1 ds = .ok p.components := by
  unfold ofDocument at h
  split at h
  · split at h
    · next ds hds =>
      obtain ⟨cs, hcs, h⟩ := bind_eq_ok_iff.mp h
      refine ⟨ds, ⟨⟨_, rfl⟩, hds⟩, ?_⟩
      dsimp only at h
      split at h
      · obtain ⟨b, -, h⟩ := bind_eq_ok_iff.mp h
        obtain rfl := pure_eq_ok_iff.mp h
        exact hcs
      · obtain rfl := pure_eq_ok_iff.mp h
        exact hcs
    · cases h
  · cases h

theorem readComponent_error (h : readComponent n d = .error e) :
    (∃ f, e = .project f) ∨ ∃ f, e = .component f := by
  cases d with
  | map es =>
    obtain ⟨f, -, rfl⟩ := mapError_eq_error_iff.mp h
    split
    · exact .inr ⟨f, rfl⟩
    · exact .inl ⟨_, rfl⟩
  | _ =>
    obtain rfl := Except.error.inj h
    exact .inl ⟨_, rfl⟩

theorem readComponent_eq_overflow_iff :
    readComponent n d = .error (.component fault) ↔ Component.Excessive d fault := by
  constructor
  · intro h
    cases d with
    | map es =>
      obtain ⟨f, hf, he⟩ := mapError_eq_error_iff.mp h
      split at he
      · next ho =>
        obtain rfl := Failure.component.inj he
        obtain ⟨hk, hx⟩ := Component.ofRecord_eq_overflow_iff.mp ⟨hf, ho⟩
        exact ⟨⟨es, rfl⟩, hk, hx⟩
      · cases he
    | _ => cases h
  · rintro ⟨⟨es, rfl⟩, hk, hx⟩
    obtain ⟨hf, ho⟩ := Component.ofRecord_eq_overflow_iff.mpr ⟨hk, hx⟩
    exact mapError_eq_error_iff.mpr ⟨fault, hf, if_pos ho⟩

theorem readComponents_error (h : readComponents n ds = .error e) :
    (∃ f, e = .project f) ∨ ∃ f, e = .component f := by
  induction ds generalizing n with
  | nil => cases h
  | cons d ds ih =>
    rw [readComponents_cons] at h
    rcases bind_eq_error_iff.mp h with h | ⟨c, -, h⟩
    · exact readComponent_error h
    · rcases bind_eq_error_iff.mp h with h | ⟨cs, -, h⟩
      · exact ih h
      · cases h

/-- The first record that cannot be read decides. -/
theorem readComponents_eq_overflow_iff : readComponents n ds = .error (.component fault) ↔
    ∃ before r after, ds = before ++ r :: after ∧ (∃ cs, readComponents n before = .ok cs) ∧
      Component.Excessive r fault := by
  -- Records are numbered from the first on, so the induction is over lists from any number.
  induction ds generalizing n with
  | nil => simp [readComponents]
  | cons d ds ih =>
    rw [readComponents_cons, bind_eq_error_iff, readComponent_eq_overflow_iff]
    constructor
    · rintro (hd | ⟨c, hc, h⟩)
      · exact ⟨[], d, ds, rfl, ⟨[], rfl⟩, hd⟩
      · rcases bind_eq_error_iff.mp h with h | ⟨cs, -, h⟩
        · obtain ⟨before, r, after, rfl, ⟨cs, hcs⟩, hr⟩ := ih.mp h
          refine ⟨d :: before, r, after, rfl, ⟨c :: cs, ?_⟩, hr⟩
          rw [readComponents_cons]
          exact bind_eq_ok_iff.mpr ⟨c, hc, bind_eq_ok_iff.mpr ⟨cs, hcs, rfl⟩⟩
        · cases h
    · rintro ⟨before, r, after, hb, ⟨cs, hcs⟩, hr⟩
      rcases List.cons_eq_append_iff.mp hb with ⟨rfl, hb⟩ | ⟨before, rfl, rfl⟩
      · exact .inl ((List.cons.inj hb).1 ▸ hr)
      · rw [readComponents_cons] at hcs
        obtain ⟨c, hc, hcs⟩ := bind_eq_ok_iff.mp hcs
        obtain ⟨cs, hcs, -⟩ := bind_eq_ok_iff.mp hcs
        exact .inr ⟨c, hc, bind_eq_error_iff.mpr
          (.inl (ih.mpr ⟨before, r, after, rfl, ⟨cs, hcs⟩, hr⟩))⟩

/-- What is refused is refused as no project or for its board, or it has records of components and
one of them cannot be read. -/
theorem ofDocument_error (h : ofDocument d board = .error e) :
    (∃ f, e = .project f) ∨ (∃ name, e = .unknownBoard name) ∨
      ∃ ds, Records d ds ∧ readComponents 1 ds = .error e := by
  unfold ofDocument at h
  split at h
  · split at h
    · next ds hds =>
      rcases bind_eq_error_iff.mp h with h | ⟨cs, -, h⟩
      · exact .inr (.inr ⟨ds, ⟨⟨_, rfl⟩, hds⟩, h⟩)
      · dsimp only at h
        split at h
        · rcases bind_eq_error_iff.mp h with h | ⟨b, -, h⟩
          · obtain ⟨name, -, rfl⟩ := mapError_eq_error_iff.mp h
            exact .inr (.inl ⟨name, rfl⟩)
          · cases h
        · cases h
    · obtain rfl := Except.error.inj h
      exact .inl ⟨_, rfl⟩
  · obtain rfl := Except.error.inj h
    exact .inl ⟨_, rfl⟩

theorem ofDocument_of_readComponents_error (hd : Records d ds)
    (h : readComponents 1 ds = .error e) : ofDocument d board = .error e := by
  obtain ⟨⟨es, rfl⟩, hds⟩ := hd
  simp only [ofDocument, hds, h]
  rfl

/-- A document is a project, or it is refused as none, or for its board, or for the amount of a
count. The last happens exactly if, after records that can all be read, there is one of a custom
part whose count is infinite, or exceeds the length of a list while no types of pins are given. -/
theorem ofDocument_refusals (d : Document) (board : Board) :
    (∀ e, ofDocument d board = .error e →
      (∃ f, e = .project f) ∨ (∃ name, e = .unknownBoard name) ∨ ∃ f, e = .component f) ∧
    ∀ f, ofDocument d board = .error (.component f) ↔
      ∃ before r after, Records d (before ++ r :: after) ∧
        (∃ cs, readComponents 1 before = .ok cs) ∧ Component.Excessive r f := by
  constructor
  · intro e he
    rcases ofDocument_error he with hp | hb | ⟨ds, -, hr⟩
    · exact .inl hp
    · exact .inr (.inl hb)
    · exact (readComponents_error hr).imp_right .inr
  · intro f
    constructor
    · intro h
      rcases ofDocument_error h with ⟨_, hp⟩ | ⟨_, hb⟩ | ⟨ds, hd, hr⟩
      · cases hp
      · cases hb
      · obtain ⟨before, r, after, rfl, hb, hr⟩ := readComponents_eq_overflow_iff.mp hr
        exact ⟨before, r, after, hd, hb, hr⟩
    · rintro ⟨before, r, after, hd, hb, hr⟩
      exact ofDocument_of_readComponents_error hd
        (readComponents_eq_overflow_iff.mpr ⟨before, r, after, rfl, hb, hr⟩)

/-- The document of a project with one custom part of the given count. -/
def counting (count : Document) : Document :=
  .object [("components", .list [.object [("type", .text "custom"), ("customPinCount", count)]])]

/-- A count that is no number makes a document no project, but neither an infinite count nor one
that is too large for a list does. -/
theorem ofDocument_escapes :
    ofDocument (counting (.float .nan)) .uno = .error (.project (.component 1 .countIsNan)) ∧
    ofDocument (counting (.float (.infinity false))) .uno = .error (.component .countIsInfinite) ∧
    ofDocument (counting (.int 9223372036854775808)) .uno =
      .error (.component .countOutOfRange) := ⟨rfl, rfl, rfl⟩

end Project

end BlockSketch
