import BlockSketch.Component.Record
import BlockSketch.Proofs.Outcome
import Mathlib.Data.List.DropRight

/-! # Records of components

A component that was read from some record is read again from its own record, up to one thing: a
count of pins that came out as zero is taken as missing the second time. Every other field is such
that its default does not apply to it.
-/

namespace BlockSketch

/-! ## Trimmed texts -/

namespace Text

theorem trimRight_eq_rdropWhile (s : List Char) : trimRight s = s.rdropWhile isBlank := rfl

theorem trimLeft_eq_self {s : List Char} (h : ∀ c ∈ s.head?, isBlank c = false) :
    trimLeft s = s := by
  cases s with
  | nil => rfl
  | cons c s =>
    have hc : isBlank c = false := h c rfl
    exact List.dropWhile_cons_of_neg (by simp [hc])

theorem trim_trim (s : List Char) : trim (trim s) = trim s := by
  have hp : trim s <+: trimLeft s := by
    rw [trim, trimRight_eq_rdropWhile]
    exact List.rdropWhile_prefix isBlank (trimLeft s)
  have hl : trimLeft (trim s) = trim s := by
    refine trimLeft_eq_self fun c hc => head?_trimLeft s c ?_
    obtain ⟨t, ht⟩ := hp
    rw [← ht]
    simp [List.head?_append, Option.mem_def.mp hc]
  rw [trim, hl, trim, trimRight_eq_rdropWhile, trimRight_eq_rdropWhile]
  exact List.rdropWhile_idempotent isBlank (trimLeft s)

theorem strip_strip (s : String) : strip (strip s) = strip s := by
  rw [strip, strip, String.toList_ofList, trim_trim]

/-- Nothing blank is left at the end. -/
theorem getLast?_trim (s : List Char) : ∀ c ∈ (trim s).getLast?, isBlank c = false := by
  intro c hc
  obtain ⟨hn, rfl⟩ := List.mem_getLast?_eq_getLast hc
  exact (Bool.not_eq_true _).mp (List.rdropWhile_last_not isBlank (trimLeft s) hn)

theorem forall_of_trim_eq_nil {s : List Char} (h : trim s = []) : ∀ c ∈ s, isBlank c = true := by
  have hl : ∀ c ∈ trimLeft s, isBlank c = true := List.rdropWhile_eq_nil_iff.mp h
  refine List.dropWhile_eq_nil_iff.mp ?_
  cases ht : trimLeft s with
  | nil => exact ht
  | cons c t =>
    have hb := hl c (by simp [ht])
    rw [head?_trimLeft s c (by simp [ht])] at hb
    cases hb

theorem isEmpty_strip {s : String} (h : isBlankText s = false) : (strip s).isEmpty = false := by
  rw [← Bool.not_eq_true, String.isEmpty_iff]
  intro hs
  have hb : isBlankText s = true :=
    List.all_eq_true.mpr (forall_of_trim_eq_nil (by simpa [strip] using hs))
  exact absurd (h.symm.trans hb) (by decide)

end Text

/-! ## Texts of values -/

theorem ofList_ne_empty {s : List Char} (h : s ≠ []) : String.ofList s ≠ "" := by
  rintro he
  exact h (by rw [← String.toList_ofList (l := s), he]; rfl)

theorem append_ne_empty_of_right {s t : String} (h : t ≠ "") : s ++ t ≠ "" := by
  rw [Ne, String.append_eq_empty_iff]
  exact fun he => h he.2

theorem append_ne_empty_of_left {s t : String} (h : s ≠ "") : s ++ t ≠ "" := by
  rw [Ne, String.append_eq_empty_iff]
  exact fun he => h he.1

theorem repr_ne_empty (n : Nat) : n.repr ≠ "" := by
  rw [Nat.repr]
  exact ofList_ne_empty Nat.toDigits_ne_nil

theorem toString_int_ne_empty (n : Int) : toString n ≠ "" := by
  rw [Int.toString_eq_repr, Int.repr_eq_if]
  split
  · exact repr_ne_empty _
  · exact append_ne_empty_of_right (repr_ne_empty _)

theorem Date.text_ne_empty (d : Date) : d.text ≠ "" :=
  append_ne_empty_of_left (append_ne_empty_of_right (by decide))

theorem Double.Decimal.text_ne_nil (d : Double.Decimal) : d.text ≠ [] := by
  simp only [Double.Decimal.text]
  split
  · simp
  · split
    · split <;> simp
    · simp

theorem Double.text_ne_empty (x : Double) : x.text ≠ "" := by
  cases x with
  | nan => decide
  | infinity negative => cases negative <;> decide
  | finite negative m e =>
    rw [Double.text]
    refine ofList_ne_empty ?_
    by_cases hm : m = 0
    · cases negative <;> simp [hm]
    · cases negative <;> simp [hm, Double.Decimal.text_ne_nil]

/-- A value that counts as present is shown as some text. -/
theorem Document.shown_ne_empty {d : Document} (h : d.truthy = true) : d.shown ≠ "" := by
  cases d with
  | null => cases h
  | bool b => cases b <;> decide
  | int n =>
    simp only [shown, literal, String.ofList_toList]
    exact toString_int_ne_empty n
  | float x =>
    simp only [shown, literal, String.ofList_toList]
    exact x.text_ne_empty
  | text s => simpa [truthy] using h
  | date d => exact d.text_ne_empty
  | instant t =>
    simp only [shown, Instant.text]
    exact append_ne_empty_of_left (append_ne_empty_of_left (append_ne_empty_of_right (by decide)))
  | bytes b => simp [shown, literal, bytesLiteral]
  | list xs => simp [shown, literal]
  | map es => simp [shown, literal]
  | row xs =>
    rcases xs with _ | ⟨x, _ | ⟨y, xs⟩⟩ <;> simp [shown, literal]
  | keys xs => cases xs <;> simp [shown, literal]
  | again m => cases m <;> decide

theorem Document.shown_orElse_ne_empty {d e : Document} (h : e.truthy = true) :
    (d.orElse e).shown ≠ "" := by
  unfold orElse
  split
  · next hd => exact shown_ne_empty hd
  · exact shown_ne_empty h

theorem Document.truthy_text {s : String} (h : s ≠ "") : (text s).truthy = true := by
  simpa [truthy] using h

theorem Document.orElse_text {s : String} (h : s ≠ "") (d : Document) :
    (text s).orElse d = text s := if_pos (truthy_text h)

/-! ## Documents that are the same -/

namespace Document

mutual

/-- Whether both are the same nesting of mappings, texts and whole numbers. -/
def same : Document → Document → Bool
  | text s, text t => s == t
  | int m, int n => m == n
  | map es, map fs => sameEntries es fs
  | _, _ => false

def sameEntries : List (Document × Document) → List (Document × Document) → Bool
  | [], [] => true
  | (k, v) :: es, (l, w) :: fs => same k l && same v w && sameEntries es fs
  | _, _ => false

end

mutual

theorem eq_of_same : ∀ {d e : Document}, same d e = true → d = e
  | text s, text t, h => by
    rw [same, beq_iff_eq] at h
    rw [h]
  | int m, int n, h => by
    rw [same, beq_iff_eq] at h
    rw [h]
  | map es, map fs, h => by
    rw [same] at h
    rw [eq_of_sameEntries h]

theorem eq_of_sameEntries :
    ∀ {es fs : List (Document × Document)}, sameEntries es fs = true → es = fs
  | [], [], _ => rfl
  | (k, v) :: es, (l, w) :: fs, h => by
    rw [sameEntries, Bool.and_eq_true, Bool.and_eq_true] at h
    rw [eq_of_same h.1.1, eq_of_same h.1.2, eq_of_sameEntries h.2]

end

end Document

/-! ## Custom parts -/

namespace CustomPart

variable {record : Document} {p : CustomPart}

/-- No default applies to a field of the part, except to a count of zero. -/
structure Settled (p : CustomPart) : Prop where
  name : p.name ≠ ""
  types : p.pinTypes = [] → digitalPins p.pinCount = .ok []
  blocks : p.blocks ≠ []
  stripped : ∀ s ∈ p.blocks, s ≠ "" ∧ Text.strip s = s
  category : p.category ≠ ""

theorem readPinTypes_eq_ok {count : Int} {ts : List PinType}
    (h : readPinTypes record count = .ok ts) (hn : ts = []) : digitalPins count = .ok [] := by
  subst hn
  simp only [readPinTypes, bind_eq_ok_iff] at h
  obtain ⟨listed, -, ts, -, h⟩ := h
  cases ts with
  | nil => exact h
  | cons t ts => cases h

theorem mem_of_readBlocks {named : List String} (h : readBlocks record = .ok named) {s : String}
    (hs : s ∈ named) : s ≠ "" ∧ Text.strip s = s := by
  simp only [readBlocks, bind_eq_ok_iff, pure_eq_ok_iff] at h
  obtain ⟨listed, -, rfl⟩ := h
  obtain ⟨hm, hn⟩ := List.mem_filter.mp hs
  obtain ⟨d, -, rfl⟩ := List.mem_map.mp hm
  exact ⟨by simpa using hn, Text.strip_strip d.shown⟩

theorem settled_of_ofRecord (h : ofRecord record = .ok p) : p.Settled := by
  simp only [ofRecord, bind_eq_ok_iff, pure_eq_ok_iff] at h
  obtain ⟨count, -, types, ht, named, hb, rfl⟩ := h
  have default : ∀ s ∈ defaultBlocks, s ≠ "" ∧ Text.strip s = s := by decide
  refine ⟨?_, readPinTypes_eq_ok ht, ?_, ?_, Document.shown_orElse_ne_empty rfl⟩
  · refine Document.shown_orElse_ne_empty ?_
    unfold Document.orElse
    split
    · assumption
    · rfl
  · dsimp only
    split
    · decide
    · next hn => simpa using hn
  · dsimp only
    split
    · exact default
    · exact fun s hs => mem_of_readBlocks hb hs

/-- The part that is read from the record of a part. A count of zero is taken as missing, and then so
is an empty list of pin types. -/
def reloaded (p : CustomPart) : CustomPart :=
  { p with
    pinCount := if p.pinCount = 0 then 1 else p.pinCount
    pinTypes := if p.pinCount = 0 ∧ p.pinTypes = [] then [.digital] else p.pinTypes }

theorem reloaded_eq_self_iff : p.reloaded = p ↔ p.pinCount ≠ 0 := by
  constructor
  · intro h h0
    have hc := congrArg pinCount h
    simp [reloaded, h0] at hc
  · intro h0
    simp [reloaded, h0]

/-- The fields of a record are those of the part. -/
structure Recorded (record : Document) (p : CustomPart) : Prop where
  name : record.get "customName" = .text p.name
  count : record.get "customPinCount" = .int p.pinCount
  types : record.get "customPinTypes" = .list (p.pinTypes.map fun t => .text t.id)
  blocks : record.get "customBlocks" = .list (p.blocks.map .text)
  category : record.get "customCategory" = .text p.category

theorem mapM_pinType (ts : List PinType) :
    (ts.map fun t => Document.text t.id).mapM pinType = .ok ts := by
  rw [mapM_eq_ok_iff, List.forall₂_map_left_iff, List.forall₂_same]
  intro t _
  simp [pinType]

theorem readPinTypes_of_recorded (h : Recorded record p) (count : Int) :
    readPinTypes record count =
      if p.pinTypes = [] then digitalPins count else .ok p.pinTypes := by
  rw [readPinTypes, h.types]
  have hm := mapM_pinType p.pinTypes
  cases hts : p.pinTypes with
  | nil => rfl
  | cons t ts =>
    rw [hts] at hm
    have hi : ((Document.list ((t :: ts).map fun t => .text t.id)).orElse (.list [])).items =
        .ok ((t :: ts).map fun t => .text t.id) := rfl
    rw [if_neg (List.cons_ne_nil t ts), bind_eq_ok_iff]
    exact ⟨_, hi, bind_eq_ok_iff.mpr ⟨_, hm, rfl⟩⟩

theorem readBlocks_of_recorded (h : Recorded record p) (hp : p.Settled) :
    readBlocks record = .ok p.blocks := by
  have hi : ((Document.list (p.blocks.map .text)).orElse (.list [])).items =
      .ok (p.blocks.map .text) := by
    rw [Document.orElse, if_pos (by simp [Document.truthy, hp.blocks])]
    rfl
  have hm : (p.blocks.map Document.text).map (fun d => Text.strip d.shown) = p.blocks := by
    rw [List.map_map]
    exact (List.map_congr_left fun s hs => (hp.stripped s hs).2).trans p.blocks.map_id
  have hf : p.blocks.filter (!·.isEmpty) = p.blocks :=
    List.filter_eq_self.mpr fun s hs => by simpa using (hp.stripped s hs).1
  rw [readBlocks, h.blocks, bind_eq_ok_iff]
  exact ⟨_, hi, by rw [hm, hf]; rfl⟩

theorem toInt_orElse_one (n : Int) :
    ((Document.int n).orElse (.int 1)).toInt = .ok (if n = 0 then 1 else n) := by
  by_cases hn : n = 0
  · subst hn
    rfl
  · simp [Document.orElse, Document.truthy, Document.toInt, hn]

theorem ofRecord_of_recorded (h : Recorded record p) (hp : p.Settled) :
    ofRecord record = .ok p.reloaded := by
  have hc (t : Document) : ((record.get "customCategory").orElse t).shown = p.category := by
    rw [h.category, Document.orElse_text hp.category, Document.shown_text]
  have hn (t : Document) : ((record.get "customName").orElse t).shown = p.name := by
    rw [h.name, Document.orElse_text hp.name, Document.shown_text]
  have hb : p.blocks.isEmpty = false := by simpa using hp.blocks
  have ht : readPinTypes record (if p.pinCount = 0 then 1 else p.pinCount) =
      .ok p.reloaded.pinTypes := by
    rw [readPinTypes_of_recorded h, reloaded]
    by_cases he : p.pinTypes = []
    · by_cases h0 : p.pinCount = 0
      · simp only [he, h0, if_true, and_self]
        rfl
      · simp only [he, h0, if_true, if_false, false_and]
        exact hp.types he
    · simp [he]
  rw [ofRecord, h.count, toInt_orElse_one, bind_eq_ok_iff]
  refine ⟨_, rfl, bind_eq_ok_iff.mpr ⟨_, ht,
    bind_eq_ok_iff.mpr ⟨_, readBlocks_of_recorded h hp, ?_⟩⟩⟩
  rw [pure_eq_ok_iff, hn, hc, hb]
  rfl

end CustomPart

/-! ## Components -/

namespace Component

variable {record : Document} {fallback : String} {c : Component}

/-- No default applies to a field of the component, except to a count of zero. -/
structure Settled (c : Component) : Prop where
  id : c.id ≠ ""
  label : ∀ d ∈ c.label, d.truthy = true
  known : ∀ k, c.kind = .known k → k ≠ customKind
  custom : ∀ p, c.kind = .custom p → p.Settled

theorem fields_of_ofRecord (h : ofRecord record fallback = .ok c) :
    c.id = ((record.get "id").orElse (.text fallback)).shown ∧
      c.label = if (record.get "label").truthy then some (record.get "label") else none := by
  unfold ofRecord at h
  dsimp only at h
  split at h
  · obtain ⟨p, -, hc⟩ := bind_eq_ok_iff.mp h
    obtain rfl := pure_eq_ok_iff.mp hc
    exact ⟨rfl, rfl⟩
  · obtain rfl := pure_eq_ok_iff.mp h
    exact ⟨rfl, rfl⟩

theorem settled_of_ofRecord (hf : fallback ≠ "") (h : ofRecord record fallback = .ok c) :
    c.Settled := by
  have hid : ((record.get "id").orElse (.text fallback)).shown ≠ "" :=
    Document.shown_orElse_ne_empty (Document.truthy_text hf)
  have hlabel : ∀ d ∈ (if (record.get "label").truthy then some (record.get "label") else none),
      d.truthy = true := by
    intro d hd
    obtain ⟨ht, hd⟩ := Option.ite_none_right_eq_some.mp hd
    rwa [← Option.some.inj hd]
  unfold ofRecord at h
  dsimp only at h
  split at h
  · obtain ⟨p, hp, hc⟩ := bind_eq_ok_iff.mp h
    obtain rfl := pure_eq_ok_iff.mp hc
    refine ⟨hid, hlabel, nofun, ?_⟩
    rintro q ⟨⟩
    exact CustomPart.settled_of_ofRecord hp
  · next hk =>
    obtain rfl := pure_eq_ok_iff.mp h
    refine ⟨hid, hlabel, ?_, nofun⟩
    rintro k ⟨⟩
    exact hk

/-- The component that is read from the record of a component. -/
def reloaded (c : Component) : Component :=
  match c.kind with
  | .known _ => c
  | .custom p => { c with kind := .custom p.reloaded }

theorem reloaded_eq_self_iff :
    c.reloaded = c ↔ ∀ p, c.kind = .custom p → p.pinCount ≠ 0 := by
  obtain ⟨id, kind, pins, label⟩ := c
  cases kind with
  | known k => simp [reloaded]
  | custom p => simp [reloaded, CustomPart.reloaded_eq_self_iff]

theorem recorded_toRecord {p : CustomPart} (hc : c.kind = .custom p) :
    CustomPart.Recorded c.toRecord p := by
  obtain ⟨id, kind, pins, label⟩ := c
  obtain rfl : kind = .custom p := hc
  cases label <;>
    constructor <;> simp [toRecord, Document.get, Document.get?_object_cons]

theorem get_label_toRecord (c : Component) :
    c.toRecord.get "label" = c.label.getD .null := by
  obtain ⟨id, kind, pins, label⟩ := c
  cases label <;> cases kind <;> simp [toRecord, Document.get, Document.get?_object_cons]

theorem label_of_toRecord (h : c.Settled) : (if (c.toRecord.get "label").truthy then
    some (c.toRecord.get "label") else none) = c.label := by
  rw [get_label_toRecord]
  cases hl : c.label with
  | none => rfl
  | some d => exact if_pos (h.label d hl)

/-- A component is read from its record as it is, whatever its place, up to a count of zero. -/
theorem ofRecord_toRecord (h : c.Settled) : ofRecord c.toRecord fallback = .ok c.reloaded := by
  have hid : c.toRecord.get "id" = .text c.id := rfl
  have htype : c.toRecord.get "type" = .text c.kindName := rfl
  have hpins : c.toRecord.get "pins" = .text c.pins := rfl
  have hkind : ((Document.text c.kindName).orElse (.text "")).shown = c.kindName := by
    by_cases hn : c.kindName = ""
    · rw [hn]
      rfl
    · rw [Document.orElse_text hn, Document.shown_text]
  simp only [ofRecord, hid, htype, hpins, hkind, label_of_toRecord h, Document.orElse_text h.id,
    Document.shown_text]
  cases hk : c.kind with
  | known k =>
    have hn : c.kindName = k := by rw [kindName, hk]
    have hc : c = { c with kind := .known k } := by rw [← hk]
    rw [hn, if_neg (h.known k hk), reloaded, hk, pure_eq_ok_iff]
    exact hc.symm
  | custom p =>
    have hn : c.kindName = customKind := by rw [kindName, hk]
    rw [if_pos hn, bind_eq_ok_iff, reloaded, hk]
    exact ⟨_, CustomPart.ofRecord_of_recorded (recorded_toRecord hk) (h.custom p hk), rfl⟩

end Component

end BlockSketch
