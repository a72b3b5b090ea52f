import BlockSketch.Proofs.Refusals
import BlockSketch.Service.Task

/-! # Components in requests

A service checks the records of components before it reads them: it drops the fields that are `null`
and fills in texts that are missing. For records whose fields are of the declared kinds this makes no
difference, so a service and a reader of project files end in the same way.
-/

namespace BlockSketch

namespace Document

variable {d : Document} {key : String} {xs ys : List (String × Document)}

theorem get?_object_append :
    (object (xs ++ ys)).get? key = ((object xs).get? key).or ((object ys).get? key) := by
  induction xs with
  | nil => rfl
  | cons x xs ih =>
    obtain ⟨k, v⟩ := x
    rw [List.cons_append, get?_object_cons, get?_object_cons]
    split
    · rfl
    · exact ih

theorem get_of_get? {v : Document} (h : d.get? key = some v) : d.get key = v := by
  rw [get, h]
  rfl

theorem get_of_none (h : d.get? key = none) : d.get key = .null := by
  rw [get, h]
  rfl

/-- The field of a mapping, unless it is missing or `null`. -/
def present (d : Document) (key : String) : List (String × Document) :=
  match d.get key with
  | .null => []
  | v => [(key, v)]

theorem present_of_null (h : d.get key = .null) : d.present key = [] := by
  rw [present, h]

theorem present_of_ne_null (h : d.get key ≠ .null) : d.present key = [(key, d.get key)] := by
  rw [present]
  split
  · next hn => exact absurd hn h
  · rfl

theorem get_present (key : String) : (object (d.present key)).get key = d.get key := by
  by_cases h : d.get key = .null
  · rw [present_of_null h, h]
    rfl
  · rw [present_of_ne_null h, get, get?_object_cons, if_pos rfl]
    rfl

theorem get?_present_of_ne {k : String} (hk : k ≠ key) :
    (object (d.present k)).get? key = none := by
  by_cases h : d.get k = .null
  · rw [present_of_null h]
    rfl
  · rw [present_of_ne_null h, get?_object_cons, if_neg hk]
    rfl

theorem lookup_eq_none {es : List (Document × Document)} (h : ∀ e ∈ es, e.1 ≠ .text key) :
    lookup key es = none := by
  induction es with
  | nil => rfl
  | cons e es ih =>
    obtain ⟨k, v⟩ := e
    obtain ⟨hk, hes⟩ := List.forall_mem_cons.mp h
    have hn : ¬ k.isKey key = true := by
      intro hi
      cases k with
      | text s =>
        obtain rfl : s = key := by simpa [isKey] using hi
        exact hk rfl
      | _ => cases hi
    rw [lookup, if_neg hn, ih hes]

end Document

namespace Service

/-! ## Declared records -/

/-- The names of the fields of a component. -/
def fieldNames : List String :=
  ["id", "type", "pins", "label", "customName", "customPinCount", "customPinTypes", "customBlocks",
    "customCategory"]

def IsText (d : Document) : Prop := ∃ s, d = .text s

def IsInteger (d : Document) : Prop := ∃ n, d = .int n

def IsTexts (d : Document) : Prop := ∃ ts, d = .texts ts

/-- A record of a component that has fields of the declared names only, each with a value of the
declared kind. The kind of component must be given; the optional fields can be `null`. -/
structure Declared (d : Document) : Prop where
  mapping : ∃ es, d = .map es ∧ ∀ e ∈ es, ∃ name ∈ fieldNames, e.1 = .text name
  id : ∀ v ∈ d.get? "id", IsText v
  type : ∃ s, d.get? "type" = some (.text s)
  pins : ∀ v ∈ d.get? "pins", IsText v
  label : ∀ v ∈ d.get? "label", v = .null ∨ IsText v
  name : ∀ v ∈ d.get? "customName", v = .null ∨ IsText v
  count : ∀ v ∈ d.get? "customPinCount", v = .null ∨ IsInteger v
  types : ∀ v ∈ d.get? "customPinTypes", v = .null ∨ IsTexts v
  blocks : ∀ v ∈ d.get? "customBlocks", v = .null ∨ IsTexts v
  category : ∀ v ∈ d.get? "customCategory", v = .null ∨ IsText v

variable {d : Document} {ds : List Document} {key second : String} {place : List PathStep} {n : Nat}
  {fallback : String} {fault : ComponentFault}

theorem Declared.get?_eq_none (h : Declared d) (hk : key ∉ fieldNames) : d.get? key = none := by
  obtain ⟨es, rfl, hes⟩ := h.mapping
  refine Document.lookup_eq_none fun e he hek => ?_
  obtain ⟨name, hn, hen⟩ := hes e he
  rw [hek, Document.text.injEq] at hen
  exact hk (hen ▸ hn)

/-- The record that a service makes of a declared one. -/
def normalised (d : Document) : Document :=
  .object ([("id", (d.get? "id").getD (.text "")), ("type", d.get "type"),
    ("pins", (d.get? "pins").getD (.text ""))] ++ (d.present "label" ++ (d.present "customName" ++
    (d.present "customPinCount" ++ (d.present "customPinTypes" ++ (d.present "customBlocks" ++
    (d.present "customCategory" ++ [])))))))

/-! ## What the service makes of a record -/

theorem textEntry_eq (h : ∀ v ∈ d.get? key, IsText v) :
    Reader.textEntry key place d = .ok [(key, (d.get? key).getD (.text ""))] := by
  unfold Reader.textEntry defaulted firstOf
  cases hd : d.get? key with
  | none => rfl
  | some v =>
    obtain ⟨s, rfl⟩ := h v hd
    rfl

theorem required_eq (h : ∃ s, d.get? key = some (.text s)) :
    required (Reader.entry Reader.text .text key) key place d = .ok [(key, d.get key)] := by
  obtain ⟨s, hs⟩ := h
  rw [Document.get_of_get? hs]
  unfold required
  rw [hs]
  rfl

/-- An optional field keeps a value that its reader keeps. -/
theorem optionalEntry_eq {α : Type} {reader : Reader α} {write : α → Document} {keys : List String}
    {P : Document → Prop} (hk : ∀ k ∈ keys, d.get? k = none)
    (hr : ∀ place v, P v → v ≠ .null ∧ ∃ a, reader place v = .ok a ∧ write a = v)
    (h : ∀ v ∈ d.get? key, v = .null ∨ P v) :
    Reader.optionalEntry reader write (key :: keys) place d = .ok (d.present key) := by
  have later : firstOf d keys = none := by
    induction keys with
    | nil => rfl
    | cons k ks ih =>
      obtain ⟨hk, hks⟩ := List.forall_mem_cons.mp hk
      rw [firstOf, hk, ih hks]
  unfold Reader.optionalEntry defaulted
  rw [firstOf]
  cases hd : d.get? key with
  | none =>
    rw [Document.present_of_null (Document.get_of_none hd), later]
  | some v =>
    have hv := Document.get_of_get? hd
    rcases h v hd with rfl | hp
    · rw [Document.present_of_null hv]
      rfl
    · obtain ⟨hn, a, ha, rfl⟩ := hr (place ++ [.field key]) v hp
      rw [Document.present_of_ne_null (by rwa [hv]), hv]
      have ho : Reader.optional reader (place ++ [.field key]) (write a) = .ok (some a) := by
        unfold Reader.optional
        split
        · next hw => exact absurd hw hn
        · rw [ha]
          rfl
      simp only [ho]
      rfl

theorem text_keeps (place : List PathStep) (v : Document) (h : IsText v) :
    v ≠ .null ∧ ∃ s, Reader.text place v = .ok s ∧ .text s = v := by
  obtain ⟨s, rfl⟩ := h
  exact ⟨by simp, s, rfl, rfl⟩

theorem integer_keeps (place : List PathStep) (v : Document) (h : IsInteger v) :
    v ≠ .null ∧ ∃ n, Reader.integer place v = .ok n ∧ .int n = v := by
  obtain ⟨n, rfl⟩ := h
  exact ⟨by simp, n, rfl, rfl⟩

theorem all_mapIdx {α β : Type} {f : Nat → α → Checked β} {g : α → β} {xs : List α}
    (h : ∀ i, ∀ x ∈ xs, f i x = .ok (g x)) : Checked.all (xs.mapIdx f) = .ok (xs.map g) := by
  induction xs generalizing f with
  | nil => rfl
  | cons x xs ih =>
    rw [List.mapIdx_cons, Checked.all, h 0 x List.mem_cons_self,
      ih fun i y hy => h (i + 1) y (List.mem_cons_of_mem _ hy)]
    rfl

theorem texts_keeps (place : List PathStep) (v : Document) (h : IsTexts v) :
    v ≠ .null ∧ ∃ ts, Reader.list Reader.text place v = .ok ts ∧ .texts ts = v := by
  obtain ⟨ts, rfl⟩ := h
  refine ⟨by simp [Document.texts], ts, ?_, rfl⟩
  have each : ∀ i, ∀ x ∈ ts.map Document.text,
      Reader.text (place ++ [.position i]) x = .ok x.shown := by
    intro i x hx
    obtain ⟨s, -, rfl⟩ := List.mem_map.mp hx
    rfl
  have shown : (ts.map Document.text).map Document.shown = ts := by
    rw [List.map_map]
    exact List.map_id ts
  rw [Document.texts, Reader.list, all_mapIdx each, shown]

/-- A service accepts a declared record. -/
theorem component_eq (h : Declared d) : Reader.component place d = .ok (normalised d) := by
  -- None of the second names is the name of a field.
  have second (second : String) (hk : second ∉ fieldNames) : ∀ k ∈ [second], d.get? k = none := by
    rintro k (_ | ⟨_, ⟨⟩⟩)
    exact h.get?_eq_none hk
  have only : ∀ k ∈ ([] : List String), d.get? k = none := nofun
  have fields : (Reader.componentFields.map fun field => field place d) =
      [[("id", (d.get? "id").getD (.text ""))], [("type", d.get "type")],
        [("pins", (d.get? "pins").getD (.text ""))], d.present "label", d.present "customName",
        d.present "customPinCount", d.present "customPinTypes", d.present "customBlocks",
        d.present "customCategory"].map Checked.ok := by
    simp only [Reader.componentFields, List.map_cons, List.map_nil, textEntry_eq h.id,
      required_eq h.type, textEntry_eq h.pins, optionalEntry_eq only text_keeps h.label,
      optionalEntry_eq (second "custom_name" (by decide)) text_keeps h.name,
      optionalEntry_eq (second "custom_pin_count" (by decide)) integer_keeps h.count,
      optionalEntry_eq (second "custom_pin_types" (by decide)) texts_keeps h.types,
      optionalEntry_eq (second "custom_blocks" (by decide)) texts_keeps h.blocks,
      optionalEntry_eq (second "custom_category" (by decide)) text_keeps h.category]
  obtain ⟨es, rfl, -⟩ := h.mapping
  rw [Reader.component, mapping, fields]
  rfl

theorem components_eq (h : ∀ d ∈ ds, Declared d) :
    Reader.components place (.object [("components", .list ds)]) = .ok (ds.map normalised) := by
  have each : ∀ i, ∀ d ∈ ds, Reader.component (place ++ [.field "components"] ++ [.position i]) d =
      .ok (normalised d) := fun _ d hd => component_eq (h d hd)
  exact all_mapIdx each

/-! ## What is read from it -/

theorem get_normalised (key : String) (hk : key ∈ fieldNames) (hi : key ≠ "id")
    (hp : key ≠ "pins") : (normalised d).get key = d.get key := by
  simp only [fieldNames, List.mem_cons, List.not_mem_nil, or_false] at hk
  rcases hk with rfl | rfl | rfl | rfl | rfl | rfl | rfl | rfl | rfl
  · exact absurd rfl hi
  · rfl
  · exact absurd rfl hp
  all_goals
    rw [Document.get, normalised]
    simp [Document.get?_object_append, Document.get?_object_cons, Document.get?_present_of_ne]
    exact Document.get_present _

/-- An empty identifier counts as none. -/
theorem orElse_id_normalised (e : Document) :
    ((normalised d).get "id").orElse e = (d.get "id").orElse e := by
  have hn : (normalised d).get "id" = (d.get? "id").getD (.text "") := rfl
  rw [hn, Document.get]
  cases d.get? "id" <;> rfl

theorem customPart_normalised :
    CustomPart.ofRecord (normalised d) = CustomPart.ofRecord d := by
  unfold CustomPart.ofRecord CustomPart.readPinTypes CustomPart.readBlocks
  repeat rw [get_normalised _ (by decide) (by decide) (by decide)]

theorem ofRecord_normalised :
    Component.ofRecord (normalised d) fallback = Component.ofRecord d fallback := by
  -- Pins that are not given are empty.
  have given : (normalised d).get "pins" = (d.get? "pins").getD (.text "") := rfl
  have raw : d.get "pins" = (d.get? "pins").getD .null := rfl
  unfold Component.ofRecord
  rw [orElse_id_normalised, customPart_normalised,
    get_normalised "type" (by decide) (by decide) (by decide),
    get_normalised "label" (by decide) (by decide) (by decide), given, raw]
  cases d.get? "pins" <;> rfl

/-! ## Reading them -/

theorem toInt_of_integer (h : ∀ v ∈ d.get? key, v = .null ∨ IsInteger v) :
    ∃ m, ((d.get key).orElse (.int 1)).toInt = .ok m := by
  rw [Document.get]
  cases hd : d.get? key with
  | none => exact ⟨1, rfl⟩
  | some v =>
    rcases h v hd with rfl | ⟨m, rfl⟩
    · exact ⟨1, rfl⟩
    · rw [Option.getD_some, Document.orElse]
      split
      · exact ⟨m, rfl⟩
      · exact ⟨1, rfl⟩

theorem items_of_texts (h : ∀ v ∈ d.get? key, v = .null ∨ IsTexts v) :
    ∃ items, ((d.get key).orElse (.list [])).items = .ok items := by
  rw [Document.get]
  cases hd : d.get? key with
  | none => exact ⟨[], rfl⟩
  | some v =>
    rcases h v hd with rfl | ⟨ts, rfl⟩
    · exact ⟨[], rfl⟩
    · rw [Option.getD_some, Document.orElse]
      split
      · exact ⟨ts.map .text, rfl⟩
      · exact ⟨[], rfl⟩

theorem not_mismatch_pinType {v : Document} (h : CustomPart.pinType v = .error fault) :
    fault.isKindMismatch = false := by
  unfold CustomPart.pinType at h
  split at h
  · cases h
  · obtain rfl := Except.error.inj h
    rfl

theorem not_mismatch_readPinTypes {count : Int} {items : List Document}
    (hi : ((d.get "customPinTypes").orElse (.list [])).items = .ok items)
    (h : CustomPart.readPinTypes d count = .error fault) : fault.isKindMismatch = false := by
  rw [CustomPart.readPinTypes, hi] at h
  rcases bind_eq_error_iff.mp h with h | ⟨listed, -, h⟩
  · cases h
  rcases bind_eq_error_iff.mp h with h | ⟨types, -, h⟩
  · obtain ⟨v, -, hv⟩ := exists_error_of_mapM h
    exact not_mismatch_pinType hv
  · cases types with
    | nil =>
      rcases CustomPart.digitalPins_eq_error_iff.mp h with ⟨rfl, -⟩ | ⟨rfl, -⟩
      · rfl
      · rfl
    | cons t ts => cases h

/-- A fault in a declared record is never a value of the wrong kind. -/
theorem Declared.not_mismatch (h : Declared d) (hf : Component.ofRecord d fallback = .error fault) :
    fault.isKindMismatch = false := by
  obtain ⟨-, hf⟩ := Component.ofRecord_eq_error_iff.mp hf
  obtain ⟨m, hm⟩ := toInt_of_integer h.count
  obtain ⟨types, ht⟩ := items_of_texts h.types
  obtain ⟨blocks, hb⟩ := items_of_texts h.blocks
  rcases bind_eq_error_iff.mp hf with hf | ⟨count, -, hf⟩
  · cases hm.symm.trans hf
  rcases bind_eq_error_iff.mp hf with hf | ⟨_, -, hf⟩
  · exact not_mismatch_readPinTypes ht hf
  rcases bind_eq_error_iff.mp hf with hf | ⟨_, -, hf⟩
  · rcases bind_eq_error_iff.mp hf with hf | ⟨_, -, hf⟩
    · cases hb.symm.trans hf
    · cases hf
  · cases hf

theorem readComponents_eq (h : ∀ d ∈ ds, Declared d) :
    readComponents n (ds.map normalised) = Project.readComponents n ds := by
  -- Records are numbered from the first on, so the induction is over lists from any number.
  induction ds generalizing n with
  | nil => rfl
  | cons d ds ih =>
    obtain ⟨hd, hds⟩ := List.forall_mem_cons.mp h
    obtain ⟨es, rfl, -⟩ := hd.mapping
    rw [List.map_cons, readComponents, Project.readComponents, ofRecord_normalised, ih hds]
    cases hc : Component.ofRecord (.map es) (toString n) with
    | ok c => rfl
    | error fault =>
      dsimp only
      rw [hd.not_mismatch hc, Bool.or_false]

/-- A document with components alone is read if they are. -/
theorem ofDocument_components (board : Board) :
    (Project.ofDocument (.object [("components", .list ds)]) board).map Project.components =
      Project.readComponents 1 ds := by
  have hd : Project.Records (.object [("components", .list ds)]) ds := by
    refine ⟨⟨_, rfl⟩, ?_⟩
    cases ds <;> rfl
  cases hc : Project.readComponents 1 ds with
  | error e =>
    rw [Project.ofDocument_of_readComponents_error hd hc]
    rfl
  | ok cs =>
    obtain ⟨-, hds⟩ := hd
    rw [Document.object] at hds ⊢
    simp only [Project.ofDocument, hds, hc]
    rfl

/-- A service and a reader of project files make the same components of declared records, or end
with the same failure. -/
theorem components_of_declared (place : List PathStep) (ds : List Document)
    (h : ∀ d ∈ ds, Declared d) (board : Board) :
    ∃ records, Reader.components place (.object [("components", .list ds)]) = .ok records ∧
      readComponents 1 records =
        (Project.ofDocument (.object [("components", .list ds)]) board).map Project.components := by
  refine ⟨ds.map normalised, components_eq h, ?_⟩
  rw [readComponents_eq h, ofDocument_components]

/-- The record of a fan with pins of the given types. -/
def fan (types : List String) : Document :=
  .object [("type", .text "custom"), ("pins", .text "3"), ("label", .null),
    ("customName", .text "Fan"), ("customPinTypes", .texts types)]

theorem declared_fan (types : List String) : Declared (fan types) where
  mapping := ⟨_, rfl, by simp [fieldNames]⟩
  id := by simp [fan, Document.get?_object_cons]
  type := ⟨"custom", rfl⟩
  pins := by simp [fan, Document.get?_object_cons, IsText]
  label := by simp [fan, Document.get?_object_cons]
  name := by simp [fan, Document.get?_object_cons, IsText]
  count := by simp [fan, Document.get?_object_cons]
  types := by simp [fan, Document.get?_object_cons, IsTexts]
  blocks := by simp [fan, Document.get?_object_cons]
  category := by simp [fan, Document.get?_object_cons]

/-- Both refuse the second of two fans, which names no type of pins. -/
theorem components_of_fans :
    (∀ d ∈ [fan ["pwm"], fan ["laser"]], Declared d) ∧
    ∃ records, Reader.components [.field "body"]
        (.object [("components", .list [fan ["pwm"], fan ["laser"]])]) = .ok records ∧
      readComponents 1 records = .error (.project (.component 2 (.unknownPinType "laser"))) := by
  have declared : ∀ d ∈ [fan ["pwm"], fan ["laser"]], Declared d := by
    simp [declared_fan]
  obtain ⟨records, hr, hc⟩ := components_of_declared [.field "body"] _ declared .uno
  exact ⟨declared, records, hr, hc.trans rfl⟩

end Service

end BlockSketch
