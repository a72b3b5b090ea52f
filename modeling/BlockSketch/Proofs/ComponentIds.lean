import BlockSketch.Proofs.PinModes
import BlockSketch.Proofs.Records
import BlockSketch.Proofs.Refusals

/-! # Identifiers of components

A component has the identifier that its record gives, or else its number. Given identifiers and
numbers are both texts, and nothing keeps them apart: two components share an identifier exactly if
a record gives the number of a record that gives none.
-/

namespace BlockSketch

namespace Component

variable {record : Document} {fallback : String} {c : Component}

/-- The identifier that a record gives; none if its value does not count as present. -/
def givenId? (record : Document) : Option String :=
  if (record.get "id").truthy then some (record.get "id").shown else none

theorem id_of_ofRecord (h : ofRecord record fallback = .ok c) :
    c.id = (givenId? record).getD fallback := by
  have hid : ((record.get "id").orElse (.text fallback)).shown =
      (givenId? record).getD fallback := by
    rw [Document.orElse, givenId?]
    split
    · rfl
    · exact Document.shown_text fallback
  rw [← hid, (fields_of_ofRecord h).1]

end Component

/-! ## Issues -/

namespace Validation

variable {b : Board} {cs : List Component} {taken : List Pin}

/-- Every issue is about one of the components. -/
theorem component_mem_of_mem_checkFrom {found : List Issue} (h : checkFrom b taken cs = .ok found) :
    ∀ i ∈ found, i.component ∈ cs.map Component.id := by
  induction cs generalizing taken found with
  | nil =>
    obtain rfl := Except.ok.inj h
    nofun
  | cons c cs ih =>
    intro i hi
    rw [List.map_cons, List.mem_cons]
    rcases checkFrom_cons h with ⟨-, rest, hr, rfl⟩ | ⟨spec, -, -, rest, hr, rfl⟩ |
      ⟨spec, -, -, rest, hr, rfl⟩
    · exact (List.mem_cons.mp hi).imp (congrArg Issue.component) (ih hr i)
    · exact (List.mem_cons.mp hi).imp (congrArg Issue.component) (ih hr i)
    · rcases List.mem_append.mp hi with hi | hi
      · obtain ⟨complaint, -, rfl⟩ := List.mem_map.mp hi
        exact .inl rfl
      · exact .inr (ih hr i hi)

end Validation

/-! ## Lists of records -/

namespace Project

open Component

variable {d : Document} {ds : List Document} {n : Nat} {board : Board} {cs : List Component}
  {p : Project}

/-- The identifier of the component whose record has the given number. -/
def idOf (number : Nat) (record : Document) : String := (givenId? record).getD number.repr

theorem ids_of_readComponents (h : readComponents n ds = .ok cs) :
    cs.map Component.id = ds.mapIdx fun i record => idOf (n + i) record := by
  induction ds generalizing n cs with
  | nil =>
    obtain rfl := Except.ok.inj h
    rfl
  | cons d ds ih =>
    rw [readComponents_cons] at h
    obtain ⟨c, hc, h⟩ := bind_eq_ok_iff.mp h
    obtain ⟨cs, hcs, h⟩ := bind_eq_ok_iff.mp h
    obtain rfl := pure_eq_ok_iff.mp h
    cases d with
    | map es =>
      have hc := mapError_eq_ok_iff.mp hc
      rw [List.map_cons, List.mapIdx_cons, ih hcs, id_of_ofRecord hc]
      simp only [idOf, Nat.add_right_comm n 1, Nat.add_assoc]
      rfl
    | _ => cases hc

/-- Some record gives no identifier, and its number is given as the identifier of another. -/
def Usurped (records : List Document) : Prop :=
  ∃ (k : Nat) (r : Document), records[k]? = some r ∧ givenId? r = none ∧
    (k + 1).repr ∈ records.filterMap givenId?

/-- Given identifiers that are all different belong to different records. -/
theorem givenId?_ne (hg : (ds.filterMap givenId?).Nodup) {i j : Nat} (hij : i < j)
    (hj : j < ds.length) {s : String} (hi : givenId? ds[i] = some s) : givenId? ds[j] ≠ some s := by
  have pairs := List.pairwise_iff_getElem.mp (List.pairwise_filterMap.mp hg)
  exact fun h => pairs i j (Nat.lt_trans hij hj) hj hij s hi s h rfl

/-- Numbers differ from each other, so only a given identifier can clash with one. -/
theorem nodup_idOf_iff (hg : (ds.filterMap givenId?).Nodup) :
    (ds.mapIdx fun i record => idOf (1 + i) record).Nodup ↔ ¬ Usurped ds := by
  rw [List.nodup_iff_pairwise_ne, List.pairwise_iff_getElem]
  simp only [List.length_mapIdx, List.getElem_mapIdx]
  constructor
  · rintro h ⟨k, r, hr, hn, hm⟩
    obtain ⟨hk, rfl⟩ := List.getElem?_eq_some_iff.mp hr
    obtain ⟨s, hs, hg⟩ := List.mem_filterMap.mp hm
    obtain ⟨i, hi, rfl⟩ := List.getElem_of_mem hs
    have clash : idOf (1 + i) ds[i] = idOf (1 + k) ds[k] := by
      simp only [idOf, hn, hg, Option.getD, Nat.add_comm]
    rcases Nat.lt_trichotomy i k with hik | rfl | hki
    · exact h i k hi hk hik clash
    · simp [hn] at hg
    · exact h k i hk hi hki clash.symm
  · intro h i j hi hj hij he
    have usurped {i j : Nat} (hi : i < ds.length) (hj : j < ds.length) (hn : givenId? ds[i] = none)
        (hs : givenId? ds[j] = some (1 + i).repr) : Usurped ds :=
      ⟨i, ds[i], List.getElem?_eq_getElem hi, hn,
        List.mem_filterMap.mpr ⟨ds[j], List.getElem_mem hj, Nat.add_comm 1 i ▸ hs⟩⟩
    cases hr : givenId? ds[i] with
    | none =>
      cases hs : givenId? ds[j] with
      | none =>
        simp only [idOf, hr, hs, Option.getD] at he
        exact Nat.ne_of_lt hij (Nat.add_left_cancel (PinSetup.toString_injective he))
      | some t =>
        simp only [idOf, hr, hs, Option.getD] at he
        exact h (usurped hi hj hr (he ▸ hs))
    | some t =>
      cases hs : givenId? ds[j] with
      | none =>
        simp only [idOf, hr, hs, Option.getD] at he
        exact h (usurped hj hi hs (he ▸ hr))
      | some u =>
        simp only [idOf, hr, hs, Option.getD] at he
        exact givenId?_ne hg hij hj hr (he ▸ hs)

theorem existsUnique_getElem?_of_nodup {xs : List String} (h : xs.Nodup) {x : String}
    (hx : x ∈ xs) : ∃! k : Nat, xs[k]? = some x := by
  obtain ⟨k, hk, rfl⟩ := List.getElem_of_mem hx
  refine ⟨k, List.getElem?_eq_getElem hk, fun j hj => ?_⟩
  obtain ⟨hj, he⟩ := List.getElem?_eq_some_iff.mp hj
  exact (h.getElem_inj_iff).mp he

/-- Let the identifiers that the records of a project give be all different. Then the components
have different identifiers exactly if no record gives the number of a record that gives none; and
if so, every issue is about exactly one component. -/
theorem nodup_ids_iff (h : ofDocument d board = .ok p) (hd : Records d ds)
    (hg : (ds.filterMap givenId?).Nodup) :
    ((p.components.map Component.id).Nodup ↔ ¬ Usurped ds) ∧
      (¬ Usurped ds → ∀ report, p.report = .ok report → ∀ i ∈ report.issues,
        ∃! k : Nat, (p.components[k]?).map Component.id = some i.component) := by
  have distinct : (p.components.map Component.id).Nodup ↔ ¬ Usurped ds := by
    obtain ⟨ds', hd', hr⟩ := readComponents_of_ofDocument h
    obtain rfl := hd.unique hd'
    rw [ids_of_readComponents hr]
    exact nodup_idOf_iff hg
  refine ⟨distinct, fun hu report hr i hi => ?_⟩
  have found := (Validation.report_eq_ok_iff.mp (mapError_eq_ok_iff.mp hr)).2.1
  have member := Validation.component_mem_of_mem_checkFrom found i hi
  simpa only [List.getElem?_map] using existsUnique_getElem?_of_nodup (distinct.mpr hu) member

/-- The document of a project with the given records. -/
def recording (records : List Document) : Document := .object [("components", .list records)]

/-- The second record gives an identifier that is no number of the others. -/
def mixed : List Document :=
  [.object [("type", .text "laser")], .object [("id", .int 7), ("type", .text "led")],
    .object [("id", .text ""), ("type", .text "sonar")]]

theorem not_usurped_mixed : ¬ Usurped mixed := by
  rintro ⟨_ | _ | _ | k, r, hr, hn, hm⟩
  · exact absurd hm (by decide)
  · obtain rfl := Option.some.inj hr
    exact absurd hn (by decide)
  · exact absurd hm (by decide)
  · cases hr

theorem nodup_ids_mixed : ∃ p report, ofDocument (recording mixed) .uno = .ok p ∧
    (p.components.map Component.id).Nodup ∧ p.report = .ok report ∧
    report.issues.map Issue.component = ["1", "7", "3"] ∧
    ∀ i ∈ report.issues,
      ∃! k : Nat, (p.components[k]?).map Component.id = some i.component := by
  have read : ∃ p, ofDocument (recording mixed) .uno = .ok p := ⟨_, rfl⟩
  have records : Records (recording mixed) mixed := ⟨⟨_, rfl⟩, rfl⟩
  obtain ⟨p, hp⟩ := read
  have ids := nodup_ids_iff hp records (by decide)
  obtain rfl := Except.ok.inj hp
  exact ⟨_, _, rfl, ids.1.mpr not_usurped_mixed, rfl, rfl, ids.2 not_usurped_mixed _ rfl⟩

/-- A record gives the number of the record after it, and both components get that number for an
identifier. Issues about the one and about the other cannot be told apart. -/
theorem ids_clash : ∃ p report,
    ofDocument (recording [.object [("id", .text "2"), ("type", .text "laser")],
      .object [("type", .text "sonar")]]) .uno = .ok p ∧
    p.components.map Component.id = ["2", "2"] ∧ p.report = .ok report ∧
    report.issues = [⟨"2", .unknownKind "laser"⟩, ⟨"2", .unknownKind "sonar"⟩] ∧
    ¬ (p.components.map Component.id).Nodup ∧ ∀ i ∈ report.issues,
      ¬ ∃! k : Nat, (p.components[k]?).map Component.id = some i.component := by
  refine ⟨_, _, rfl, rfl, rfl, rfl, by decide, fun i hi => ?_⟩
  rintro ⟨k, -, unique⟩
  have hi : i.component = "2" := by
    simp only [List.mem_cons, List.not_mem_nil, or_false] at hi
    rcases hi with rfl | rfl <;> rfl
  rw [hi] at unique
  exact absurd ((unique 0 rfl).trans (unique 1 rfl).symm) (by decide)

end Project

end BlockSketch
