import BlockSketch.Proofs.Reports

/-! # Blame by position

The checker walks over all pins with a growing list of taken ones. What it says about a component, and
in which order, can be told from the declaration alone: a pin is in use already exactly if it is looked
at in an earlier component, or earlier in the same one.
-/

namespace BlockSketch.Validation

variable {b : Board} {c : Component} {cs before : List Component} {taken : List Pin}
  {types : List PinType} {p : Pin} {ps : List Pin} {found : List Issue} {i j : Nat}

instance : DecidablePred (OnBoard b) := fun p => decidable_of_iff (b.has p = true) has_iff

/-- The component holds the pin at place `j`, and it is looked at there: the kind is known, there are
as many pins as it needs, and the board has the pin. -/
def Checked (b : Board) (c : Component) (j : Nat) (p : Pin) : Prop :=
  (∃ spec ∈ c.spec?, (c.pinList.length : Int) = spec.pinCount) ∧ c.pinList[j]? = some p ∧ OnBoard b p

instance : Decidable (Checked b c j p) := inferInstanceAs (Decidable (_ ∧ _ ∧ _))

/-- The pin is looked at in a component before the one at place `i`, or in that one before place `j`. -/
def HeldBefore (b : Board) (cs : List Component) (i j : Nat) (p : Pin) : Prop :=
  ∃ k l, (k < i ∨ k = i ∧ l < j) ∧ ∃ c ∈ cs[k]?, Checked b c l p

theorem Checked.lt_length (h : Checked b c j p) : j < c.pinList.length :=
  (List.getElem?_eq_some_iff.mp h.2.1).1

/-- All places before a given one are among finitely many. -/
theorem heldBefore_iff_bounded : HeldBefore b cs i j p ↔
    ∃ k < i + 1, ∃ c ∈ cs[k]?, ∃ l < c.pinList.length, (k < i ∨ l < j) ∧ Checked b c l p := by
  constructor
  · rintro ⟨k, l, hkl, c, hc, h⟩
    exact ⟨k, by omega, c, hc, l, h.lt_length, by omega, h⟩
  · rintro ⟨k, hk, c, hc, l, -, hkl, h⟩
    exact ⟨k, l, by omega, c, hc, h⟩

instance : Decidable (HeldBefore b cs i j p) := decidable_of_iff _ heldBefore_iff_bounded.symm

/-- What is said about the pin at place `j` of the component at place `i`. -/
def complaintsAt (b : Board) (cs : List Component) (types : List PinType) (i j : Nat) (p : Pin) :
    List Complaint :=
  if OnBoard b p then
    modulation b types[j]? p ++ if HeldBefore b cs i j p then [.reused p] else []
  else [.unavailable p b]

/-- What is said about the component at place `i`. -/
def complaintsAbout (b : Board) (cs : List Component) (i : Nat) (c : Component) : List Complaint :=
  match c.spec? with
  | none => [.unknownKind c.kindName]
  | some spec =>
    if (c.pinList.length : Int) = spec.pinCount then
      (c.pinList.mapIdx (complaintsAt b cs spec.pinTypes i)).flatten
    else [.pinCount spec c.pinList.length]

/-! ## One component -/

theorem exists_lt_succ_cons_iff {q : Pin} : (∃ k < j + 1, (p :: ps)[k]? = some q) ↔
    p = q ∨ ∃ k < j, ps[k]? = some q := by
  constructor
  · rintro ⟨_ | k, hk, h⟩
    · exact .inl (Option.some.inj h)
    · exact .inr ⟨k, by omega, h⟩
  · rintro (rfl | ⟨k, hk, h⟩)
    · exact ⟨0, by omega, rfl⟩
    · exact ⟨k + 1, by omega, h⟩

/-- A pin of the component is in use already if it was taken or stands there before. -/
theorem checkPins_eq_flatten : (checkPins b taken types ps).1 =
    (ps.mapIdx fun j p =>
      if OnBoard b p then
        modulation b types[j]? p ++
          if p ∈ taken ∨ ∃ k < j, ps[k]? = some p then [.reused p] else []
      else [.unavailable p b]).flatten := by
  induction ps generalizing taken types with
  | nil => rfl
  | cons p ps ih =>
    rw [List.mapIdx_cons, List.flatten_cons]
    simp only [exists_lt_succ_cons_iff]
    by_cases hp : OnBoard b p
    · have held (q : Pin) (j : Nat) :
          (q ∈ (if p ∈ taken then taken else p :: taken) ∨ ∃ k < j, ps[k]? = some q) ↔
            q ∈ taken ∨ p = q ∨ ∃ k < j, ps[k]? = some q := by
        by_cases ht : p ∈ taken
        · have hq : p = q → q ∈ taken := fun he => he ▸ ht
          rw [if_pos ht]
          tauto
        · rw [if_neg ht, List.mem_cons, eq_comm (a := q)]
          tauto
      simp only [checkPins_cons_of_onBoard hp, ih, held, hp, if_true, List.head?_eq_getElem?,
        getElem?_drop_one]
      simp [reuse]
    · -- A pin that the board lacks is not taken, and no pin on the board is equal to it.
      rw [checkPins_cons_of_not_onBoard hp, ih, if_neg hp, List.singleton_append]
      refine congrArg (fun xs : List (List Complaint) => .unavailable p b :: xs.flatten) ?_
      refine List.mapIdx_eq_mapIdx_iff.mpr fun j hj => ?_
      simp only [getElem?_drop_one]
      split
      · next hq =>
        have hne : p ≠ ps[j] := fun he => hp (he ▸ hq)
        simp only [hne, false_or]
      · rfl

/-! ## All components -/

/-- The places before a component are those of the components before it and its own earlier ones. -/
theorem heldBefore_append_iff : HeldBefore b (before ++ c :: cs) before.length j p ↔
    (∃ d ∈ before, ∃ l, Checked b d l p) ∨ ∃ l < j, Checked b c l p := by
  constructor
  · rintro ⟨k, l, hk | ⟨rfl, hl⟩, d, hd, h⟩
    · rw [List.getElem?_append_left hk] at hd
      exact .inl ⟨d, List.mem_of_getElem? hd, l, h⟩
    · obtain rfl : c = d := by simpa using hd
      exact .inr ⟨l, hl, h⟩
  · rintro (⟨d, hd, l, h⟩ | ⟨l, hl, h⟩)
    · obtain ⟨k, hk, rfl⟩ := List.mem_iff_getElem.mp hd
      refine ⟨k, l, .inl hk, before[k], ?_, h⟩
      rw [List.getElem?_append_left hk]
      exact List.getElem?_eq_getElem hk
    · exact ⟨before.length, l, .inr ⟨rfl, hl⟩, c, by simp, h⟩

/-- The taken pins are those that were looked at in the components so far. -/
def Taken (b : Board) (before : List Component) (taken : List Pin) : Prop :=
  ∀ p, p ∈ taken ↔ ∃ d ∈ before, ∃ l, Checked b d l p

theorem Taken.concat_of_unchecked (h : Taken b before taken) (hc : ∀ l p, ¬ Checked b c l p) :
    Taken b (before ++ [c]) taken := by
  intro p
  simp [h p, or_and_right, exists_or, hc]

theorem checked_iff {spec : Spec} (hs : c.spec? = some spec)
    (hl : (c.pinList.length : Int) = spec.pinCount) :
    Checked b c j p ↔ c.pinList[j]? = some p ∧ OnBoard b p := by
  simp [Checked, hs, hl]

theorem Taken.concat {spec : Spec} (h : Taken b before taken) (hs : c.spec? = some spec)
    (hl : (c.pinList.length : Int) = spec.pinCount) :
    Taken b (before ++ [c]) (checkPins b taken spec.pinTypes c.pinList).2 := by
  intro p
  have own : (p ∈ c.pinList ∧ OnBoard b p) ↔ ∃ l, Checked b c l p := by
    simp only [checked_iff hs hl, exists_and_right, List.mem_iff_getElem?]
  rw [mem_checkPins_taken_iff, h p, own]
  simp [or_and_right, exists_or]

/-- The checker complains about the pins of a component as their places demand. -/
theorem Taken.checkPins_eq {spec : Spec} (h : Taken b before taken) (hs : c.spec? = some spec)
    (hl : (c.pinList.length : Int) = spec.pinCount) :
    (checkPins b taken spec.pinTypes c.pinList).1 =
      complaintsAbout b (before ++ c :: cs) before.length c := by
  simp only [complaintsAbout, hs, if_pos hl, checkPins_eq_flatten]
  refine congrArg List.flatten (List.mapIdx_eq_mapIdx_iff.mpr fun j hj => ?_)
  by_cases hp : OnBoard b c.pinList[j]
  · have held : (c.pinList[j] ∈ taken ∨ ∃ k < j, c.pinList[k]? = some c.pinList[j]) ↔
        HeldBefore b (before ++ c :: cs) before.length j c.pinList[j] := by
      simp only [heldBefore_append_iff, h c.pinList[j], checked_iff hs hl, hp, and_true]
    simp only [complaintsAt, held]
  · simp only [complaintsAt, if_neg hp]

/-- The issues from a component on are those that the places of the whole declaration demand. -/
theorem checkFrom_eq_flatten (h : checkFrom b taken cs = .ok found) (ht : Taken b before taken) :
    found = (cs.mapIdx fun i c =>
      (complaintsAbout b (before ++ cs) (before.length + i) c).map (Issue.mk c.id)).flatten := by
  induction cs generalizing before taken found with
  | nil => exact (Except.ok.inj h).symm
  | cons c cs ih =>
    -- Later components are counted from the first one, so the one in hand joins those before it.
    have later {taken' : List Pin} {rest : List Issue} (hr : checkFrom b taken' cs = .ok rest)
        (ht : Taken b (before ++ [c]) taken') : rest = (cs.mapIdx fun i d =>
          (complaintsAbout b (before ++ c :: cs) (before.length + (i + 1)) d).map
            (Issue.mk d.id)).flatten := by
      have hx := ih hr ht
      simp only [List.append_assoc, List.singleton_append, List.length_append, List.length_singleton,
        Nat.add_assoc, Nat.add_comm 1] at hx
      exact hx
    rw [List.mapIdx_cons, List.flatten_cons, Nat.add_zero]
    rcases checkFrom_cons h with ⟨hs, rest, hr, rfl⟩ | ⟨spec, hs, hl, rest, hr, rfl⟩ |
      ⟨spec, hs, hl, rest, hr, rfl⟩
    · have hc : ∀ l p, ¬ Checked b c l p := by simp [Checked, hs]
      rw [← later hr (ht.concat_of_unchecked hc)]
      simp [complaintsAbout, hs]
    · have hc : ∀ l p, ¬ Checked b c l p := by simp [Checked, hs, hl]
      rw [← later hr (ht.concat_of_unchecked hc)]
      simp [complaintsAbout, hs, hl]
    · rw [← later hr (ht.concat hs hl), ht.checkPins_eq hs hl]

/-- Only the pins of components of unknown kind are not read. -/
theorem readable_of_checkFrom (h : checkFrom b taken cs = .ok found) (hc : c ∈ cs)
    (hs : c.spec?.isSome) : Readable c := by
  induction cs generalizing taken found with
  | nil => cases hc
  | cons d cs ih =>
    rcases List.mem_cons.mp hc with rfl | hc
    · obtain ⟨spec, hs⟩ := Option.isSome_iff_exists.mp hs
      rw [checkFrom, hs] at h
      obtain ⟨ps, hp, -⟩ := bind_eq_ok_iff.mp h
      exact readable_of_ok hp
    · rcases checkFrom_cons h with ⟨-, rest, hr, -⟩ | ⟨-, -, -, rest, hr, -⟩ |
        ⟨spec, -, -, rest, hr, -⟩
      · exact ih hr hc
      · exact ih hr hc
      · exact ih hr hc

/-- The issues are what is said about each component in order: that its kind is unknown, that it has a
wrong number of pins, or else for each pin that the board lacks it or, if it has it, first that it
cannot modulate pulse widths and then that the pin is held before. -/
theorem issues_eq_flatten (h : issues b cs = .ok found) :
    (∀ c ∈ cs, c.spec?.isSome → Readable c) ∧
      found = (cs.mapIdx fun i c =>
        (complaintsAbout b cs i c).map (Issue.mk c.id)).flatten := by
  have none : Taken b [] [] := fun p => by simp
  refine ⟨fun c hc hs => readable_of_checkFrom h hc hs, ?_⟩
  simpa using checkFrom_eq_flatten h none

/-- Pin 13 four times, twice in one part that also names a pin that the board lacks. -/
def crowded : List Component :=
  [⟨"1", .custom ⟨"Fan", 1, [], [], "Custom"⟩, "4, 13", none⟩, ⟨"2", .known "led", "13", none⟩,
    ⟨"3", .known "laser", "13", none⟩,
    ⟨"4", .custom ⟨"Relay", 3, [.pwm, .digital], [], "Custom"⟩, "13, 99, 13", none⟩]

/-- The light holds its pin first, since the fan names too many pins for any of them to count. -/
theorem issues_eq_flatten_crowded :
    issues .uno crowded = .ok
        [⟨"1", .pinCount ⟨"Fan", [], 1, [], "Custom", none⟩ 2⟩, ⟨"3", .unknownKind "laser"⟩,
          ⟨"4", .notPwm (.number 13) .uno⟩, ⟨"4", .reused (.number 13)⟩,
          ⟨"4", .unavailable (.number 99) .uno⟩, ⟨"4", .reused (.number 13)⟩] ∧
      complaintsAbout .uno crowded 1 ⟨"2", .known "led", "13", none⟩ = [] ∧
      (crowded.mapIdx fun i c =>
          (complaintsAbout .uno crowded i c).map (Issue.mk c.id)).flatten.length = 6 := by
  have h : issues .uno crowded = .ok
      [⟨"1", .pinCount ⟨"Fan", [], 1, [], "Custom", none⟩ 2⟩, ⟨"3", .unknownKind "laser"⟩,
        ⟨"4", .notPwm (.number 13) .uno⟩, ⟨"4", .reused (.number 13)⟩,
        ⟨"4", .unavailable (.number 99) .uno⟩, ⟨"4", .reused (.number 13)⟩] := by rfl
  refine ⟨h, by decide, ?_⟩
  rw [← (issues_eq_flatten h).2]
  rfl

end BlockSketch.Validation
