import BlockSketch.Proofs.Declarations

/-! # Nesting of blocks

A line that begins with `for (` opens a block, and a line that is only a brace closes the block that
was opened last. The lines of actions open and close blocks in pairs, every line is indented by its
depth, and the blocks are the repetitions of the actions.
-/

namespace BlockSketch

open Sketch (Statement Placed)

variable {as : List Action} {a : Action} {l : Int} {n : Option Int} {st : Statement} {k : Placed}
  {s t : String} {us vs ts body : List String} {parts : List (List String)}

/-! ## Depth -/

def Opens (t : String) : Prop := "for (".toList <+: unindented t.toList

instance : DecidablePred Opens := fun _ => inferInstanceAs (Decidable (_ <+: _))

def Closes (t : String) : Prop := unindented t.toList = ['}']

instance : DecidablePred Closes := fun _ => inferInstanceAs (Decidable (_ = _))

theorem Opens.not_closes (h : Opens t) : ¬ Closes t := by
  intro hc
  rw [Opens, hc] at h
  exact absurd h (by decide)

/-- How many blocks the line opens, less those that it closes. -/
def rise (t : String) : Int := if Opens t then 1 else if Closes t then -1 else 0

theorem rise_of_opens (h : Opens t) : rise t = 1 := if_pos h

theorem rise_of_closes (h : Closes t) : rise t = -1 := by
  rw [rise, if_neg fun ho => ho.not_closes h, if_pos h]

theorem rise_of_inside (ho : ¬ Opens t) (hc : ¬ Closes t) : rise t = 0 := by
  rw [rise, if_neg ho, if_neg hc]

theorem rise_nonneg (hc : ¬ Closes t) : 0 ≤ rise t := by
  by_cases ho : Opens t
  · rw [rise_of_opens ho]
    decide
  · exact Int.le_of_eq (rise_of_inside ho hc).symm

/-- How many blocks are open after the lines. -/
def depth (ts : List String) : Int := (ts.map rise).sum

theorem depth_nil : depth [] = 0 := rfl

theorem depth_cons : depth (t :: ts) = rise t + depth ts := by
  rw [depth, List.map_cons, List.sum_cons, depth]

theorem depth_append : depth (us ++ vs) = depth us + depth vs := by
  rw [depth, List.map_append, List.sum_append, depth, depth]

/-! ## Balanced lines -/

/-- No block is closed before it is opened, and in the end none is open. -/
structure Balanced (ts : List String) : Prop where
  within : ∀ i, 0 ≤ depth (ts.take i)
  closed : depth ts = 0

namespace Balanced

theorem nil : Balanced [] where
  within i := by
    rw [List.take_nil]
    exact Int.le_refl 0
  closed := depth_nil

theorem append (hu : Balanced us) (hv : Balanced vs) : Balanced (us ++ vs) where
  within i := by
    rw [List.take_append, depth_append]
    exact Int.add_nonneg (hu.within i) (hv.within _)
  closed := by rw [depth_append, hu.closed, hv.closed, Int.add_zero]

theorem of_inside (h : ∀ t ∈ ts, rise t = 0) : Balanced ts := by
  have flat {us : List String} (hu : ∀ t ∈ us, rise t = 0) : depth us = 0 := by
    induction us with
    | nil => rfl
    | cons t us ih =>
      obtain ⟨ht, hu⟩ := List.forall_mem_cons.mp hu
      rw [depth_cons, ht, ih hu, Int.add_zero]
  exact ⟨fun i => Int.le_of_eq (flat fun t ht => h t (List.mem_of_mem_take ht)).symm, flat h⟩

theorem loop (ho : Opens s) (hc : Closes t) (h : Balanced body) :
    Balanced (s :: (body ++ [t])) where
  within i := by
    cases i with
    | zero => exact Int.le_refl 0
    | succ i =>
      have last : -1 ≤ depth ([t].take (i - body.length)) := by
        cases i - body.length with
        | zero => exact (by decide : (-1 : Int) ≤ 0)
        | succ j =>
          rw [List.take_succ_cons, List.take_nil, depth_cons, rise_of_closes hc]
          exact Int.le_refl _
      have inner := h.within i
      rw [List.take_succ_cons, depth_cons, rise_of_opens ho, List.take_append, depth_append]
      omega
  closed := by
    rw [depth_cons, depth_append, h.closed, depth_cons, rise_of_opens ho, rise_of_closes hc]
    rfl

end Balanced

/-- After the line that opens a block come the lines of its body and the line that closes it. -/
structure Matched (ts body : List String) (t : String) : Prop where
  begins : body ++ [t] <+: ts
  balanced : Balanced body
  closes : Closes t

/-- Where more blocks are closed than opened, the first line too many closes what was open before. -/
theorem exists_closing {m : Int} (hm : 0 ≤ m) (h : m + depth ts < 0) :
    ∃ body t, body ++ [t] <+: ts ∧ Closes t ∧ (∀ i, 0 ≤ m + depth (body.take i)) ∧
      m + depth body = 0 := by
  induction ts generalizing m with
  | nil =>
    rw [depth_nil] at h
    omega
  | cons t ts ih =>
    rw [depth_cons] at h
    by_cases hc : m + rise t < 0
    · have closes : Closes t := by_contra fun hn => by
        have := rise_nonneg hn
        omega
      rw [rise_of_closes closes] at hc
      exact ⟨[], t, ⟨ts, rfl⟩, closes, fun i => by rw [List.take_nil, depth_nil]; omega,
        by rw [depth_nil]; omega⟩
    · obtain ⟨body, u, hp, hu, within, closed⟩ := ih (Int.not_lt.mp hc) (by omega)
      refine ⟨t :: body, u, List.cons_prefix_cons.mpr ⟨rfl, hp⟩, hu, fun i => ?_,
        by rw [depth_cons]; omega⟩
      cases i with
      | zero => rw [List.take_zero, depth_nil]; omega
      | succ i =>
        have := within i
        rw [List.take_succ_cons, depth_cons]
        omega

theorem Balanced.exists_matched (h : Balanced (us ++ s :: vs)) (hs : Opens s) :
    ∃ body t, Matched vs body t := by
  have before := h.within us.length
  rw [List.take_left] at before
  have closed := h.closed
  rw [depth_append, depth_cons, rise_of_opens hs] at closed
  obtain ⟨body, t, hp, hc, within, hb⟩ := exists_closing (Int.le_refl 0) (by omega : 0 + depth vs < 0)
  exact ⟨body, t, hp, ⟨fun i => by simpa using within i, by simpa using hb⟩, hc⟩

theorem Matched.length_le {body' : List String} {t' : String} (h : Matched ts body t)
    (h' : Matched ts body' t') : body'.length ≤ body.length := by
  by_contra hl
  have inner : body ++ [t] <+: body' :=
    List.prefix_of_prefix_length_le h.begins ((List.prefix_append body' [t']).trans h'.begins)
      (by rw [List.length_append]; exact Nat.lt_of_not_le hl)
  have low := h'.balanced.within (body ++ [t]).length
  rw [← List.prefix_iff_eq_take.mp inner, depth_append, h.balanced.closed, depth_cons,
    rise_of_closes h.closes, depth_nil] at low
  omega

/-- A block has only one end. -/
theorem Matched.unique {body' : List String} {t' : String} (h : Matched ts body t)
    (h' : Matched ts body' t') : body' = body ∧ t' = t := by
  have same : body'.length = body.length := Nat.le_antisymm (h.length_le h') (h'.length_le h)
  have whole : body' ++ [t'] = body ++ [t] :=
    (List.prefix_of_prefix_length_le h'.begins h.begins (by simp [same])).eq_of_length
      (by simp [same])
  obtain ⟨hb, ht⟩ := List.append_inj whole same
  exact ⟨hb, List.head_eq_of_cons_eq ht⟩

/-! ## Indentation -/

/-- The line is indented by two spaces for each level and then goes on. -/
def IndentedAt (l : Int) (t : String) : Prop :=
  (spaces t.toList : Int) = 2 * l ∧ unindented t.toList ≠ []

/-- The lines form whole blocks and are indented by their depth, counted from the level on. The line
that closes a block stands outside of it. -/
structure Nested (l : Int) (ts : List String) : Prop where
  balanced : Balanced ts
  indented : ∀ i t, ts[i]? = some t →
    IndentedAt (l + depth (ts.take i) - if Closes t then 1 else 0) t

namespace Nested

theorem nil : Nested l [] where
  balanced := .nil
  indented := nofun

theorem append (hu : Nested l us) (hv : Nested l vs) : Nested l (us ++ vs) where
  balanced := hu.balanced.append hv.balanced
  indented i t ht := by
    rw [List.take_append, depth_append]
    rcases Nat.lt_or_ge i us.length with hi | hi
    · rw [List.getElem?_append_left hi] at ht
      rw [Nat.sub_eq_zero_of_le (Nat.le_of_lt hi), List.take_zero, depth_nil, Int.add_zero]
      exact hu.indented i t ht
    · rw [List.getElem?_append_right hi] at ht
      rw [List.take_of_length_le hi, hu.balanced.closed, Int.zero_add]
      exact hv.indented _ t ht

theorem of_inside (h : ∀ t ∈ ts, ¬ Opens t ∧ ¬ Closes t ∧ IndentedAt l t) : Nested l ts := by
  induction ts with
  | nil => exact .nil
  | cons t ts ih =>
    obtain ⟨⟨ho, hc, hl⟩, hts⟩ := List.forall_mem_cons.mp h
    have first : Nested l [t] := by
      constructor
      · exact .of_inside (List.forall_mem_singleton.mpr (rise_of_inside ho hc))
      · intro i u hu
        rw [List.getElem?_singleton, Option.ite_none_right_eq_some] at hu
        obtain ⟨rfl, ⟨⟩⟩ := hu
        rw [List.take_zero, depth_nil, if_neg hc, Int.add_zero, Int.sub_zero]
        exact hl
    exact first.append (ih hts)

theorem loop (ho : Opens s) (hc : Closes t) (hs : IndentedAt l s) (ht : IndentedAt l t)
    (h : Nested (l + 1) body) : Nested l (s :: (body ++ [t])) where
  balanced := .loop ho hc h.balanced
  indented i u hu := by
    cases i with
    | zero =>
      obtain rfl := Option.some.inj hu
      rw [List.take_zero, depth_nil, if_neg ho.not_closes, Int.add_zero, Int.sub_zero]
      exact hs
    | succ i =>
      rw [List.getElem?_cons_succ] at hu
      rw [List.take_succ_cons, depth_cons, rise_of_opens ho]
      rcases Nat.lt_or_ge i body.length with hi | hi
      · rw [List.getElem?_append_left hi] at hu
        rw [List.take_append_of_le_length (Nat.le_of_lt hi), ← Int.add_assoc]
        exact h.indented i u hu
      · rw [List.getElem?_append_right hi, List.getElem?_singleton,
          Option.ite_none_right_eq_some] at hu
        obtain ⟨hi', ⟨⟩⟩ := hu
        obtain rfl := Nat.le_antisymm (Nat.le_of_sub_eq_zero hi') hi
        rw [List.take_left, h.balanced.closed, if_pos hc, Int.add_zero, Int.add_sub_cancel]
        exact ht

end Nested

/-! ## Lines of statements -/

theorem indentedAt_placed (hl : 0 ≤ k.level) (h : k.text = .ok t) : IndentedAt k.level t := by
  obtain ⟨lead, u, hu, ht⟩ := spaces_placed h
  constructor
  · rw [lead]
    omega
  · rw [ht]
    intro hn
    have first := Statement.head?_text hu
    rw [hn] at first
    cases first

theorem not_opens_of_inside (h : k.text = .ok t) (hi : k.statement.Inside) : ¬ Opens t := by
  intro ho
  have first : k.statement.initial = 'f' := initial_of_isPrefix h ho
  cases hk : k.statement with
  | openLoop => simp [hk, Statement.Inside] at hi
  | _ => simp [hk, Statement.initial] at first

theorem opens_placed (h : Placed.text ⟨l, .openLoop n⟩ = .ok t) : Opens t := by
  obtain ⟨u, hu, ht⟩ := unindented_placed h
  simp only [Statement.text, bind_eq_ok_iff, pure_eq_ok_iff] at hu
  obtain ⟨q, -, rfl⟩ := hu
  rw [Opens, ht]
  simp only [String.toList_append, List.append_assoc]
  exact ⟨_, rfl⟩

theorem closes_placed (h : Placed.text ⟨l, .closeLoop⟩ = .ok t) : Closes t := by
  obtain ⟨u, hu, ht⟩ := unindented_placed h
  obtain rfl := Except.ok.inj hu
  exact ht

/-! ## Lines of actions -/

theorem actionLines_once (hk : a.kind ≠ .repetition) : Sketch.actionLines l a =
    ((Sketch.statements a).map (⟨l, ·⟩ : Statement → Placed)).mapM Placed.text := by
  rw [Sketch.actionLines, ← placeAll_singleton, placeAll_once hk, Sketch.placeAll, List.append_nil]

/-- An action that is no repetition neither opens nor closes a block. -/
theorem inside_of_actionLines (hk : a.kind ≠ .repetition) (h : Sketch.actionLines l a = .ok ts)
    (ht : t ∈ ts) : ¬ Opens t ∧ ¬ Closes t ∧ (0 ≤ l → IndentedAt l t) := by
  rw [actionLines_once hk] at h
  obtain ⟨q, hq, hqt⟩ := exists_of_mem_mapM h ht
  obtain ⟨st, hst, rfl⟩ := List.mem_map.mp hq
  have inside := inside_of_mem_statements hk hst
  exact ⟨not_opens_of_inside hqt inside, unindented_ne_of_inside hqt inside,
    fun hl => indentedAt_placed hl hqt⟩

/-- The lines have the blocks of the forest: an action that is no repetition is in no block of its
own, and a repetition is the block that its first line opens and its last line closes, with the lines
of its inner actions between them. -/
inductive Blocked : Int → List Action → List String → Prop where
  | nil {l : Int} : Blocked l [] []
  | once {l : Int} {a : Action} {as : List Action} {ts us : List String} :
      a.kind ≠ .repetition → Sketch.actionLines l a = .ok ts →
      (∀ t ∈ ts, ¬ Opens t ∧ ¬ Closes t) → Blocked l as us → Blocked l (a :: as) (ts ++ us)
  | loop {l : Int} {a : Action} {as : List Action} {s t : String} {body us : List String} :
      a.kind = .repetition → Sketch.actionLines l a = .ok (s :: (body ++ [t])) → Opens s →
      Matched (body ++ t :: us) body t → Blocked (l + 1) a.actions body → Blocked l as us →
      Blocked l (a :: as) (s :: (body ++ t :: us))

theorem blocked_of_lines (hl : 0 ≤ l) (h : (Sketch.placeAll l as).mapM Placed.text = .ok ts) :
    Nested l ts ∧ Blocked l as ts := by
  have forest : Leaves (fun _ => True) as := .of_forall (fun _ => trivial) as
  induction forest generalizing l ts with
  | nil =>
    obtain rfl := pure_eq_ok_iff.mp h
    exact ⟨.nil, .nil⟩
  | @once a as hk _ _ ih =>
    rw [placeAll_once hk, mapM_append_eq_ok_iff] at h
    obtain ⟨us, vs, hu, hv, rfl⟩ := h
    rw [← actionLines_once hk] at hu
    obtain ⟨nested, blocked⟩ := ih hl hv
    have inside := fun t ht => inside_of_actionLines (t := t) hk hu ht
    constructor
    · exact (Nested.of_inside fun t ht =>
        ⟨(inside t ht).1, (inside t ht).2.1, (inside t ht).2.2 hl⟩).append nested
    · exact .once hk hu (fun t ht => ⟨(inside t ht).1, (inside t ht).2.1⟩) blocked
  | @loop a as hk _ _ ihi ih =>
    rw [placeAll_loop hk] at h
    simp only [List.mapM_cons, bind_eq_ok_iff, pure_eq_ok_iff, mapM_append_eq_ok_iff] at h
    obtain ⟨s, hs, _, ⟨body, _, hb, ⟨t, ht, us, hu, rfl⟩, rfl⟩, rfl⟩ := h
    obtain ⟨inner, blocks⟩ := ihi (Int.le_add_one hl) hb
    obtain ⟨nested, blocked⟩ := ih hl hu
    have opens := opens_placed hs
    have closes := closes_placed ht
    have matched : Matched (body ++ t :: us) body t :=
      ⟨⟨us, by rw [List.append_assoc]; rfl⟩, inner.balanced, closes⟩
    have whole : Sketch.actionLines l a = .ok (s :: (body ++ [t])) := by
      rw [Sketch.actionLines, ← placeAll_singleton, placeAll_loop hk, Sketch.placeAll]
      simp only [List.mapM_cons, bind_eq_ok_iff, pure_eq_ok_iff, mapM_append_eq_ok_iff]
      exact ⟨s, hs, _, ⟨body, [t], hb, ⟨t, ht, [], rfl, rfl⟩, rfl⟩, rfl⟩
    have first : IndentedAt l s := indentedAt_placed hl hs
    have last : IndentedAt l t := indentedAt_placed hl ht
    constructor
    · have together := (Nested.loop opens closes first last inner).append nested
      rwa [List.cons_append, List.append_assoc] at together
    · exact .loop hk whole opens matched blocks blocked

/-- The line that closes a block is indented as the one that opened it. -/
theorem Nested.spaces_matched (h : Nested l (us ++ s :: vs)) (hs : Opens s)
    (hm : Matched vs body t) : spaces t.toList = spaces s.toList := by
  obtain ⟨rest, rfl⟩ := hm.begins
  have split : us ++ s :: (body ++ [t] ++ rest) = (us ++ s :: body) ++ t :: rest := by simp
  have first := h.indented us.length s (by simp)
  have last := h.indented (us ++ s :: body).length t (by rw [split]; simp)
  rw [List.take_left, if_neg hs.not_closes] at first
  rw [split, List.take_left, depth_append, depth_cons, rise_of_opens hs, hm.balanced.closed,
    if_pos hm.closes] at last
  have := first.1
  have := last.1
  omega

/-- The lines of actions from a level on open and close blocks in pairs and are indented by their
depth. The blocks are the repetitions of the actions, and every line that opens one has a single
line that closes it, which is indented alike. -/
theorem nested_of_actionLines (hl : 0 ≤ l) (h : as.mapM (Sketch.actionLines l) = .ok parts) :
    Nested l parts.flatten ∧ Blocked l as parts.flatten ∧
      ∀ us s vs, parts.flatten = us ++ s :: vs → Opens s →
        ∃ body t, Matched vs body t ∧ spaces t.toList = spaces s.toList ∧
          ∀ body' t', Matched vs body' t' → body' = body ∧ t' = t := by
  have lines : (Sketch.placeAll l as).mapM Placed.text = .ok parts.flatten := by
    rw [placeAll_eq_flatMap]
    exact mapM_flatMap_eq_ok h
  obtain ⟨nested, blocked⟩ := blocked_of_lines hl lines
  refine ⟨nested, blocked, ?_⟩
  intro us s vs hv hs
  rw [hv] at nested
  obtain ⟨body, t, hm⟩ := nested.balanced.exists_matched hs
  exact ⟨body, t, hm, nested.spaces_matched hs hm, fun body' t' => hm.unique⟩

/-- A repetition that holds a brace in a text and a repetition of nothing, before a text that begins
like a loop. -/
def bracedActions : List Action := [
  { kind := .repetition, count := some 3, actions := [
    { kind := .print, component := some "lcd", value := some (.text "\x7d") },
    { kind := .repetition, count := some 2 }] },
  { kind := .print, component := some "lcd", value := some (.text "for (") }]

theorem nested_of_actionLines_braced :
    bracedActions.mapM (Sketch.actionLines 1) = .ok [
      ["  for (int i = 0; i < 3; i++) \x7b", "    Serial.println(\"\x7d\");",
        "    for (int i = 0; i < 2; i++) \x7b", "    \x7d", "  \x7d"],
      ["  Serial.println(\"for (\");"]] ∧
    ∃ ts, ts.length = 6 ∧ Nested 1 ts ∧ Blocked 1 bracedActions ts ∧
      ∀ us s vs, ts = us ++ s :: vs → Opens s →
        ∃ body t, Matched vs body t ∧ spaces t.toList = spaces s.toList := by
  have lines : bracedActions.mapM (Sketch.actionLines 1) = .ok [
      ["  for (int i = 0; i < 3; i++) \x7b", "    Serial.println(\"\x7d\");",
        "    for (int i = 0; i < 2; i++) \x7b", "    \x7d", "  \x7d"],
      ["  Serial.println(\"for (\");"]] := eq_ok_of_toOption (by decide +kernel)
  obtain ⟨nested, blocked, ends⟩ := nested_of_actionLines (by decide) lines
  refine ⟨lines, _, rfl, nested, blocked, fun us s vs hv hs => ?_⟩
  obtain ⟨body, t, matched, spaces, -⟩ := ends us s vs hv hs
  exact ⟨body, t, matched, spaces⟩

end BlockSketch
