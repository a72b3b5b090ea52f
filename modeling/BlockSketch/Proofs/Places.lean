import BlockSketch.Files.Tree
import BlockSketch.Proofs.Outcome

/-! # Places in file trees

Following a path keeps a trail of the entries that it passes. The trail only repeats what stands in
the tree, so a path that leads to a place still leads there after a file is written to it.
-/

namespace BlockSketch

namespace Entry

variable {e new : Entry} {place q : List String}

theorem at?_append (e : Entry) (p q : List String) :
    e.at? (p ++ q) = (e.at? p).bind fun f => f.at? q := by
  induction p generalizing e with
  | nil => rfl
  | cons n ns ih =>
    rw [List.cons_append, at?, at?]
    cases e.children.lookup n with
    | none => rfl
    | some f => exact ih f

theorem lookup_setChild_of_ne {n m : String} (h : m ≠ n) (f : Entry) (fs : List (String × Entry)) :
    (setChild n f fs).lookup m = fs.lookup m := by
  have hm : (m == n) = false := by simpa using h
  induction fs with
  | nil => simp [setChild, List.lookup_cons, hm]
  | cons g fs ih =>
    obtain ⟨k, g⟩ := g
    rw [setChild]
    split
    · next hk =>
      obtain rfl : n = k := by simpa using hk
      simp [List.lookup_cons, hm]
    · rw [List.lookup_cons, List.lookup_cons, ih]

/-- There is a directory at the place. -/
def IsDirectoryAt (e : Entry) (place : List String) : Prop :=
  ∃ entries, e.at? place = some (directory entries)

/-- Directories stay where they are when something is put elsewhere. -/
theorem isDirectoryAt_put (hp : ¬ e.IsDirectoryAt place) (hq : e.IsDirectoryAt q) :
    (e.put new place).IsDirectoryAt q := by
  induction place generalizing e q with
  | nil =>
    obtain ⟨entries, hq⟩ := hq
    cases e with
    | directory fs => exact absurd ⟨fs, rfl⟩ hp
    | file bytes => cases q <;> cases hq
  | cons n ns ih =>
    cases q with
    | nil => exact ⟨_, rfl⟩
    | cons m ms =>
      obtain ⟨entries, hq⟩ := hq
      rw [at?] at hq
      by_cases hm : m = n
      · subst hm
        obtain ⟨f, hf, hq⟩ := Option.bind_eq_some_iff.mp hq
        have hn : ¬ f.IsDirectoryAt ns := by
          rintro ⟨fs, h⟩
          exact hp ⟨fs, by rw [at?, hf]; exact h⟩
        obtain ⟨fs, h⟩ := ih hn ⟨entries, hq⟩
        refine ⟨fs, ?_⟩
        rw [put, hf, at?, children, lookup_setChild]
        exact h
      · refine ⟨entries, ?_⟩
        rw [put, at?, children, lookup_setChild_of_ne hm]
        exact hq

end Entry

namespace FileTree

variable {root new : Entry} {trail trail' : List (String × Option Entry)} {names : List String}
  {t t' : FileTree} {p : Path} {spot : Spot} {bytes : List UInt8}

/-- The place to which a trail has come. -/
def trailPlace (trail : List (String × Option Entry)) : List String := (trail.map Prod.fst).reverse

/-- Every step of the trail has what stands in the tree. -/
inductive Trails (root : Entry) : List (String × Option Entry) → Prop where
  | nil : Trails root []
  | cons {n : String} {trail : List (String × Option Entry)} : Trails root trail →
      Trails root ((n, root.at? (trailPlace trail ++ [n])) :: trail)

theorem Trails.last (h : Trails root trail) :
    (trail.head?.map Prod.snd).getD (some root) = root.at? (trailPlace trail) := by
  cases h with
  | nil => rfl
  | cons h => simp [trailPlace]

theorem Trails.tail (h : Trails root trail) : Trails root trail.tail := by
  cases h with
  | nil => exact .nil
  | cons h => exact h

theorem isDirectoryAt_of_follow {n : String} (h : Trails root trail)
    (hf : follow root trail (n :: names) = .ok spot) : root.IsDirectoryAt (trailPlace trail) := by
  rw [follow, h.last] at hf
  cases hd : root.at? (trailPlace trail) with
  | none => simp [hd] at hf
  | some e =>
    cases e with
    | file bytes => simp [hd] at hf
    | directory entries => exact ⟨entries, hd⟩

/-- From a directory, a name leads back or to what stands in the tree. -/
theorem follow_cons {n : String} (h : Trails root trail)
    (hd : root.IsDirectoryAt (trailPlace trail)) :
    follow root trail (n :: names) =
      if n = ".." then follow root trail.tail names
      else if maxNameBytes < n.utf8ByteSize then .error .nameTooLong
      else follow root ((n, root.at? (trailPlace trail ++ [n])) :: trail) names := by
  obtain ⟨entries, hd⟩ := hd
  have hn : root.at? (trailPlace trail ++ [n]) = entries.lookup n := by
    rw [Entry.at?_append, hd]
    cases hl : entries.lookup n <;> simp [Entry.at?, Entry.children, hl]
  rw [follow, h.last, hd, hn]

/-- What a path leads to is what stands at its place. -/
theorem entry_of_follow (h : Trails root trail) (hf : follow root trail names = .ok spot) :
    spot.entry = root.at? spot.place := by
  induction names generalizing trail with
  | nil =>
    rw [follow, h.last] at hf
    cases hf
    rfl
  | cons n ns ih =>
    rw [follow_cons h (isDirectoryAt_of_follow h hf)] at hf
    split at hf
    · exact ih h.tail hf
    · split at hf
      · cases hf
      · exact ih (.cons h) hf

/-- Names that lead on still do where all directories have stayed. -/
theorem follow_of_directories {root' : Entry} (hd : ∀ q, root.IsDirectoryAt q → root'.IsDirectoryAt q)
    (h : Trails root trail) (h' : Trails root' trail')
    (ht : trail'.map Prod.fst = trail.map Prod.fst) (hf : follow root trail names = .ok spot) :
    follow root' trail' names = .ok ⟨spot.place, root'.at? spot.place⟩ := by
  have hp : trailPlace trail' = trailPlace trail := congrArg List.reverse ht
  induction names generalizing trail trail' with
  | nil =>
    rw [follow] at hf ⊢
    cases hf
    rw [h'.last, ht, hp]
    rfl
  | cons n ns ih =>
    have directory := isDirectoryAt_of_follow h hf
    rw [follow_cons h directory] at hf
    rw [follow_cons h' (hp ▸ hd _ directory)]
    split
    · next hup =>
      rw [if_pos hup] at hf
      have ht' : trail'.tail.map Prod.fst = trail.tail.map Prod.fst := by
        rw [List.map_tail, ht, List.map_tail]
      exact ih h.tail h'.tail ht' hf (congrArg List.reverse ht')
    · next hup =>
      rw [if_neg hup] at hf
      split
      · next hlong =>
        rw [if_pos hlong] at hf
        cases hf
      · next hlong =>
        rw [if_neg hlong] at hf
        have ht' : ((n, root'.at? (trailPlace trail' ++ [n])) :: trail').map Prod.fst =
            ((n, root.at? (trailPlace trail ++ [n])) :: trail).map Prod.fst := by
          rw [List.map_cons, List.map_cons, ht]
        exact ih (.cons h) (.cons h') ht' hf (congrArg List.reverse ht')

theorem locate_eq_ok : t.locate p = .ok spot ↔
    checkSystemText p.text = .ok () ∧ p.text.utf8ByteSize ≤ maxPathBytes ∧
      follow t.root [] (if p.isAbsolute then p.names else t.cwd ++ p.names) = .ok spot := by
  rw [locate]
  cases checkSystemText p.text with
  | error fault => simp [bind, Except.bind]
  | ok u =>
    by_cases hl : maxPathBytes < p.text.utf8ByteSize
    · simp [hl, Nat.not_le.mpr hl, throw, throwThe, MonadExceptOf.throw, bind, Except.bind]
    · simp [hl, Nat.not_lt.mp hl, mapError_eq_ok_iff, bind, Except.bind]

theorem locate_of_directories (h : t.locate p = .ok spot) (hc : t'.cwd = t.cwd)
    (hd : ∀ q, t.root.IsDirectoryAt q → t'.root.IsDirectoryAt q) :
    t'.locate p = .ok ⟨spot.place, t'.root.at? spot.place⟩ := by
  obtain ⟨ht, hl, hf⟩ := locate_eq_ok.mp h
  refine locate_eq_ok.mpr ⟨ht, hl, ?_⟩
  rw [hc]
  exact follow_of_directories hd .nil .nil rfl hf

/-- A place that a path leads to is a directory only if one is found there. -/
theorem not_isDirectoryAt_of_locate (h : t.locate p = .ok spot)
    (hs : ∀ entries, spot.entry ≠ some (.directory entries)) : ¬ t.root.IsDirectoryAt spot.place := by
  rintro ⟨entries, hd⟩
  exact hs entries ((entry_of_follow .nil (locate_eq_ok.mp h).2.2).trans hd)

/-- What a file is put at is found there: the place itself is no directory, so every directory on the
way is still there. -/
theorem locate_put (h : t.locate p = .ok spot)
    (hs : ∀ entries, spot.entry ≠ some (.directory entries)) :
    (t.put spot.place new).locate p = .ok ⟨spot.place, some new⟩ := by
  have kept (q : List String) (hq : t.root.IsDirectoryAt q) :
      (t.put spot.place new).root.IsDirectoryAt q :=
    Entry.isDirectoryAt_put (not_isDirectoryAt_of_locate h hs) hq
  have found := locate_of_directories h (show (t.put spot.place new).cwd = t.cwd from rfl) kept
  rwa [put, Entry.at?_put] at found

theorem write_eq_ok : t.write p bytes = .ok t' ↔ ∃ spot, t.locate p = .ok spot ∧
    (∀ entries, spot.entry ≠ some (.directory entries)) ∧ t.put spot.place (.file bytes) = t' := by
  rw [write, bind_eq_ok_iff]
  refine exists_congr fun spot => and_congr_right fun _ => ?_
  split
  · next hd => simp [hd, throw, throwThe, MonadExceptOf.throw]
  · next hd => rw [pure_eq_ok_iff, and_iff_right hd]

end FileTree

end BlockSketch
