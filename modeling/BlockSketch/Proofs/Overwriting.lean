import BlockSketch.Proofs.Places

/-! # Overwriting

A file that is overwritten holds other bytes, but no path leads anywhere else than before. Directories
are only made where a path does not lead on.
-/

namespace BlockSketch

namespace Entry

variable {e new : Entry} {place q : List String} {old bytes : List UInt8}

def isFile : Entry → Bool
  | file _ => true
  | directory _ => false

/-- Both have files and directories at the same places. -/
def Alike (e f : Entry) : Prop := ∀ place, (e.at? place).map isFile = (f.at? place).map isFile

theorem Alike.isDirectoryAt {f : Entry} (h : Alike e f) (hd : e.IsDirectoryAt place) :
    f.IsDirectoryAt place := by
  obtain ⟨entries, hd⟩ := hd
  have hf := h place
  rw [hd] at hf
  obtain ⟨g, hg, hk⟩ := Option.map_eq_some_iff.mp hf.symm
  cases g with
  | file bytes => cases hk
  | directory entries => exact ⟨entries, hg⟩

theorem Alike.symm {f : Entry} (h : Alike e f) : Alike f e := fun place => (h place).symm

theorem alike_put (h : e.at? place = some (file old)) : Alike e (e.put (file bytes) place) := by
  intro q
  -- Beside the way to the place nothing changes, and on the way there are directories before and after.
  induction place generalizing e q with
  | nil =>
    obtain rfl := Option.some.inj h
    cases q <;> rfl
  | cons n ns ih =>
    obtain ⟨f, hf, h⟩ := Option.bind_eq_some_iff.mp h
    cases q with
    | nil =>
      cases e with
      | file bytes => cases hf
      | directory entries => rfl
    | cons m ms =>
      rw [put, hf, at?, at?, children]
      by_cases hm : m = n
      · rw [hm, lookup_setChild, hf]
        exact ih h ms
      · rw [lookup_setChild_of_ne hm]

end Entry

namespace FileTree

variable {root root' : Entry} {trail trail' : List (String × Option Entry)} {names : List String}
  {n : String} {t t' u : FileTree} {p q : Path} {spot : Spot} {fault : FileFault}
  {old bytes : List UInt8}

/-! ## Where paths lead -/

theorem follow_of_not_directory (h : Trails root trail)
    (hd : ¬ root.IsDirectoryAt (trailPlace trail)) : follow root trail (n :: names) =
      .error (if ((root.at? (trailPlace trail)).map Entry.isFile).isSome then .notDirectory
        else .missing) := by
  rw [follow, h.last]
  cases he : root.at? (trailPlace trail) with
  | none => rfl
  | some e =>
    cases e with
    | file bytes => rfl
    | directory entries => exact absurd ⟨entries, he⟩ hd

/-- A path leads to the same kind of entry in trees that are alike. -/
theorem follow_alike (ha : root.Alike root') (h : Trails root trail) (h' : Trails root' trail')
    (ht : trail'.map Prod.fst = trail.map Prod.fst) :
    (follow root' trail' names).map (fun spot => spot.entry.map Entry.isFile) =
      (follow root trail names).map fun spot => spot.entry.map Entry.isFile := by
  -- The trails have come to the same place with entries of their own trees.
  have hp : trailPlace trail' = trailPlace trail := congrArg List.reverse ht
  induction names generalizing trail trail' with
  | nil =>
    rw [follow, follow, h.last, h'.last, hp]
    exact congrArg Except.ok (ha _).symm
  | cons n ns ih =>
    by_cases hd : root.IsDirectoryAt (trailPlace trail)
    · rw [follow_cons h hd, follow_cons h' (hp ▸ ha.isDirectoryAt hd)]
      split
      · have ht' : trail'.tail.map Prod.fst = trail.tail.map Prod.fst := by
          rw [List.map_tail, ht, List.map_tail]
        exact ih h.tail h'.tail ht' (congrArg List.reverse ht')
      · split
        · rfl
        · have ht' : ((n, root'.at? (trailPlace trail' ++ [n])) :: trail').map Prod.fst =
              ((n, root.at? (trailPlace trail ++ [n])) :: trail).map Prod.fst := by
            rw [List.map_cons, List.map_cons, ht]
          exact ih (.cons h) (.cons h') ht' (congrArg List.reverse ht')
    · have hd' : ¬ root'.IsDirectoryAt (trailPlace trail') :=
        fun hd' => hd (hp ▸ ha.symm.isDirectoryAt hd')
      rw [follow_of_not_directory h hd, follow_of_not_directory h' hd', hp, ha]

/-- Whether a path leads anywhere, by what it leads to. -/
theorem exists?_eq : t.exists? p =
    match (t.locate p).map fun spot => spot.entry.map Entry.isFile with
    | .ok kind => .ok kind.isSome
    | .error (.system .nameTooLong path) => .error (.system .nameTooLong path)
    | .error _ => .ok false := by
  rw [exists?, entry]
  cases t.locate p with
  | error fault =>
    cases fault with
    | system problem path => cases problem <;> rfl
    | _ => rfl
  | ok spot =>
    obtain ⟨place, e⟩ := spot
    cases e <;> rfl

theorem exists?_of_locate {e : Entry} {place : List String}
    (h : t.locate p = .ok ⟨place, some e⟩) : t.exists? p = .ok true := by
  rw [exists?_eq, h]
  rfl

theorem locate_alike (ha : t.root.Alike t'.root) (hc : t'.cwd = t.cwd) :
    (t'.locate p).map (fun spot => spot.entry.map Entry.isFile) =
      (t.locate p).map fun spot => spot.entry.map Entry.isFile := by
  have hf (names : List String) :
      (follow t'.root [] names).map (fun spot => spot.entry.map Entry.isFile) =
        (follow t.root [] names).map fun spot => spot.entry.map Entry.isFile :=
    follow_alike ha .nil .nil rfl
  rw [locate, locate, hc]
  cases checkSystemText p.text with
  | error fault => rfl
  | ok _ =>
    simp only [bind, Except.bind]
    split
    · rfl
    · exact (map_mapError _ _ _).trans ((congrArg _ (hf _)).trans (map_mapError _ _ _).symm)

/-- The paths that lead anywhere are the same after a file is overwritten. -/
theorem exists?_put (h : t.locate p = .ok spot) (he : spot.entry = some (.file old)) :
    (t.put spot.place (.file bytes)).exists? q = t.exists? q := by
  have hf := entry_of_follow .nil (locate_eq_ok.mp h).2.2
  have ha : t.root.Alike (t.root.put (.file bytes) spot.place) := Entry.alike_put (hf ▸ he)
  have hl : ((t.put spot.place (.file bytes)).locate q).map _ = (t.locate q).map _ :=
    locate_alike ha rfl
  rw [exists?_eq, exists?_eq, hl]

/-! ## Directories on the way -/

/-- A path that leads somewhere leads to something on the way. -/
theorem exists_follow_of_append (hf : follow root trail (names ++ [n]) = .ok spot) :
    ∃ place e, follow root trail names = .ok ⟨place, some e⟩ := by
  induction names generalizing trail with
  | nil =>
    rw [List.nil_append, follow] at hf
    cases he : (trail.head?.map Prod.snd).getD (some root) with
    | none => simp [he] at hf
    | some e => exact ⟨_, e, by rw [follow, he]⟩
  | cons m ms ih =>
    rw [List.cons_append, follow] at hf
    rw [follow]
    cases he : (trail.head?.map Prod.snd).getD (some root) with
    | none => simp [he] at hf
    | some e =>
      cases e with
      | file bytes => simp [he] at hf
      | directory entries =>
        simp only [he] at hf ⊢
        split
        · next hup =>
          rw [if_pos hup] at hf
          exact ih hf
        · next hup =>
          rw [if_neg hup] at hf
          split
          · next hlong =>
            rw [if_pos hlong] at hf
            cases hf
          · next hlong =>
            rw [if_neg hlong] at hf
            exact ih hf

theorem checkSystemText_ne_missing {s path : String} :
    checkSystemText s ≠ .error (.system .missing path) := by
  rw [checkSystemText]
  split
  · nofun
  · split <;> nofun

/-- The directory of a path that leads somewhere is not made, since it is there. -/
theorem makeDirectory_parent (ha : p.isAbsolute = true) (hn : p.names = names ++ [n])
    (h : t.locate p = .ok spot) :
    ∃ fault, t.makeDirectory p.parent = .error fault ∧ ∀ path, fault ≠ .system .missing path := by
  have hf := (locate_eq_ok.mp h).2.2
  rw [if_pos ha, hn] at hf
  obtain ⟨place, e, hf⟩ := exists_follow_of_append hf
  have hp : p.parent.names = names := by simp [hn]
  have hb : p.parent.isAbsolute = true := ha
  rw [makeDirectory, locate, hb, if_pos rfl, hp, hf]
  cases hc : checkSystemText p.parent.text with
  | error fault => exact ⟨fault, rfl, fun path hm => checkSystemText_ne_missing (hm ▸ hc)⟩
  | ok _ =>
    by_cases hl : maxPathBytes < p.parent.text.utf8ByteSize
    · rw [if_pos hl]
      exact ⟨_, rfl, by simp⟩
    · rw [if_neg hl]
      exact ⟨_, rfl, by simp⟩

theorem makeDirectories_eq_self {count : Nat} (h : t.makeDirectory p = .error fault)
    (hm : ∀ path, fault ≠ .system .missing path) (hd : t.makeDirectories p count = .ok t') :
    t' = t := by
  cases count with
  | zero => cases hd
  | succ count =>
    rw [makeDirectories, h] at hd
    split at hd
    · next he => cases he
    · next he => exact absurd (Except.error.inj he) (hm _)
    · split at hd
      · exact (Except.ok.inj hd).symm
      · cases hd

theorem cwd_makeDirectory (h : t.makeDirectory p = .ok t') : t'.cwd = t.cwd := by
  obtain ⟨spot, -, h⟩ := bind_eq_ok_iff.mp h
  split at h
  · cases h
  · cases h
    rfl

theorem cwd_makeDirectories {count : Nat} (h : t.makeDirectories p count = .ok t') :
    t'.cwd = t.cwd := by
  induction count generalizing t t' p with
  | zero => cases h
  | succ count ih =>
    rw [makeDirectories] at h
    split at h
    · next hm =>
      cases h
      exact cwd_makeDirectory hm
    · split at h
      · cases h
      · obtain ⟨u, hu, h⟩ := bind_eq_ok_iff.mp h
        split at h
        · next hm =>
          cases h
          exact (cwd_makeDirectory hm).trans (ih hu)
        · split at h
          · cases h
            exact ih hu
          · cases h
    · split at h
      · cases h
        rfl
      · cases h

/-! ## Texts in files -/

theorem locate_of_exists? (h : t.exists? p = .ok true) :
    ∃ place e, t.locate p = .ok ⟨place, some e⟩ := by
  rw [exists?_eq] at h
  cases hl : t.locate p with
  | error fault =>
    rw [hl] at h
    cases fault with
    | system problem path => cases problem <;> cases h
    | _ => cases h
  | ok spot =>
    obtain ⟨place, e⟩ := spot
    rw [hl] at h
    cases e with
    | none => cases h
    | some e => exact ⟨place, e, rfl⟩

theorem read_of_locate {place : List String} (h : t.locate p = .ok ⟨place, some (.file bytes)⟩) :
    t.read p = .ok bytes := by
  rw [read, entry, h]
  rfl

/-- A text is written over whatever the file holds, in two steps. -/
theorem writeText_eq_ok {text : String} (h : t.writeText p text = .ok t') :
    ∃ spot bytes, t.locate p = .ok spot ∧ (∀ entries, spot.entry ≠ some (.directory entries)) ∧
      Utf8.encodeStrictly text.toList = .ok bytes ∧
      t' = (t.put spot.place (.file [])).put spot.place (.file bytes) ∧
      (t.put spot.place (.file [])).locate p = .ok ⟨spot.place, some (.file [])⟩ := by
  rw [writeText] at h
  obtain ⟨u, hu, h⟩ := bind_eq_ok_iff.mp h
  obtain ⟨spot, hl, hd, rfl⟩ := write_eq_ok.mp hu
  obtain ⟨bytes, hb, h⟩ := bind_eq_ok_iff.mp h
  have hm : (t.put spot.place (.file [])).locate p = .ok ⟨spot.place, some (.file [])⟩ :=
    locate_put hl hd
  obtain ⟨spot', hl', -, rfl⟩ := write_eq_ok.mp h
  obtain rfl := Except.ok.inj (hm.symm.trans hl')
  exact ⟨spot, bytes, hl, hd, mapError_eq_ok_iff.mp hb, rfl, hm⟩

/-- A text that was written is there. -/
theorem locate_writeText {text : String} (h : t.writeText p text = .ok t') :
    ∃ place bytes, Utf8.encodeStrictly text.toList = .ok bytes ∧
      t'.locate p = .ok ⟨place, some (.file bytes)⟩ := by
  obtain ⟨spot, bytes, -, -, hb, rfl, hm⟩ := writeText_eq_ok h
  have hp : ((t.put spot.place (.file [])).put (Spot.mk spot.place (some (.file []))).place
      (.file bytes)).locate p = .ok ⟨spot.place, some (.file bytes)⟩ := locate_put hm (by simp)
  exact ⟨spot.place, bytes, hb, hp⟩

/-- A text that can be encoded is written to a place that is no directory. As far as paths go, the
file could as well be empty. -/
theorem exists_writeText {text : String} (h : t.locate p = .ok spot)
    (hd : ∀ entries, spot.entry ≠ some (.directory entries))
    (hb : Utf8.encodeStrictly text.toList = .ok bytes) : ∃ t', t.writeText p text = .ok t' ∧
      ∀ q, t'.exists? q = (t.put spot.place (.file [])).exists? q := by
  have hm : (t.put spot.place (.file [])).locate p = .ok ⟨spot.place, some (.file [])⟩ :=
    locate_put h hd
  have hw : t.write p [] = .ok (t.put spot.place (.file [])) := write_eq_ok.mpr ⟨spot, h, hd, rfl⟩
  refine ⟨_, bind_eq_ok_iff.mpr ⟨_, hw, bind_eq_ok_iff.mpr ⟨bytes, ?_,
    write_eq_ok.mpr ⟨_, hm, by simp, rfl⟩⟩⟩, fun q => exists?_put hm rfl⟩
  exact mapError_eq_ok_iff.mpr hb

theorem cwd_writeText {text : String} (h : t.writeText p text = .ok t') : t'.cwd = t.cwd := by
  obtain ⟨spot, bytes, -, -, -, rfl, -⟩ := writeText_eq_ok h
  rfl

theorem exists?_writeText {text : String} (h : t.writeText p text = .ok t')
    (he : t.exists? p = .ok true) : t'.exists? q = t.exists? q := by
  obtain ⟨spot, bytes, hl, hd, -, rfl, hm⟩ := writeText_eq_ok h
  obtain ⟨place, e, hl'⟩ := locate_of_exists? he
  obtain rfl := Except.ok.inj (hl'.symm.trans hl)
  cases e with
  | directory entries => exact absurd rfl (hd entries)
  | file old => exact (exists?_put hm rfl).trans (exists?_put hl rfl)

/-- Writing to a file that is there, its directory having been made sure of, moves nothing. -/
theorem exists?_ensured {text : String} (ha : p.isAbsolute = true) (hn : p.names = names ++ [n])
    (he : t.exists? p = .ok true) (hu : t.ensureDirectory p.parent = .ok u)
    (h : u.writeText p text = .ok t') : t'.exists? q = t.exists? q := by
  obtain ⟨place, e, hl⟩ := locate_of_exists? he
  obtain ⟨fault, hf, hm⟩ := makeDirectory_parent ha hn hl
  obtain rfl := makeDirectories_eq_self hf hm hu
  exact exists?_writeText h he

end FileTree

end BlockSketch
