import BlockSketch.Proofs.Blocking
import BlockSketch.Proofs.Overwriting

/-! # Traces of exports

An export that is refused leaves the files as they were. One that succeeds makes the directories that
were missing on the way to its target and writes the target, and changes nothing else.
-/

namespace BlockSketch

namespace Entry

variable {e new : Entry} {place q : List String} {n : String}

/-- The bytes of a file; a directory has none. -/
def bytes? : Entry → Option (List UInt8)
  | file bytes => some bytes
  | directory _ => none

theorem IsDirectoryAt.dropLast (h : e.IsDirectoryAt place) : e.IsDirectoryAt place.dropLast := by
  rcases List.eq_nil_or_concat place with rfl | ⟨names, n, rfl⟩
  · exact h
  · obtain ⟨entries, h⟩ := h
    rw [List.concat_eq_append, at?_append] at h
    rw [List.concat_eq_append, List.dropLast_concat]
    cases hf : e.at? names with
    | none => simp [hf] at h
    | some f =>
      cases f with
      | file bytes => simp [hf, at?, children] at h
      | directory entries => exact ⟨entries, hf⟩

theorem at?_of_childless (hn : e.children = []) (hq : q ≠ []) : e.at? q = none := by
  cases q with
  | nil => exact absurd rfl hq
  | cons m ms =>
    rw [at?, hn]
    rfl

theorem isDirectoryAt_nil_of_isDirectoryAt (h : e.IsDirectoryAt place) : e.IsDirectoryAt [] := by
  cases e with
  | directory entries => exact ⟨entries, rfl⟩
  | file bytes =>
    obtain ⟨entries, h⟩ := h
    cases place <;> cases h

theorem isDirectoryAt_cons_iff : e.IsDirectoryAt (n :: place) ↔
    ∃ f, e.children.lookup n = some f ∧ f.IsDirectoryAt place := by
  simp only [IsDirectoryAt, at?, Option.bind_eq_some_iff]
  exact exists_comm.trans (exists_congr fun f => exists_and_left)

/-- Something without children is put in a directory, and no other directory is in its place. Then
nothing changes at other places. -/
theorem bytes?_put (hn : new.children = []) (hd : place = [] ∨ e.IsDirectoryAt place.dropLast)
    (he : ¬ e.IsDirectoryAt place) (hq : q ≠ place) :
    ((e.put new place).at? q).map bytes? = (e.at? q).map bytes? := by
  induction place generalizing e q with
  | nil =>
    cases e with
    | directory entries => exact absurd ⟨entries, rfl⟩ he
    | file bytes => rw [put, at?_of_childless hn hq, at?_of_childless rfl hq]
  | cons n ns ih =>
    have hd := hd.resolve_left (by simp)
    cases q with
    | nil =>
      obtain ⟨entries, h⟩ := isDirectoryAt_nil_of_isDirectoryAt hd
      obtain rfl := Option.some.inj h
      rfl
    | cons m ms =>
      rw [put, at?, at?, children]
      by_cases hm : m = n
      · subst hm
        have hms : ms ≠ ns := fun h => hq (congrArg (m :: ·) h)
        rw [lookup_setChild, Option.bind_some]
        cases hf : e.children.lookup m with
        | some f =>
          refine ih ?_ (fun h => he (isDirectoryAt_cons_iff.mpr ⟨f, hf, h⟩)) hms
          cases ns with
          | nil => exact .inl rfl
          | cons k ks =>
            obtain ⟨g, hg, h⟩ := isDirectoryAt_cons_iff.mp hd
            obtain rfl := Option.some.inj (hf.symm.trans hg)
            exact .inr h
        | none =>
          cases ns with
          | nil =>
            rw [Option.getD_none, put, at?_of_childless hn hms]
            rfl
          | cons k ks =>
            obtain ⟨g, hg, -⟩ := isDirectoryAt_cons_iff.mp hd
            cases hf.symm.trans hg
      · rw [lookup_setChild_of_ne hm]

end Entry

namespace FileTree

variable {root : Entry} {trail : List (String × Option Entry)} {names : List String}
  {t t' u : FileTree} {p : Path} {spot : Spot} {place q : List String} {bytes : List UInt8}

/-! ## Places -/

/-- What stands at a place, apart from what stands in it: a file with its bytes, or a directory. -/
def holds (t : FileTree) (place : List String) : Option (Option (List UInt8)) :=
  (t.root.at? place).map Entry.bytes?

theorem trailPlace_tail (trail : List (String × Option Entry)) :
    trailPlace trail.tail = (trailPlace trail).dropLast := by
  rw [trailPlace, trailPlace, List.map_tail, List.dropLast_reverse]

theorem trailPlace_cons {n : String} {o : Option Entry} :
    trailPlace ((n, o) :: trail) = trailPlace trail ++ [n] := by
  simp [trailPlace]

/-- What a path leads to is one of its places, and stands in a directory unless it is the root. -/
theorem place_of_follow (h : Trails root trail)
    (hd : trailPlace trail = [] ∨ root.IsDirectoryAt (trailPlace trail).dropLast)
    (hf : follow root trail names = .ok spot) :
    spot.place ∈ Path.placesFrom (trailPlace trail) names ∧
      (spot.place = [] ∨ root.IsDirectoryAt spot.place.dropLast) := by
  induction names generalizing trail with
  | nil =>
    rw [follow] at hf
    obtain rfl := Except.ok.inj hf
    exact ⟨List.mem_cons_self, hd⟩
  | cons n ns ih =>
    have directory := isDirectoryAt_of_follow h hf
    rw [follow_cons h directory] at hf
    rw [Path.placesFrom, List.mem_cons]
    split at hf
    · next hup =>
      rw [if_pos hup, ← trailPlace_tail]
      refine (ih h.tail ?_ hf).imp_left .inr
      rw [trailPlace_tail]
      exact .inr directory.dropLast.dropLast
    · next hup =>
      split at hf
      · cases hf
      · rw [if_neg hup, ← trailPlace_cons]
        refine (ih (.cons h) ?_ hf).imp_left .inr
        rw [trailPlace_cons, List.dropLast_concat]
        exact .inr directory

theorem place_of_locate (h : t.locate p = .ok spot) : spot.place ∈ p.places t.cwd ∧
    (spot.place = [] ∨ t.root.IsDirectoryAt spot.place.dropLast) :=
  place_of_follow .nil (.inl rfl) (locate_eq_ok.mp h).2.2

theorem holds_of_locate (h : t.locate p = .ok spot) :
    t.holds spot.place = spot.entry.map Entry.bytes? := by
  rw [holds, entry_of_follow .nil (locate_eq_ok.mp h).2.2]

theorem holds_put_self {new : Entry} : (t.put place new).holds place = some new.bytes? := by
  rw [holds, put, Entry.at?_put]
  rfl

theorem holds_put {new : Entry} (h : t.locate p = .ok spot)
    (hd : ∀ entries, spot.entry ≠ some (.directory entries)) (hn : new.children = [])
    (hq : q ≠ spot.place) : (t.put spot.place new).holds q = t.holds q := by
  refine Entry.bytes?_put hn (place_of_locate h).2 ?_ hq
  rintro ⟨entries, he⟩
  exact hd entries ((entry_of_follow .nil (locate_eq_ok.mp h).2.2).trans he)

/-! ## Directories -/

/-- Apart from the written places, directories were made at some of the given places, where nothing
stood before, and nothing else has changed. -/
structure Grown (places written : List (List String)) (t t' : FileTree) : Prop where
  cwd : t'.cwd = t.cwd
  holds : ∀ q, q ∉ written →
    t'.holds q = t.holds q ∨ q ∈ places ∧ t.holds q = none ∧ t'.holds q = some none

namespace Grown

variable {places places' written written' : List (List String)}

theorem refl (places written : List (List String)) (t : FileTree) : Grown places written t t :=
  ⟨rfl, fun _ _ => .inl rfl⟩

theorem trans (h : Grown places written t t') (h' : Grown places written t' u) :
    Grown places written t u := by
  refine ⟨h'.cwd.trans h.cwd, fun q hw => ?_⟩
  rcases h.holds q hw with hs | ⟨hq, hn, hd⟩ <;> rcases h'.holds q hw with hs' | ⟨hq', hn', hd'⟩
  · exact .inl (hs'.trans hs)
  · exact .inr ⟨hq', hs.symm.trans hn', hd'⟩
  · exact .inr ⟨hq, hn, hs'.trans hd⟩
  · cases hd.symm.trans hn'

theorem mono (h : Grown places written t t') (hp : places ⊆ places') (hw : written ⊆ written') :
    Grown places' written' t t' :=
  ⟨h.cwd, fun q hq => (h.holds q fun hm => hq (hw hm)).imp_right (And.imp_left (hp ·))⟩

end Grown

theorem grown_makeDirectory (h : t.makeDirectory p = .ok t') :
    Grown (p.places t.cwd) [] t t' := by
  obtain ⟨spot, hl, h⟩ := bind_eq_ok_iff.mp h
  split at h
  · cases h
  · next hn =>
    obtain rfl := pure_eq_ok_iff.mp h
    refine ⟨rfl, fun q _ => ?_⟩
    by_cases hq : q = spot.place
    · subst hq
      refine .inr ⟨(place_of_locate hl).1, ?_, holds_put_self⟩
      rw [holds_of_locate hl, hn]
      rfl
    · exact .inl (holds_put hl (by simp [hn]) rfl hq)

theorem placesFrom_subset {names' : List String} (h : names <+: names') (place : List String) :
    Path.placesFrom place names ⊆ Path.placesFrom place names' := by
  induction names generalizing place names' with
  | nil =>
    cases names' <;> simp [Path.placesFrom]
  | cons n ns ih =>
    obtain ⟨rest, rfl⟩ := h
    exact List.cons_subset_cons _ (ih (List.prefix_append ns rest) _)

/-- A path passes through the places of a path that it goes on from. -/
theorem places_subset {p' : Path} (hs : p.slashes = p'.slashes) (h : p.names <+: p'.names)
    (cwd : List String) : p.places cwd ⊆ p'.places cwd := by
  have ha : p.isAbsolute = p'.isAbsolute := by rw [Path.isAbsolute, Path.isAbsolute, hs]
  rw [Path.places, Path.places, ha]
  refine placesFrom_subset ?_ []
  split
  · exact h
  · exact (List.prefix_append_right_inj cwd).mpr h

theorem places_parent_subset (p : Path) (cwd : List String) :
    p.parent.places cwd ⊆ p.places cwd := by
  have slashes : p.parent.slashes = p.slashes := rfl
  exact places_subset slashes (List.dropLast_prefix p.names) cwd

/-- Whether or not all directories can be made, nothing else is done. -/
theorem grown_attemptDirectories (t : FileTree) (p : Path) (count : Nat) :
    Grown (p.places t.cwd) [] t (t.attemptDirectories p count).2 := by
  induction count generalizing t p with
  | zero => exact .refl _ _ t
  | succ count ih =>
    rw [attemptDirectories]
    split
    · next hm => exact grown_makeDirectory hm
    · split
      · exact .refl _ _ t
      · have parents : Grown (p.places t.cwd) [] t (t.attemptDirectories p.parent count).2 :=
          (ih t p.parent).mono (places_parent_subset p _) (List.Subset.refl _)
        split
        · next hp => exact hp ▸ parents
        · next u hp =>
          rw [hp] at parents
          split
          · next hm =>
            have last := grown_makeDirectory hm
            rw [parents.cwd] at last
            exact parents.trans last
          · exact parents
    · exact .refl _ _ t

/-- The directories that are made or not are those of `makeDirectories`. -/
theorem makeDirectories_eq (t : FileTree) (p : Path) (count : Nat) :
    t.makeDirectories p count =
      (t.attemptDirectories p count).1.map fun _ => (t.attemptDirectories p count).2 := by
  induction count generalizing t p with
  | zero => rfl
  | succ count ih =>
    rw [makeDirectories, attemptDirectories]
    split
    · rfl
    · split
      · rfl
      · rw [ih]
        obtain ⟨outcome, u⟩ := t.attemptDirectories p.parent count
        cases outcome with
        | error fault => rfl
        | ok _ =>
          simp only [Except.map, bind, Except.bind]
          cases u.makeDirectory p with
          | ok _ => rfl
          | error fault => cases u.isDirectory p <;> rfl
    · cases t.isDirectory p <;> rfl

theorem writeText_eq (t : FileTree) (p : Path) (text : String) :
    t.writeText p text = (t.attemptText p text).1.map fun _ => (t.attemptText p text).2 := by
  rw [writeText, attemptText]
  cases t.write p [] with
  | error fault => rfl
  | ok u =>
    simp only [bind, Except.bind]
    cases Utf8.encodeStrictly text.toList with
    | error fault => rfl
    | ok bytes =>
      simp only [Except.mapError]
      cases u.write p bytes <;> rfl

/-! ## Files -/

/-- The path leads to a file with the given bytes. Elsewhere directories were made where nothing
stood on the way, and nothing else has changed. -/
structure Wrote (t t' : FileTree) (p : Path) (bytes : List UInt8) : Prop where
  read : t'.read p = .ok bytes
  others : ∃ spot, t'.locate p = .ok spot ∧ Grown (p.places t.cwd) [spot.place] t t'

theorem encode_of_encodeStrictly {s : List Char} (h : Utf8.encodeStrictly s = .ok bytes) :
    Utf8.encode s = bytes := by
  unfold Utf8.encodeStrictly at h
  split at h
  · exact Except.ok.inj h
  · cases h

theorem wrote_of_writeText {text : String} (h : t.writeText p text = .ok t') :
    Wrote t t' p (Utf8.encode text.toList) := by
  obtain ⟨spot, bytes, hl, hd, hb, rfl, hm⟩ := writeText_eq_ok h
  obtain rfl := encode_of_encodeStrictly hb
  have found : ((t.put spot.place (.file [])).put (Spot.mk spot.place (some (.file []))).place
      (.file (Utf8.encode text.toList))).locate p = .ok ⟨spot.place, some (.file _)⟩ :=
    locate_put hm (by simp)
  refine ⟨read_of_locate found, _, found, rfl, fun q hq => .inl ?_⟩
  have hq : q ≠ spot.place := fun he => hq (List.mem_singleton.mpr he)
  exact (holds_put hm (by simp) rfl hq).trans (holds_put hl hd rfl hq)

theorem root_mem_places (p : Path) (cwd : List String) : [] ∈ p.places cwd := by
  unfold Path.places
  cases (if p.isAbsolute then p.names else cwd ++ p.names) <;> exact List.mem_cons_self

/-- A text that cannot be encoded leaves an empty file. -/
theorem attemptText_of_unencodable {text : String} {fault : Text.EncodingFault}
    (h : t.locate p = .ok spot) (hd : ∀ entries, spot.entry ≠ some (.directory entries))
    (hb : Utf8.encodeStrictly text.toList = .error fault) :
    t.attemptText p text = (.error (.unencodable fault), t.put spot.place (.file [])) := by
  simp only [attemptText, write_eq_ok.mpr ⟨spot, h, hd, rfl⟩, hb]

/-- Whether or not a text can be written, no more than its file is changed. -/
theorem grown_attemptText (t : FileTree) (p : Path) (text : String) :
    ∃ q ∈ p.places t.cwd, Grown (p.places t.cwd) [q] t (t.attemptText p text).2 := by
  rw [attemptText]
  split
  · exact ⟨[], root_mem_places p _, .refl _ _ t⟩
  · next u hw =>
    obtain ⟨spot, hl, hd, rfl⟩ := write_eq_ok.mp hw
    have emptied : Grown (p.places t.cwd) [spot.place] t (t.put spot.place (.file [])) :=
      ⟨rfl, fun q hq => .inl (holds_put hl hd rfl fun he => hq (List.mem_singleton.mpr he))⟩
    refine ⟨spot.place, (place_of_locate hl).1, ?_⟩
    split
    · exact emptied
    · split
      · exact emptied
      · next v hw' =>
        obtain ⟨spot', hl', hd', rfl⟩ := write_eq_ok.mp hw'
        obtain rfl := Except.ok.inj ((locate_put hl hd).symm.trans hl')
        refine emptied.trans ⟨rfl, fun q hq => .inl ?_⟩
        exact holds_put hl' hd' rfl fun he => hq (List.mem_singleton.mpr he)

/-- Directories may be made first, at places that the path passes through. -/
theorem Grown.wrote (h : Grown (p.places t.cwd) [] t u) (hw : Wrote u t' p bytes) :
    Wrote t t' p bytes := by
  obtain ⟨hr, spot, hl, hg⟩ := hw
  rw [h.cwd] at hg
  exact ⟨hr, spot, hl, (h.mono (List.Subset.refl _) (List.nil_subset _)).trans hg⟩

end FileTree

/-! ## Exports -/

namespace Path

/-- A name that does not begin with a slash goes on from the path. -/
theorem child_eq {p : Path} {s : String} {c : Char} {cs : List Char} (h : s.toList = c :: cs)
    (hc : c ≠ '/') : p.child s = { p with names := p.names ++ (ofText s).names } := by
  have slash : (c == '/') = false := by simpa using hc
  have relative : (ofText s).isAbsolute = false := by
    rw [isAbsolute, ofText, h, List.takeWhile_cons_of_neg (by simp [slash])]
    rfl
  rw [child, join, relative]
  rfl

end Path

namespace Project

open FileTree (Grown Wrote)

variable {p : Project} {env : Environment} {files files' : FileTree} {directory target : Path}
  {name text : String} {now : Instant} {format : ExportFormat} {e : Failure}

theorem head_exportName (format : ExportFormat) (now : Instant) :
    ∃ cs, (exportName format now).toList = 'a' :: cs := by
  have head (stamp ending : String) : ∃ cs, s!"arduino-project-{stamp}.{ending}".toList =
      'a' :: cs := by
    simp [toString, String.toList_append]
  exact head (toString now.milliseconds) format.id

theorem places_directory_subset (directory : Path) (format : ExportFormat) (now : Instant)
    (cwd : List String) :
    directory.places cwd ⊆ (directory.child (exportName format now)).places cwd := by
  obtain ⟨cs, hs⟩ := head_exportName format now
  have child := Path.child_eq (p := directory) hs (by decide)
  refine FileTree.places_subset ?_ ?_ cwd
  · rw [child]
  · rw [child]
    exact List.prefix_append _ _

/-- The tree apart, an attempt is an export. -/
theorem writeExport_eq (p : Project) (env : Environment) (files : FileTree) (directory : Path)
    (name : String) (now : Instant) :
    (ExportFormat.read name >>= fun format => p.writeExport env files directory format now) =
      (p.attemptExport env files directory name now).1.map fun target =>
        (target, (p.attemptExport env files directory name now).2) := by
  rw [attemptExport]
  cases ExportFormat.read name with
  | error e => rfl
  | ok format =>
    simp only [bind, Except.bind, writeExport]
    cases p.exportAs now format with
    | error e => rfl
    | ok text =>
      cases env.expandHome directory with
      | error fault => rfl
      | ok directory =>
        simp only [liftM, monadLift, MonadLift.monadLift, Except.mapError,
          FileTree.ensureDirectory, FileTree.makeDirectories_eq]
        obtain ⟨outcome, u⟩ := files.attemptDirectories directory FileTree.maxDirectories
        cases outcome with
        | error fault => rfl
        | ok _ =>
          simp only [Except.map, FileTree.writeText_eq]
          obtain ⟨outcome, v⟩ := u.attemptText (directory.child (exportName format now)) text
          cases outcome <;> rfl

/-- What an attempt comes to: it is refused before anything is done, or some file operation fails, or
the text is written. -/
inductive Attempted (p : Project) (env : Environment) (files : FileTree) (directory : Path)
    (name : String) (now : Instant) : Except Failure Path × FileTree → Prop where
  | unsupported : ExportFormat.ofId? name = none →
      Attempted p env files directory name now (.error (.unsupportedFormat name), files)
  | refused {format : ExportFormat} {e : Failure} : ExportFormat.ofId? name = some format →
      p.exportAs now format = .error e → Attempted p env files directory name now (.error e, files)
  | homeless {fault : FileFault} :
      Attempted p env files directory name now (.error (.file fault), files)
  | failed {fault : FileFault} {target : Path} {q : List String} {files' : FileTree} :
      q ∈ target.places files.cwd → Grown (target.places files.cwd) [q] files files' →
      Attempted p env files directory name now (.error (.file fault), files')
  | written {format : ExportFormat} {text : String} {target : Path} {files' : FileTree} :
      ExportFormat.ofId? name = some format → p.exportAs now format = .ok text →
      Wrote files files' target (Utf8.encode text.toList) →
      Attempted p env files directory name now (.ok target, files')

theorem attempted (p : Project) (env : Environment) (files : FileTree) (directory : Path)
    (name : String) (now : Instant) : Attempted p env files directory name now
      (p.attemptExport env files directory name now) := by
  rw [attemptExport, ExportFormat.read]
  cases hf : ExportFormat.ofId? name with
  | none => exact .unsupported hf
  | some format =>
    dsimp only
    cases hx : p.exportAs now format with
    | error e => exact .refused hf hx
    | ok text =>
      cases env.expandHome directory with
      | error fault => exact .homeless
      | ok d =>
        have made := (files.grown_attemptDirectories d FileTree.maxDirectories).mono
          (places_directory_subset d format now files.cwd) (List.Subset.refl _)
        dsimp only
        cases hu : files.attemptDirectories d FileTree.maxDirectories with
        | mk outcome u =>
          rw [hu] at made
          cases outcome with
          | error fault =>
            exact .failed (FileTree.root_mem_places _ _)
              (made.mono (List.Subset.refl _) (List.nil_subset _))
          | ok _ =>
            dsimp only
            cases hv : u.attemptText (d.child (exportName format now)) text with
            | mk outcome v =>
              cases outcome with
              | error fault =>
                obtain ⟨q, hq, last⟩ := u.grown_attemptText (d.child (exportName format now)) text
                rw [hv, made.cwd] at last
                rw [made.cwd] at hq
                exact .failed hq ((made.mono (List.Subset.refl _) (List.nil_subset _)).trans last)
              | ok _ =>
                have done : u.writeText (d.child (exportName format now)) text = .ok v := by
                  rw [FileTree.writeText_eq, hv]
                  rfl
                exact .written hf hx (made.wrote (FileTree.wrote_of_writeText done))

/-- Whatever an attempt comes to, no more changes than the file at the end of a path and directories
that were missing on the way. -/
theorem attemptExport_frame (p : Project) (env : Environment) (files : FileTree) (directory : Path)
    (name : String) (now : Instant) :
    ∃ target : Path, ∃ q ∈ target.places files.cwd, Grown (target.places files.cwd) [q] files
      (p.attemptExport env files directory name now).2 := by
  have attempt := attempted p env files directory name now
  have same : ∃ target : Path, ∃ q ∈ target.places files.cwd,
      Grown (target.places files.cwd) [q] files files :=
    ⟨directory, [], FileTree.root_mem_places _ _, .refl _ _ files⟩
  generalize p.attemptExport env files directory name now = x at attempt ⊢
  cases attempt with
  | unsupported | refused | homeless => exact same
  | failed hq hg => exact ⟨_, _, hq, hg⟩
  | written _ _ hw =>
    obtain ⟨-, spot, hl, hg⟩ := hw
    exact ⟨_, spot.place, hg.cwd ▸ (FileTree.place_of_locate hl).1, hg⟩

/-- If an export is refused for its format, for a report with errors or because its text cannot be
made, the files are left exactly as they were; and so they are by every failure that is not one of
the file system. If the export succeeds, its target holds the text that is exported in the format,
and all that changes besides is that directories are made where they were missing on the way. -/
theorem attemptExport_trace (p : Project) (env : Environment) (files : FileTree) (directory : Path)
    (name : String) (now : Instant) :
    (ExportFormat.ofId? name = none → p.attemptExport env files directory name now =
      (.error (.unsupportedFormat name), files)) ∧
    (∀ r, name = ExportFormat.ino.id → p.report = .ok r → r.status = .error →
      p.attemptExport env files directory name now = (.error (.blocked r), files)) ∧
    (∀ format e, ExportFormat.ofId? name = some format → p.exportAs now format = .error e →
      p.attemptExport env files directory name now = (.error e, files)) ∧
    (∀ e files', p.attemptExport env files directory name now = (.error e, files') →
      (∀ fault, e ≠ .file fault) → files' = files) ∧
    ∀ target files', p.attemptExport env files directory name now = (.ok target, files') →
      ∃ format text, ExportFormat.ofId? name = some format ∧ p.exportAs now format = .ok text ∧
        Wrote files files' target (Utf8.encode text.toList) := by
  have refused {format : ExportFormat} {e : Failure} (hf : ExportFormat.ofId? name = some format)
      (hx : p.exportAs now format = .error e) :
      p.attemptExport env files directory name now = (.error e, files) := by
    simp only [attemptExport, ExportFormat.read, hf, hx]
  have attempt := attempted p env files directory name now
  refine ⟨fun hf => ?_, fun r hn hr hs => ?_, fun format e hf hx => refused hf hx,
    fun e files' h hs => ?_, fun target files' h => ?_⟩
  · simp only [attemptExport, ExportFormat.read, hf]
  · have ino : ExportFormat.ofId? name = some .ino := by
      rw [hn]
      rfl
    exact refused ino ((exportSketch_eq_blocked_iff hr).mpr ⟨rfl, hs⟩)
  · rw [h] at attempt
    cases attempt with
    | unsupported | refused | homeless => rfl
    | failed => exact absurd rfl (hs _)
  · rw [h] at attempt
    cases attempt with
    | written hf hx hw => exact ⟨_, _, hf, hx, hw⟩

end Project

end BlockSketch
