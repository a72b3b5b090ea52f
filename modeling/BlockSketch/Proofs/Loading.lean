import BlockSketch.Project.Basic
import BlockSketch.Proofs.Bytes
import BlockSketch.Proofs.Stops

/-! # Loading projects

What keeps a project file from being read is reported as such, with four exceptions: a path that
cannot be handed to the system, bytes that are those of no text, a number that is too long, and
values that are nested too deeply.
-/

namespace BlockSketch

namespace FileTree

variable {files : FileTree} {p : Path} {fault : FileFault}

/-- Reading fails outside the system exactly if the path is not handed to it. -/
theorem read_eq_unhandled (h : files.read p = .error fault) (hs : fault.isSystem = false) :
    checkSystemText p.text = .error fault := by
  have system {problem : FileProblem} {text : String} (he : .system problem text = fault) :
      False := by
    rw [← he] at hs
    cases hs
  rcases bind_eq_error_iff.mp h with h | ⟨e, -, h⟩
  · rcases bind_eq_error_iff.mp h with h | ⟨spot, -, h⟩
    · rcases bind_eq_error_iff.mp h with h | ⟨-, -, h⟩
      · exact h
      · dsimp only at h
        split at h
        · exact (system (Except.error.inj h)).elim
        · obtain ⟨problem, -, h⟩ := mapError_eq_error_iff.mp h
          exact (system h).elim
    · split at h
      · cases h
      · exact (system (Except.error.inj h)).elim
  · cases e with
    | file bytes => cases h
    | directory entries => exact (system (Except.error.inj h)).elim

theorem read_of_unhandled (h : checkSystemText p.text = .error fault) :
    files.read p = .error fault := by
  simp only [read, entry, locate, h]
  rfl

theorem not_isSystem_of_checkSystemText {s : String} (h : checkSystemText s = .error fault) :
    fault.isSystem = false := by
  unfold checkSystemText at h
  split at h
  · obtain rfl := Except.error.inj h
    rfl
  · split at h
    · obtain rfl := Except.error.inj h
      rfl
    · cases h

end FileTree

namespace Project

variable {files : FileTree} {path : Path} {shown : String} {board : Board} {e : Failure}
  {s : List Char} {bytes : List UInt8}

/-- The text of a file, all of whose lines end in the same way. -/
def fileText (s : List Char) : String := String.ofList (Text.unifyBreaks s)

/-- The failures of reading a project file that are not reported as such, each with what causes
it. -/
inductive Escapes (files : FileTree) (path : Path) : Failure → Prop where
  | unhandled {fault : FileFault} : checkSystemText path.text = .error fault →
      Escapes files path (.file fault)
  | undecodable {bytes : List UInt8} {fault : Utf8.Fault} : files.read path = .ok bytes →
      Utf8.decode bytes = .error fault → (∀ s, Utf8.encode s ≠ bytes) →
      Escapes files path (.undecodable fault)
  | numeral {s : List Char} {n : Nat} : files.read path = .ok (Utf8.encode s) →
      Json.read (fileText s) = .error (.numeral (.tooManyDigits n)) →
      Json.HasLongRun (fileText s).toList n →
      Escapes files path (.numeral (.tooManyDigits n))
  | tooDeep {s : List Char} {nest : Json.Nest} : files.read path = .ok (Utf8.encode s) →
      Json.read (fileText s) = .error (.tooDeep nest) →
      Json.maxDepth < Json.openings (fileText s).toList → Escapes files path (.tooDeep nest)

/-- The failure is reported, or the file holds a document and the outcome is that of reading it. -/
def Reported (files : FileTree) (path : Path) (board : Board) (x : Except Failure Project) : Prop :=
  (∃ fault, x = .error (.project fault)) ∨
    ∃ bytes s d, files.read path = .ok bytes ∧ Utf8.encode s = bytes ∧
      Json.read (fileText s) = .ok d ∧ x = ofDocument d board

theorem load_of_undecodable {fault : Utf8.Fault} (hr : files.read path = .ok bytes)
    (hd : Utf8.decode bytes = .error fault) :
    load files path shown board = .error (.undecodable fault) := by
  simp only [load, hr, pure_bind, hd]
  rfl

theorem load_of_read (h : files.read path = .ok (Utf8.encode s)) :
    load files path shown board = match Json.read (fileText s) with
      | .ok d => ofDocument d board
      | .error (.malformed fault) => .error (.project (.malformed shown fault))
      | .error (.numeral fault) => .error (.numeral fault)
      | .error (.tooDeep nest) => .error (.tooDeep nest) := by
  have text : Utf8.decode (Utf8.encode s) = .ok s := Utf8.decode_eq_ok_iff.mpr rfl
  simp only [load, h, pure_bind, text, fileText]
  rfl

theorem load_of_escapes (h : Escapes files path e) : load files path shown board = .error e := by
  cases h with
  | unhandled h =>
    simp only [load, FileTree.read_of_unhandled h, FileTree.not_isSystem_of_checkSystemText h]
    rfl
  | undecodable hr hd _ => exact load_of_undecodable hr hd
  | numeral hr hj _ => rw [load_of_read hr, hj]
  | tooDeep hr hj _ => rw [load_of_read hr, hj]

/-- A path leads to no file, or to one the bytes of which are those of no text, or of a text. -/
theorem reported_or_escapes (files : FileTree) (path : Path) (shown : String) (board : Board) :
    Reported files path board (load files path shown board) ∨ ∃ e, Escapes files path e := by
  cases hr : files.read path with
  | error fault =>
    cases hs : fault.isSystem with
    | true =>
      refine .inl (.inl ⟨.unreadable shown fault, ?_⟩)
      simp only [load, hr, hs]
      rfl
    | false => exact .inr ⟨_, .unhandled (FileTree.read_eq_unhandled hr hs)⟩
  | ok bytes =>
    cases hd : Utf8.decode bytes with
    | error fault =>
      refine .inr ⟨_, .undecodable hr hd fun s he => ?_⟩
      rw [Utf8.decode_eq_ok_iff.mpr he] at hd
      cases hd
    | ok s =>
      obtain rfl := Utf8.decode_eq_ok_iff.mp hd
      rcases Json.read_cases (fileText s) Json.maxDepth with ⟨d, hj, -⟩ | ⟨fault, hj⟩ |
        ⟨n, hj, hn⟩ | ⟨nest, hj, hn⟩
      · exact .inl (.inr ⟨_, s, d, hr, rfl, hj, by rw [load_of_read hr, hj]⟩)
      · exact .inl (.inl ⟨.malformed shown fault, by rw [load_of_read hr, hj]⟩)
      · exact .inr ⟨_, .numeral hr hj hn⟩
      · exact .inr ⟨_, .tooDeep hr hj hn⟩

theorem not_isDomain_of_escapes (h : Escapes files path e) : e.isDomain = false := by
  cases h <;> rfl

/-- A file that is not read holds no document. -/
theorem not_reported_of_escapes (h : Escapes files path e) :
    ¬ Reported files path board (load files path shown board) := by
  rintro (⟨fault, hp⟩ | ⟨bytes, s, d, hr, rfl, hj, -⟩)
  · rw [load_of_escapes h] at hp
    obtain rfl := Except.error.inj hp
    cases h
  · cases h with
    | unhandled h =>
      rw [FileTree.read_of_unhandled h] at hr
      cases hr
    | undecodable hr' _ ht => exact ht s (Except.ok.inj (hr.symm.trans hr'))
    | numeral hr' hj' _ =>
      obtain rfl := Utf8.encode_injective (Except.ok.inj (hr.symm.trans hr'))
      cases hj.symm.trans hj'
    | tooDeep hr' hj' _ =>
      obtain rfl := Utf8.encode_injective (Except.ok.inj (hr.symm.trans hr'))
      cases hj.symm.trans hj'

/-- Reading a project file fails with a report on the file, or it holds a document and the outcome
is that of the document, unless the path cannot be handed to the system, the bytes are those of no
text, or the text has a number that is too long or values that are nested too deeply. Each of these
is a failure of its own, which is not one about projects. -/
theorem load_reported_iff (files : FileTree) (path : Path) (shown : String) (board : Board) :
    (Reported files path board (load files path shown board) ↔ ¬ ∃ e, Escapes files path e) ∧
      ∀ e, Escapes files path e → load files path shown board = .error e ∧ e.isDomain = false :=
  ⟨⟨fun h ⟨_, he⟩ => not_reported_of_escapes he h,
      (reported_or_escapes files path shown board).resolve_right⟩,
    fun _ he => ⟨load_of_escapes he, not_isDomain_of_escapes he⟩⟩

/-! ## Files that are not read -/

/-- The tree with one file in its root. -/
def holding (bytes : List UInt8) : FileTree where
  cwd := []
  root := .directory [("p.json", .file bytes)]

theorem read_holding (bytes : List UInt8) : (holding bytes).read ⟨0, ["p.json"]⟩ = .ok bytes := rfl

theorem unifyBreaks_replicate {c : Char} (hc : c ≠ '\r') (n : Nat) :
    Text.unifyBreaks (List.replicate n c) = List.replicate n c := by
  induction n with
  | zero => rfl
  | succ n ih =>
    rw [List.replicate_succ, Text.unifyBreaks, ih]
    · rintro s rfl
      contradiction
    · exact hc

/-- Brackets that are nested too deeply escape. -/
theorem load_brackets {n : Nat} (h : Json.maxDepth < n) :
    load (holding (Utf8.encode (List.replicate n '['))) ⟨0, ["p.json"]⟩ shown board =
      .error (.tooDeep .array) := by
  rw [load_of_read (read_holding _), fileText, unifyBreaks_replicate (by decide),
    Json.read_brackets h]

/-- A number with too many digits escapes. -/
theorem load_ones {n : Nat} (h : Numeral.maxDigits < n) :
    load (holding (Utf8.encode (List.replicate n '1'))) ⟨0, ["p.json"]⟩ shown board =
      .error (.numeral (.tooManyDigits n)) := by
  rw [load_of_read (read_holding _), fileText, unifyBreaks_replicate (by decide),
    Json.read_ones h]

/-- A byte that begins no character escapes, and so does a path with a null character. -/
theorem load_escapes :
    load (holding [0xFF]) ⟨0, ["p.json"]⟩ "p.json" .uno =
      .error (.undecodable ⟨.badStart, 0xFF, 0, 1⟩) ∧
    ¬ Reported (holding [0xFF]) ⟨0, ["p.json"]⟩ .uno
      (load (holding [0xFF]) ⟨0, ["p.json"]⟩ "p.json" .uno) ∧
    load (holding []) ⟨0, ["\x00"]⟩ "\x00" .uno = .error (.file .nullCharacter) := by
  have hr := read_holding [0xFF]
  have hd : Utf8.decode [0xFF] = .error ⟨.badStart, 0xFF, 0, 1⟩ := rfl
  refine ⟨load_of_undecodable hr hd, not_reported_of_escapes (.undecodable hr hd ?_), rfl⟩
  intro s hs
  cases hd.symm.trans (Utf8.decode_eq_ok_iff.mpr hs)

end Project

end BlockSketch
