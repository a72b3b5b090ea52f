import BlockSketch.Proofs.Comments
import BlockSketch.Proofs.Halves
import BlockSketch.Proofs.Paths
import BlockSketch.Proofs.Readback
import BlockSketch.Proofs.Stamps
import BlockSketch.Proofs.Traces
import Mathlib

/-! # Paths of exports

An export is named for the stamp of its instant. Exports with different stamps stand beside each other
in their directory, and the later one leaves the earlier one as it is; exports with the same stamp are
one file.
-/

namespace BlockSketch

namespace FileTree

variable {root : Entry} {trail : List (String × Option Entry)} {names : List String} {n : String}
  {t t' u : FileTree} {p q : Path} {spot : Spot} {place : List String} {bytes : List UInt8}
  {text : String}

theorem isDirectoryAt_iff_holds : t.root.IsDirectoryAt place ↔ t.holds place = some none := by
  rw [holds, Entry.IsDirectoryAt, Option.map_eq_some_iff]
  constructor
  · rintro ⟨entries, h⟩
    exact ⟨_, h, rfl⟩
  · rintro ⟨e, h, he⟩
    cases e with
    | file bytes => cases he
    | directory entries => exact ⟨entries, h⟩

/-- Where no file is written, directories stay. -/
theorem Grown.isDirectoryAt {places : List (List String)} (h : Grown places [] t t')
    (hd : t.root.IsDirectoryAt place) : t'.root.IsDirectoryAt place := by
  rw [isDirectoryAt_iff_holds] at hd ⊢
  rcases h.holds place List.not_mem_nil with hs | ⟨-, -, hs⟩
  · exact hs.trans hd
  · exact hs

theorem grown_of_ensureDirectory (h : t.ensureDirectory p = .ok t') :
    Grown (p.places t.cwd) [] t t' := by
  rw [ensureDirectory, makeDirectories_eq] at h
  obtain ⟨_, -, rfl⟩ := map_eq_ok_iff.mp h
  exact grown_attemptDirectories t p maxDirectories

theorem isDirectoryAt_writeText (h : t.writeText p text = .ok t') (hd : t.root.IsDirectoryAt place) :
    t'.root.IsDirectoryAt place := by
  obtain ⟨spot, bytes, hl, hn, -, rfl, hm⟩ := writeText_eq_ok h
  have emptied : (t.put spot.place (.file [])).root.IsDirectoryAt place :=
    Entry.isDirectoryAt_put (not_isDirectoryAt_of_locate hl hn) hd
  have file := not_isDirectoryAt_of_locate hm (by simp)
  exact Entry.isDirectoryAt_put file emptied

/-- A last name that does not lead back is the last name of the place. -/
theorem place_of_follow_concat (hn : n ≠ "..") (h : follow root trail (names ++ [n]) = .ok spot) :
    ∃ place, spot.place = place ++ [n] := by
  induction names generalizing trail with
  | nil =>
    rw [List.nil_append, follow] at h
    split at h
    · cases h
    · cases h
    · rw [if_neg hn] at h
      split at h
      · cases h
      · rw [follow] at h
        obtain rfl := Except.ok.inj h
        exact ⟨_, by rw [List.map_cons, List.reverse_cons]⟩
  | cons m ms ih =>
    rw [List.cons_append, follow] at h
    split at h
    · cases h
    · cases h
    · split at h
      · exact ih h
      · split at h
        · cases h
        · exact ih h

theorem at?_of_holds (h : t.holds place = some (some bytes)) :
    t.root.at? place = some (.file bytes) := by
  rw [holds, Option.map_eq_some_iff] at h
  obtain ⟨e, he, hb⟩ := h
  cases e with
  | file bytes => rwa [← Option.some.inj hb]
  | directory entries => cases hb

/-- A file stays as it is when directories are made and a file is written at another place. -/
theorem read_of_writeText_other {places : List (List String)} {other : Spot}
    (h : t.locate p = .ok spot) (hf : spot.entry = some (.file bytes)) (hg : Grown places [] t u)
    (hw : u.writeText q text = .ok t') (hq : t'.locate q = .ok other)
    (hne : spot.place ≠ other.place) : t'.read p = .ok bytes := by
  obtain ⟨-, spot', hq', last⟩ := wrote_of_writeText hw
  obtain rfl := Except.ok.inj (hq.symm.trans hq')
  have kept (place : List String) (hd : t.root.IsDirectoryAt place) : t'.root.IsDirectoryAt place :=
    isDirectoryAt_writeText hw (hg.isDirectoryAt hd)
  have found := locate_of_directories h (last.cwd.trans hg.cwd) kept
  have before : t.holds spot.place = some (some bytes) := by
    rw [holds_of_locate h, hf]
    rfl
  have between : u.holds spot.place = some (some bytes) := by
    rcases hg.holds spot.place List.not_mem_nil with hs | ⟨-, hn, -⟩
    · exact hs.trans before
    · cases before.symm.trans hn
  have after : t'.holds spot.place = some (some bytes) := by
    rcases last.holds spot.place (by simpa using hne) with hs | ⟨-, hn, -⟩
    · exact hs.trans between
    · cases between.symm.trans hn
  rw [at?_of_holds after] at found
  exact read_of_locate found

end FileTree

namespace Project

open FileTree (Grown Spot)

variable {p q : Project} {env : Environment} {files left left' : FileTree} {directory a b : Path}
  {format : ExportFormat} {t u : Instant} {m n : Int}

/-! ## Names -/

/-- The name around a stamp. -/
theorem toList_exportName (format : ExportFormat) (t : Instant) : (exportName format t).toList =
    "arduino-project-".toList ++ (toString t.milliseconds).toList ++ ('.' :: format.id.toList) := by
  have around (stamp ending : String) : s!"arduino-project-{stamp}.{ending}".toList =
      "arduino-project-".toList ++ stamp.toList ++ ('.' :: ending.toList) := by
    simp [toString, String.toList_append]
  exact around (toString t.milliseconds) format.id

theorem exportName_eq_iff : exportName format t = exportName format u ↔
    t.milliseconds = u.milliseconds := by
  refine ⟨fun h => ?_, fun h => ?_⟩
  · have chars := congrArg String.toList h
    rw [toList_exportName, toList_exportName] at chars
    have stamps := List.append_cancel_left (List.append_cancel_right chars)
    exact Int.repr_injective (String.toList_injective stamps)
  · have chars : (exportName format t).toList = (exportName format u).toList := by
      rw [toList_exportName, toList_exportName, h]
    exact String.toList_injective chars

theorem slash_not_mem_exportName (format : ExportFormat) (t : Instant) :
    '/' ∉ (exportName format t).toList := by
  rw [toList_exportName, List.mem_append, List.mem_append]
  rintro ((h | h) | h)
  · exact absurd h (by decide)
  · exact absurd (isSigned_of_mem_toString h) (by decide)
  · cases format <;> exact absurd h (by decide)

theorem proper_exportName (format : ExportFormat) (t : Instant) :
    Path.Proper (exportName format t) := by
  obtain ⟨cs, hc⟩ := head_exportName format t
  refine ⟨fun he => ?_, fun he => ?_, slash_not_mem_exportName format t⟩
  · rw [he] at hc
    cases hc
  · rw [he] at hc
    cases hc

theorem ofText_exportName (format : ExportFormat) (t : Instant) :
    Path.ofText (exportName format t) = ⟨0, [exportName format t]⟩ := by
  have normal : Path.Normal ⟨0, [exportName format t]⟩ :=
    ⟨Nat.zero_le 2, by simpa using proper_exportName format t⟩
  have text : Path.text ⟨0, [exportName format t]⟩ = exportName format t := by
    simp [Path.text]
  have read := Path.ofText_text normal
  rwa [text] at read

/-- The path of an export has the name of the export after those of the directory. -/
theorem child_exportName (directory : Path) (format : ExportFormat) (t : Instant) :
    directory.child (exportName format t) =
      { directory with names := directory.names ++ [exportName format t] } := by
  rw [Path.child, ofText_exportName]
  rfl

theorem child_exportName_eq_iff : directory.child (exportName format t) =
    directory.child (exportName format u) ↔ t.milliseconds = u.milliseconds := by
  rw [child_exportName, child_exportName, ← @exportName_eq_iff format]
  constructor
  · intro h
    have names := congrArg Path.names h
    simpa using names
  · intro h
    rw [h]

/-! ## Runs -/

/-- What an export that succeeds has done. -/
theorem writeExport_eq_ok (h : p.writeExport env files directory format t = .ok (a, left)) :
    ∃ d text files', env.expandHome directory = .ok d ∧ a = d.child (exportName format t) ∧
      p.exportAs t format = .ok text ∧ Grown (d.places files.cwd) [] files files' ∧
      files'.writeText a text = .ok left := by
  rw [writeExport] at h
  obtain ⟨text, hx, h⟩ := bind_eq_ok_iff.mp h
  obtain ⟨d, hd, h⟩ := bind_eq_ok_iff.mp h
  obtain ⟨files', hf, h⟩ := bind_eq_ok_iff.mp h
  obtain ⟨files'', hw, h⟩ := bind_eq_ok_iff.mp h
  obtain ⟨rfl, rfl⟩ := Prod.mk.inj (pure_eq_ok_iff.mp h)
  have made := FileTree.grown_of_ensureDirectory (mapError_eq_ok_iff.mp hf)
  exact ⟨d, text, files', mapError_eq_ok_iff.mp hd, rfl, hx, made, mapError_eq_ok_iff.mp hw⟩

/-- The place of an export ends with its name. -/
theorem place_of_export {spot : Spot} {d : Path}
    (h : files.locate (d.child (exportName format t)) = .ok spot) :
    ∃ place, spot.place = place ++ [exportName format t] := by
  obtain ⟨cs, hc⟩ := head_exportName format t
  have notUp : exportName format t ≠ ".." := by
    intro he
    rw [he] at hc
    cases hc
  obtain ⟨-, -, hf⟩ := FileTree.locate_eq_ok.mp h
  rw [child_exportName] at hf
  split at hf
  · exact FileTree.place_of_follow_concat notUp hf
  · rw [← List.append_assoc] at hf
    exact FileTree.place_of_follow_concat notUp hf

/-! ## A second export -/

theorem encodeStrictly_of_whole {s : List Char} (h : Json.Whole s) :
    Utf8.encodeStrictly s = .ok (Utf8.encode s) := by
  have held : s.dropWhile Text.Encoding.utf8.holds = [] :=
    List.dropWhile_eq_nil_iff.mpr fun c hc => by
      have := h c hc
      simp [Text.Encoding.holds, this]
  rw [Utf8.encodeStrictly, Text.Encoding.fault?, held]

/-- An export succeeds if its text can be made and encoded and nothing but a file stands at its path. -/
theorem writeExport_of_whole {d : Path} {files' : FileTree} {spot : Spot} {text : String}
    (hx : p.exportAs t format = .ok text) (hw : Json.Whole text.toList)
    (hd : env.expandHome directory = .ok d) (hf : files.ensureDirectory d = .ok files')
    (hl : files'.locate (d.child (exportName format t)) = .ok spot)
    (hs : ∀ entries, spot.entry ≠ some (.directory entries)) :
    p.writeExport env files directory format t = .ok (d.child (exportName format t),
      (files'.put spot.place (.file [])).put spot.place (.file (Utf8.encode text.toList))) := by
  have emptied : (files'.put spot.place (.file [])).locate (d.child (exportName format t)) =
      .ok ⟨spot.place, some (.file [])⟩ := FileTree.locate_put hl hs
  have written : files'.writeText (d.child (exportName format t)) text =
      .ok ((files'.put spot.place (.file [])).put spot.place (.file (Utf8.encode text.toList))) := by
    refine bind_eq_ok_iff.mpr ⟨_, FileTree.write_eq_ok.mpr ⟨spot, hl, hs, rfl⟩, ?_⟩
    refine bind_eq_ok_iff.mpr ⟨_, mapError_eq_ok_iff.mpr (encodeStrictly_of_whole hw), ?_⟩
    exact FileTree.write_eq_ok.mpr ⟨_, emptied, by simp, rfl⟩
  refine bind_eq_ok_iff.mpr ⟨text, hx, bind_eq_ok_iff.mpr ⟨d, mapError_eq_ok_iff.mpr hd, ?_⟩⟩
  refine bind_eq_ok_iff.mpr ⟨files', mapError_eq_ok_iff.mpr hf, ?_⟩
  exact bind_eq_ok_iff.mpr ⟨_, mapError_eq_ok_iff.mpr written, rfl⟩

/-- A moment of the second second of 1970. -/
def secondSecond (micro : Nat) : Instant := ⟨⟨1970, 1, 1⟩, 0, 0, 1, micro, some 0⟩

/-- A directory with one sketch in it. -/
def oneSketch (bytes : List UInt8) : FileTree :=
  ⟨[], .directory [("out", .directory [("arduino-project-1000.ino", .file bytes)])]⟩

/-- A project without a prompt is exported twice, a millisecond later the second time. -/
theorem writeExport_twice : ∃ left left',
    writeExport {} ⟨[], []⟩ ⟨[], .empty⟩ (.ofText "out") .ino (secondSecond 0) =
      .ok (.ofText "out/arduino-project-1000.ino", left) ∧
    writeExport {} ⟨[], []⟩ left (.ofText "out") .ino (secondSecond 1000) =
      .ok (.ofText "out/arduino-project-1000.ino", left') := by
  obtain ⟨ls, hl, whole⟩ := exists_ok_of_any
    (show (Sketch.lines [] [] .standard ⟨1970, 1, 1⟩).toOption.any
      (fun ls => decide (∀ l ∈ ls, Json.Whole l.toList)) = true by decide +kernel)
  have text (micro : Nat) : exportAs {} (secondSecond micro) .ino = .ok ("\n".intercalate ls ++ "\n") :=
    exportSketch_of_lines (p := {}) rfl rfl hl
  have whole := whole_sketch_iff.mpr (of_decide_eq_true whole)
  generalize "\n".intercalate ls ++ "\n" = code at text whole
  have home : (⟨[], []⟩ : Environment).expandHome (.ofText "out") = .ok ⟨0, ["out"]⟩ := rfl
  have made : FileTree.ensureDirectory ⟨[], .empty⟩ ⟨0, ["out"]⟩ =
      .ok ⟨[], .directory [("out", .empty)]⟩ := rfl
  have free : FileTree.locate ⟨[], .directory [("out", .empty)]⟩
      (Path.child ⟨0, ["out"]⟩ (exportName .ino (secondSecond 0))) =
      .ok ⟨["out", "arduino-project-1000.ino"], none⟩ := rfl
  have kept (bytes : List UInt8) :
      (oneSketch bytes).ensureDirectory ⟨0, ["out"]⟩ = .ok (oneSketch bytes) := rfl
  have taken (bytes : List UInt8) : (oneSketch bytes).locate
      (Path.child ⟨0, ["out"]⟩ (exportName .ino (secondSecond 1000))) =
      .ok ⟨["out", "arduino-project-1000.ino"], some (.file bytes)⟩ := rfl
  have first := writeExport_of_whole (text 0) whole home made free (by simp)
  have second := writeExport_of_whole (text 1000) whole home (kept (Utf8.encode code.toList))
    (taken _) (by simp)
  exact ⟨_, _, first, second⟩

/-! ## The earlier file -/

/-- Two exports of different milliseconds to one directory, the second of which finds what the first
has left. Their paths are equal exactly if one millisecond falls short and the other, which does not, is
the next one on the way to 1970. If the paths differ the first file stays as it is, and otherwise it
holds the second text. -/
theorem writeExport_paths_eq_iff (ht : t.Valid) (hu : u.Valid) (hm : t.epochMicros = m * 1000)
    (hn : u.epochMicros = n * 1000) (hne : m ≠ n)
    (first : p.writeExport env files directory format t = .ok (a, left))
    (second : q.writeExport env left directory format u = .ok (b, left')) :
    (a = b ↔ t.FallsShort m ∧ ¬ u.FallsShort n ∧ n = m - m.sign ∨
      u.FallsShort n ∧ ¬ t.FallsShort m ∧ m = n - n.sign) ∧
    (a ≠ b → left'.read a = left.read a) ∧
    (a = b → ∃ text, q.exportAs u format = .ok text ∧
      left'.read a = .ok (Utf8.encode text.toList)) := by
  obtain ⟨d, text, files', hd, rfl, -, -, hw⟩ := writeExport_eq_ok first
  obtain ⟨d', text', files'', hd', rfl, hx, hg, hw'⟩ := writeExport_eq_ok second
  obtain rfl := Except.ok.inj (hd.symm.trans hd')
  obtain ⟨place, bytes, -, hl⟩ := FileTree.locate_writeText hw
  obtain ⟨read, spot, hl', -⟩ := FileTree.wrote_of_writeText hw'
  have same : d.child (exportName format t) = d.child (exportName format u) ↔ _ :=
    child_exportName_eq_iff.trans (Instant.milliseconds_eq_iff ht hu hm hn hne)
  refine ⟨same, fun ha => ?_, fun ha => ⟨text', hx, by rw [ha]; exact read⟩⟩
  have apart : place ≠ spot.place := by
    intro he
    obtain ⟨front, rfl⟩ := place_of_export hl
    obtain ⟨front', hp⟩ := place_of_export hl'
    rw [hp] at he
    have same : exportName format t = exportName format u :=
      List.singleton_inj.mp (List.append_inj_right' he rfl)
    exact ha (by rw [same])
  rw [FileTree.read_of_locate hl]
  exact FileTree.read_of_writeText_other hl rfl hg hw' hl' apart

/-- Exports a millisecond apart have one path. -/
theorem writeExport_paths_eq : (secondSecond 0).epochMicros = 1000 * 1000 ∧
    (secondSecond 1000).epochMicros = 1001 * 1000 ∧ ∃ path left left',
      writeExport {} ⟨[], []⟩ ⟨[], .empty⟩ (.ofText "out") .ino (secondSecond 0) = .ok (path, left) ∧
      writeExport {} ⟨[], []⟩ left (.ofText "out") .ino (secondSecond 1000) = .ok (path, left') :=
  ⟨rfl, rfl, _, writeExport_twice⟩

theorem writeExport_paths_eq_iff_second : ∃ a b left left',
    writeExport {} ⟨[], []⟩ ⟨[], .empty⟩ (.ofText "out") .ino (secondSecond 0) = .ok (a, left) ∧
    writeExport {} ⟨[], []⟩ left (.ofText "out") .ino (secondSecond 1000) = .ok (b, left') ∧
    (a = b ↔ (secondSecond 0).FallsShort 1000 ∧ ¬ (secondSecond 1000).FallsShort 1001 ∧
        (1001 : Int) = 1000 - Int.sign 1000 ∨
      (secondSecond 1000).FallsShort 1001 ∧ ¬ (secondSecond 0).FallsShort 1000 ∧
        (1000 : Int) = 1001 - Int.sign 1001) ∧
    (a ≠ b → left'.read a = left.read a) ∧
    (a = b → ∃ text, exportAs {} (secondSecond 1000) .ino = .ok text ∧
      left'.read a = .ok (Utf8.encode text.toList)) := by
  have valid (micro : Nat) (h : micro < 1000000) : (secondSecond micro).Valid :=
    ⟨rfl, (by decide : 0 < 24), (by decide : 0 < 60), (by decide : 1 < 60), h,
      (by decide : (0 : Int).natAbs < 86400)⟩
  obtain ⟨left, left', first, second⟩ := writeExport_twice
  exact ⟨_, _, left, left', first, second,
    writeExport_paths_eq_iff (valid 0 (by decide)) (valid 1000 (by decide)) rfl rfl (by decide)
      first second⟩

end Project

end BlockSketch
