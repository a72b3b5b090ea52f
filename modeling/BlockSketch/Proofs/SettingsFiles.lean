import BlockSketch.Proofs.Overwriting
import BlockSketch.Proofs.Paths
import BlockSketch.Proofs.Records
import BlockSketch.Settings.File

/-! # Settings files

Settings that were loaded, perhaps with other valid values assigned to them, are saved to the place
where they are looked for again. What is read there is what was saved, field by field; only the
directory of exports need not be, because it is looked up and a tilde at its front is replaced again.
-/

namespace BlockSketch

namespace Settings

variable {env : Environment} {files files' u : FileTree} {d : Document} {s t : Settings}
  {p dir : Path} {bytes : List UInt8}

/-! ## What is read -/

/-- The values that a reader of settings lets through. -/
structure Sound (s : Settings) : Prop where
  directory : s.exportDirectory.Normal
  host : s.host ≠ ""
  port : 1 ≤ s.port ∧ s.port ≤ maxPort
  token : Text.strip s.token = s.token
  level : s.level ∈ levels

theorem normal_expand {text : String} (h : expand env text = .ok p) : p.Normal :=
  Environment.normal_expandHome (Path.normal_ofText text) (mapError_eq_ok_iff.mp h)

theorem normal_readDirectory (h : readDirectory env files d = .ok p) : p.Normal := by
  unfold readDirectory at h
  split at h
  · exact normal_expand h
  · split at h
    · cases h
    · obtain ⟨q, hq, h⟩ := bind_eq_ok_iff.mp h
      obtain ⟨found, -, h⟩ := bind_eq_ok_iff.mp h
      split at h
      · cases h
      · obtain rfl := pure_eq_ok_iff.mp h
        exact normal_expand hq
  · cases h

theorem readHost_ne_empty {host : String} (h : readHost d = .ok host) : host ≠ "" := by
  unfold readHost at h
  split at h
  · next s _ =>
    split at h
    · cases h
    · next hs =>
      obtain rfl := Except.ok.inj h
      simpa using hs
  · cases h

theorem strip_readToken {token : String} (h : readToken d = .ok token) :
    Text.strip token = token := by
  unfold readToken at h
  split at h
  · obtain rfl := Except.ok.inj h
    exact Text.strip_strip _
  · cases h

theorem readPort_bounds {port : Int} (h : readPort d = .ok port) : 1 ≤ port ∧ port ≤ maxPort := by
  unfold readPort at h
  split at h
  · cases h
  · split at h
    · cases h
    · next hp =>
      obtain rfl := Except.ok.inj h
      simp only [Bool.or_eq_true, decide_eq_true_eq, not_or, Int.not_le, Int.not_lt] at hp
      exact hp

theorem readLevel_mem {level : String} (h : readLevel d = .ok level) : level ∈ levels := by
  obtain ⟨shown, -, h⟩ := bind_eq_ok_iff.mp h
  dsimp only at h
  split at h
  · next hl =>
    obtain rfl := pure_eq_ok_iff.mp h
    exact List.contains_iff_mem.mp hl
  · cases h

theorem sound_of_ofDocument (h : ofDocument env files d = .ok s) : s.Sound := by
  unfold ofDocument at h
  dsimp only at h
  split at h
  · obtain ⟨_, -, h⟩ := bind_eq_ok_iff.mp h
    obtain ⟨board, -, h⟩ := bind_eq_ok_iff.mp h
    obtain ⟨_, -, h⟩ := bind_eq_ok_iff.mp h
    obtain ⟨directory, hd, h⟩ := bind_eq_ok_iff.mp h
    obtain ⟨service, -, h⟩ := bind_eq_ok_iff.mp h
    obtain ⟨host, hh, h⟩ := bind_eq_ok_iff.mp h
    obtain ⟨token, ht, h⟩ := bind_eq_ok_iff.mp h
    obtain ⟨port, hp, h⟩ := bind_eq_ok_iff.mp h
    obtain ⟨_, -, h⟩ := bind_eq_ok_iff.mp h
    obtain ⟨level, hl, h⟩ := bind_eq_ok_iff.mp h
    obtain rfl := pure_eq_ok_iff.mp h
    exact ⟨normal_readDirectory hd, readHost_ne_empty (mapError_eq_ok_iff.mp hh),
      readPort_bounds hp, strip_readToken (mapError_eq_ok_iff.mp ht), readLevel_mem hl⟩
  · cases h

/-- Settings that are loaded are read from some document, and they remember their file. -/
theorem exists_document_of_load (h : load env files = .ok s) :
    ∃ p d r, location env files = .ok p ∧ ofDocument env files d = .ok r ∧
      { r with source := some p } = s := by
  obtain ⟨p, hp, h⟩ := bind_eq_ok_iff.mp h
  obtain ⟨found, -, h⟩ := bind_eq_ok_iff.mp h
  dsimp only at h
  split at h
  · obtain ⟨bytes, -, h⟩ := bind_eq_ok_iff.mp h
    obtain ⟨d, -, h⟩ := bind_eq_ok_iff.mp h
    obtain ⟨r, hr, h⟩ := bind_eq_ok_iff.mp h
    exact ⟨p, d, r, hp, mapError_eq_ok_iff.mp hr, pure_eq_ok_iff.mp h⟩
  · obtain ⟨d, -, h⟩ := bind_eq_ok_iff.mp h
    obtain ⟨r, hr, h⟩ := bind_eq_ok_iff.mp h
    exact ⟨p, d, r, hp, mapError_eq_ok_iff.mp hr, pure_eq_ok_iff.mp h⟩

theorem sound_of_load (h : load env files = .ok s) : s.Sound := by
  obtain ⟨p, d, r, -, hr, rfl⟩ := exists_document_of_load h
  obtain ⟨directory, host, port, token, level⟩ := sound_of_ofDocument hr
  exact ⟨directory, host, port, token, level⟩

/-- Each setting is as it was, or a valid value is assigned to it. Every board is valid. -/
structure Assigned (s t : Settings) : Prop where
  directory : t.exportDirectory = s.exportDirectory ∨
    t.exportDirectory.Normal ∧ t.exportDirectory.isAbsolute = true
  host : t.host = s.host ∨ t.host ≠ ""
  port : t.port = s.port ∨ 1 ≤ t.port ∧ t.port ≤ maxPort
  token : t.token = s.token ∨ Text.strip t.token = t.token
  level : t.level = s.level ∨ t.level ∈ levels
  source : t.source = s.source

theorem of_assigned {α : Type} {P : α → Prop} {x y : α} (h : y = x ∨ P y) (hx : P x) : P y := by
  rcases h with rfl | h
  · exact hx
  · exact h

theorem Assigned.sound (h : Assigned s t) (hs : s.Sound) : t.Sound where
  directory := of_assigned (h.directory.imp_right And.left) hs.directory
  host := of_assigned (P := fun host => host ≠ "") h.host hs.host
  port := of_assigned (P := fun port => 1 ≤ port ∧ port ≤ maxPort) h.port hs.port
  token := of_assigned (P := fun token => Text.strip token = token) h.token hs.token
  level := of_assigned h.level hs.level

/-! ## What is written is read -/

theorem readHost_text {host : String} {rest : List (String × Document)} (h : host ≠ "") :
    readHost (.object (("host", .text host) :: rest)) = .ok host := by
  have hf : field (.object (("host", .text host) :: rest)) "host" (.text standardHost) =
      .text host := by
    rw [field, Document.get?_object_cons, if_pos rfl]
    rfl
  rw [readHost, hf]
  simp [h]

theorem readLevel_text {level : String} (h : level ∈ levels) :
    readLevel (.object [("level", .text level)]) = .ok level := by
  simp only [levels, List.mem_cons, List.not_mem_nil, or_false] at h
  rcases h with rfl | rfl | rfl | rfl | rfl <;> exact eq_ok_of_toOption (by decide +kernel)

/-- The section of the service in the document of settings. -/
def servicePart (s : Settings) : Document :=
  .object [("host", .text s.host), ("port", .int s.port), ("auth_token", .text s.token)]

theorem readToken_servicePart (h : Text.strip s.token = s.token) :
    readToken s.servicePart = .ok s.token := by
  have hg : s.servicePart.get "auth_token" = .text s.token := rfl
  have ho : (Document.text s.token).orElse (.text "") = .text s.token := by
    by_cases ht : s.token = ""
    · rw [ht]
      rfl
    · exact Document.orElse_text ht _
  rw [readToken, hg, ho]
  exact congrArg Except.ok h

theorem readPort_servicePart (h : 1 ≤ s.port ∧ s.port ≤ maxPort) :
    readPort s.servicePart = .ok s.port := by
  have hf : (field s.servicePart "port" (.int standardPort)).toInt = .ok s.port := rfl
  have hp : (s.port ≤ 0 || maxPort < s.port) = false := by
    simp only [Bool.or_eq_false_iff, decide_eq_false_iff_not]
    omega
  rw [readPort, hf]
  simp [hp]

/-- The section of the exports in the document of settings. -/
def exportPart (dir : Path) : Document := .object [("out_dir", .text dir.text)]

/-- All but the directory of sound settings is read from a document with their other sections. -/
theorem ofDocument_of_parts {exports : Document} (h : s.Sound) (he : ∃ entries, d = .map entries)
    (board : part d "board" = .ok (.object [("default", .text s.board.id)]))
    (directory : part d "export" = .ok exports) (service : part d "service" = .ok s.servicePart)
    (logging : part d "logging" = .ok (.object [("level", .text s.level)])) :
    ofDocument env files d = (readDirectory env files exports).map fun dir =>
      { s with exportDirectory := dir, source := none } := by
  obtain ⟨entries, rfl⟩ := he
  have hb : readBoard (.object [("default", .text s.board.id)]) = .ok s.board := by
    have hf : field (.object [("default", .text s.board.id)]) "default"
      (.text Board.standard.id) = .text s.board.id := rfl
    rw [readBoard, hf, Board.read_id]
    rfl
  have hh : readHost s.servicePart = .ok s.host := readHost_text h.host
  unfold ofDocument
  simp only [board, directory, service, logging, bind, Except.bind, Except.mapError, hb, hh,
    readToken_servicePart h.token, readPort_servicePart h.port, readLevel_text h.level]
  cases readDirectory env files exports <;> rfl

theorem ofDocument_toDocument (h : s.Sound) : ofDocument env files s.toDocument =
    (readDirectory env files (exportPart s.exportDirectory)).map fun dir =>
      { s with exportDirectory := dir, source := none } :=
  ofDocument_of_parts h ⟨_, rfl⟩ rfl rfl rfl rfl

theorem readDirectory_exportPart (hn : dir.Normal) (hb : Text.isBlankText dir.text = false) :
    readDirectory env files (exportPart dir) = do
      let p ← (env.expandHome dir).mapError .file
      let found ← (files.exists? p).mapError .file
      if found && !files.isDirectory p then throw (.fault .directoryIsFile)
      return p := by
  have hg : (exportPart dir).get "out_dir" = .text dir.text := rfl
  rw [readDirectory, hg]
  dsimp only
  rw [hb, if_neg Bool.false_ne_true, expand, Path.ofText_text hn]

theorem expandHome_of_readDirectory (hn : dir.Normal) (hb : Text.isBlankText dir.text = false)
    (h : readDirectory env files (exportPart dir) = .ok p) :
    env.expandHome dir = .ok p ∧ ∃ found, files.exists? p = .ok found := by
  rw [readDirectory_exportPart hn hb] at h
  obtain ⟨q, hq, h⟩ := bind_eq_ok_iff.mp h
  obtain ⟨found, hf, h⟩ := bind_eq_ok_iff.mp h
  split at h
  · cases h
  · obtain rfl := pure_eq_ok_iff.mp h
    exact ⟨mapError_eq_ok_iff.mp hq, found, mapError_eq_ok_iff.mp hf⟩

/-- A directory is read back if it stands for itself and can be looked up. -/
theorem readDirectory_eq_ok_iff (hn : dir.Normal) (hb : Text.isBlankText dir.text = false)
    (hd : files.exists? dir = .ok true → files.isDirectory dir = true) :
    readDirectory env files (exportPart dir) = .ok dir ↔
      env.expandHome dir = .ok dir ∧ ∃ found, files.exists? dir = .ok found := by
  refine ⟨expandHome_of_readDirectory hn hb, ?_⟩
  rintro ⟨he, found, hf⟩
  have hc : (found && !files.isDirectory dir) = false := by
    cases found with
    | false => rfl
    | true => simp [hd hf]
  rw [readDirectory_exportPart hn hb]
  refine bind_eq_ok_iff.mpr ⟨dir, mapError_eq_ok_iff.mpr he,
    bind_eq_ok_iff.mpr ⟨found, mapError_eq_ok_iff.mpr hf, ?_⟩⟩
  rw [hc]
  rfl

/-! ## Where it is written -/

/-- The file that was written is found: a file at the usual place was there before or is there now,
and it is written to the place of the program only if it overwrites a file. -/
theorem usualLocation_of_save {text : String} (hl : usualLocation env files = .ok p)
    (hu : files.ensureDirectory p.parent = .ok u) (hw : u.writeText p text = .ok files') :
    usualLocation env files' = .ok p := by
  have hc : files'.cwd = files.cwd :=
    (FileTree.cwd_writeText hw).trans (FileTree.cwd_makeDirectories hu)
  obtain ⟨place, bytes, -, hp⟩ := FileTree.locate_writeText hw
  have there := FileTree.exists?_of_locate hp
  obtain ⟨home, hh, hl⟩ := bind_eq_ok_iff.mp hl
  obtain ⟨own, hf, hl⟩ := bind_eq_ok_iff.mp hl
  refine bind_eq_ok_iff.mpr ⟨home, hh, ?_⟩
  rw [hc]
  cases own with
  | true =>
    obtain rfl := pure_eq_ok_iff.mp hl
    exact bind_eq_ok_iff.mpr ⟨true, there, rfl⟩
  | false =>
    obtain ⟨shared, hs, hl⟩ := bind_eq_ok_iff.mp hl
    cases shared with
    | true =>
      obtain rfl := pure_eq_ok_iff.mp hl
      have hn : ((installation.join sharedFile).resolve files.cwd).names =
        ["opt", "ardublock", "config"] ++ ["ardublock.yml"] := rfl
      -- The file is there already, so that nothing comes to be at the place below one's home.
      have same : files'.exists? ((home.join homeFile).resolve files.cwd) = .ok false :=
        (FileTree.exists?_ensured rfl hn hs hu hw).trans hf
      exact bind_eq_ok_iff.mpr ⟨false, same, bind_eq_ok_iff.mpr ⟨true, there, rfl⟩⟩
    | false =>
      obtain rfl := pure_eq_ok_iff.mp hl
      exact bind_eq_ok_iff.mpr ⟨true, there, rfl⟩

theorem location_of_save {text : String} (hl : location env files = .ok p)
    (hu : files.ensureDirectory p.parent = .ok u) (hw : u.writeText p text = .ok files') :
    location env files' = .ok p := by
  have hc : files'.cwd = files.cwd :=
    (FileTree.cwd_writeText hw).trans (FileTree.cwd_makeDirectories hu)
  unfold location at hl ⊢
  dsimp only at hl ⊢
  split at hl
  · next he =>
    rw [if_pos he]
    exact mapError_eq_ok_iff.mpr (usualLocation_of_save (mapError_eq_ok_iff.mp hl) hu hw)
  · next he => rwa [if_neg he, hc]

/-! ## Saving and loading -/

/-- The document of the settings is read from its text. -/
def Legible (s : Settings) : Prop :=
  ∀ bytes, Utf8.encodeStrictly (Yaml.write s.toDocument).toList = .ok bytes →
    Yaml.readBytes bytes = .ok s.toDocument

theorem load_of_file (hl : location env files = .ok p) (he : files.exists? p = .ok true)
    (hr : files.read p = .ok bytes) (hy : Yaml.readBytes bytes = .ok s.toDocument) :
    load env files = ((ofDocument env files s.toDocument).mapError .settings).map fun r =>
      { r with source := some p } := by
  have hd : readDocument p bytes = .ok s.toDocument := by
    rw [readDocument, hy]
    rfl
  rw [load, hl]
  simp only [bind, Except.bind, he, hr, hd, Except.mapError]
  cases ofDocument env files s.toDocument <;> rfl

theorem save_eq_ok_iff (hp : s.source = some p) : s.save env files = .ok (t, files') ↔
    t = s ∧ ∃ u, files.ensureDirectory p.parent = .ok u ∧
      u.writeText p (Yaml.write s.toDocument) = .ok files' := by
  have hs : { s with source := some p } = s := by
    rw [← hp]
  rw [save, hp]
  simp only [bind_eq_ok_iff, pure_eq_ok_iff, mapError_eq_ok_iff, exists_eq_left', hs]
  constructor
  · rintro ⟨u, hu, v, hv, h⟩
    obtain ⟨rfl, rfl⟩ := Prod.mk.inj h
    exact ⟨rfl, u, hu, hv⟩
  · rintro ⟨rfl, u, hu, hv⟩
    exact ⟨u, hu, files', hv, rfl⟩

/-- What is loaded after settings were saved to the place where they are looked for. -/
theorem load_of_save (hs : s.Sound) (hp : s.source = some p) (hl : location env files = .ok p)
    (hy : s.Legible) (h : s.save env files = .ok (t, files')) :
    load env files' = ((readDirectory env files' (exportPart s.exportDirectory)).mapError
      .settings).map fun dir => { s with exportDirectory := dir } := by
  obtain ⟨-, u, hu, hw⟩ := (save_eq_ok_iff hp).mp h
  obtain ⟨place, bytes, hb, hf⟩ := FileTree.locate_writeText hw
  rw [load_of_file (location_of_save hl hu hw) (FileTree.exists?_of_locate hf)
    (FileTree.read_of_locate hf) (hy bytes hb), ofDocument_toDocument hs, ← hp]
  cases readDirectory env files' (exportPart s.exportDirectory) <;> rfl

/-- Saving keeps the settings. They are loaded again, as they are and from the same file, exactly if
their directory of exports stands for itself, as an absolute one does, and can be looked up. The
document that is saved must be read from its text. -/
theorem load_saved_iff (env : Environment) (files files₁ files₂ : FileTree) (s t t' : Settings)
    (loaded : load env files = .ok s) (assigned : Assigned s t)
    (same : location env files₁ = location env files)
    (saved : t.save env files₁ = .ok (t', files₂)) (legible : t.Legible)
    (blank : Text.isBlankText t.exportDirectory.text = false)
    (free : files₂.exists? t.exportDirectory = .ok true →
      files₂.isDirectory t.exportDirectory = true) :
    t' = t ∧
    (load env files₂ = .ok t ↔ env.expandHome t.exportDirectory = .ok t.exportDirectory ∧
      ∃ found, files₂.exists? t.exportDirectory = .ok found) ∧
    (t.exportDirectory.isAbsolute = true →
      env.expandHome t.exportDirectory = .ok t.exportDirectory) := by
  obtain ⟨p, d, r, hl, -, hs⟩ := exists_document_of_load loaded
  have hp : t.source = some p := by
    rw [assigned.source, ← hs]
  have sound := assigned.sound (sound_of_load loaded)
  refine ⟨((save_eq_ok_iff hp).mp saved).1, ?_, Environment.expandHome_of_isAbsolute⟩
  rw [load_of_save sound hp (same.trans hl) legible saved, map_eq_ok_iff,
    ← readDirectory_eq_ok_iff sound.directory blank free]
  simp only [mapError_eq_ok_iff]
  constructor
  · rintro ⟨dir, hd, he⟩
    -- Only the directory is read anew.
    obtain rfl : dir = t.exportDirectory := congrArg exportDirectory he
    exact hd
  · intro hd
    exact ⟨t.exportDirectory, hd, rfl⟩

/-! ## Runs from the standard settings -/

theorem toList_write (entries : List (Document × Document)) : (Yaml.write (.map entries)).toList =
    (Yaml.putEntries 0 ⟨[], 0⟩ entries).written ++ ['\n'] :=
  String.toList_ofList

/-- Reading the characters that are written shows whether settings are legible. -/
theorem legible_of_any {entries : List (Document × Document)} (he : s.toDocument = .map entries)
    (h : ((Utf8.encodeStrictly ((Yaml.putEntries 0 ⟨[], 0⟩ entries).written ++ ['\n'])).toOption.any
      fun bytes => (Yaml.readBytes bytes).toOption.any (Document.same (.map entries))) = true) :
    s.Legible ∧ ∃ bytes, Utf8.encodeStrictly (Yaml.write s.toDocument).toList = .ok bytes := by
  obtain ⟨bytes, hb, hr⟩ := exists_ok_of_any h
  obtain ⟨d, hd, hs⟩ := exists_ok_of_any hr
  rw [Legible, he, toList_write]
  refine ⟨fun bytes' hb' => ?_, bytes, hb⟩
  obtain rfl := Except.ok.inj (hb.symm.trans hb')
  rw [hd, Document.eq_of_same hs]

/-- Whether a file can be made at `p` such that `q` does not lead anywhere then. -/
def leavesFree (files : FileTree) (p q : Path) : Bool :=
  (files.ensureDirectory p.parent).toOption.any fun u =>
    (u.locate p).toOption.any fun spot =>
      spot.entry.isNone &&
        decide (((u.put spot.place (.file [])).exists? q).toOption = some false)

theorem exists_save (hp : s.source = some p)
    (hb : Utf8.encodeStrictly (Yaml.write s.toDocument).toList = .ok bytes) {q : Path}
    (h : leavesFree files p q = true) :
    ∃ files', s.save env files = .ok (s, files') ∧ files'.exists? q = .ok false := by
  obtain ⟨u, hu, h⟩ := exists_ok_of_any h
  obtain ⟨spot, hl, h⟩ := exists_ok_of_any h
  obtain ⟨hn, hq⟩ := Bool.and_eq_true_iff.mp h
  have hd : ∀ entries, spot.entry ≠ some (.directory entries) := by
    intro entries he
    rw [he] at hn
    cases hn
  obtain ⟨files', hw, he⟩ := FileTree.exists_writeText hl hd hb
  exact ⟨files', (save_eq_ok_iff hp).mpr ⟨rfl, u, hu, hw⟩,
    (he q).trans (eq_ok_of_toOption (of_decide_eq_true hq))⟩

/-- The environment in which one's home directory has the given name. -/
def homeAt (dir : String) : Environment := ⟨[("HOME", dir)], []⟩

/-- The tree where nothing stands. -/
def bare : FileTree := ⟨[], .empty⟩

/-- The standard settings with some directory of exports, from some file. -/
def standardAt (dir source : String) : Settings :=
  ⟨.standard, .ofText dir, standardHost, standardPort, "", standardLevel, some (.ofText source)⟩

/-- Settings in which most values are chosen, from some file. -/
def chosenAt (source : String) : Settings :=
  ⟨.mega, .ofText "/e", "::", 80, "a b", "DEBUG", some (.ofText source)⟩

theorem assigned_chosenAt (dir source : String) :
    Assigned (standardAt dir source) (chosenAt source) where
  directory := .inr ⟨Path.normal_ofText "/e", rfl⟩
  host := .inr (by decide : "::" ≠ "")
  port := .inr (by decide : (1 : Int) ≤ 80 ∧ 80 ≤ maxPort)
  token := .inr (by decide +kernel : Text.strip "a b" = "a b")
  level := .inr (by decide : "DEBUG" ∈ levels)
  source := rfl

/-- Chosen values are loaded as they were saved. -/
theorem load_saved_chosenAt :
    ∃ s t files, load (homeAt "/h") bare = .ok s ∧ Assigned s t ∧
      t.save (homeAt "/h") bare = .ok (t, files) ∧ t.Legible ∧
      Text.isBlankText t.exportDirectory.text = false ∧
      files.exists? t.exportDirectory = .ok false ∧ load (homeAt "/h") files = .ok t := by
  have loaded : load (homeAt "/h") bare =
      .ok (standardAt "/h/ardublock-exports" "/h/.ardublock/ardublock.yml") :=
    eq_ok_of_toOption (by decide +kernel)
  have assigned := assigned_chosenAt "/h/ardublock-exports" "/h/.ardublock/ardublock.yml"
  obtain ⟨legible, bytes, hb⟩ :=
    legible_of_any (s := chosenAt "/h/.ardublock/ardublock.yml") rfl (by decide +kernel)
  have blank : Text.isBlankText (Path.ofText "/e").text = false := by decide +kernel
  have room : leavesFree bare (.ofText "/h/.ardublock/ardublock.yml") (.ofText "/e") = true := by
    decide +kernel
  obtain ⟨files, saved, free⟩ := exists_save rfl hb room
  obtain ⟨-, reload, alone⟩ := load_saved_iff (homeAt "/h") bare bare files _ _ _ loaded assigned
    rfl saved legible blank (by rw [chosenAt, free]; simp)
  exact ⟨_, _, files, loaded, assigned, saved, legible, blank, free,
    reload.mpr ⟨alone rfl, false, free⟩⟩

/-- A name that starts with a tilde comes to the front of the directory of exports, and is taken for
an account that is not there. -/
theorem not_load_saved :
    ∃ s files, load (homeAt "./~x") bare = .ok s ∧ s.save (homeAt "./~x") bare = .ok (s, files) ∧
      s.Legible ∧ Text.isBlankText s.exportDirectory.text = false ∧
      files.exists? s.exportDirectory = .ok false ∧ ∀ r, load (homeAt "./~x") files ≠ .ok r := by
  have loaded : load (homeAt "./~x") bare =
      .ok (standardAt "~x/ardublock-exports" "/~x/.ardublock/ardublock.yml") :=
    eq_ok_of_toOption (by decide +kernel)
  obtain ⟨legible, bytes, hb⟩ := legible_of_any
    (s := standardAt "~x/ardublock-exports" "/~x/.ardublock/ardublock.yml") rfl (by decide +kernel)
  have blank : Text.isBlankText (Path.ofText "~x/ardublock-exports").text = false := by
    decide +kernel
  have away : ((homeAt "./~x").expandHome (.ofText "~x/ardublock-exports")).toOption = none := by
    decide +kernel
  have room : leavesFree bare (.ofText "/~x/.ardublock/ardublock.yml")
      (.ofText "~x/ardublock-exports") = true := by
    decide +kernel
  obtain ⟨files, saved, free⟩ := exists_save rfl hb room
  refine ⟨_, files, loaded, saved, legible, blank, free, fun r hr => ?_⟩
  obtain ⟨p, d, r', hl, -, hs⟩ := exists_document_of_load loaded
  rw [load_of_save (sound_of_load loaded) (hs ▸ rfl) hl legible saved] at hr
  obtain ⟨dir, hd, -⟩ := map_eq_ok_iff.mp hr
  obtain ⟨he, -⟩ := expandHome_of_readDirectory (sound_of_load loaded).directory blank
    (mapError_eq_ok_iff.mp hd)
  cases away.symm.trans (congrArg Except.toOption he)

end Settings

end BlockSketch
