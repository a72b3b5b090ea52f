import BlockSketch.Proofs.Refusals
import BlockSketch.Proofs.SettingsFiles

/-! # Faults of settings

Most of what can be wrong in a document of settings is found as a fault of the settings. Some values
escape this: those that cannot be shown where a name is expected, directories that cannot be looked
up, and infinite ports. A value escapes only if everything that is read before it is in order.
-/

namespace BlockSketch.Settings

variable {α β : Type} {env : Environment} {files : FileTree} {d entries : Document}
  {e : SettingsFailure}

/-! ## Failures that are not faults -/

/-- The computation fails in a way that is not a fault of the settings. -/
def Leaks (x : Except SettingsFailure α) (e : SettingsFailure) : Prop :=
  x = .error e ∧ ∀ f, e ≠ .fault f

theorem leaks_bind {x : Except SettingsFailure α} {f : α → Except SettingsFailure β} :
    Leaks (x >>= f) e ↔ Leaks x e ∨ ∃ a, x = .ok a ∧ Leaks (f a) e := by
  unfold Leaks
  rw [bind_eq_error_iff, or_and_right]
  simp only [← exists_and_right, and_assoc]

theorem not_leaks_ok {a : α} : ¬ Leaks (.ok a) e := by
  simp [Leaks]

theorem not_leaks_fault {f : SettingsFault} : ¬ Leaks (.error (.fault f) : Except _ α) e :=
  fun h => h.2 f (Except.error.inj h.1).symm

/-- What fails with faults of the settings only does not leak. -/
theorem not_leaks_mapError (x : Except SettingsFault α) : ¬ Leaks (x.mapError .fault) e := by
  cases x with
  | error f => exact not_leaks_fault
  | ok a => exact not_leaks_ok

theorem leaks_mapError {ε : Type} {x : Except ε α} {f : ε → SettingsFailure}
    (h : ∀ a b, f a ≠ .fault b) : Leaks (x.mapError f) e ↔ ∃ a, x = .error a ∧ e = f a := by
  unfold Leaks
  rw [mapError_eq_error_iff]
  constructor
  · rintro ⟨⟨a, hx, rfl⟩, -⟩
    exact ⟨a, hx, rfl⟩
  · rintro ⟨a, hx, rfl⟩
    exact ⟨⟨a, hx, rfl⟩, h a⟩

/-! ## What each reader lets through -/

/-- The value that names the board. -/
def boardValue (entries : Document) : Document := field entries "default" (.text Board.standard.id)

/-- The value that names the level of the log. -/
def levelValue (entries : Document) : Document :=
  (field entries "level" (.text standardLevel)).orElse (.text standardLevel)

/-- What keeps the directory of exports from being looked up: the home directory that it starts in
is not known, or the system refuses to look for a directory that was chosen. -/
def Unlocated (env : Environment) (files : FileTree) (entries : Document) (fault : FileFault) :
    Prop :=
  match entries.get "out_dir" with
  | .null => env.expandHome (.ofText standardDirectory) = .error fault
  | .text s =>
    Text.isBlankText s = false ∧ (env.expandHome (.ofText s) = .error fault ∨
      ∃ p, env.expandHome (.ofText s) = .ok p ∧ files.exists? p = .error fault)
  | _ => False

theorem leaks_readBoard :
    Leaks (readBoard entries) e ↔
      ∃ fault, (boardValue entries).display = .error fault ∧ e = .value fault := by
  unfold readBoard
  rw [leaks_bind, leaks_mapError (by simp)]
  constructor
  · rintro (h | ⟨shown, -, h⟩)
    · exact h
    · generalize Board.read _ = r at h
      cases r with
      | error name => exact absurd h not_leaks_fault
      | ok board => exact absurd h not_leaks_ok
  · exact .inl

theorem leaks_expand {s : String} :
    Leaks (expand env s) e ↔ ∃ fault, env.expandHome (.ofText s) = .error fault ∧ e = .file fault :=
  leaks_mapError (by simp)

theorem leaks_readDirectory : Leaks (readDirectory env files entries) e ↔
    ∃ fault, Unlocated env files entries fault ∧ e = .file fault := by
  unfold readDirectory Unlocated
  cases entries.get "out_dir" with
  | null => exact leaks_expand
  | text s =>
    dsimp only
    cases Text.isBlankText s with
    | true => exact iff_of_false not_leaks_fault (by simp)
    | false =>
      rw [if_neg Bool.false_ne_true, leaks_bind, leaks_expand]
      simp only [leaks_bind, leaks_mapError (f := SettingsFailure.file) (by simp), expand,
        mapError_eq_ok_iff, true_and]
      constructor
      · rintro (⟨fault, hf, rfl⟩ | ⟨p, hp, ⟨fault, hf, rfl⟩ | ⟨found, -, h⟩⟩)
        · exact ⟨fault, .inl hf, rfl⟩
        · exact ⟨fault, .inr ⟨p, hp, hf⟩, rfl⟩
        · split at h
          · exact absurd h not_leaks_fault
          · exact absurd h not_leaks_ok
      · rintro ⟨fault, hf | ⟨p, hp, hf⟩, rfl⟩
        · exact .inl ⟨fault, hf, rfl⟩
        · exact .inr ⟨p, hp, .inl ⟨fault, hf, rfl⟩⟩
  | _ => exact iff_of_false not_leaks_fault (by simp)

theorem leaks_readPort : Leaks (readPort entries) e ↔
    (∃ negative, field entries "port" (.int standardPort) = .float (.infinity negative)) ∧
      e = .port .countIsInfinite := by
  unfold readPort
  split
  · next f hf =>
    cases ho : f.isOverflow with
    | true =>
      obtain ⟨rfl, hv⟩ := Document.toInt_eq_overflow hf ho
      simp only [Leaks, if_pos, hv, true_and]
      constructor
      · rintro ⟨h, -⟩
        exact (Except.error.inj h).symm
      · rintro rfl
        exact ⟨rfl, by simp⟩
    | false =>
      refine iff_of_false (by simpa using not_leaks_fault) ?_
      rintro ⟨⟨negative, hv⟩, -⟩
      rw [hv] at hf
      obtain rfl := Except.error.inj hf
      cases ho
  · next n hn =>
    refine iff_of_false ?_ ?_
    · split
      · exact not_leaks_fault
      · exact not_leaks_ok
    · rintro ⟨⟨negative, hv⟩, -⟩
      rw [hv] at hn
      cases hn

theorem leaks_readLevel :
    Leaks (readLevel entries) e ↔
      ∃ fault, (levelValue entries).display = .error fault ∧ e = .value fault := by
  unfold readLevel
  rw [leaks_bind, leaks_mapError (by simp)]
  constructor
  · rintro (h | ⟨shown, -, h⟩)
    · exact h
    · dsimp only at h
      split at h
      · exact absurd h not_leaks_ok
      · exact absurd h not_leaks_fault
  · exact .inl

/-! ## What escapes -/

/-- A section of the document is there and is read. -/
def IsRead (d : Document) (name : String) (read : Document → Except SettingsFailure α) : Prop :=
  ∃ entries a, part d name = .ok entries ∧ read entries = .ok a

/-- What escapes from a document, whose sections are read in the order of the cases. -/
inductive Escapes (env : Environment) (files : FileTree) (d : Document) : SettingsFailure → Prop
  /-- The board is given by a value that cannot be shown. -/
  | board {entries fault} : part d "board" = .ok entries →
      (boardValue entries).display = .error fault → Escapes env files d (.value fault)
  /-- The directory of exports cannot be looked up. -/
  | directory {entries fault} : IsRead d "board" readBoard →
      part d "export" = .ok entries → Unlocated env files entries fault →
      Escapes env files d (.file fault)
  /-- The port is infinite. -/
  | port {entries host token negative} : IsRead d "board" readBoard →
      IsRead d "export" (readDirectory env files) → part d "service" = .ok entries →
      readHost entries = .ok host → readToken entries = .ok token →
      field entries "port" (.int standardPort) = .float (.infinity negative) →
      Escapes env files d (.port .countIsInfinite)
  /-- The level is given by a value that cannot be shown. -/
  | level {service host token port entries fault} : IsRead d "board" readBoard →
      IsRead d "export" (readDirectory env files) → part d "service" = .ok service →
      readHost service = .ok host → readToken service = .ok token → readPort service = .ok port →
      part d "logging" = .ok entries → (levelValue entries).display = .error fault →
      Escapes env files d (.value fault)

theorem leaks_ofDocument_iff {es : List (Document × Document)} :
    Leaks (ofDocument env files (.map es)) e ↔ Escapes env files (.map es) e := by
  generalize hd : Document.map es = d
  unfold ofDocument
  rw [← hd]
  dsimp only
  rw [hd]
  simp only [leaks_bind, leaks_readBoard, leaks_readDirectory, leaks_readPort, leaks_readLevel,
    not_leaks_mapError, mapError_eq_ok_iff, false_or]
  -- Hosts and tokens fail with faults of the settings only, so four readers are left.
  constructor
  · rintro ⟨board, hb, ⟨fault, hs, rfl⟩ | ⟨b, rb, directory, hd, h⟩⟩
    · exact .board hb hs
    rcases h with ⟨fault, hu, rfl⟩ | ⟨dir, rd, service, hs, host, hh, token, ht, h⟩
    · exact .directory ⟨board, b, hb, rb⟩ hd hu
    rcases h with ⟨⟨negative, hp⟩, rfl⟩ | ⟨port, hp, logging, hl, h⟩
    · exact .port ⟨board, b, hb, rb⟩ ⟨directory, dir, hd, rd⟩ hs hh ht hp
    rcases h with ⟨fault, hv, rfl⟩ | ⟨level, -, h⟩
    · exact .level ⟨board, b, hb, rb⟩ ⟨directory, dir, hd, rd⟩ hs hh ht hp hl hv
    · exact absurd h not_leaks_ok
  · intro h
    cases h with
    | board hb hs => exact ⟨_, hb, .inl ⟨_, hs, rfl⟩⟩
    | directory board hd hu =>
      obtain ⟨part, b, hb, rb⟩ := board
      exact ⟨part, hb, .inr ⟨b, rb, _, hd, .inl ⟨_, hu, rfl⟩⟩⟩
    | port board directory hs hh ht hp =>
      obtain ⟨part, b, hb, rb⟩ := board
      obtain ⟨part', dir, hd, rd⟩ := directory
      exact ⟨part, hb, .inr ⟨b, rb, part', hd, .inr ⟨dir, rd, _, hs, _, hh, _, ht,
        .inl ⟨⟨_, hp⟩, rfl⟩⟩⟩⟩
    | level board directory hs hh ht hp hl hv =>
      obtain ⟨part, b, hb, rb⟩ := board
      obtain ⟨part', dir, hd, rd⟩ := directory
      exact ⟨part, hb, .inr ⟨b, rb, part', hd, .inr ⟨dir, rd, _, hs, _, hh, _, ht,
        .inr ⟨_, hp, _, hl, .inl ⟨_, hv, rfl⟩⟩⟩⟩⟩

/-- Reading settings gives settings in order or a fault of the settings, unless the document is a
mapping from which something escapes. -/
theorem ofDocument_reported_iff (env : Environment) (files : FileTree) (d : Document) :
    ((∃ s, ofDocument env files d = .ok s ∧ s.Sound) ∨
        ∃ f, ofDocument env files d = .error (.fault f)) ↔
      ¬ ∃ es e, d = .map es ∧ Escapes env files d e := by
  constructor
  · rintro h ⟨es, e, rfl, he⟩
    obtain ⟨hx, hf⟩ := leaks_ofDocument_iff.mpr he
    rcases h with ⟨s, hs, -⟩ | ⟨f, h⟩
    · cases hx.symm.trans hs
    · exact hf f (Except.error.inj (hx.symm.trans h))
  · intro h
    cases hx : ofDocument env files d with
    | ok s => exact .inl ⟨s, rfl, sound_of_ofDocument hx⟩
    | error e =>
      refine .inr (by_contra fun hf => ?_)
      simp only [Except.error.injEq, not_exists] at hf
      cases d with
      | map es => exact h ⟨es, e, rfl, leaks_ofDocument_iff.mp ⟨hx, hf⟩⟩
      | _ => exact hf _ (Except.error.inj hx).symm

/-- An infinite port, an account that is not there and a number that is too long to be shown end as
failures that are not faults of the settings. -/
theorem ofDocument_unreported :
    ofDocument (homeAt "/h") bare
        (.object [("service", .object [("port", .float (.infinity false))])]) =
      .error (.port .countIsInfinite) ∧
    ofDocument (homeAt "/h") bare (.object [("export", .object [("out_dir", .text "~x")])]) =
      .error (.file .noHome) ∧
    ofDocument (homeAt "/h") bare
        (.object [("board", .object [("default", .int (powerOfTen 4300))])]) =
      .error (.value (.numeral .tooLong)) := by
  have board : ∀ es, (Document.map es).get? "board" = none →
      IsRead (.map es) "board" readBoard := by
    intro es h
    have hp : part (.map es) "board" = part (.map []) "board" := by
      unfold part
      rw [h]
      rfl
    exact ⟨_, .standard, hp.trans rfl, eq_ok_of_toOption (by decide +kernel)⟩
  have home : Unlocated (homeAt "/h") bare (.object [("out_dir", .text "~x")]) .noHome :=
    ⟨by decide +kernel, .inl (by decide +kernel)⟩
  refine ⟨(leaks_ofDocument_iff.mpr (.port (board _ rfl) ?_ rfl rfl rfl rfl)).1,
    (leaks_ofDocument_iff.mpr (.directory (board _ rfl) rfl home)).1,
    (leaks_ofDocument_iff.mpr (.board rfl ?_)).1⟩
  · exact ⟨_, .ofText "/h/ardublock-exports", rfl, eq_ok_of_toOption (by decide +kernel)⟩
  · decide +kernel

end BlockSketch.Settings
