import BlockSketch.Proofs.Requests
import BlockSketch.Proofs.SettingsFiles

/-! # Merged settings

A section that a document of settings has replaces the standard one as a whole. Setting only what
the section holds in the standard one makes no difference to what is read, since every value that is
not given is read as the standard one. Only the directory of exports differs: one that is named is
looked up, the one that is read for none is not.
-/

namespace BlockSketch

/-! ## Entries that are set -/

namespace Document

variable {key : String} {k v d : Document} {base es : List (Document × Document)}

/-- No two entries have the same key. -/
def Keyed (es : List (Document × Document)) : Prop :=
  es.Pairwise fun e f => e.1.sameKey f.1 = false

instance : DecidablePred Keyed := fun es =>
  inferInstanceAs (Decidable (es.Pairwise fun e f => e.1.sameKey f.1 = false))

/-- The entries with others set in them, one after the other. -/
def updated (base es : List (Document × Document)) : List (Document × Document) :=
  es.foldl (fun fs e => insert e.1 e.2 fs) base

theorem fst_of_mem_insert {f : Document × Document} (h : f ∈ insert k v es) :
    f.1 = k ∨ f.1 ∈ es.map Prod.fst := by
  induction es with
  | nil => exact .inl (congrArg Prod.fst (List.mem_singleton.mp h))
  | cons e es ih =>
    rw [insert] at h
    rw [List.map_cons, List.mem_cons]
    split at h
    · rcases List.mem_cons.mp h with rfl | h
      · exact .inr (.inl rfl)
      · exact .inr (.inr (List.mem_map_of_mem h))
    · rcases List.mem_cons.mp h with rfl | h
      · exact .inr (.inl rfl)
      · exact (ih h).imp_right .inr

theorem keyed_insert (h : Keyed es) : Keyed (insert k v es) := by
  induction es with
  | nil => exact List.pairwise_singleton _ _
  | cons e es ih =>
    obtain ⟨first, rest⟩ := List.pairwise_cons.mp h
    rw [insert]
    split
    · exact List.pairwise_cons.mpr ⟨first, rest⟩
    · next other =>
      refine List.pairwise_cons.mpr ⟨fun f hf => ?_, ih rest⟩
      rcases fst_of_mem_insert hf with same | old
      · rw [same]
        exact Bool.eq_false_iff.mpr other
      · obtain ⟨g, hg, same⟩ := List.mem_map.mp old
        rw [← same]
        exact first g hg

theorem keyed_updated (h : Keyed base) : Keyed (updated base es) := by
  induction es generalizing base with
  | nil => exact h
  | cons e es ih => exact ih (keyed_insert h)

/-- Entries that are made distinct, as those of a mapping that is read, have different keys. -/
theorem keyed_distinct : Keyed (distinct es) := keyed_updated .nil

theorem isKey_iff : k.isKey key = true ↔ k = .text key := by
  cases k with
  | text s => simp [isKey]
  | _ => simp [isKey]

theorem sameKey_text : (text key).sameKey k = k.isKey key := by
  cases k with
  | text s => exact Bool.beq_comm
  | _ => rfl

/-- Keys that are the same are the same text, if one of them is a text. -/
theorem isKey_congr (h : d.sameKey k = true) : d.isKey key = k.isKey key := by
  rw [Bool.eq_iff_iff, isKey_iff, isKey_iff]
  constructor
  · rintro rfl
    rwa [sameKey_text, isKey_iff] at h
  · rintro rfl
    cases d with
    | text s => exact congrArg text (eq_of_beq h)
    | _ => cases h

theorem lookup_insert :
    lookup key (insert k v es) = if k.isKey key then some v else lookup key es := by
  induction es with
  | nil => rfl
  | cons e es ih =>
    obtain ⟨d, w⟩ := e
    rw [insert]
    split
    · next same =>
      rw [lookup, lookup, isKey_congr same]
      split <;> rfl
    · next other =>
      rw [lookup, lookup, ih]
      split
      · next hd =>
        rw [isKey_iff.mp hd, sameKey_text] at other
        rw [if_neg other]
      · rfl

/-- What is set stands in place of what was there. -/
theorem lookup_updated (h : Keyed es) :
    lookup key (updated base es) = (lookup key es).or (lookup key base) := by
  induction es generalizing base with
  | nil => rfl
  | cons e es ih =>
    obtain ⟨k, v⟩ := e
    obtain ⟨first, rest⟩ := List.pairwise_cons.mp h
    have step : updated base ((k, v) :: es) = updated (insert k v base) es := rfl
    rw [step, ih rest, lookup_insert, lookup]
    split
    · next hk =>
      have alone : lookup key es = none := by
        apply lookup_eq_none
        rintro e he same
        have apart := first e he
        rw [isKey_iff.mp hk, same, sameKey_text] at apart
        simp [isKey] at apart
      rw [alone]
      rfl
    · rfl

end Document

namespace Settings

open Document

variable {α : Type} {env : Environment} {files : FileTree} {d p : Document} {name key : String}
  {es fs : List (Document × Document)} {v : Document}

/-! ## Sections -/

/-- The names of the sections. -/
def sectionNames : List String := ["board", "export", "service", "logging"]

/-- A section with what is given set in it, one entry after the other. What does not count as
present sets nothing, and what is no mapping is taken as it is. -/
def overlaid (base given : Document) : Document :=
  match base, given.orElse (.map []) with
  | .map fs, .map es => .map (updated fs es)
  | _, other => other

/-- The standard sections with what the document sets in each. -/
def deepened (d : Document) : Document :=
  .object (sectionNames.map fun name => (name, overlaid (standard.get name) (d.get name)))

/-- In each section of the document that is a mapping, no two entries have the same key. -/
def SectionsKeyed (d : Document) : Prop :=
  ∀ name ∈ sectionNames, ∀ es, d.get? name = some (.map es) → Keyed es

theorem get?_deepened (hn : name ∈ sectionNames) :
    (deepened d).get? name = some (overlaid (standard.get name) (d.get name)) := by
  simp only [sectionNames, List.mem_cons, List.not_mem_nil, or_false] at hn
  rcases hn with rfl | rfl | rfl | rfl <;> rfl

/-- A standard section has entries, which stay as they are if they are set once more. -/
theorem standard_section (hn : name ∈ sectionNames) :
    ∃ fs, Keyed fs ∧ standard.get? name = some (.map fs) ∧ updated fs fs = fs := by
  simp only [sectionNames, List.mem_cons, List.not_mem_nil, or_false] at hn
  rcases hn with rfl | rfl | rfl | rfl
  all_goals exact ⟨_, by decide, rfl, rfl⟩

theorem orElse_map : (Document.map es).orElse (.map []) = .map es := by
  cases es <;> rfl

theorem orElse_orElse : (v.orElse (.map [])).orElse (.map []) = v.orElse (.map []) := by
  by_cases h : v.truthy = true
  · have same : v.orElse (.map []) = v := if_pos h
    rw [same, same]
  · rw [show v.orElse (.map []) = .map [] from if_neg h, orElse_map]

theorem overlaid_map : overlaid (.map fs) (.map es) = .map (updated fs es) := by
  unfold overlaid
  rw [orElse_map]

/-- The sections of the deepened document are those of the document, set in the standard ones. -/
theorem part_deepened (hn : name ∈ sectionNames) :
    part (deepened d) name = (part d name).map (overlaid (standard.get name)) := by
  obtain ⟨fs, -, hs, again⟩ := standard_section hn
  have base : standard.get name = .map fs := get_of_get? hs
  unfold part
  rw [get?_deepened hn, base, hs]
  cases hd : d.get? name with
  | none =>
    have unset : overlaid (.map fs) .null = .map fs := rfl
    simp only [get_of_none hd, unset, Option.some_or, Option.none_or, Option.getD_some, orElse_map,
      Except.map, overlaid_map, again]
  | some v =>
    simp only [get_of_get? hd, Option.some_or, Option.getD_some]
    cases hv : v.orElse (.map []) with
    | map es =>
      have set : overlaid (.map fs) v = .map (updated fs es) := by
        unfold overlaid
        rw [hv]
      simp only [set, orElse_map, Except.map, overlaid_map]
    | _ =>
      have kept : overlaid (.map fs) v = v.orElse (.map []) := by
        unfold overlaid
        rw [hv]
      have still := orElse_orElse (v := v)
      rw [hv] at kept still
      simp only [kept, still, Except.map]

/-- Entries of a section that is read have different keys. -/
theorem keyed_of_part (hn : name ∈ sectionNames) (hd : SectionsKeyed d)
    (h : part d name = .ok (.map es)) : Keyed es := by
  obtain ⟨fs, keyed, hs, -⟩ := standard_section hn
  unfold part at h
  rw [hs] at h
  cases hv : d.get? name with
  | none =>
    rw [hv] at h
    simp only [Option.none_or, Option.getD_some, orElse_map, Except.ok.injEq, map.injEq] at h
    rwa [← h]
  | some v =>
    rw [hv] at h
    simp only [Option.some_or, Option.getD_some] at h
    split at h
    · next entries he =>
      obtain rfl := map.inj (Except.ok.inj h)
      unfold orElse at he
      split at he
      · exact hd name hn entries (hv.trans (congrArg some he))
      · obtain rfl := map.inj he
        exact .nil
    · cases h

theorem part_eq_ok (h : part d name = .ok p) : ∃ es, p = .map es := by
  unfold part at h
  split at h
  · next entries _ => exact ⟨entries, (Except.ok.inj h).symm⟩
  · cases h

/-- Two readers that agree on a section and on what it sets read the same. -/
theorem part_bind_deepened {k k' : Document → Except SettingsFailure α} (hn : name ∈ sectionNames)
    (hd : SectionsKeyed d)
    (hk : ∀ es, Keyed es → k (overlaid (standard.get name) (.map es)) = k' (.map es)) :
    ((part (deepened d) name).mapError .fault >>= k) = ((part d name).mapError .fault >>= k') := by
  rw [part_deepened hn]
  cases hp : part d name with
  | error f => rfl
  | ok p =>
    obtain ⟨es, rfl⟩ := part_eq_ok hp
    exact hk es (keyed_of_part hn hd hp)

/-! ## Readers -/

theorem get?_overlaid (h : Keyed es) : (overlaid (.map fs) (.map es)).get? key =
    ((Document.map es).get? key).or ((Document.map fs).get? key) := by
  rw [overlaid_map]
  exact lookup_updated h

/-- A field is read as it is given, or else as it stands in the section that it is set in. -/
theorem field_overlaid (h : Keyed es) (hv : (Document.map fs).get? key = some v) :
    field (overlaid (.map fs) (.map es)) key v = field (.map es) key v := by
  rw [field, field, get?_overlaid h, hv]
  cases (Document.map es).get? key <;> rfl

theorem get_overlaid (h : Keyed es) (hv : (Document.map fs).get? key = some v) :
    (overlaid (.map fs) (.map es)).get key = field (.map es) key v := by
  rw [← field_overlaid h hv, field, Document.get, get?_overlaid h, hv]
  cases (Document.map es).get? key <;> rfl

theorem readBoard_overlaid (h : Keyed es) :
    readBoard (overlaid (standard.get "board") (.map es)) = readBoard (.map es) := by
  have same :
      field (overlaid (standard.get "board") (.map es)) "default" (.text Board.standard.id) =
        field (.map es) "default" (.text Board.standard.id) := field_overlaid h rfl
  rw [readBoard, readBoard, same]

theorem readHost_overlaid (h : Keyed es) :
    readHost (overlaid (standard.get "service") (.map es)) = readHost (.map es) := by
  have same : field (overlaid (standard.get "service") (.map es)) "host" (.text standardHost) =
      field (.map es) "host" (.text standardHost) := field_overlaid h rfl
  rw [readHost, readHost, same]

theorem readToken_overlaid (h : Keyed es) :
    readToken (overlaid (standard.get "service") (.map es)) = readToken (.map es) := by
  have same : ((overlaid (standard.get "service") (.map es)).get "auth_token").orElse (.text "") =
      ((Document.map es).get "auth_token").orElse (.text "") := by
    have found : (overlaid (standard.get "service") (.map es)).get "auth_token" =
        field (.map es) "auth_token" (.text "") := get_overlaid h rfl
    rw [found]
    unfold field Document.get
    cases (Document.map es).get? "auth_token" <;> rfl
  rw [readToken, readToken, same]

theorem readPort_overlaid (h : Keyed es) :
    readPort (overlaid (standard.get "service") (.map es)) = readPort (.map es) := by
  have same : field (overlaid (standard.get "service") (.map es)) "port" (.int standardPort) =
      field (.map es) "port" (.int standardPort) := field_overlaid h rfl
  rw [readPort, readPort, same]

theorem readLevel_overlaid (h : Keyed es) :
    readLevel (overlaid (standard.get "logging") (.map es)) = readLevel (.map es) := by
  have same : field (overlaid (standard.get "logging") (.map es)) "level" (.text standardLevel) =
      field (.map es) "level" (.text standardLevel) := field_overlaid h rfl
  rw [readLevel, readLevel, same]

/-! ## The directory of exports -/

/-- The standard directory of exports, if the home directory that it starts in is known, can be
looked up and is not there as a file. -/
def StandardFree (env : Environment) (files : FileTree) : Prop :=
  ∀ p, env.expandHome (.ofText standardDirectory) = .ok p →
    ∃ found, files.exists? p = .ok found ∧ (found = true → files.isDirectory p = true)

theorem readDirectory_standard (h : p.get "out_dir" = .text standardDirectory) :
    readDirectory env files p = do
      let dir ← expand env standardDirectory
      let found ← (files.exists? dir).mapError .file
      if found && !files.isDirectory dir then throw (.fault .directoryIsFile)
      return dir := by
  have blank : Text.isBlankText standardDirectory = false := by decide
  rw [readDirectory, h]
  dsimp only
  rw [blank, if_neg Bool.false_ne_true]

/-- The standard directory is read as if none were given exactly if it is free. -/
theorem readDirectory_standard_iff (h : p.get "out_dir" = .text standardDirectory) :
    readDirectory env files p = expand env standardDirectory ↔ StandardFree env files := by
  rw [readDirectory_standard h, StandardFree, expand]
  cases env.expandHome (.ofText standardDirectory) with
  | error fault => exact iff_of_true rfl fun _ h => absurd h (by simp)
  | ok dir =>
    simp only [Except.mapError, Except.ok.injEq, forall_eq', bind, Except.bind]
    cases files.exists? dir with
    | error fault => exact iff_of_false (by simp) (by simp)
    | ok found =>
      cases found <;> cases files.isDirectory dir <;> simp [throw, throwThe, pure, Except.pure]

theorem readDirectory_overlaid (h : Keyed es) (free : StandardFree env files) :
    readDirectory env files (overlaid (standard.get "export") (.map es)) =
      readDirectory env files (.map es) := by
  have found : (overlaid (standard.get "export") (.map es)).get "out_dir" =
      field (.map es) "out_dir" (.text standardDirectory) := get_overlaid h rfl
  unfold field at found
  cases hv : (Document.map es).get? "out_dir" with
  | none =>
    rw [hv] at found
    rw [(readDirectory_standard_iff found).mpr free, readDirectory, get_of_none hv]
  | some v =>
    rw [hv] at found
    rw [readDirectory, readDirectory, found, get_of_get? hv]
    rfl

/-! ## Whole documents -/

theorem ofDocument_of_map (h : d = .map es) : ofDocument env files d = do
    let board ← readBoard (← (part d "board").mapError .fault)
    let directory ← readDirectory env files (← (part d "export").mapError .fault)
    let service ← (part d "service").mapError .fault
    let host ← (readHost service).mapError .fault
    let token ← (readToken service).mapError .fault
    let port ← readPort service
    let level ← readLevel (← (part d "logging").mapError .fault)
    return ⟨board, directory, host, port, token, level, none⟩ := by
  rw [h]
  rfl

theorem ofDocument_deepened (hd : SectionsKeyed (.map es)) (free : StandardFree env files) :
    ofDocument env files (deepened (.map es)) = ofDocument env files (.map es) := by
  obtain ⟨fs, hfs⟩ : ∃ fs, deepened (.map es) = .map fs := ⟨_, rfl⟩
  rw [ofDocument_of_map hfs, ofDocument_of_map rfl]
  apply part_bind_deepened (by decide) hd
  intro board hb
  rw [readBoard_overlaid hb]
  apply bind_congr
  intro board
  apply part_bind_deepened (by decide) hd
  intro exports hx
  rw [readDirectory_overlaid hx free]
  apply bind_congr
  intro directory
  apply part_bind_deepened (by decide) hd
  intro service hs
  rw [readHost_overlaid hs, readToken_overlaid hs, readPort_overlaid hs]
  apply bind_congr
  intro host
  apply bind_congr
  intro token
  apply bind_congr
  intro port
  apply part_bind_deepened (by decide) hd
  intro logging hl
  rw [readLevel_overlaid hl]

/-- The standard settings, but for the directory of exports. -/
def plain : Settings :=
  ⟨.standard, .ofText standardDirectory, standardHost, standardPort, "", standardLevel, none⟩

theorem sound_plain : plain.Sound where
  directory := Path.normal_ofText standardDirectory
  host := by decide
  port := by decide
  token := rfl
  level := by decide

/-- The settings that have a directory of exports and are else the standard ones. -/
def plainAt (dir : Path) : Settings := { plain with exportDirectory := dir, source := none }

/-- Nothing is chosen in these entries, but there is a section of exports. -/
def hollow : List (Document × Document) := [(.text "export", .map [])]

theorem sectionsKeyed_hollow : SectionsKeyed (.map hollow) := by
  intro name hn es he
  simp only [sectionNames, List.mem_cons, List.not_mem_nil, or_false] at hn
  rcases hn with rfl | rfl | rfl | rfl
  · cases he
  · obtain rfl := map.inj (Option.some.inj he)
    exact .nil
  · cases he
  · cases he

theorem ofDocument_hollow :
    ofDocument env files (.map hollow) = (expand env standardDirectory).map plainAt := by
  have empty : part (.map hollow) "export" = .ok (.map []) := rfl
  exact ofDocument_of_parts sound_plain ⟨hollow, rfl⟩ rfl empty rfl rfl

theorem ofDocument_deepened_hollow : ofDocument env files (deepened (.map hollow)) =
    (readDirectory env files (standard.get "export")).map plainAt :=
  ofDocument_of_parts sound_plain ⟨_, rfl⟩ rfl rfl rfl rfl

/-- A standard directory that cannot be looked up keeps settings from being read where it is
given. -/
theorem ofDocument_deepened_hollow_error {dir : Path} {fault : FileFault}
    (home : env.expandHome (.ofText standardDirectory) = .ok dir)
    (lookup : files.exists? dir = .error fault) :
    ofDocument env files (deepened (.map hollow)) = .error (.file fault) := by
  rw [ofDocument_deepened_hollow, readDirectory_standard rfl, expand, home]
  simp only [Except.mapError, bind, Except.bind, lookup, Except.map]

theorem map_injective {ε β γ : Type} {f : β → γ} (hf : Function.Injective f) {x y : Except ε β}
    (h : x.map f = y.map f) : x = y := by
  cases x <;> cases y <;> simp_all [Except.map, hf.eq_iff]

/-- Setting the sections of a document in the standard ones, instead of replacing those as a whole,
makes no difference to what is read, be it settings or a failure, exactly if the standard directory
of exports, where it is known, can be looked up and is not there as a file. -/
theorem ofDocument_deepened_iff (env : Environment) (files : FileTree) :
    (∀ es, SectionsKeyed (.map es) →
      ofDocument env files (deepened (.map es)) = ofDocument env files (.map es)) ↔
    StandardFree env files := by
  constructor
  · intro h
    have same := h hollow sectionsKeyed_hollow
    rw [ofDocument_deepened_hollow, ofDocument_hollow] at same
    apply (readDirectory_standard_iff (p := standard.get "export") rfl).mp
    exact map_injective (fun _ _ he => congrArg exportDirectory he) same
  · intro free es hd
    exact ofDocument_deepened hd free

/-- A port is chosen, the level is null, and nothing stands in the section of the board. -/
def partly : List (Document × Document) :=
  [(.text "service", .object [("port", .int 80)]), (.text "logging", .null),
    (.text "board", .map [])]

theorem ofDocument_deepened_iff_partly : StandardFree (homeAt "/h") bare ∧
    ofDocument (homeAt "/h") bare (deepened (.map partly)) =
      .ok { plainAt (.ofText "/h/ardublock-exports") with port := 80 } ∧
    ofDocument (homeAt "/h") bare (.map partly) =
      .ok { plainAt (.ofText "/h/ardublock-exports") with port := 80 } := by
  have home : (homeAt "/h").expandHome (.ofText standardDirectory) =
      .ok (.ofText "/h/ardublock-exports") := eq_ok_of_toOption (by decide +kernel)
  have absent : bare.exists? (.ofText "/h/ardublock-exports") = .ok false :=
    eq_ok_of_toOption (by decide +kernel)
  have free : StandardFree (homeAt "/h") bare := by
    intro p hp
    obtain rfl := Except.ok.inj (home.symm.trans hp)
    exact ⟨false, absent, by simp⟩
  have keyed : SectionsKeyed (.map partly) := by
    intro name hn es he
    simp only [sectionNames, List.mem_cons, List.not_mem_nil, or_false] at hn
    rcases hn with rfl | rfl | rfl | rfl
    · obtain rfl := map.inj (Option.some.inj he)
      exact .nil
    · cases he
    · obtain rfl := map.inj (Option.some.inj he)
      decide
    · cases he
  have shallow : ofDocument (homeAt "/h") bare (.map partly) =
      .ok { plainAt (.ofText "/h/ardublock-exports") with port := 80 } :=
    eq_ok_of_toOption (by decide +kernel)
  have same := (ofDocument_deepened_iff (homeAt "/h") bare).mpr free partly keyed
  exact ⟨free, same.trans shallow, shallow⟩

/-! ## A home directory whose name is too long -/

section

variable {name : String}

theorem home_homeAt (hn : Path.Proper name) :
    (homeAt ("/" ++ name)).home "" = .ok ("/" ++ name) := by
  have chars : ("/" ++ name).toList = '/' :: name.toList := String.toList_append
  have trimmed : (("/" ++ name).toList.reverse.dropWhile (· == '/')).reverse =
      ("/" ++ name).toList := by
    rw [chars]
    apply List.rdropWhile_eq_self_iff.mpr
    intro _ he
    have filled : name.toList ≠ [] := mt String.toList_eq_nil_iff.mp hn.nonempty
    rw [List.getLast_cons filled] at he
    exact hn.whole (eq_of_beq he ▸ List.getLast_mem filled)
  have known : (if "".isEmpty = true then (homeAt ("/" ++ name)).get? "HOME"
      else (homeAt ("/" ++ name)).accounts.lookup "") = some ("/" ++ name) := rfl
  have rooted : (("/" ++ name).toList.head? == some '~') = false := by
    rw [chars]
    rfl
  have filled : ("/" ++ name).toList.isEmpty = false := by
    rw [chars]
    rfl
  apply bind_eq_ok_iff.mpr
  refine ⟨(), rfl, ?_⟩
  dsimp only
  rw [known]
  dsimp only
  rw [trimmed, rooted, filled, String.ofList_toList]
  rfl

/-- The standard directory is below one's home. -/
theorem expandHome_standardDirectory (hn : Path.Proper name) :
    (homeAt ("/" ++ name)).expandHome (.ofText standardDirectory) =
      .ok ⟨1, [name, "ardublock-exports"]⟩ := by
  have standard : Path.ofText standardDirectory = ⟨0, ["~", "ardublock-exports"]⟩ := by
    decide
  have text : (⟨1, [name]⟩ : Path).text = "/" ++ name := by
    rw [← String.toList_inj, Path.toList_text (by simp)]
    simp [Path.nameChars]
  have home : Path.ofText ("/" ++ name) = ⟨1, [name]⟩ := by
    rw [← text]
    exact Path.ofText_text ⟨(by decide : 1 ≤ 2), by simpa using hn⟩
  rw [standard]
  have account := home_homeAt hn
  change (do
    let base := Path.ofText (← (homeAt ("/" ++ name)).home "")
    return { base with names := base.names ++ ["ardublock-exports"] }) = _
  rw [account]
  change Except.ok _ = _
  rw [home]
  rfl

theorem text_below : (⟨1, [name, "ardublock-exports"]⟩ : Path).text =
    "/" ++ (name ++ "/ardublock-exports") := by
  rw [← String.toList_inj, Path.toList_text (by simp)]
  simp [Path.nameChars]

theorem checkSystemText_eq_ok {s : String}
    (h : ∀ c ∈ s.toList, Text.Encoding.fileName.holds c = true ∧ c ≠ '\x00') :
    checkSystemText s = .ok () := by
  have null : ¬ s.toList.contains '\x00' = true := fun hc =>
    (h _ (List.contains_iff_mem.mp hc)).2 rfl
  rw [checkSystemText, Text.Encoding.fault?_eq_none_iff.mpr fun c hc => (h c hc).1]
  exact if_neg null

/-- A name that is too long is not even looked for. -/
theorem exists?_of_long {p : Path} {names : List String} (hp : p = ⟨1, name :: names⟩)
    (passes : checkSystemText p.text = .ok ()) (size : p.text.utf8ByteSize ≤ FileTree.maxPathBytes)
    (up : name ≠ "..") (long : FileTree.maxNameBytes < name.utf8ByteSize) :
    bare.exists? p = .error (.system .nameTooLong p.text) := by
  have followed : FileTree.follow bare.root [] (name :: names) = .error .nameTooLong := by
    rw [FileTree.follow]
    change (if name = ".." then _ else if _ then _ else _) = _
    rw [if_neg up, if_pos long]
  have located : bare.locate p = .error (.system .nameTooLong p.text) := by
    subst hp
    simp only [FileTree.locate, passes, bind, Except.bind, if_neg (Nat.not_lt.mpr size),
      Path.isAbsolute]
    exact congrArg (Except.mapError _) followed
  rw [FileTree.exists?, FileTree.entry, located]
  rfl

end

def longName : String := String.ofList (List.replicate 256 'a')

theorem toList_longName : longName.toList = List.replicate 256 'a' := String.toList_ofList

theorem utf8ByteSize_longName : longName.utf8ByteSize = 256 := by decide +kernel

theorem proper_longName : Path.Proper longName where
  nonempty := ofList_ne_empty (List.cons_ne_nil _ _)
  notDot he := by
    have lengths := congrArg (fun s : String => s.toList.length) he
    rw [toList_longName, List.length_replicate] at lengths
    exact absurd lengths (by decide)
  whole hm := by
    rw [toList_longName] at hm
    exact absurd (List.eq_of_mem_replicate hm) (by decide)

def longDirectory : Path := ⟨1, [longName, "ardublock-exports"]⟩

theorem exists?_longDirectory :
    bare.exists? longDirectory = .error (.system .nameTooLong longDirectory.text) := by
  have text : longDirectory.text = "/" ++ (longName ++ "/ardublock-exports") := text_below
  have passes : checkSystemText longDirectory.text = .ok () := by
    apply checkSystemText_eq_ok
    intro c hc
    rw [text, String.toList_append, String.toList_append, toList_longName] at hc
    have fixed : ∀ c ∈ "/".toList ++ ('a' :: "/ardublock-exports".toList),
        Text.Encoding.fileName.holds c = true ∧ c ≠ '\x00' := by decide
    apply fixed
    rcases List.mem_append.mp hc with hc | hc
    · exact List.mem_append_left _ hc
    · apply List.mem_append_right
      rcases List.mem_append.mp hc with hc | hc
      · rw [List.eq_of_mem_replicate hc]
        exact List.mem_cons_self
      · exact List.mem_cons_of_mem _ hc
  have size : longDirectory.text.utf8ByteSize ≤ FileTree.maxPathBytes := by
    rw [text, String.utf8ByteSize_append, String.utf8ByteSize_append, utf8ByteSize_longName]
    decide
  have long : FileTree.maxNameBytes < longName.utf8ByteSize := by
    rw [utf8ByteSize_longName]
    decide
  have up : longName ≠ ".." := by
    intro he
    rw [he] at long
    exact absurd long (by decide)
  exact exists?_of_long rfl passes size up long

/-- The standard directory is not there, and yet its name keeps settings from being read where it is
given, but not where it is left out. -/
theorem ofDocument_deepened_ne :
    (homeAt ("/" ++ longName)).expandHome (.ofText standardDirectory) = .ok longDirectory ∧
    bare.exists? longDirectory ≠ .ok true ∧ SectionsKeyed (.map hollow) ∧
    ofDocument (homeAt ("/" ++ longName)) bare (.map hollow) = .ok (plainAt longDirectory) ∧
    ofDocument (homeAt ("/" ++ longName)) bare (deepened (.map hollow)) =
      .error (.file (.system .nameTooLong longDirectory.text)) := by
  have home : (homeAt ("/" ++ longName)).expandHome (.ofText standardDirectory) =
      .ok longDirectory := expandHome_standardDirectory proper_longName
  have lookup := exists?_longDirectory
  refine ⟨home, by rw [lookup]; simp, sectionsKeyed_hollow, ?_, ?_⟩
  · rw [ofDocument_hollow, expand, home]
    rfl
  · exact ofDocument_deepened_hollow_error home lookup

end Settings

end BlockSketch
