import BlockSketch.Project.Export
import BlockSketch.Proofs.JsonTexts
import BlockSketch.Proofs.Saving

/-! # Exported documents

An exported document gives the board under a key that is not looked at when a project is read. So it
is read with the prompt and the components of the project, but with the default board.
-/

namespace BlockSketch

open Json (Regular)

variable {n : Nat} {p : Project} {now : Instant} {d r : Document} {board board' : Board}
  {text : String}

/-! ## Regular records -/

theorem regular_list_map {α : Type} {xs : List α} {f : α → Document}
    (h : ∀ x ∈ xs, Regular n (f x)) : Regular (n + 1) (.list (xs.map f)) :=
  .list (List.forall_mem_map.mpr h)

theorem Component.regular_toRecord {c : Component} (h : ∀ l ∈ c.label, Regular (n + 1) l) :
    Regular (n + 2) c.toRecord := by
  obtain ⟨id, kind, pins, label⟩ := c
  have types {ts : List PinType} : Regular (n + 1) (.list (ts.map fun t => .text t.id)) :=
    regular_list_map fun t _ => .text t.id
  have blocks {bs : List String} : Regular (n + 1) (.list (bs.map .text)) :=
    regular_list_map fun s _ => .text s
  rcases label with _ | l <;> rcases kind with _ | part
  · exact .object (by decide : ["id", "type", "pins"].Nodup) (by simp [Regular.text])
  · exact .object (by decide : ["id", "type", "pins", "customName", "customPinCount",
      "customPinTypes", "customBlocks", "customCategory"].Nodup)
      (by simp [Regular.text, Regular.int, types, blocks])
  · exact .object (by decide : ["id", "type", "pins", "label"].Nodup)
      (by simp [Regular.text, h])
  · exact .object (by decide : ["id", "type", "pins", "label", "customName", "customPinCount",
      "customPinTypes", "customBlocks", "customCategory"].Nodup)
      (by simp [Regular.text, Regular.int, types, blocks, h])

theorem Step.regular_toRecord (s : Step) : Regular (n + 1) s.toRecord := by
  obtain ⟨level, text, kind, block⟩ := s
  cases block with
  | none =>
    exact .object (by decide : ["level", "text", "type"].Nodup)
      (by simp [Regular.text, Regular.int])
  | some b =>
    exact .object (by decide : ["level", "text", "type", "blockType"].Nodup)
      (by simp [Regular.text, Regular.int])

theorem Issue.regular_toRecord (i : Issue) : Regular (n + 1) i.toRecord := by
  unfold Issue.toRecord
  cases i.complaint.pin? with
  | none =>
    exact .object (by decide : ["type", "message", "suggestion", "component"].Nodup)
      (by simp [Regular.text])
  | some pin =>
    exact .object (by decide : ["type", "message", "suggestion", "component", "pin"].Nodup)
      (by simp [Regular.text])

theorem Report.regular_toRecord (r : Report) : Regular (n + 3) r.toRecord := by
  have issues : Regular (n + 2) (.list (r.issues.map Issue.toRecord)) :=
    regular_list_map fun i _ => i.regular_toRecord
  exact .object (by decide : ["status", "issues", "componentCount", "digitalPinsUsed",
    "analogPinsUsed", "estimatedBlocks"].Nodup) (by simp [Regular.text, Regular.int, issues])

namespace Project

theorem exportRecord_eq_ok (h : p.exportRecord now = .ok r) :
    ∃ (report : Report) (steps : List Step), r = .object [("model", .text p.board.id),
      ("prompt", .text p.prompt), ("components", .list (p.components.map Component.toRecord)),
      ("pseudocode", .list (steps.map Step.toRecord)), ("debugReport", Report.toRecord report),
      ("timestamp", .text (now.text "T")), ("version", .text version)] := by
  obtain ⟨report, -, h⟩ := bind_eq_ok_iff.mp h
  obtain ⟨actions, -, h⟩ := bind_eq_ok_iff.mp h
  obtain ⟨steps, -, h⟩ := bind_eq_ok_iff.mp h
  exact ⟨report, steps, (pure_eq_ok_iff.mp h).symm⟩

theorem regular_exportRecord (hl : ∀ c ∈ p.components, ∀ l ∈ c.label, Regular (n + 1) l)
    (h : p.exportRecord now = .ok r) : Regular (n + 4) r := by
  obtain ⟨report, steps, rfl⟩ := exportRecord_eq_ok h
  have components : Regular (n + 3) (.list (p.components.map Component.toRecord)) :=
    regular_list_map fun c hc => Component.regular_toRecord (hl c hc)
  have program : Regular (n + 3) (.list (steps.map Step.toRecord)) :=
    regular_list_map fun s _ => s.regular_toRecord
  exact .object (by decide : ["model", "prompt", "components", "pseudocode", "debugReport",
    "timestamp", "version"].Nodup)
    (by simp [Regular.text, components, program, report.regular_toRecord])

/-- What is exported is read back as the exported record, unless a label holds a number that is not
whole, or values that are nested too deeply. -/
theorem read_exportDocument
    (hl : ∀ c ∈ p.components, ∀ l ∈ c.label, Regular (Json.maxDepth - 3) l)
    (h : p.exportDocument now = .ok text) :
    ∃ r, p.exportRecord now = .ok r ∧ Json.read text = .ok r := by
  obtain ⟨r, hr, hw⟩ := bind_eq_ok_iff.mp h
  exact ⟨r, hr, Json.read_of_write rfl (regular_exportRecord hl hr) (mapError_eq_ok_iff.mp hw)⟩

/-! ## Reading an export -/

theorem ofDocument_exportRecord (hc : ∀ c ∈ p.components, c.Settled)
    (h : p.exportRecord now = .ok r) :
    ofDocument r board = .ok { p.reloaded with board := board } := by
  obtain ⟨report, steps, rfl⟩ := exportRecord_eq_ok h
  -- The record has neither of the keys that a board is read from.
  exact ofDocument_of_fields hc ⟨_, rfl⟩ rfl rfl (.inr ⟨rfl, rfl⟩)

/-- A project that was read from a document is read again from the text of its exported document,
provided that this is decoded to what was encoded. The board is then the default one, so that it is
the same project exactly if that was its board and no custom part has a count of zero. -/
theorem ofDocument_exportDocument (h : ofDocument d board = .ok p)
    (hx : p.exportDocument now = .ok text)
    (inverts : ∀ r, p.exportRecord now = .ok r → Json.read text = .ok r) :
    ∃ r, Json.read text = .ok r ∧ ∀ board',
      ofDocument r board' = .ok { p.reloaded with board := board' } ∧
      (ofDocument r board' = .ok p ↔ board' = p.board ∧
        ∀ c ∈ p.components, ∀ part, c.kind = .custom part → part.pinCount ≠ 0) := by
  obtain ⟨ds, -, hds⟩ := readComponents_of_ofDocument h
  obtain ⟨r, hr, -⟩ := bind_eq_ok_iff.mp hx
  refine ⟨r, inverts r hr, fun board' => ?_⟩
  have reload : ofDocument r board' = .ok { p.reloaded with board := board' } :=
    ofDocument_exportRecord (settled_of_readComponents hds) hr
  refine ⟨reload, ?_⟩
  rw [reload, Except.ok.injEq, ← reloaded_eq_self_iff]
  constructor
  · intro he
    obtain rfl : board' = p.board := congrArg Project.board he
    exact ⟨rfl, he⟩
  · rintro ⟨rfl, he⟩
    exact he

/-- A project on a Mega with a light and a custom part. -/
def megaProject : Project := ⟨"wait 1 second", .mega, [
  ⟨"1", .known "led", "53", some (.text "a\n\"b\"")⟩,
  ⟨"2", .custom ⟨"[7, True]", 1, [.digital], ["Custom Block"], "Custom"⟩, "",
    some (.list [.int 7, .bool true])⟩]⟩

/-- A document of the project. -/
def megaDocument : Document := .object [("prompt", .text "wait 1 second"), ("board", .text "mega"),
  ("components", .list [
    .object [("type", .text "led"), ("pins", .int 53), ("label", .text "a\n\"b\"")],
    .object [("type", .text "custom"), ("label", .list [.int 7, .bool true])]])]

theorem ofDocument_megaDocument : ofDocument megaDocument .uno = .ok megaProject := rfl

theorem exists_exportDocument_mega :
    ∃ text, megaProject.exportDocument ⟨⟨2024, 5, 1⟩, 0, 0, 0, 0, none⟩ = .ok text :=
  exists_ok_of_isOk (by decide +kernel)

theorem regular_labels_mega :
    ∀ c ∈ megaProject.components, ∀ l ∈ c.label, Regular (Json.maxDepth - 3) l := by
  have label : Regular (Json.maxDepth - 3) (.list [.int 7, .bool true]) :=
    .list (by simp [Regular.int, Regular.bool])
  simp [megaProject, Regular.text, label]

/-- With its own board as the default one the project is the same. -/
theorem ofDocument_exportDocument_mega : ∃ text r,
    ofDocument megaDocument .uno = .ok megaProject ∧
      megaProject.exportDocument ⟨⟨2024, 5, 1⟩, 0, 0, 0, 0, none⟩ = .ok text ∧
      Json.read text = .ok r ∧ ofDocument r .mega = .ok megaProject := by
  obtain ⟨text, hx⟩ := exists_exportDocument_mega
  obtain ⟨s, hs, ht⟩ := read_exportDocument regular_labels_mega hx
  obtain ⟨r, hr, h⟩ := ofDocument_exportDocument ofDocument_megaDocument hx fun r hr => by
    obtain rfl := Except.ok.inj (hs.symm.trans hr)
    exact ht
  refine ⟨text, r, ofDocument_megaDocument, hx, hr, (h .mega).2.mpr ⟨rfl, fun c hc part hk => ?_⟩⟩
  simp only [megaProject, List.mem_cons, List.not_mem_nil, or_false] at hc
  rcases hc with rfl | rfl
  · cases hk
  · obtain rfl := PartKind.custom.inj hk
    decide

/-- The board of an exported project is lost when another one is the default. -/
theorem export_loses_board : ∃ text r, ofDocument megaDocument .uno = .ok megaProject ∧
    megaProject.exportDocument ⟨⟨2024, 5, 1⟩, 0, 0, 0, 0, none⟩ = .ok text ∧
      Json.read text = .ok r ∧ ofDocument r .uno = .ok { megaProject with board := .uno } ∧
      ofDocument r .uno ≠ .ok megaProject := by
  obtain ⟨text, hx⟩ := exists_exportDocument_mega
  obtain ⟨r, hr, ht⟩ := read_exportDocument regular_labels_mega hx
  obtain ⟨ds, -, hds⟩ := readComponents_of_ofDocument ofDocument_megaDocument
  have reload : ofDocument r .uno = .ok { megaProject with board := .uno } :=
    ofDocument_exportRecord (settled_of_readComponents hds) hr
  refine ⟨text, r, ofDocument_megaDocument, hx, ht, reload, fun he => ?_⟩
  rw [reload] at he
  cases congrArg Project.board (Except.ok.inj he)

end Project

end BlockSketch
