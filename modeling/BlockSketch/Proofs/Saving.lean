import BlockSketch.Proofs.Records
import BlockSketch.Proofs.Refusals

/-! # Saved projects

A project that was read from a document is read again from its record, whatever the default board,
exactly if no custom part has a count of zero pins. Such a part comes back with one pin.
-/

namespace BlockSketch.Project

variable {d : Document} {ds : List Document} {n : Nat} {board board' : Board}
  {cs : List Component} {p : Project}

theorem settled_of_readComponents (h : readComponents n ds = .ok cs) : ∀ c ∈ cs, c.Settled := by
  intro c hc
  obtain ⟨record, -, k, hr⟩ := exists_record_of_readComponents h c hc
  exact Component.settled_of_ofRecord (repr_ne_empty k) hr

theorem readComponents_toRecord (h : ∀ c ∈ cs, c.Settled) :
    readComponents n (cs.map Component.toRecord) = .ok (cs.map Component.reloaded) := by
  induction cs generalizing n with
  | nil => rfl
  | cons c cs ih =>
    obtain ⟨hc, hcs⟩ := List.forall_mem_cons.mp h
    have hr : Component.ofRecord c.toRecord (toString n) = .ok c.reloaded :=
      Component.ofRecord_toRecord hc
    obtain ⟨es, hm⟩ : ∃ es, c.toRecord = .map es := ⟨_, rfl⟩
    rw [hm] at hr
    rw [List.map_cons, List.map_cons, hm]
    simp only [readComponents, hr, ih hcs]
    rfl

/-- The project that is read from the record of a project. -/
def reloaded (p : Project) : Project :=
  { p with components := p.components.map Component.reloaded }

theorem readBoard_id (b : Board) : readBoard (.text b.id) = .ok b := by
  rw [readBoard, Board.read_id]
  rfl

/-- A document with the prompt and the records of a project is read as the project, with the board
that the document names or else the default one. -/
theorem ofDocument_of_fields {b : Board} (h : ∀ c ∈ p.components, c.Settled)
    (hm : ∃ es, d = .map es)
    (hp : either d "prompt" "projectPrompt" (.text "") = .text p.prompt)
    (hr : d.get "components" = .list (p.components.map Component.toRecord))
    (hb : either d "board" "arduinoModel" .null = .text b.id ∨
      either d "board" "arduinoModel" .null = .null ∧ board = b) :
    ofDocument d board = .ok { p.reloaded with board := b } := by
  have prompt : ((Document.text p.prompt).orElse (.text "")).shown = p.prompt := by
    by_cases hp : p.prompt = ""
    · rw [hp]
      rfl
    · rw [Document.orElse_text hp, Document.shown_text]
  have records : (Document.list (p.components.map Component.toRecord)).orElse (.list []) =
      .list (p.components.map Component.toRecord) := by
    cases p.components <;> rfl
  obtain ⟨es, rfl⟩ := hm
  simp only [ofDocument, hp, hr, records, readComponents_toRecord h, prompt]
  rcases hb with hb | ⟨hb, rfl⟩
  · have present : (Document.text b.id).truthy = true := by cases b <;> rfl
    simp only [hb, present, readBoard_id, if_true]
    rfl
  · simp only [hb]
    rfl

theorem ofDocument_toRecord_of_settled (h : ∀ c ∈ p.components, c.Settled) :
    ofDocument p.toRecord board = .ok p.reloaded :=
  ofDocument_of_fields h ⟨_, rfl⟩ rfl rfl (.inl rfl)

theorem reloaded_eq_self_iff : p.reloaded = p ↔
    ∀ c ∈ p.components, ∀ part, c.kind = .custom part → part.pinCount ≠ 0 := by
  have hp : p.reloaded = p ↔ p.components.map Component.reloaded = p.components.map id := by
    rw [List.map_id]
    constructor
    · exact congrArg components
    · intro h
      rw [reloaded, h]
  simp only [hp, List.map_inj_left, id, Component.reloaded_eq_self_iff]

/-- The record of a project that was read can be read, whatever the default board. It gives the same
project again exactly if no custom part has a count of zero; such a part gets one pin. -/
theorem ofDocument_toRecord (h : ofDocument d board = .ok p) :
    ofDocument p.toRecord board' = .ok p.reloaded ∧
      (ofDocument p.toRecord board' = .ok p ↔
        ∀ c ∈ p.components, ∀ part, c.kind = .custom part → part.pinCount ≠ 0) := by
  obtain ⟨ds, -, hds⟩ := readComponents_of_ofDocument h
  have reload : ofDocument p.toRecord board' = .ok p.reloaded :=
    ofDocument_toRecord_of_settled (settled_of_readComponents hds)
  refine ⟨reload, ?_⟩
  rw [reload, Except.ok.injEq, reloaded_eq_self_iff]

/-- Scalars of the wrong kind, blank block names and a signed count are settled by the first
reading. -/
theorem ofDocument_toRecord_scalars :
    ∃ p, ofDocument (.object [("projectPrompt", .bool true), ("arduinoModel", .text " MEGA"),
        ("components", .list [
          .object [("type", .text "led"), ("pins", .int 13)],
          .object [("id", .int 0), ("type", .text "custom"), ("label", .int 7),
            ("customPinCount", .text " -2 "),
            ("customBlocks", .list [.text " a ", .text " ", .int 3])]])]) .uno = .ok p ∧
      p.board = .mega ∧
      p.components = [⟨"1", .known "led", "13", none⟩,
        ⟨"2", .custom ⟨"7", -2, [], ["a", "3"], "Custom"⟩, "", some (.int 7)⟩] ∧
      ofDocument p.toRecord .esp32 = .ok p := by
  refine ⟨⟨"True", .mega, _⟩, ?read, rfl, rfl, (ofDocument_toRecord ?read).2.mpr ?counts⟩
  case read => rfl
  intro c hc part hk
  simp only [List.mem_cons, List.not_mem_nil, or_false] at hc
  rcases hc with rfl | rfl
  · cases hk
  · obtain rfl := PartKind.custom.inj hk
    decide

/-- A count that was given by the text `0` is zero after the first reading and one after the
second. -/
theorem reload_changes_zero_count :
    ∃ p, ofDocument (.object [("components", .list [
        .object [("type", .text "custom"), ("customPinCount", .text "0")]])]) .uno = .ok p ∧
      p.components =
        [⟨"1", .custom ⟨"Custom Component", 0, [], ["Custom Block"], "Custom"⟩, "", none⟩] ∧
      ofDocument p.toRecord .uno = .ok ⟨"", .uno, [⟨"1",
        .custom ⟨"Custom Component", 1, [.digital], ["Custom Block"], "Custom"⟩, "", none⟩]⟩ ∧
      ofDocument p.toRecord .uno ≠ .ok p := by
  refine ⟨⟨"", .uno, _⟩, by rfl, rfl, by rfl, fun h => ?_⟩
  have hc := congrArg components (Except.ok.inj h)
  simp at hc

end BlockSketch.Project
