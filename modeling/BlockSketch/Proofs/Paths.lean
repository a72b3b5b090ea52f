import BlockSketch.Files.Environment
import BlockSketch.Proofs.Outcome

/-! # Normal paths

The text of a path that was read gives the path back. Paths stay of that form when a tilde at their
front is replaced by a home directory, but another tilde may come to the front that way.
-/

namespace BlockSketch

namespace Path

variable {p : Path} {s : String} {r w : List Char} {k : Nat}

/-- A name that counts, without slashes in it. -/
structure Proper (n : String) : Prop where
  nonempty : n ≠ ""
  notDot : n ≠ "."
  whole : '/' ∉ n.toList

/-- The form in which paths are read. -/
structure Normal (p : Path) : Prop where
  slashes : p.slashes ≤ 2
  names : ∀ n ∈ p.names, Proper n

theorem not_mem_of_mem_splitOn {c : Char} (h : w ∈ r.splitOn c) : c ∉ w := by
  rw [List.splitOn_eq_splitOnP] at h
  induction r generalizing w with
  | nil =>
    obtain rfl : w = [] := by simpa using h
    exact List.not_mem_nil
  | cons a r ih =>
    rw [List.splitOnP_cons_eq_if_modifyHead] at h
    split at h
    · rcases List.mem_cons.mp h with rfl | h
      · exact List.not_mem_nil
      · exact ih h
    · next ha =>
      cases hr : List.splitOnP (· == c) r with
      | nil => simp [hr] at h
      | cons v vs =>
        rw [hr, List.modifyHead_cons] at h
        rcases List.mem_cons.mp h with rfl | h
        · intro hc
          rcases List.mem_cons.mp hc with rfl | hc
          · simp at ha
          · exact ih (hr ▸ List.mem_cons_self) hc
        · exact ih (hr ▸ List.mem_cons_of_mem _ h)

theorem normal_ofText (s : String) : (ofText s).Normal where
  slashes := by
    rw [ofText]
    split
    · exact Nat.zero_le 2
    · exact Nat.le_refl 2
    · exact Nat.le_succ 1
  names := by
    intro n hn
    obtain ⟨hn, hc⟩ := List.mem_filter.mp hn
    obtain ⟨w, hw, rfl⟩ := List.mem_map.mp hn
    obtain ⟨he, hd⟩ : String.ofList w ≠ "" ∧ String.ofList w ≠ "." := by simpa using hc
    refine ⟨he, hd, ?_⟩
    rw [String.toList_ofList]
    exact not_mem_of_mem_splitOn hw

/-! ## Texts of paths -/

theorem splitOn_slashes : (List.replicate k '/' ++ r).splitOn '/' =
    List.replicate k [] ++ r.splitOn '/' := by
  induction k with
  | zero => rfl
  | succ k ih =>
    rw [List.replicate_succ, List.replicate_succ, List.cons_append, List.cons_append, ← ih,
      List.splitOn_eq_splitOnP, List.splitOnP_cons_eq_if_modifyHead]
    rfl

theorem Normal.filter_names (h : p.Normal) :
    (p.names.filter fun n => n != "" && n != ".") = p.names := by
  refine List.filter_eq_self.mpr fun n hn => ?_
  obtain ⟨he, hd, -⟩ := h.names n hn
  simp [he, hd]

/-- The characters of the names of a path. -/
def nameChars (p : Path) : List Char := ['/'].intercalate (p.names.map String.toList)

theorem Normal.splitOn_nameChars (h : p.Normal) :
    ((p.nameChars.splitOn '/').map String.ofList).filter (fun n => n != "" && n != ".") =
      p.names := by
  rw [nameChars]
  cases hn : p.names with
  | nil => rfl
  | cons n ns =>
    have whole : ∀ w ∈ (n :: ns).map String.toList, '/' ∉ w := by
      intro w hw
      obtain ⟨m, hm, rfl⟩ := List.mem_map.mp hw
      exact (h.names m (hn ▸ hm)).whole
    have back : ((n :: ns).map String.toList).map String.ofList = n :: ns := by
      rw [List.map_map]
      simp [Function.comp_def]
    rw [List.splitOn_intercalate '/' whole (by simp), back, ← hn]
    exact h.filter_names

/-- No slash stands in front of the names. -/
theorem Normal.takeWhile_nameChars (h : p.Normal) : p.nameChars.takeWhile (· == '/') = [] := by
  rw [nameChars]
  cases hn : p.names with
  | nil => rfl
  | cons n ns =>
    obtain ⟨he, -, hw⟩ := h.names n (hn ▸ List.mem_cons_self)
    cases hc : n.toList with
    | nil => exact absurd (String.toList_eq_nil_iff.mp hc) he
    | cons c cs =>
      have hs : c ≠ '/' := by
        rintro rfl
        exact hw (hc ▸ List.mem_cons_self)
      cases ns <;> simp [hc, hs, List.intercalate_cons_cons]

theorem toList_text (h : ¬ (p.slashes = 0 ∧ p.names = [])) :
    p.text.toList = List.replicate p.slashes '/' ++ p.nameChars := by
  have hb : (p.slashes = 0 && p.names.isEmpty) = false := by simpa using h
  rw [text, hb, nameChars]
  simp [String.toList_intercalate]

theorem namesOf_text (h : p.Normal) : namesOf p.text = p.names := by
  by_cases he : p.slashes = 0 ∧ p.names = []
  · rw [text, he.1, he.2]
    rfl
  · rw [namesOf, toList_text he, splitOn_slashes, List.map_append, List.filter_append,
      h.splitOn_nameChars, List.map_replicate]
    simp

/-- A path is read from its text. -/
theorem ofText_text (h : p.Normal) : ofText p.text = p := by
  obtain ⟨slashes, names⟩ := p
  rw [ofText, namesOf_text h]
  congr 1
  by_cases he : slashes = 0 ∧ names = []
  · rw [text, he.1, he.2]
    rfl
  · have front : (text ⟨slashes, names⟩).toList.takeWhile (· == '/') =
        List.replicate slashes '/' := by
      rw [toList_text he, List.takeWhile_append_of_pos (by simp), h.takeWhile_nameChars,
        List.append_nil]
    rw [front, List.length_replicate]
    match slashes, h.slashes with
    | 0, _ | 1, _ | 2, _ => rfl

end Path

/-! ## Home directories -/

namespace Environment

variable {e : Environment} {p q : Path}

theorem normal_expandHome (hp : p.Normal) (h : e.expandHome p = .ok q) : q.Normal := by
  unfold expandHome at h
  split at h
  · next name rest _ hn =>
    split at h
    · obtain ⟨home, -, h⟩ := bind_eq_ok_iff.mp h
      obtain rfl := pure_eq_ok_iff.mp h
      refine ⟨(Path.normal_ofText home).slashes, fun n hm => ?_⟩
      rcases List.mem_append.mp hm with hm | hm
      · exact (Path.normal_ofText home).names n hm
      · exact hp.names n (hn ▸ List.mem_cons_of_mem _ hm)
    · obtain rfl := Except.ok.inj h
      exact hp
  · obtain rfl := Except.ok.inj h
    exact hp

/-- Home directories only stand at the front of paths that are not absolute. -/
theorem expandHome_of_isAbsolute (h : p.isAbsolute = true) : e.expandHome p = .ok p := by
  unfold expandHome
  rw [h]

end Environment

end BlockSketch
