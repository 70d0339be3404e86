import Mathlib.Data.List.Basic

/-! Texts that are cut at a character, and pieces that are joined with it. -/
namespace MachineProvider.Text

theorem not_mem_of_mem_splitOn {c : Char} {cs piece : List Char} (h : piece ∈ cs.splitOn c) :
    c ∉ piece := by
  induction cs generalizing piece with
  | nil => simp_all
  | cons x cs ih =>
    rw [List.splitOn_cons_eq_if_modifyHead] at h
    split at h
    · rcases List.mem_cons.1 h with rfl | h
      · exact List.not_mem_nil
      · exact ih h
    · next hx =>
      cases hs : cs.splitOn c with
      | nil => exact absurd hs (List.splitOn_ne_nil c cs)
      | cons first rest =>
        rw [hs, List.modifyHead_cons] at h
        rcases List.mem_cons.1 h with rfl | h
        · have hfirst : c ∉ first := ih (hs ▸ List.mem_cons_self)
          have hne : c ≠ x := fun heq => hx (beq_iff_eq.2 heq.symm)
          simp [hne, hfirst]
        · exact ih (hs ▸ List.mem_cons_of_mem _ h)

/-- The pieces of a text are those it is joined of that are not cut any further. -/
theorem splitOn_eq_iff {c : Char} {cs : List Char} {pieces : List (List Char)} (hne : pieces ≠ []) :
    cs.splitOn c = pieces ↔ cs = [c].intercalate pieces ∧ ∀ piece ∈ pieces, c ∉ piece := by
  constructor
  · rintro rfl
    exact ⟨(List.intercalate_splitOn c).symm, fun _ => not_mem_of_mem_splitOn⟩
  · rintro ⟨rfl, hpieces⟩
    exact List.splitOn_intercalate c hpieces hne

/-- A character stands in one of the pieces, unless the text is cut at it. -/
theorem mem_splitOn {c d : Char} {cs : List Char} (h : d ∈ cs) :
    d = c ∨ ∃ piece ∈ cs.splitOn c, d ∈ piece := by
  have hjoined : ∀ pieces : List (List Char), d ∈ [c].intercalate pieces →
      d = c ∨ ∃ piece ∈ pieces, d ∈ piece := by
    intro pieces
    induction pieces with
    | nil => simp
    | cons first pieces ih =>
      cases pieces with
      | nil => exact fun h => .inr ⟨first, List.mem_cons_self, by simpa using h⟩
      | cons next pieces =>
        rw [List.intercalate_cons_cons, List.append_assoc, List.mem_append, List.singleton_append,
          List.mem_cons]
        rintro (h | h | h)
        · exact .inr ⟨first, List.mem_cons_self, h⟩
        · exact .inl h
        · exact (ih h).imp_right fun ⟨piece, hpiece, hd⟩ =>
            ⟨piece, List.mem_cons_of_mem _ hpiece, hd⟩
  refine hjoined _ ?_
  rwa [List.intercalate_splitOn]

end MachineProvider.Text
