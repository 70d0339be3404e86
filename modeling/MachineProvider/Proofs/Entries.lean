import MachineProvider.StringMap

/-! Entries in key order are determined by their lookups, and so are maps over string keys. -/
namespace MachineProvider

namespace Entries

variable {α β : Type} {es fs : Entries α} {k l : String} {v : α}

@[simp] theorem find?_nil : find? k ([] : Entries α) = none := rfl

@[simp] theorem find?_cons {e : String × α} :
    find? k (e :: es) = if e.1 = k then some e.2 else find? k es := rfl

theorem lookup_eq_find? (k : String) (es : List (String × α)) : es.lookup k = find? k es := by
  induction es with
  | nil => rfl
  | cons e es ih =>
    rw [List.lookup_cons, find?_cons, ih]
    by_cases h : k = e.1
    · rw [beq_iff_eq.2 h, if_pos h.symm]
    · rw [beq_eq_false_iff_ne.2 h, if_neg (Ne.symm h)]

theorem mem_of_find? (h : find? k es = some v) : (k, v) ∈ es := by
  induction es with
  | nil => simp at h
  | cons e rest ih =>
    obtain ⟨l, u⟩ := e
    by_cases hl : l = k
    · simp_all
    · exact List.mem_cons_of_mem _ (ih (by simpa [hl] using h))

theorem find?_eq_none : find? k es = none ↔ ∀ e ∈ es, e.1 ≠ k := by
  induction es with
  | nil => simp
  | cons e rest ih =>
    obtain ⟨l, u⟩ := e
    by_cases hl : l = k <;> simp [hl, ih]

theorem find?_append : find? k (es ++ fs) = (find? k es).or (find? k fs) := by
  induction es with
  | nil => simp
  | cons e rest ih =>
    obtain ⟨l, u⟩ := e
    by_cases hl : l = k <;> simp [hl, ih]

theorem find?_map (f : α → β) :
    find? k (es.map fun e => (e.1, f e.2)) = (find? k es).map f := by
  induction es with
  | nil => rfl
  | cons e rest ih =>
    obtain ⟨l, u⟩ := e
    by_cases hl : l = k <;> simp [hl, ih]

theorem Ordered.head_lt {rest : Entries α} (h : Ordered ((l, v) :: rest)) :
    ∀ e ∈ rest, l < e.1 := (List.pairwise_cons.1 h).1

theorem Ordered.tail {e : String × α} {rest : Entries α} (h : Ordered (e :: rest)) :
    rest.Ordered := (List.pairwise_cons.1 h).2

/-- Behind an entry there is no other one under a key as small. -/
theorem Ordered.find?_tail {rest : Entries α} (h : Ordered ((l, v) :: rest)) (hk : ¬ l < k) :
    find? k rest = none := by
  refine find?_eq_none.2 fun e he heq => ?_
  exact hk (heq ▸ h.head_lt e he)

theorem Ordered.nodup (h : es.Ordered) : (es.map (·.1)).Nodup := by
  refine List.pairwise_map.2 (List.Pairwise.imp (fun hlt heq => ?_) h)
  exact String.lt_irrefl _ (heq ▸ hlt)

theorem find?_of_mem (hn : (es.map (·.1)).Nodup) (h : (k, v) ∈ es) : find? k es = some v := by
  induction es with
  | nil => simp at h
  | cons e rest ih =>
    obtain ⟨l, u⟩ := e
    simp only [List.map_cons, List.nodup_cons, List.mem_map, not_exists, not_and] at hn
    rcases List.mem_cons.1 h with heq | hrest
    · cases heq; simp
    · have hne : l ≠ k := fun heq => hn.1 (k, v) hrest heq.symm
      simp [hne, ih hn.2 hrest]

/-- Entries under the same keys begin with the same one. -/
theorem Ordered.head_eq {rest : Entries α} {rest' : Entries β} {u : β}
    (he : Ordered ((k, v) :: rest)) (hf : Ordered ((l, u) :: rest'))
    (h : ∀ j, (find? j ((k, v) :: rest)).isSome = (find? j ((l, u) :: rest')).isSome) : k = l := by
  by_cases hkl : k = l
  · exact hkl
  -- A key smaller than the other head would be found on one side only.
  by_cases hlt : k < l
  · have hgt : ¬ l < k := fun hgt => String.lt_irrefl _ (String.lt_trans hlt hgt)
    simpa [Ne.symm hkl, hf.find?_tail hgt] using h k
  · simpa [hkl, he.find?_tail hlt] using h l

theorem Ordered.ext (he : es.Ordered) (hf : fs.Ordered) (h : ∀ k, find? k es = find? k fs) :
    es = fs := by
  induction es generalizing fs with
  | nil =>
    cases fs with
    | nil => rfl
    | cons e rest => have := h e.1; simp at this
  | cons e es ih =>
    cases fs with
    | nil => have := h e.1; simp at this
    | cons f fs =>
      obtain ⟨k, v⟩ := e
      obtain ⟨l, u⟩ := f
      obtain rfl : k = l := he.head_eq hf fun j => congrArg Option.isSome (h j)
      have hvu : v = u := by simpa using h k
      subst hvu
      refine congrArg _ (ih he.tail hf.tail fun j => ?_)
      by_cases hj : k = j
      · subst hj
        rw [he.find?_tail (String.lt_irrefl k), hf.find?_tail (String.lt_irrefl k)]
      · simpa [hj] using h j

theorem find?_foldl_insert {ps : List (String × α)} :
    find? k (ps.foldl (fun es p => insert p.1 p.2 es) es) =
      (find? k ps.reverse).or (find? k es) := by
  induction ps generalizing es with
  | nil => simp
  | cons p rest ih =>
    rw [List.foldl_cons, ih, find?_insert, List.reverse_cons, find?_append]
    cases find? k rest.reverse with
    | some v => rfl
    | none =>
      by_cases hk : p.1 = k
      · simp [hk]
      · simp [hk, Ne.symm hk]

theorem find?_ofList {ps : List (String × α)} : find? k (ofList ps) = find? k ps.reverse := by
  simp [ofList, find?_foldl_insert]

theorem find?_ofList_of_nodup {ps : List (String × α)} (h : (ps.map (·.1)).Nodup) :
    find? k (ofList ps) = find? k ps := by
  have hr : (ps.reverse.map (·.1)).Nodup := by
    rw [List.map_reverse]
    exact List.Perm.nodup (List.reverse_perm _).symm h
  rw [find?_ofList]
  cases hf : find? k ps with
  | none =>
    rw [find?_eq_none] at hf ⊢
    simpa using hf
  | some v => exact find?_of_mem hr (by simpa using mem_of_find? hf)

theorem Ordered.ofList_eq (h : es.Ordered) : ofList es = es :=
  (ordered_ofList es).ext h fun _ => find?_ofList_of_nodup h.nodup

theorem ofList_map (f : α → β) (ps : List (String × α)) :
    (ofList ps).map (fun e => (e.1, f e.2)) = ofList (ps.map fun p => (p.1, f p.2)) := by
  have ho : Ordered ((ofList ps).map fun e => (e.1, f e.2)) :=
    List.pairwise_map.2 (ordered_ofList ps)
  refine ho.ext (ordered_ofList _) fun k => ?_
  rw [find?_map, find?_ofList, find?_ofList, ← List.map_reverse, find?_map]

theorem mem_of_mem_ofList {ps : List (String × α)} {e : String × α} (h : e ∈ ofList ps) :
    e ∈ ps := by
  have hf : find? e.1 (ofList ps) = some e.2 := find?_of_mem (ordered_ofList ps).nodup h
  rw [find?_ofList] at hf
  exact List.mem_reverse.1 (mem_of_find? hf)

end Entries

namespace StringMap

variable {α β : Type} {m n : StringMap α} {k : String}

theorem ext_get? (h : ∀ k, m.get? k = n.get? k) : m = n := by
  obtain ⟨es, he⟩ := m
  obtain ⟨fs, hf⟩ := n
  obtain rfl : es = fs := he.ext hf h
  rfl

@[simp] theorem get?_empty : (empty : StringMap α).get? k = none := rfl

theorem get?_union : (m.union n).get? k = (n.get? k).or (m.get? k) := by
  have hn : Entries.find? k n.entries.reverse = n.get? k := by
    rw [← Entries.find?_ofList, n.ordered.ofList_eq]
    rfl
  exact Entries.find?_foldl_insert.trans (by rw [hn]; rfl)

theorem get?_map (f : α → β) : (m.map f).get? k = (m.get? k).map f := Entries.find?_map f

theorem get?_ofList_of_nodup {ps : List (String × α)} (h : (ps.map (·.1)).Nodup) :
    (ofList ps).get? k = Entries.find? k ps := Entries.find?_ofList_of_nodup h

end StringMap

end MachineProvider
