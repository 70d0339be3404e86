import MachineProvider.MachineSet.KeyValues
import MachineProvider.Proofs.Entries
import MachineProvider.Proofs.Text.Splitting

/-! What is printed from the pairs of lists is read back as these pairs, however broken
the lists are. -/
namespace MachineProvider.KeyValues

variable {m : StringMap String} {k v list : String} {entry : List Char}

/-- A text that separates neither pairs nor keys from values. -/
def Plain (s : String) : Prop := ',' ∉ s.toList ∧ '=' ∉ s.toList

def PlainPairs (ps : List (String × String)) : Prop := ∀ p ∈ ps, Plain p.1 ∧ Plain p.2

def entryText (p : String × String) : List Char := p.1.toList ++ '=' :: p.2.toList

/-- A pair is its key, one equals sign and its value. -/
theorem pair?_eq_some :
    pair? entry = some (k, v) ↔ entry = entryText (k, v) ∧ '=' ∉ k.toList ∧ '=' ∉ v.toList := by
  have hjoined : ∀ a b : List Char, ['='].intercalate [a, b] = a ++ '=' :: b := fun a b => by simp
  constructor
  · intro h
    unfold pair? at h
    split at h
    · next a b hs =>
      obtain ⟨rfl, rfl⟩ : String.ofList a = k ∧ String.ofList b = v := by simpa using h
      obtain ⟨hentry, hpieces⟩ := (Text.splitOn_eq_iff (List.cons_ne_nil _ _)).1 hs
      rw [hentry, hjoined]
      simpa [entryText] using hpieces
    · cases h
  · rintro ⟨rfl, hk, hv⟩
    have hs : (entryText (k, v)).splitOn '=' = [k.toList, v.toList] :=
      (Text.splitOn_eq_iff (List.cons_ne_nil _ _)).2 ⟨(hjoined _ _).symm, by simp [hk, hv]⟩
    simp [pair?, hs]

theorem plainPairs_pairs (list : String) : PlainPairs (pairs list) := by
  rintro ⟨k, v⟩ hp
  obtain ⟨entry, hentry, hpair⟩ := List.mem_filterMap.1 hp
  obtain ⟨rfl, hk, hv⟩ := pair?_eq_some.1 hpair
  have hcomma := Text.not_mem_of_mem_splitOn hentry
  simp only [entryText, List.mem_append, List.mem_cons, not_or] at hcomma
  exact ⟨⟨hcomma.1, hk⟩, hcomma.2.2, hv⟩

theorem PlainPairs.flatMap {lists : List String} : PlainPairs (lists.flatMap pairs) := by
  intro p hp
  obtain ⟨list, -, hp⟩ := List.mem_flatMap.1 hp
  exact plainPairs_pairs list p hp

theorem PlainPairs.ofList {ps : List (String × String)} (h : PlainPairs ps) :
    PlainPairs (StringMap.ofList ps).toList := fun p hp => h p (Entries.mem_of_mem_ofList hp)

theorem toList_text (m : StringMap String) :
    (text m).toList = [','].intercalate (m.toList.map entryText) := by
  rw [text, String.toList_intercalate, List.map_map]
  congr 1
  refine List.map_congr_left fun p _ => ?_
  simp [entryText, toString]

/-- Pairs are printed so that they are read again in their order. -/
theorem pairs_text (h : PlainPairs m.toList) : pairs (text m) = m.toList := by
  unfold pairs
  rw [toList_text]
  cases hm : m.toList with
  | nil => rfl
  | cons p ps =>
    rw [hm] at h
    have hcomma : ∀ entry ∈ (p :: ps).map entryText, ',' ∉ entry := by
      intro entry hentry
      obtain ⟨q, hq, rfl⟩ := List.mem_map.1 hentry
      have hplain := h q hq
      simp [entryText, hplain.1.1, hplain.2.1]
    rw [List.splitOn_intercalate ',' hcomma (by simp), List.filterMap_map]
    have hread : ∀ q ∈ p :: ps, (pair? ∘ entryText) q = some q := fun q hq =>
      pair?_eq_some.2 ⟨rfl, (h q hq).1.2, (h q hq).2.2⟩
    rw [List.filterMap_congr hread, List.filterMap_some]

theorem pairs_merge (lists : List String) :
    pairs (merge lists) = (StringMap.ofList (lists.flatMap pairs)).toList :=
  pairs_text PlainPairs.flatMap.ofList

theorem parse_merge (lists : List String) :
    parse (merge lists) = .ofList (lists.flatMap pairs) := by
  unfold parse
  rw [pairs_merge]
  refine StringMap.ext_get? fun k => ?_
  exact Entries.find?_ofList_of_nodup (StringMap.ordered _).nodup

/-- Of two lists read together the second one's pairs win. -/
theorem parse_merge_pair (first second : String) :
    parse (merge [first, second]) = (parse first).union (parse second) := by
  rw [parse_merge]
  refine StringMap.ext_get? fun k => ?_
  rw [StringMap.get?_union]
  simp only [parse, StringMap.get?, StringMap.ofList, Entries.find?_ofList, List.flatMap_cons,
    List.flatMap_nil, List.append_nil, List.reverse_append, Entries.find?_append]

/-- A merged list is printed from what is read of it. -/
theorem text_parse_merge (lists : List String) : text (parse (merge lists)) = merge lists := by
  rw [parse_merge, merge]

/-- A list that was merged into once gains nothing more from it. -/
theorem merge_merge (first second : String) :
    merge [first, merge [first, second]] = merge [first, second] := by
  have hparse : parse (merge [first, merge [first, second]]) = parse (merge [first, second]) := by
    refine StringMap.ext_get? fun k => ?_
    simp only [parse_merge_pair, StringMap.get?_union]
    rw [Option.or_assoc, Option.or_self]
  calc merge [first, merge [first, second]]
      = text (parse (merge [first, merge [first, second]])) := (text_parse_merge _).symm
    _ = text (parse (merge [first, second])) := congrArg text hparse
    _ = merge [first, second] := text_parse_merge _

/-- The last pair under a key counts. -/
theorem get?_parse_of_last {before after : List (String × String)}
    (h : pairs list = before ++ (k, v) :: after) (hlast : ∀ p ∈ after, p.1 ≠ k) :
    (parse list).get? k = some v := by
  have hafter : Entries.find? k after.reverse = none :=
    Entries.find?_eq_none.2 fun p hp => hlast p (List.mem_reverse.1 hp)
  change Entries.find? k (Entries.ofList (pairs list)) = _
  rw [Entries.find?_ofList, h]
  simp [Entries.find?_append, hafter]

/-- The last pair that a list has under a key is kept when the list comes last. -/
theorem mem_pairs_merge_of_last {before after : List (String × String)} (first : String)
    (h : pairs list = before ++ (k, v) :: after) (hlast : ∀ p ∈ after, p.1 ≠ k) :
    (k, v) ∈ pairs (merge [first, list]) := by
  have hget : (parse (merge [first, list])).get? k = some v := by
    rw [parse_merge_pair, StringMap.get?_union, get?_parse_of_last h hlast, Option.some_or]
  rw [parse_merge] at hget
  rw [pairs_merge]
  exact Entries.mem_of_find? hget

end MachineProvider.KeyValues
