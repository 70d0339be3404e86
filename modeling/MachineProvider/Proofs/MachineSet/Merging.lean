import MachineProvider.Proofs.MachineSet.KeyValues
import MachineProvider.Proofs.Text.ByteOrder

/-!
Merging lists is laying their maps over each other, and what is printed is the one sorted list of
the result. Its laws are those of the maps.
-/
namespace MachineProvider

namespace Entries

variable {α : Type}

theorem mem_keys_iff {es : Entries α} {k : String} : k ∈ es.keys ↔ find? k es ≠ none := by
  rw [ne_eq, find?_eq_none, not_forall]
  simp [keys]

theorem mem_keys_ofList {ps : List (String × α)} {k : String} :
    k ∈ (ofList ps).keys ↔ k ∈ keys ps := by
  rw [mem_keys_iff, find?_ofList, ← mem_keys_iff]
  simp [keys]

end Entries

namespace StringMap

variable {α : Type} {m n o : StringMap α} {ms ns : List (StringMap α)} {k : String}

/-- All maps together; where several hold a key, the last one's value counts. -/
def overlay (ms : List (StringMap α)) : StringMap α := ms.foldl union empty

@[simp] theorem empty_union : empty.union m = m :=
  ext_get? fun k => by rw [get?_union, get?_empty, Option.or_none]

@[simp] theorem union_self : m.union m = m :=
  ext_get? fun k => by rw [get?_union, Option.or_self]

theorem union_assoc : (m.union n).union o = m.union (n.union o) :=
  ext_get? fun k => by simp only [get?_union, Option.or_assoc]

theorem foldl_union : ms.foldl union m = m.union (overlay ms) := by
  induction ms generalizing m with
  | nil => exact ext_get? fun k => by rw [get?_union]; rfl
  | cons n ms ih =>
    have hcons : overlay (n :: ms) = n.union (overlay ms) := by
      rw [overlay, List.foldl_cons, empty_union, ih]
    rw [List.foldl_cons, ih, hcons, union_assoc]

theorem overlay_append : overlay (ms ++ ns) = (overlay ms).union (overlay ns) := by
  rw [overlay, List.foldl_append, foldl_union]
  rfl

theorem overlay_cons : overlay (m :: ms) = m.union (overlay ms) := by
  rw [overlay, List.foldl_cons, empty_union, foldl_union]

end StringMap

namespace KeyValues

open StringMap (overlay overlay_append overlay_cons)

variable {lists : List String}

theorem count_entryText {p : String × String} (hk : '=' ∉ p.1.toList) (hv : '=' ∉ p.2.toList) :
    (entryText p).count '=' = 1 := by
  rw [entryText, List.count_append, List.count_cons_self, List.count_eq_zero.2 hk,
    List.count_eq_zero.2 hv]

/-- An entry with one equals sign is a pair. -/
theorem exists_pair {entry : List Char} (h : entry.count '=' = 1) : ∃ p, pair? entry = some p := by
  obtain ⟨k, v, rfl⟩ := List.append_of_mem (List.count_pos_iff.1 (h ▸ Nat.one_pos))
  rw [List.count_append, List.count_cons_self] at h
  refine ⟨(String.ofList k, String.ofList v), pair?_eq_some.2 ⟨by simp [entryText], ?_, ?_⟩⟩ <;>
    · rw [String.toList_ofList, ← List.count_eq_zero]
      omega

/-- The pairs of a list are its entries with exactly one equals sign. -/
theorem map_entryText_pairs (list : String) :
    (pairs list).map entryText = (list.toList.splitOn ',').filter fun e => e.count '=' = 1 := by
  unfold pairs
  induction list.toList.splitOn ',' with
  | nil => rfl
  | cons entry entries ih =>
    cases hp : pair? entry with
    | none =>
      have hcount : entry.count '=' ≠ 1 := fun h => by simpa [hp] using exists_pair h
      rw [List.filterMap_cons_none hp, ih, List.filter_cons_of_neg (by simpa using hcount)]
    | some p =>
      obtain ⟨rfl, hk, hv⟩ := pair?_eq_some.1 hp
      have hcount := count_entryText hk hv
      rw [List.filterMap_cons_some hp, List.map_cons, ih,
        List.filter_cons_of_pos (by simpa using hcount)]

/-- Reading a list made of several lays their maps over each other. -/
theorem ofList_flatMap_pairs (lists : List String) :
    .ofList (lists.flatMap pairs) = overlay (lists.map parse) := by
  induction lists with
  | nil => rfl
  | cons list lists ih =>
    rw [List.map_cons, overlay_cons, ← ih]
    refine StringMap.ext_get? fun k => ?_
    rw [StringMap.get?_union]
    simp only [parse, StringMap.get?, StringMap.ofList, Entries.find?_ofList, List.flatMap_cons,
      List.reverse_append, Entries.find?_append]

theorem parse_merge_eq_overlay (lists : List String) :
    parse (merge lists) = overlay (lists.map parse) := by
  rw [parse_merge, ofList_flatMap_pairs]

/-- What is printed depends on the maps read alone. -/
theorem merge_eq_text (lists : List String) : merge lists = text (overlay (lists.map parse)) := by
  rw [merge, ofList_flatMap_pairs]

/-- A merged list among others stands for the lists it was merged from. -/
theorem merge_splice (before lists after : List String) :
    merge (before ++ merge lists :: after) = merge (before ++ lists ++ after) := by
  have hmaps : overlay ((before ++ merge lists :: after).map parse) =
      overlay ((before ++ lists ++ after).map parse) := by
    simp only [List.map_append, List.map_cons, overlay_append, overlay_cons,
      parse_merge_eq_overlay, StringMap.union_assoc]
  rw [merge_eq_text, hmaps, ← merge_eq_text]

theorem merge_append_self (lists : List String) : merge (lists ++ lists) = merge lists := by
  rw [merge_eq_text, List.map_append, overlay_append, StringMap.union_self, ← merge_eq_text]

/-- The pairs printed stand in the order of their keys' bytes, so that no key is printed twice. -/
theorem pairwise_pairs_merge (lists : List String) :
    (pairs (merge lists)).Pairwise fun p q => Text.utf8 p.1 < Text.utf8 q.1 := by
  rw [pairs_merge]
  exact (StringMap.ordered _).imp Text.utf8_lt_utf8.2

theorem mem_keys_pairs_merge {k : String} :
    k ∈ Entries.keys (pairs (merge lists)) ↔ ∃ list ∈ lists, k ∈ Entries.keys (pairs list) := by
  rw [pairs_merge, ← List.mem_flatMap]
  refine Entries.mem_keys_ofList.trans ?_
  rw [Entries.keys, List.map_flatMap]
  rfl

theorem get?_parse (list k : String) : (parse list).get? k = (pairs list).reverse.lookup k :=
  Entries.find?_ofList.trans (Entries.lookup_eq_find? k _).symm

/-- Nothing but pairs is printed. -/
theorem toList_merge (lists : List String) :
    (merge lists).toList = [','].intercalate ((pairs (merge lists)).map entryText) := by
  rw [pairs_merge, merge, toList_text]

/-- Merging lists lays their maps over each other, of equal keys the last, and prints the result's
pairs alone, each key once and in the order of their bytes. So it does nothing twice, and lists
may be merged in parts. -/
theorem merge_overlays (lists : List String) :
    (∀ list, (pairs list).map entryText =
        (list.toList.splitOn ',').filter (fun entry => entry.count '=' = 1) ∧
      PlainPairs (pairs list) ∧ ∀ k, (parse list).get? k = (pairs list).reverse.lookup k) ∧
    parse (merge lists) = overlay (lists.map parse) ∧
    (merge lists).toList = [','].intercalate ((pairs (merge lists)).map entryText) ∧
    (pairs (merge lists)).Pairwise (fun p q => Text.utf8 p.1 < Text.utf8 q.1) ∧
    (∀ k, k ∈ Entries.keys (pairs (merge lists)) ↔
      ∃ list ∈ lists, k ∈ Entries.keys (pairs list)) ∧
    merge [merge lists] = merge lists ∧ merge (lists ++ lists) = merge lists ∧
    ∀ before after, merge (before ++ merge lists :: after) = merge (before ++ lists ++ after) :=
  ⟨fun list => ⟨map_entryText_pairs list, plainPairs_pairs list, get?_parse list⟩,
    parse_merge_eq_overlay lists, toList_merge lists, pairwise_pairs_merge lists,
    fun _ => mem_keys_pairs_merge, by simpa using merge_splice [] lists [],
    merge_append_self lists, fun before => merge_splice before lists⟩

end KeyValues

end MachineProvider
