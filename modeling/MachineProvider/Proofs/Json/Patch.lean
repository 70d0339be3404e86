import MachineProvider.Json.MergePatch
import MachineProvider.Proofs.Json.Canonical

/-! Merge patches seen one member at a time: what `diff` says of a member and what
`merge` makes of it. -/
namespace MachineProvider.Json

open Entries (find? Ordered)

variable {v w target old new : Json} {o p : Option Json} {ms as bs : Entries Json} {k : String}

theorem same_self (v : Json) : same v v = true := by
  induction v using inductionOn with
  | null => rfl
  | bool b => simp [same]
  | number n => cases n <;> simp [same, Number.same, Double.same]
  | string s => simp [same]
  | array es ih =>
    change sameElements es es = true
    induction es with
    | nil => rfl
    | cons e es ihes => simp_all [sameElements]
  | object ms ih =>
    change sameMembers ms ms = true
    induction ms with
    | nil => rfl
    | cons m ms ihms => obtain ⟨k, v⟩ := m; simp_all [sameMembers]

theorem diff_self (v : Json) : diff v v = none := by
  unfold diff
  rw [if_pos (same_self v)]

theorem eq_string_of_same {s : String} (h : same v (string s) = true) : v = string s := by
  cases v <;> simp_all [same]

theorem eq_of_sameMembers_strings {es : Entries String}
    (h : sameMembers ms (es.map fun e => (e.1, string e.2)) = true) :
    ms = es.map fun e => (e.1, string e.2) := by
  induction ms generalizing es with
  | nil => cases es <;> simp_all [sameMembers]
  | cons m ms ih =>
    cases es with
    | nil => simp [sameMembers] at h
    | cons e es =>
      obtain ⟨k, v⟩ := m
      simp only [List.map_cons, sameMembers, Bool.and_eq_true, beq_iff_eq] at h
      obtain ⟨⟨rfl, hv⟩, hms⟩ := h
      rw [ih hms, eq_string_of_same hv, List.map_cons]

theorem eq_ofStrings_of_same {m : StringMap String} (h : same v (ofStrings m) = true) :
    v = ofStrings m := by
  cases v with
  | object ms => exact congrArg object (eq_of_sameMembers_strings h)
  | _ => simp [ofStrings, ofMap, same] at h

/-- What a patch says of a member: nothing, null for one that is gone, or its new value. -/
def change? : Option Json → Option Json → Option Json
  | none, new => new
  | some _, none => some null
  | some old, some new => diff old new

@[simp] theorem change?_self (o : Option Json) : change? o o = none := by
  cases o with
  | none => rfl
  | some v => exact diff_self v

theorem diff_of_same (h : same v w = true) : diff v w = none := by
  unfold diff
  rw [if_pos h]

/-- Two members that are both missing, or the same. -/
def SameMember (o p : Option Json) : Prop := Option.Rel (fun v w => same v w = true) o p

theorem sameMember_some : SameMember (some v) (some w) ↔ same v w = true := Option.rel_some_some

theorem SameMember.isSome_eq (h : SameMember o p) : o.isSome = p.isSome := by
  cases h <;> rfl

/-- Objects that are the same agree on every member. -/
theorem sameMember_of_sameMembers (h : sameMembers as bs = true) (k : String) :
    SameMember (find? k as) (find? k bs) := by
  induction as generalizing bs with
  | nil =>
    cases bs with
    | nil => exact .none
    | cons b bs => simp [sameMembers] at h
  | cons a as ih =>
    cases bs with
    | nil => simp [sameMembers] at h
    | cons b bs =>
      obtain ⟨l, v⟩ := a
      obtain ⟨l', w⟩ := b
      simp only [sameMembers, Bool.and_eq_true, beq_iff_eq] at h
      obtain ⟨⟨rfl, hvw⟩, hrest⟩ := h
      by_cases hl : l = k
      · simpa [hl, sameMember_some] using hvw
      · simpa [hl] using ih hrest

theorem SameMember.change?_eq (h : SameMember o p) : change? o p = none := by
  cases h with
  | none => rfl
  | some h => exact diff_of_same h

theorem diffMembers_cons :
    diffMembers as ((k, v) :: bs) =
      ((change? (find? k as) (some v)).map (k, ·)).toList ++ diffMembers as bs := by
  rw [diffMembers]
  cases find? k as with
  | none => simp [change?]
  | some u => cases hd : diff u v <;> simp [change?, hd]

theorem find?_diffMembers (hn : (bs.map (·.1)).Nodup) :
    find? k (diffMembers as bs) = (find? k bs).bind fun v => change? (find? k as) (some v) := by
  induction bs with
  | nil => rfl
  | cons b bs ih =>
    obtain ⟨l, v⟩ := b
    obtain ⟨hl, hbs⟩ := List.nodup_cons.1 hn
    have hfresh : find? l bs = none :=
      Entries.find?_eq_none.2 fun e he heq => hl (List.mem_map.2 ⟨e, he, heq⟩)
    rw [diffMembers_cons, Entries.find?_append, ih hbs]
    by_cases hk : l = k
    · subst hk
      cases hc : change? (find? l as) (some v) <;> simp [hc, hfresh]
    · cases change? (find? l as) (some v) <;> simp [hk]

theorem find?_removals :
    find? k (removals as bs) =
      if find? k bs = none then (find? k as).map fun _ => null else none := by
  unfold removals
  induction as with
  | nil => simp
  | cons a as ih =>
    obtain ⟨l, v⟩ := a
    by_cases hk : l = k
    · subst hk
      cases hb : find? l bs <;> simp_all
    · cases hb : find? l bs <;> simp_all

theorem keys_diffMembers : ((diffMembers as bs).map (·.1)).Sublist (bs.map (·.1)) := by
  induction bs with
  | nil => exact .slnil
  | cons b bs ih =>
    obtain ⟨l, v⟩ := b
    rw [diffMembers_cons]
    cases change? (find? l as) (some v) with
    | none => exact ih.trans (List.sublist_cons_self ..)
    | some c => exact ih.cons_cons l

theorem keys_removals : ((removals as bs).map (·.1)).Sublist (as.map (·.1)) := by
  unfold removals
  rw [List.map_map]
  exact List.filter_sublist.map _

theorem nodup_changes (ha : as.Ordered) (hb : bs.Ordered) :
    ((diffMembers as bs ++ removals as bs).map (·.1)).Nodup := by
  rw [List.map_append]
  refine List.nodup_append.2 ⟨keys_diffMembers.nodup hb.nodup, keys_removals.nodup ha.nodup, ?_⟩
  -- A member that is gone is none of the new document.
  rintro l hl l' hl' rfl
  obtain ⟨e, he, rfl⟩ := List.mem_map.1 (keys_diffMembers.subset hl)
  obtain ⟨r, hr, hre⟩ := List.mem_map.1 hl'
  obtain ⟨a, ha', rfl⟩ := List.mem_map.1 hr
  have hnone := (List.mem_filter.1 ha').2
  have hsome := Entries.find?_of_mem hb.nodup he
  simp_all

/-- The members of a patch between two objects, one by one. -/
theorem find?_changes (ha : as.Ordered) (hb : bs.Ordered) :
    find? k (Entries.ofList (diffMembers as bs ++ removals as bs)) =
      change? (find? k as) (find? k bs) := by
  rw [Entries.find?_ofList_of_nodup (nodup_changes ha hb), Entries.find?_append,
    find?_diffMembers hb.nodup, find?_removals]
  cases find? k as <;> cases find? k bs <;> simp [change?]

/-- A patch between two objects is an object, left out when it says nothing. -/
theorem diff_object (ha : as.Ordered) (hb : bs.Ordered) :
    ∃ cs : Entries Json, cs.Ordered ∧ (∀ k, find? k cs = change? (find? k as) (find? k bs)) ∧
      diff (object as) (object bs) = if cs.isEmpty then none else some (object cs) := by
  by_cases hs : same (object as) (object bs) = true
  · refine ⟨[], .nil, fun k => ?_, diff_of_same hs⟩
    exact (sameMember_of_sameMembers hs k).change?_eq.symm
  · refine ⟨_, Entries.ordered_ofList _, fun k => find?_changes ha hb, ?_⟩
    have hn := nodup_changes ha hb
    rw [diff, if_neg hs]
    generalize diffMembers as bs ++ removals as bs = cs at hn
    cases cs with
    | nil => rfl
    | cons c cs =>
      have hc := Entries.find?_ofList_of_nodup (k := c.1) hn
      cases ho : Entries.ofList (c :: cs) with
      | nil => simp [ho] at hc
      | cons d ds => simp [ofMembers, ho]

theorem diff_of_not_object (h : ∀ ms, v ≠ object ms) :
    diff v (object bs) = some (object bs) := by
  cases v with
  | object ms => exact absurd rfl (h ms)
  | _ => simp [diff, same]

/-- Anything but an object replaces what differs from it. -/
theorem diff_of_new_not_object (h : ∀ ms, new ≠ object ms) :
    diff old new = if same old new = true then none else some new := by
  rw [diff]
  rintro _ bs _ rfl
  exact h bs rfl

/-- What a member becomes under a patch that says something of it, or nothing. -/
def mergeMember (old : Option Json) : Option Json → Option Json
  | none => old
  | some null => none
  | some v => some (merge (old.getD null) v)

theorem mergeMember_some {o : Option Json} (h : v ≠ null) :
    mergeMember o (some v) = some (merge (o.getD null) v) := by
  cases v <;> first | exact absurd rfl h | rfl

theorem find?_mergeMembers {cs : Entries Json} (hc : cs.Ordered) :
    find? k (mergeMembers ms cs) = mergeMember (find? k ms) (find? k cs) := by
  induction cs generalizing ms with
  | nil => rfl
  | cons c cs ih =>
    obtain ⟨l, v⟩ := c
    have hrest : l = k → find? k cs = none := fun h =>
      hc.find?_tail (h ▸ String.lt_irrefl _)
    by_cases hk : l = k
    · cases v <;> simp [mergeMembers, ih hc.tail, hk, hrest hk, mergeMember,
        Entries.find?_erase, Entries.find?_insert]
    · cases v <;> simp [mergeMembers, ih hc.tail, hk, Ne.symm hk,
        Entries.find?_erase, Entries.find?_insert]

/-- A patch of one member. -/
theorem merge_member {c : Json} (hc : c ≠ null) :
    merge v (object [(k, c)]) =
      object (Entries.insert k (merge ((find? k v.members).getD null) c) v.members) := by
  cases c <;> first | exact absurd rfl hc | rfl

theorem ordered_mergeMembers {cs : List (String × Json)} (h : ms.Ordered) :
    (mergeMembers ms cs).Ordered := by
  induction cs generalizing ms with
  | nil => exact h
  | cons c cs ih =>
    obtain ⟨l, v⟩ := c
    cases v <;> first | exact ih h.erase | exact ih h.insert

theorem canonical_members (h : v.Canonical) : (object v.members).Canonical := by
  cases v with
  | object ms => exact h
  | _ => exact canonical_object_iff.2 ⟨.nil, by simp [Json.members]⟩

theorem mem_diffMembers {m : String × Json} (h : m ∈ diffMembers as bs) :
    ∃ v, (m.1, v) ∈ bs ∧ change? (find? m.1 as) (some v) = some m.2 := by
  induction bs with
  | nil => simp [diffMembers] at h
  | cons b bs ih =>
    obtain ⟨l, v⟩ := b
    rw [diffMembers_cons] at h
    rcases List.mem_append.1 h with h | h
    · cases hc : change? (find? l as) (some v) with
      | none => simp [hc] at h
      | some c =>
        obtain rfl : m = (l, c) := by simpa [hc] using h
        exact ⟨v, List.mem_cons_self, hc⟩
    · obtain ⟨u, hu, hc⟩ := ih h
      exact ⟨u, List.mem_cons_of_mem _ hu, hc⟩

theorem canonical_diff {p : Json} (hn : new.Canonical) (h : diff old new = some p) :
    p.Canonical := by
  induction new using inductionOn generalizing old p with
  | null | bool | number | string | array =>
    rw [diff_of_new_not_object (by simp)] at h
    split at h
    · cases h
    · cases h; exact hn
  | object bs ih =>
    have hchanges : ∀ as : Entries Json, ∀ m ∈ diffMembers as bs ++ removals as bs,
        m.2.Canonical := by
      intro as m hm
      rcases List.mem_append.1 hm with hm | hm
      · obtain ⟨v, hv, hc⟩ := mem_diffMembers hm
        have hcan := (canonical_object_iff.1 hn).2 _ hv
        cases ha : find? m.1 as with
        | none => simp_all [change?]
        | some u => exact ih _ hv hcan (by simpa [ha, change?] using hc)
      · obtain ⟨a, -, rfl⟩ := List.mem_map.1 hm
        trivial
    cases old with
    | object as =>
      rw [diff] at h
      split at h
      · cases h
      · have hcan := hchanges as
        generalize diffMembers as bs ++ removals as bs = cs at h hcan
        cases cs with
        | nil => cases h
        | cons c cs => cases h; exact canonical_ofMembers hcan
    | _ =>
      rw [diff_of_not_object (by simp)] at h
      cases h
      exact hn

/-- The document with a patch applied, if there is one. -/
def mergeIfAny (document : Json) : Option Json → Json
  | none => document
  | some patch => merge document patch

/-- The document with the patch between two others applied. -/
def patched (document old new : Json) : Json := mergeIfAny document (diff old new)

theorem patched_object (ms : Entries Json) (ha : as.Ordered) (hb : bs.Ordered) :
    ∃ rs, patched (object ms) (object as) (object bs) = object rs ∧
      (ms.Ordered → Ordered rs) ∧
      ∀ k, find? k rs = mergeMember (find? k ms) (change? (find? k as) (find? k bs)) := by
  obtain ⟨cs, hcs, hfind, hdiff⟩ := diff_object ha hb
  unfold patched
  rw [hdiff]
  cases cs with
  | nil =>
    refine ⟨ms, rfl, id, fun k => ?_⟩
    rw [← hfind k]
    rfl
  | cons c cs =>
    refine ⟨mergeMembers ms (c :: cs), rfl, ordered_mergeMembers, fun k => ?_⟩
    rw [find?_mergeMembers hcs, hfind]

/-- `patched_object` with the members of the two documents looked up in them. -/
theorem find?_patched (ms : Entries Json) (old new : Json) (ho : old = object old.members)
    (hn : new = object new.members) (hold : Ordered old.members) (hnew : Ordered new.members) :
    ∃ rs : Entries Json, patched (object ms) old new = object rs ∧ (ms.Ordered → rs.Ordered) ∧
      ∀ k, find? k rs = mergeMember (find? k ms) (change? (old.get? k) (new.get? k)) := by
  rw [ho, hn]
  exact patched_object ms hold hnew

/-- Nothing at all is patched like an empty object. -/
theorem patched_null (hb : bs.Ordered) (hne : bs ≠ []) :
    patched null null (object bs) = patched (object []) (object []) (object bs) := by
  obtain ⟨cs, hcs, hfind, hdiff⟩ := diff_object .nil hb
  obtain rfl : cs = bs := hcs.ext hb fun k => hfind k
  unfold patched
  rw [hdiff, diff_of_not_object (by simp)]
  cases cs with
  | nil => exact absurd rfl hne
  | cons c cs => rfl

/-- A member that both documents agree on is left alone. -/
theorem mergeMember_self (o p : Option Json) : mergeMember o (change? p p) = o := by
  rw [change?_self]
  rfl

/-- Between documents that differ in one member, a patch writes that member and nothing else. -/
theorem patched_member (ms : Entries Json) (old new : Json) (ho : old = object old.members)
    (hn : new = object new.members) (hold : Ordered old.members) (hnew : Ordered new.members)
    (hc : (object ms).Canonical) (hv : v.Canonical)
    (hk : mergeMember (find? k ms) (change? (old.get? k) (new.get? k)) = some v)
    (hrest : ∀ l, l ≠ k → new.get? l = old.get? l) :
    ∃ rs : Entries Json, patched (object ms) old new = object rs ∧ (object rs).Canonical ∧
      find? k rs = some v ∧ ∀ l, l ≠ k → find? l rs = find? l ms := by
  obtain ⟨rs, hrs, hord, hfind⟩ := find?_patched ms old new ho hn hold hnew
  have hwritten : find? k rs = some v := (hfind k).trans hk
  have hleft : ∀ l, l ≠ k → find? l rs = find? l ms := by
    intro l hl
    rw [hfind, hrest l hl]
    exact mergeMember_self ..
  have hro := hord hc.ordered
  exact ⟨rs, hrs, canonical_of_written hc hro hv hwritten hleft, hwritten, hleft⟩

theorem mergeMember_string {s : String} (o : Option Json) :
    mergeMember o (change? o (some (string s))) = some (string s) := by
  cases o with
  | none => rfl
  | some v =>
    by_cases h : same v (string s) = true
    · rw [eq_string_of_same h]
      exact mergeMember_self ..
    · have hd : diff v (string s) = some (string s) := by
        rw [diff_of_new_not_object (by simp), if_neg h]
      simp [change?, hd, mergeMember, merge]

theorem find?_ofStrings (m : StringMap String) :
    find? k (m.map string).entries = (m.get? k).map string := StringMap.get?_map string

theorem merge_ofStrings (m : StringMap String) (h : v.members = []) :
    merge v (ofStrings m) = ofStrings m := by
  change object (mergeMembers v.members (m.map string).entries) = object (m.map string).entries
  rw [h]
  refine congrArg _ ((ordered_mergeMembers .nil).ext (m.map string).ordered fun k => ?_)
  rw [find?_mergeMembers (m.map string).ordered, find?_ofStrings]
  cases m.get? k <;> rfl

/-- A flat object of texts is reached from any document, whatever nulls that one holds. -/
theorem patched_ofStrings (m : StringMap String) (h : v.Canonical) :
    patched v v (ofStrings m) = ofStrings m := by
  cases v with
  | object ms =>
    have ho := h.ordered
    obtain ⟨rs, hrs, hord, hfind⟩ := patched_object ms ho (m.map string).ordered
    refine hrs.trans (congrArg _ ((hord ho).ext (m.map string).ordered fun k => ?_))
    rw [hfind, find?_ofStrings]
    cases m.get? k with
    | some s => exact mergeMember_string _
    | none => cases find? k ms <;> rfl
  | _ =>
    unfold patched
    rw [show ofStrings m = object (m.map string).entries from rfl, diff_of_not_object (by simp)]
    exact merge_ofStrings m rfl

/-- A member that is an object in both documents is patched itself. -/
theorem mergeMember_object {d : Json} (ha : as.Ordered) (hb : bs.Ordered) :
    mergeMember (some d) (change? (some (object as)) (some (object bs))) =
      some (patched d (object as) (object bs)) := by
  obtain ⟨cs, -, -, hdiff⟩ := diff_object ha hb
  change mergeMember (some d) (diff (object as) (object bs)) = some (mergeIfAny d _)
  rw [hdiff]
  cases cs <;> rfl

/-- A text takes the place of whatever was read as nothing or as another text. -/
theorem mergeMember_string_new {s : String} {raw old : Option Json}
    (h : raw = old ∨ raw = some null ∧ old = none) :
    mergeMember raw (change? old (some (string s))) = some (string s) := by
  rcases h with rfl | ⟨rfl, rfl⟩
  · exact mergeMember_string _
  · rfl

/-- A flat object of texts takes the place of whatever was read as nothing or as itself. -/
theorem mergeMember_ofStrings {m : StringMap String} {raw old : Option Json}
    (h : raw = old ∨ raw = some null ∧ old = none) (hc : ∀ v, old = some v → v.Canonical) :
    mergeMember raw (change? old (some (ofStrings m))) = some (ofStrings m) := by
  have hnew : merge null (ofStrings m) = ofStrings m := merge_ofStrings m rfl
  rcases h with rfl | ⟨rfl, rfl⟩
  · cases raw with
    | none => exact congrArg some hnew
    | some v =>
      have hp := patched_ofStrings m (hc v rfl)
      unfold patched at hp
      change mergeMember (some v) (diff v (ofStrings m)) = _
      cases hd : diff v (ofStrings m) with
      | none => simpa [hd, mergeIfAny, mergeMember] using hp
      | some p =>
        rw [hd] at hp
        cases p with
        | null => cases hp
        | _ => exact congrArg some hp
  · exact congrArg some hnew

end MachineProvider.Json
