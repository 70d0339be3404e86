import MachineProvider.Proofs.Json.Paths

/-! The patch between two documents leads from the one to the other exactly when any patch
does: a patch cannot write a null member, so those of the second document must stand in the
first one already. -/
namespace MachineProvider.Json

open Entries (find?)

variable {v w old new patch : Json} {o p : Option Json} {as bs : Entries Json} {k : String}
  {keys : List String}

/-! ### Documents that are the same -/

/-- Objects in key order that agree on every member are the same. -/
theorem sameMembers_of_sameMember (ha : as.Ordered) (hb : bs.Ordered)
    (h : ∀ k, SameMember (find? k as) (find? k bs)) : sameMembers as bs = true := by
  induction as generalizing bs with
  | nil =>
    cases bs with
    | nil => rfl
    | cons b bs =>
      have hhead := (h b.1).isSome_eq
      simp at hhead
  | cons a as ih =>
    obtain ⟨k, v⟩ := a
    cases bs with
    | nil =>
      have hhead := (h k).isSome_eq
      simp at hhead
    | cons b bs =>
      obtain ⟨l, w⟩ := b
      obtain rfl : k = l := ha.head_eq hb fun j => (h j).isSome_eq
      have hvw : same v w = true := by simpa [sameMember_some] using h k
      have hrest : sameMembers as bs = true := by
        refine ih ha.tail hb.tail fun j => ?_
        by_cases hj : k = j
        · subst hj
          rw [ha.find?_tail (String.lt_irrefl k), hb.find?_tail (String.lt_irrefl k)]
          exact .none
        · simpa [hj] using h j
      simp [sameMembers, hvw, hrest]

/-- There is no patch between two documents exactly when they are the same. -/
theorem diff_eq_none_iff (ho : old.Canonical) (hn : new.Canonical) :
    diff old new = none ↔ same old new = true := by
  refine ⟨fun h => ?_, diff_of_same⟩
  induction new using inductionOn generalizing old with
  | null | bool | number | string | array =>
    rw [diff_of_new_not_object (by simp)] at h
    split at h
    · assumption
    · cases h
  | object bs ih =>
    cases old with
    | object as =>
      obtain ⟨cs, hcs, hfind, hdiff⟩ := diff_object ho.ordered hn.ordered
      have hnothing : ∀ k, change? (find? k as) (find? k bs) = none := by
        intro k
        rw [hdiff] at h
        cases cs with
        | nil => exact (hfind k).symm
        | cons c cs => cases h
      refine sameMembers_of_sameMember ho.ordered hn.ordered fun k => ?_
      have hk := hnothing k
      cases ha : find? k as with
      | none =>
        rw [ha] at hk
        rw [show find? k bs = none from hk]
        exact .none
      | some v =>
        cases hb : find? k bs with
        | none => rw [ha, hb] at hk; cases hk
        | some w =>
          rw [ha, hb] at hk
          have hmem := Entries.mem_of_find? hb
          exact sameMember_some.2 (ih _ hmem (canonical_of_find? ho ha)
            (canonical_of_find? hn hb) hk)
    | _ =>
      rw [diff_of_not_object (by simp)] at h
      cases h

/-! ### Null members -/

/-- What stands at the end of a way down through objects. -/
def below? (v : Json) (keys : List String) : Option Json := v.at? (keys.map .key)

@[simp] theorem below?_nil : v.below? [] = some v := rfl

/-- Whatever a document is, its members are found below it. -/
theorem below?_cons : v.below? (k :: keys) = (find? k v.members).bind (·.below? keys) := by
  cases v <;> rfl

/-- Every null member of the second document is one of the first, on the same way
through objects. -/
def HoldsNulls (old new : Json) : Prop :=
  ∀ key keys, new.below? (key :: keys) = some null → old.below? (key :: keys) = some null

/-- A null member of a document is one of every document that is the same. -/
theorem below?_null_of_same (h : same v w = true) (hw : w.below? keys = some null) :
    v.below? keys = some null := by
  induction keys generalizing v w with
  | nil =>
    obtain rfl : w = null := Option.some.inj hw
    cases v with
    | null => rfl
    | _ => cases h
  | cons k keys ih =>
    rw [below?_cons] at hw ⊢
    obtain ⟨y, hy, hbelow⟩ := Option.bind_eq_some_iff.1 hw
    cases w with
    | object bs =>
      cases v with
      | object as =>
        have hk := sameMember_of_sameMembers h k
        rw [show find? k bs = some y from hy] at hk
        cases hx : find? k as with
        | none => rw [hx] at hk; cases hk
        | some x =>
          rw [hx, sameMember_some] at hk
          change (find? k as).bind _ = _
          rw [hx]
          exact ih hk hbelow
      | _ => simp [same] at h
    | _ => cases hy

/-- A patch writes no null member: one that is there afterwards was there before. -/
theorem below?_null_of_merge (hp : patch.Canonical)
    (h : (merge old patch).below? (k :: keys) = some null) :
    old.below? (k :: keys) = some null := by
  induction patch using inductionOn generalizing old k keys with
  | null | bool | number | string | array => rw [below?_cons] at h; cases h
  | object cs ih =>
    rw [below?_cons] at h ⊢
    change (find? k (mergeMembers old.members cs)).bind _ = _ at h
    rw [find?_mergeMembers hp.ordered] at h
    cases hc : find? k cs with
    | none => rwa [hc] at h
    | some c =>
      rw [hc] at h
      have hmem := Entries.mem_of_find? hc
      have hcan := canonical_of_find? hp hc
      by_cases hnull : c = null
      · subst hnull
        cases h
      · rw [mergeMember_some hnull] at h
        change (merge ((find? k old.members).getD null) c).below? keys = some null at h
        cases keys with
        | nil =>
          -- Only null itself is merged to null.
          have hmerge : merge ((find? k old.members).getD null) c = null := Option.some.inj h
          cases c with
          | null => exact absurd rfl hnull
          | _ => cases hmerge
        | cons l keys =>
          have hbelow := ih _ hmem hcan h
          cases hf : find? k old.members with
          | none => rw [hf] at hbelow; cases hbelow
          | some u => rwa [hf] at hbelow

/-! ### What is reached -/

/-- A member that is to be an object becomes one, and each of its members is patched by itself. -/
theorem mergeMember_change?_object (ha : Entries.Ordered (o.getD null).members) (hb : bs.Ordered) :
    ∃ rs : Entries Json,
      mergeMember o (change? o (some (object bs))) = some (object rs) ∧ rs.Ordered ∧
      ∀ k, find? k rs = mergeMember (find? k (o.getD null).members)
        (change? (find? k (o.getD null).members) (find? k bs)) := by
  have hnew : (o.getD null).members = [] → ∃ rs : Entries Json,
      mergeMember o (some (object bs)) = some (object rs) ∧ rs.Ordered ∧
      ∀ k, find? k rs = mergeMember (find? k (o.getD null).members)
        (change? (find? k (o.getD null).members) (find? k bs)) := by
    intro hempty
    refine ⟨_, rfl, Json.ordered_mergeMembers ha, fun k => ?_⟩
    rw [find?_mergeMembers hb, hempty]
    rfl
  cases o with
  | none => exact hnew rfl
  | some v =>
    cases v with
    | object as =>
      change Entries.Ordered as at ha
      obtain ⟨rs, hrs, hord, hfind⟩ := patched_object as ha hb
      exact ⟨rs, by rw [mergeMember_object ha hb, hrs], hord ha, hfind⟩
    | _ =>
      change ∃ rs : Entries Json, mergeMember _ (diff _ (object bs)) = _ ∧ _
      rw [diff_of_not_object (by simp)]
      exact hnew rfl

theorem merge_of_not_object (h : ∀ ms, v ≠ object ms) : merge w v = v := by
  cases v with
  | object ms => exact absurd rfl (h ms)
  | _ => rfl

/-- What is neither null nor an object is reached from any member. -/
theorem sameMember_replaced (hobject : ∀ ms, v ≠ object ms) (hnull : v ≠ null) :
    SameMember (mergeMember o (change? o (some v))) (some v) := by
  have hwritten : mergeMember o (some v) = some v := by
    rw [mergeMember_some hnull, merge_of_not_object hobject]
  cases o with
  | none =>
    change SameMember (mergeMember none (some v)) (some v)
    rw [hwritten]
    exact sameMember_some.2 (same_self v)
  | some u =>
    change SameMember (mergeMember (some u) (diff u v)) (some v)
    rw [diff_of_new_not_object hobject]
    by_cases hsame : same u v = true
    · rw [if_pos hsame]
      exact sameMember_some.2 hsame
    · rw [if_neg hsame, hwritten]
      exact sameMember_some.2 (same_self v)

/-- A member is patched to what it should be, if the nulls in that stood in it already. -/
theorem sameMember_patched (ho : ∀ v, o = some v → v.Canonical) (hn : new.Canonical)
    (hnulls : ∀ keys, new.below? keys = some null → o.bind (·.below? keys) = some null) :
    SameMember (mergeMember o (change? o (some new))) (some new) := by
  induction new using inductionOn generalizing o with
  | null =>
    obtain ⟨v, rfl, hv⟩ := Option.bind_eq_some_iff.1 (hnulls [] rfl)
    obtain rfl : v = null := Option.some.inj hv
    exact sameMember_some.2 rfl
  | bool | number | string | array => exact sameMember_replaced (by simp) (by simp)
  | object bs ih =>
    have hold : (object (o.getD null).members).Canonical := by
      cases o with
      | none => exact canonical_members (v := null) trivial
      | some v => exact canonical_members (ho v rfl)
    obtain ⟨rs, hrs, hord, hfind⟩ := mergeMember_change?_object hold.ordered hn.ordered
    rw [hrs, sameMember_some]
    change sameMembers rs bs = true
    refine sameMembers_of_sameMember hord hn.ordered fun k => ?_
    rw [hfind]
    cases hb : find? k bs with
    | none => cases find? k (o.getD null).members <;> exact .none
    | some w =>
      refine ih _ (Entries.mem_of_find? hb) (fun v hv => canonical_of_find? hold hv)
        (canonical_of_find? hn hb) fun keys hkeys => ?_
      have hbelow : (object bs).below? (k :: keys) = some null := by
        rw [below?_cons, show find? k (object bs).members = some w from hb]
        exact hkeys
      obtain ⟨v, rfl, hv⟩ := Option.bind_eq_some_iff.1 (hnulls _ hbelow)
      rwa [below?_cons] at hv

/-- Only a patch to null is null. -/
theorem diff_ne_null (ho : old.Canonical) (hn : new.Canonical) (hne : new ≠ null) :
    diff old new ≠ some null := by
  cases new with
  | null => exact absurd rfl hne
  | object bs =>
    cases old with
    | object as =>
      obtain ⟨cs, -, -, hdiff⟩ := diff_object ho.ordered hn.ordered
      rw [hdiff]
      split <;> simp
    | _ =>
      rw [diff_of_not_object (by simp)]
      simp
  | _ =>
    rw [diff_of_new_not_object (by simp)]
    split <;> simp

/-- The patch leads from the one document to the other, if no null is to be added. -/
theorem same_merge_diff (ho : old.Canonical) (hn : new.Canonical) (hnulls : HoldsNulls old new)
    (hd : diff old new = some patch) : same (merge old patch) new = true := by
  by_cases hnull : new = null
  · subst hnull
    rw [diff_of_new_not_object (by simp)] at hd
    split at hd
    · cases hd
    · cases hd
      rfl
  · have hreached : SameMember (mergeMember (some old) (change? (some old) (some new)))
        (some new) := by
      refine sameMember_patched (fun v hv => Option.some.inj hv ▸ ho) hn fun keys hkeys => ?_
      cases keys with
      | nil => exact absurd (Option.some.inj hkeys) hnull
      | cons key keys => exact hnulls key keys hkeys
    have hpatch : patch ≠ null := by
      rintro rfl
      exact diff_ne_null ho hn hnull hd
    change SameMember (mergeMember (some old) (diff old new)) _ at hreached
    rw [hd, mergeMember_some hpatch] at hreached
    exact sameMember_some.1 hreached

/-- There is no patch between two documents exactly if they are the same. Where there is
one, it leads to the second document if and only if that adds no null member, which is when
any patch does. -/
theorem diff_exact (ho : old.Canonical) (hn : new.Canonical) :
    (diff old new = none ↔ same old new = true) ∧
    (∀ patch, diff old new = some patch →
      (same (merge old patch) new = true ↔ HoldsNulls old new)) ∧
    ((∃ patch : Json, patch.Canonical ∧ same (merge old patch) new = true) ↔
      HoldsNulls old new) := by
  have hneeded : ∀ patch : Json, patch.Canonical → same (merge old patch) new = true →
      HoldsNulls old new := by
    intro patch hp hsame key keys hnull
    exact below?_null_of_merge hp (below?_null_of_same hsame hnull)
  refine ⟨diff_eq_none_iff ho hn, fun patch hd => ?_,
    fun ⟨patch, hp, hsame⟩ => hneeded patch hp hsame, fun hnulls => ?_⟩
  · exact ⟨hneeded patch (canonical_diff hn hd), fun hnulls => same_merge_diff ho hn hnulls hd⟩
  · cases hd : diff old new with
    | some patch => exact ⟨patch, canonical_diff hn hd, same_merge_diff ho hn hnulls hd⟩
    | none =>
      have hsame := (diff_eq_none_iff ho hn).1 hd
      cases old with
      | object as => exact ⟨object [], canonical_object_iff.2 ⟨.nil, by simp⟩, hsame⟩
      | _ => exact ⟨_, ho, hsame⟩

/-- Members that go, stay, change, come and turn from a number to an object. -/
def draft : Json :=
  .object [("gone", .array [.null]), ("kept", .object [("n", .null), ("x", .int 1)]),
    ("turned", .int 2)]

def revision : Json :=
  .object [("kept", .object [("n", .null), ("x", .int 3)]),
    ("new", .object [("l", .array [.null])]),
    ("turned", .object [("y", .object [])])]

/-- The null that was there stays there, and no patch makes another one. -/
theorem diff_exact_draft :
    (∃ patch, diff draft revision = some patch ∧ same (merge draft patch) revision = true) ∧
      HoldsNulls draft revision ∧
      ¬ ∃ patch : Json, patch.Canonical ∧
        same (merge draft patch) (.object [("turned", .null)]) = true := by
  have hdraft : draft.Canonical := by
    have hcanonical : draft.canonical = draft := by rfl
    exact hcanonical ▸ canonical_canonical draft
  have hrevision : revision.Canonical := by
    have hcanonical : revision.canonical = revision := by rfl
    exact hcanonical ▸ canonical_canonical revision
  have hreached : ∃ patch, diff draft revision = some patch ∧
      same (merge draft patch) revision = true :=
    ⟨_, rfl, rfl⟩
  obtain ⟨patch, hd, hsame⟩ := hreached
  refine ⟨⟨patch, hd, hsame⟩, ((diff_exact hdraft hrevision).2.1 patch hd).1 hsame,
    fun hpatch => ?_⟩
  have hcanonical : (object [("turned", null)]).Canonical := ⟨by decide, trivial, trivial⟩
  have hnull := (diff_exact hdraft hcanonical).2.2.1 hpatch "turned" [] rfl
  exact absurd hnull (by rintro ⟨⟩)

end MachineProvider.Json
