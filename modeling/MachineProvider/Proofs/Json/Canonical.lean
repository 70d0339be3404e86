import MachineProvider.Json.Basic
import MachineProvider.Proofs.Entries

/-! Canonical documents: `canonical` reaches them and leaves them alone, and so does
every writer. -/
namespace MachineProvider.Json

variable {v w : Json} {ms : Entries Json} {es : List Json} {k : String}

/-- Induction through the elements of arrays and the members of objects. -/
theorem inductionOn {motive : Json → Prop} (v : Json) (null : motive .null)
    (bool : ∀ b, motive (.bool b)) (number : ∀ n, motive (.number n))
    (string : ∀ s, motive (.string s))
    (array : ∀ es, (∀ e ∈ es, motive e) → motive (.array es))
    (object : ∀ ms : List (String × Json), (∀ m ∈ ms, motive m.2) → motive (.object ms)) :
    motive v := by
  match v with
  | .null => exact null
  | .bool b => exact bool b
  | .number n => exact number n
  | .string s => exact string s
  | .array es =>
    exact array es fun e _ => inductionOn e null bool number string array object
  | .object ms =>
    exact object ms fun m _ => inductionOn m.2 null bool number string array object
termination_by sizeOf v
decreasing_by
  · have := List.sizeOf_lt_of_mem ‹e ∈ es›
    simp only [Json.array.sizeOf_spec]
    omega
  · have := List.sizeOf_lt_of_mem ‹m ∈ ms›
    have : sizeOf m = 1 + sizeOf m.1 + sizeOf m.2 := by cases m; rfl
    simp only [Json.object.sizeOf_spec]
    omega

theorem canonicalElements_eq : canonicalElements es = es.map canonical := by
  induction es with
  | nil => rfl
  | cons e es ih => simp [canonicalElements, ih]

theorem canonicalMembers_eq : canonicalMembers ms = ms.map fun m => (m.1, m.2.canonical) := by
  induction ms with
  | nil => rfl
  | cons m ms ih => obtain ⟨k, v⟩ := m; simp [canonicalMembers, ih]

@[simp] theorem canonical_array_iff : (array es).Canonical ↔ ∀ e ∈ es, e.Canonical := by
  change CanonicalElements es ↔ _
  induction es with
  | nil => simp [CanonicalElements]
  | cons e es ih => simp [CanonicalElements, ih]

theorem canonicalMembers_iff : CanonicalMembers ms ↔ ∀ m ∈ ms, m.2.Canonical := by
  induction ms with
  | nil => simp [CanonicalMembers]
  | cons m ms ih =>
    obtain ⟨k, v⟩ := m
    simp only [CanonicalMembers, ih, List.forall_mem_cons]

@[simp] theorem canonical_object_iff :
    (object ms).Canonical ↔ ms.Ordered ∧ ∀ m ∈ ms, m.2.Canonical := by
  rw [← canonicalMembers_iff]
  rfl

theorem Canonical.ordered (h : (object ms).Canonical) : ms.Ordered := (canonical_object_iff.1 h).1

theorem canonical_object_of_find? (ho : ms.Ordered)
    (h : ∀ k v, Entries.find? k ms = some v → v.Canonical) : (object ms).Canonical :=
  canonical_object_iff.2
    ⟨ho, fun m hm => h m.1 m.2 (Entries.find?_of_mem ho.nodup hm)⟩

theorem canonical_of_find? (h : (object ms).Canonical) (hf : Entries.find? k ms = some v) :
    v.Canonical := (canonical_object_iff.1 h).2 _ (Entries.mem_of_find? hf)

/-- A canonical document stays so when one member is written anew. -/
theorem canonical_of_written {rs : Entries Json} (hc : (object ms).Canonical) (ho : rs.Ordered)
    (hv : v.Canonical) (hf : Entries.find? k rs = some v)
    (hrest : ∀ l, l ≠ k → Entries.find? l rs = Entries.find? l ms) : (object rs).Canonical := by
  refine canonical_object_of_find? ho fun l u hu => ?_
  by_cases hl : l = k
  · obtain rfl : v = u := by simpa [hl, hf] using hu
    exact hv
  · exact canonical_of_find? hc (hrest l hl ▸ hu)

theorem canonical_insert (hc : (object ms).Canonical) (hv : v.Canonical) :
    (object (Entries.insert k v ms)).Canonical := by
  have hwritten : Entries.find? k (Entries.insert k v ms) = some v := by
    simp [Entries.find?_insert]
  refine canonical_of_written hc hc.ordered.insert hv hwritten fun l hl => ?_
  simp [Entries.find?_insert, hl]

theorem canonical_ofMembers (h : ∀ m ∈ ms, m.2.Canonical) : (ofMembers ms).Canonical := by
  refine canonical_object_of_find? (Entries.ordered_ofList ms) fun k v hf => ?_
  rw [Entries.find?_ofList] at hf
  exact h _ (List.mem_reverse.1 (Entries.mem_of_find? hf))

theorem canonical_ofStrings (m : StringMap String) : (ofStrings m).Canonical := by
  refine canonical_object_iff.2 ⟨(m.map string).ordered, fun e he => ?_⟩
  obtain ⟨p, -, rfl⟩ := List.mem_map.1 he
  trivial

theorem canonical_canonical (v : Json) : v.canonical.Canonical := by
  induction v using inductionOn with
  | null | bool | number | string => trivial
  | array es ih =>
    change (array (canonicalElements es)).Canonical
    rw [canonicalElements_eq, canonical_array_iff]
    simpa using ih
  | object ms ih =>
    change (ofMembers (canonicalMembers ms)).Canonical
    refine canonical_ofMembers ?_
    rw [canonicalMembers_eq]
    intro m hm
    obtain ⟨n, hn, rfl⟩ := List.mem_map.1 hm
    exact ih n hn

theorem Canonical.canonical_eq (h : v.Canonical) : v.canonical = v := by
  induction v using inductionOn with
  | null | bool | number | string => rfl
  | array es ih =>
    rw [canonical_array_iff] at h
    change array (canonicalElements es) = _
    rw [canonicalElements_eq]
    have hid : es.map canonical = es :=
      (List.map_congr_left fun e he => ih e he (h e he)).trans (List.map_id es)
    rw [hid]
  | object ms ih =>
    obtain ⟨ho, hc⟩ := canonical_object_iff.1 h
    have hid : canonicalMembers ms = ms := by
      rw [canonicalMembers_eq]
      refine (List.map_congr_left fun m hm => ?_).trans (List.map_id ms)
      rw [ih m hm (hc m hm)]
      rfl
    change object (Entries.ofList (canonicalMembers ms)) = _
    rw [hid, Entries.Ordered.ofList_eq ho]

theorem keys_filterMap {ms : List (String × Option Json)} :
    ((ms.filterMap fun (k, v) => v.map (k, ·)).map (·.1)).Sublist (ms.map (·.1)) := by
  induction ms with
  | nil => exact .slnil
  | cons m ms ih =>
    obtain ⟨l, _ | v⟩ := m
    · exact ih.cons l
    · exact ih.cons_cons l

theorem find?_filterMap {ms : List (String × Option Json)} (h : (ms.map (·.1)).Nodup) :
    Entries.find? k (ms.filterMap fun (k, v) => v.map (k, ·)) = (ms.lookup k).join := by
  induction ms with
  | nil => rfl
  | cons m ms ih =>
    obtain ⟨l, o⟩ := m
    obtain ⟨hl, hn⟩ := List.nodup_cons.1 h
    by_cases hk : k = l
    · subst hk
      cases o with
      | some v => simp
      | none =>
        have habs : Entries.find? k (ms.filterMap fun (k, v) => v.map (k, ·)) = none :=
          Entries.find?_eq_none.2 fun e he heq =>
            hl (keys_filterMap.subset (List.mem_map.2 ⟨e, he, heq⟩))
        simpa using habs
    · have hlk : (k == l) = false := by simpa using hk
      cases o <;> simp [List.lookup_cons, hlk, ih hn, Ne.symm hk]

/-- A record whose names differ has the members that are present. -/
theorem get?_record {ms : List (String × Option Json)} (h : (ms.map (·.1)).Nodup) :
    (record ms).get? k = (ms.lookup k).join :=
  (Entries.find?_ofList_of_nodup (keys_filterMap.nodup h)).trans (find?_filterMap h)

/-- A record of texts is the object of those that are present. -/
theorem record_texts (ts : List (String × Option String)) :
    record (ts.map fun t => (t.1, t.2.map string)) =
      ofStrings (.ofList (ts.filterMap fun t => t.2.map (t.1, ·))) := by
  have hmap : (ts.map fun t => (t.1, t.2.map string)).filterMap (fun m => m.2.map (m.1, ·)) =
      (ts.filterMap fun t => t.2.map (t.1, ·)).map fun e => (e.1, string e.2) := by
    induction ts with
    | nil => rfl
    | cons t ts ih => obtain ⟨k, _ | s⟩ := t <;> simp [ih]
  refine congrArg object ((Entries.ordered_ofList _).ext (StringMap.ordered _) fun k => ?_)
  rw [hmap, Entries.find?_ofList, ← List.map_reverse]
  change _ = ((StringMap.ofList _).map string).get? k
  rw [StringMap.get?_map, Entries.find?_map]
  exact congrArg _ Entries.find?_ofList.symm

end MachineProvider.Json
