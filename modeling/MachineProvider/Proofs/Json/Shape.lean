import MachineProvider.Decimal.Nearest
import MachineProvider.Proofs.Json.Canonical

/-! What a document is apart from its numbers, what holds of all its numbers, how deep it nests. -/
namespace MachineProvider.Json

variable {v w : Json} {ms : List (String × Json)} {es : List Json} {f : Number → Number}
  {p q : Number → Prop} {k : Nat}

/-! ### Numbers replaced -/

mutual
/-- Every number replaced; texts, members and their order stay. -/
def mapNumbers (f : Number → Number) : Json → Json
  | number n => number (f n)
  | array es => array (mapNumbersElements f es)
  | object ms => object (mapNumbersMembers f ms)
  | leaf => leaf

def mapNumbersElements (f : Number → Number) : List Json → List Json
  | [] => []
  | e :: es => mapNumbers f e :: mapNumbersElements f es

def mapNumbersMembers (f : Number → Number) : List (String × Json) → List (String × Json)
  | [] => []
  | (k, v) :: ms => (k, mapNumbers f v) :: mapNumbersMembers f ms
end

@[simp] theorem mapNumbers_array : mapNumbers f (array es) = array (es.map (mapNumbers f)) := by
  have h : mapNumbersElements f es = es.map (mapNumbers f) := by
    induction es with
    | nil => rfl
    | cons e es ih => simp only [mapNumbersElements, ih, List.map_cons]
  exact congrArg array h

@[simp] theorem mapNumbers_object :
    mapNumbers f (object ms) = object (ms.map fun m => (m.1, mapNumbers f m.2)) := by
  have h : mapNumbersMembers f ms = ms.map fun m => (m.1, mapNumbers f m.2) := by
    induction ms with
    | nil => rfl
    | cons m ms ih =>
      obtain ⟨k, v⟩ := m
      simp only [mapNumbersMembers, ih, List.map_cons]
  exact congrArg object h

theorem canonical_array : canonical (array es) = array (es.map canonical) :=
  congrArg array canonicalElements_eq

theorem canonical_object : canonical (object ms) =
    object (Entries.ofList (ms.map fun m => (m.1, m.2.canonical))) :=
  congrArg (fun ms => object (Entries.ofList ms)) canonicalMembers_eq

/-- The order of members does not hang on the numbers. -/
theorem mapNumbers_canonical : mapNumbers f v.canonical = (mapNumbers f v).canonical := by
  induction v using inductionOn with
  | null | bool | number | string => rfl
  | array es ih =>
    simp only [canonical_array, mapNumbers_array, List.map_map]
    exact congrArg array (List.map_congr_left ih)
  | object ms ih =>
    simp only [canonical_object, mapNumbers_object, Entries.ofList_map, List.map_map]
    refine congrArg (fun ms => object (Entries.ofList ms)) (List.map_congr_left fun m hm => ?_)
    exact congrArg (m.1, ·) (ih m hm)

/-- An integer as it is, one number for all others. -/
def Number.sketch : Number → Number
  | .integer n => .integer n
  | .double _ => .double .zero

/-- A document in which only the integers are told apart. -/
def sketch (v : Json) : Json := mapNumbers Number.sketch v

/-! ### All numbers -/

mutual
/-- Whether something holds of every number. -/
def EveryNumber (p : Number → Prop) : Json → Prop
  | number n => p n
  | array es => EveryElement p es
  | object ms => EveryMember p ms
  | _ => True

def EveryElement (p : Number → Prop) : List Json → Prop
  | [] => True
  | e :: es => EveryNumber p e ∧ EveryElement p es

def EveryMember (p : Number → Prop) : List (String × Json) → Prop
  | [] => True
  | (_, v) :: ms => EveryNumber p v ∧ EveryMember p ms
end

@[simp] theorem everyNumber_array : EveryNumber p (array es) ↔ ∀ e ∈ es, EveryNumber p e := by
  change EveryElement p es ↔ _
  induction es with
  | nil => simp [EveryElement]
  | cons e es ih => simp [EveryElement, ih]

@[simp] theorem everyNumber_object :
    EveryNumber p (object ms) ↔ ∀ m ∈ ms, EveryNumber p m.2 := by
  change EveryMember p ms ↔ _
  induction ms with
  | nil => simp [EveryMember]
  | cons m ms ih =>
    obtain ⟨k, v⟩ := m
    simp only [EveryMember, ih, List.forall_mem_cons]

theorem EveryNumber.imp (h : EveryNumber p v) (hpq : ∀ n, p n → q n) : EveryNumber q v := by
  induction v using inductionOn with
  | null | bool | string => trivial
  | number n => exact hpq n h
  | array es ih =>
    rw [everyNumber_array] at h ⊢
    exact fun e he => ih e he (h e he)
  | object ms ih =>
    rw [everyNumber_object] at h ⊢
    exact fun m hm => ih m hm (h m hm)

theorem everyNumber_mapNumbers :
    EveryNumber p (mapNumbers f v) ↔ EveryNumber (fun n => p (f n)) v := by
  induction v using inductionOn with
  | null | bool | number | string => rfl
  | array es ih =>
    simp only [mapNumbers_array, everyNumber_array, List.forall_mem_map]
    exact forall₂_congr ih
  | object ms ih =>
    simp only [mapNumbers_object, everyNumber_object, List.forall_mem_map]
    exact forall₂_congr ih

theorem everyNumber_canonical (h : EveryNumber p v) : EveryNumber p v.canonical := by
  induction v using inductionOn with
  | null | bool | string | number => exact h
  | array es ih =>
    rw [everyNumber_array] at h
    rw [canonical_array, everyNumber_array, List.forall_mem_map]
    exact fun e he => ih e he (h e he)
  | object ms ih =>
    rw [everyNumber_object] at h
    rw [canonical_object, everyNumber_object]
    intro m hm
    obtain ⟨n, hn, rfl⟩ := List.mem_map.1 (Entries.mem_of_mem_ofList hm)
    exact ih n hn (h n hn)

theorem mapNumbers_eq_self (h : EveryNumber (fun n => f n = n) v) : mapNumbers f v = v := by
  induction v using inductionOn with
  | null | bool | string => rfl
  | number n => exact congrArg number h
  | array es ih =>
    rw [everyNumber_array] at h
    rw [mapNumbers_array]
    exact congrArg array
      ((List.map_congr_left fun e he => ih e he (h e he)).trans (List.map_id es))
  | object ms ih =>
    rw [everyNumber_object] at h
    rw [mapNumbers_object]
    refine congrArg object ((List.map_congr_left fun m hm => ?_).trans (List.map_id ms))
    exact congrArg (m.1, ·) (ih m hm (h m hm))

/-- An integer that every double of its size is written for. -/
def Number.Whole (n : Number) : Prop := ∃ i : Int, n = .integer i ∧ i.natAbs ≤ Nat.pow 2 53

/-- A sketch of integers is the document itself. -/
theorem eq_of_sketch (h : w.sketch = v.sketch) (hv : EveryNumber Number.Whole v) : w = v := by
  have hself : ∀ u : Json, EveryNumber Number.Whole u.sketch → u.sketch = u := fun u hu => by
    refine mapNumbers_eq_self ((everyNumber_mapNumbers.1 hu).imp fun n hn => ?_)
    obtain ⟨i, hi, -⟩ := hn
    cases n with
    | integer => rfl
    | double => cases hi
  have hvs : EveryNumber Number.Whole v.sketch := by
    refine everyNumber_mapNumbers.2 (hv.imp fun n hn => ?_)
    obtain ⟨i, rfl, hi⟩ := hn
    exact ⟨i, rfl, hi⟩
  calc w = w.sketch := (hself w (h ▸ hvs)).symm
    _ = v.sketch := h
    _ = v := hself v hvs

/-- The second document is the first one, apart from numbers that are not whole. -/
def Kept (v u : Json) : Prop :=
  ∃ (w : Json) (f : Number → Number),
    w.sketch = v.sketch ∧ (∀ n : Number, n.Whole → f n = n) ∧ u = mapNumbers f w

theorem Kept.eq (h : Kept v w) (hv : EveryNumber Number.Whole v) : w = v := by
  obtain ⟨u, f, hu, hf, rfl⟩ := h
  rw [eq_of_sketch hu hv]
  exact mapNumbers_eq_self (hv.imp hf)

/-! ### Nesting -/

mutual
/-- How deep arrays and objects nest. -/
def depth : Json → Nat
  | array es => depthElements es + 1
  | object ms => depthMembers ms + 1
  | _ => 0

def depthElements : List Json → Nat
  | [] => 0
  | e :: es => max (depth e) (depthElements es)

def depthMembers : List (String × Json) → Nat
  | [] => 0
  | (_, v) :: ms => max (depth v) (depthMembers ms)
end

theorem depth_array_le : (array es).depth ≤ k + 1 ↔ ∀ e ∈ es, e.depth ≤ k := by
  change depthElements es + 1 ≤ k + 1 ↔ _
  rw [Nat.add_le_add_iff_right]
  induction es with
  | nil => simp [depthElements]
  | cons e es ih => simp only [depthElements, Nat.max_le, ih, List.forall_mem_cons]

theorem depth_object_le : (object ms).depth ≤ k + 1 ↔ ∀ m ∈ ms, m.2.depth ≤ k := by
  change depthMembers ms + 1 ≤ k + 1 ↔ _
  rw [Nat.add_le_add_iff_right]
  induction ms with
  | nil => simp [depthMembers]
  | cons m ms ih =>
    obtain ⟨l, v⟩ := m
    simp only [depthMembers, Nat.max_le, ih, List.forall_mem_cons]

theorem depth_mapNumbers_le : (mapNumbers f v).depth ≤ k ↔ v.depth ≤ k := by
  induction v using inductionOn generalizing k with
  | null | bool | number | string => rfl
  | array es ih =>
    rw [mapNumbers_array]
    cases k with
    | zero => exact iff_of_false (Nat.not_succ_le_zero _) (Nat.not_succ_le_zero _)
    | succ k =>
      rw [depth_array_le, depth_array_le, List.forall_mem_map]
      exact forall₂_congr fun e he => ih e he
  | object ms ih =>
    rw [mapNumbers_object]
    cases k with
    | zero => exact iff_of_false (Nat.not_succ_le_zero _) (Nat.not_succ_le_zero _)
    | succ k =>
      rw [depth_object_le, depth_object_le, List.forall_mem_map]
      exact forall₂_congr fun m hm => ih m hm

theorem depth_canonical_le (h : v.depth ≤ k) : v.canonical.depth ≤ k := by
  induction v using inductionOn generalizing k with
  | null | bool | number | string => exact h
  | array es ih =>
    cases k with
    | zero => exact absurd h (Nat.not_succ_le_zero _)
    | succ k =>
      rw [depth_array_le] at h
      rw [canonical_array, depth_array_le, List.forall_mem_map]
      exact fun e he => ih e he (h e he)
  | object ms ih =>
    cases k with
    | zero => exact absurd h (Nat.not_succ_le_zero _)
    | succ k =>
      rw [depth_object_le] at h
      rw [canonical_object, depth_object_le]
      intro m hm
      obtain ⟨n, hn, rfl⟩ := List.mem_map.1 (Entries.mem_of_mem_ofList hm)
      exact ih n hn (h n hn)

end MachineProvider.Json
