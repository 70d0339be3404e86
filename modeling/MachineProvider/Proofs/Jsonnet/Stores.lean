import MachineProvider.Proofs.Decimal.Integers
import MachineProvider.Proofs.Jsonnet.Documents
import MachineProvider.Proofs.Jsonnet.Runs

/-!
What the values of a document look like in a store: arrays and objects whose parts are still to be
evaluated, all of them in places and objects of their own.
-/
namespace MachineProvider

namespace Jsonnet

open Eval (place layer object fail)

variable {s t u : Store} {p p' q o o' : Nat → Prop} {v : Value} {w : Json} {frames n : Nat}
  {scope : Scope}

/-! ### What stays of a store -/

/-- A store has only grown, apart from places and objects that need not be kept. -/
structure Keeps (p o : Nat → Prop) (s t : Store) : Prop where
  place : ∀ i, p i → i < s.places.size → t.places[i]? = s.places[i]?
  object : ∀ i, o i → i < s.objects.size → t.objects[i]? = s.objects[i]?
  layer : ∀ i, i < s.layers.size → t.layers[i]? = s.layers[i]?
  places_le : s.places.size ≤ t.places.size
  objects_le : s.objects.size ≤ t.objects.size
  layers_le : s.layers.size ≤ t.layers.size

theorem Keeps.refl : Keeps p o s s where
  place _ _ _ := rfl
  object _ _ _ := rfl
  layer _ _ := rfl
  places_le := Nat.le_refl _
  objects_le := Nat.le_refl _
  layers_le := Nat.le_refl _

theorem Keeps.imp (h : Keeps p o s t) (hp : ∀ i, p' i → i < s.places.size → p i)
    (ho : ∀ i, o' i → i < s.objects.size → o i) : Keeps p' o' s t :=
  { h with
    place := fun i hi hlt => h.place i (hp i hi hlt) hlt
    object := fun i hi hlt => h.object i (ho i hi hlt) hlt }

/-- What comes later has to keep only what was there already. -/
theorem Keeps.comp (h : Keeps p o s t) (h' : Keeps p' o' t u)
    (hp : ∀ i, p i → i < s.places.size → p' i) (ho : ∀ i, o i → i < s.objects.size → o' i) :
    Keeps p o s u where
  place i hi hlt :=
    (h'.place i (hp i hi hlt) (Nat.lt_of_lt_of_le hlt h.places_le)).trans (h.place i hi hlt)
  object i hi hlt :=
    (h'.object i (ho i hi hlt) (Nat.lt_of_lt_of_le hlt h.objects_le)).trans (h.object i hi hlt)
  layer i hi := (h'.layer i (Nat.lt_of_lt_of_le hi h.layers_le)).trans (h.layer i hi)
  places_le := Nat.le_trans h.places_le h'.places_le
  objects_le := Nat.le_trans h.objects_le h'.objects_le
  layers_le := Nat.le_trans h.layers_le h'.layers_le

theorem Keeps.trans (h : Keeps p o s t) (h' : Keeps p o t u) : Keeps p o s u :=
  h.comp h' (fun _ hi _ => hi) fun _ hi _ => hi

/-- What is done to new places and objects only keeps all that there was. -/
theorem Keeps.above (h : Keeps p o s t) (h' : Keeps (· < s.places.size) (· < s.objects.size) t u) :
    Keeps p o s u :=
  h.comp h' (fun _ _ hi => hi) fun _ _ hi => hi

/-- Everything is kept. -/
abbrev Grows (s t : Store) : Prop := Keeps (fun _ => True) (fun _ => True) s t

theorem Grows.refl : Grows s s := Keeps.refl

theorem lt_size_of_getElem? {α : Type} {as : Array α} {i : Nat} {a : α} (h : as[i]? = some a) :
    i < as.size := (Array.getElem?_eq_some_iff.1 h).1

theorem place_run (s : Store) (frames : Nat) (c : Place) : ∃ t,
    place c frames s = .ok (s.places.size, t) ∧ Grows s t ∧ t.places[s.places.size]? = some c ∧
      t.places.size = s.places.size + 1 := by
  refine ⟨{ s with places := s.places.push c }, rfl, ?_, Array.getElem?_push_size,
    Array.size_push _⟩
  exact { Grows.refl with
    place := fun i _ hi => Array.getElem?_push_lt hi |>.trans (Array.getElem?_eq_getElem hi).symm
    places_le := by simp }

theorem layer_run (s : Store) (frames : Nat) (l : Layer) : ∃ t,
    layer l frames s = .ok (s.layers.size, t) ∧ Grows s t ∧ t.layers[s.layers.size]? = some l := by
  refine ⟨{ s with layers := s.layers.push l }, rfl, ?_, Array.getElem?_push_size⟩
  exact { Grows.refl with
    layer := fun i hi => Array.getElem?_push_lt hi |>.trans (Array.getElem?_eq_getElem hi).symm
    layers_le := by simp }

theorem object_run (s : Store) (frames : Nat) (c : Object) : ∃ t,
    object c frames s = .ok (s.objects.size, t) ∧ Grows s t ∧
      t.objects[s.objects.size]? = some c := by
  refine ⟨{ s with objects := s.objects.push c }, rfl, ?_, Array.getElem?_push_size⟩
  exact { Grows.refl with
    object := fun i _ hi => Array.getElem?_push_lt hi |>.trans (Array.getElem?_eq_getElem hi).symm
    objects_le := by simp }

theorem setPlace_keeps (id : PlaceId) (c : Place) :
    Keeps (· ≠ id) (fun _ => True) s { s with places := s.places.setIfInBounds id c } :=
  { Keeps.refl (p := (· ≠ id)) (o := fun _ => True) with
    place := fun i hi _ => Array.getElem?_setIfInBounds_ne (Ne.symm hi)
    places_le := by simp }

theorem modifyObject_keeps (id : ObjectId) (f : Object → Object) :
    Keeps (fun _ => True) (· ≠ id) s { s with objects := s.objects.modify id f } :=
  { Keeps.refl (p := fun _ => True) (o := (· ≠ id)) with
    object := fun i hi _ => by
      rw [Array.getElem?_modify, if_neg (Ne.symm hi)]
    objects_le := by simp }

/-! ### Values of documents -/

/-- A member as a field that is evaluated in a scope. -/
def fieldOf (scope : Scope) (m : String × Json) : String × Field :=
  (m.1, { value := .member scope [] (.ofJson m.2) })

def layerOf (scope : Scope) (ms : List (String × Json)) : Layer :=
  { fields := (ms.map (fieldOf scope)).reverse, scope }

/-- A value stands for a document; its places and objects are not below the given ones. -/
inductive Pending (s : Store) (place object : Nat) : Value → Json → Prop where
  | null : Pending s place object .null .null
  | bool (b : Bool) : Pending s place object (.bool b) (.bool b)
  | number (n : Json.Number) : Pending s place object (.number n.value) (.number n)
  | text (s' : String) : Pending s place object (.text s') (.string s')
  | array (es : List Json) (scope : Scope) (first : PlaceId) (hfirst : place ≤ first)
      (hplaces : ∀ e ∈ es.zipIdx first, s.places[e.2]? = some (.delayed scope (.ofJson e.1))) :
      Pending s place object (.array ((es.zipIdx first).map (·.2))) (.array es)
  | object (ms : List (String × Json)) (scope : Scope) (id : ObjectId) (layer : LayerId)
      (hid : object ≤ id) (hobject : s.objects[id]? = some { layers := [layer] })
      (hlayer : s.layers[layer]? = some (layerOf scope ms)) :
      Pending s place object (.object id) (.object ms)

theorem Pending.keeps {place object : Nat} (h : Pending s place object v w)
    (hkeeps : Keeps (place ≤ ·) (object ≤ ·) s t) : Pending t place object v w := by
  cases h with
  | null => exact .null
  | bool b => exact .bool b
  | number n => exact .number n
  | text s' => exact .text s'
  | array es scope first hfirst hplaces =>
    refine .array es scope first hfirst fun e he => ?_
    have hle : place ≤ e.2 := Nat.le_trans hfirst (List.le_snd_of_mem_zipIdx he)
    rw [hkeeps.place _ hle (lt_size_of_getElem? (hplaces e he))]
    exact hplaces e he
  | object ms scope id layer hid hobject hlayer =>
    refine .object ms scope id layer hid ?_ ?_
    · rw [hkeeps.object _ hid (lt_size_of_getElem? hobject)]
      exact hobject
    · rw [hkeeps.layer _ (lt_size_of_getElem? hlayer)]
      exact hlayer

/-! ### Evaluation -/

theorem evaluate_number {n : Nat} {d : Double} :
    Runs (d.isFinite = true) ((interpreter (n + 1)).evaluate scope (.number d)) frames s
      fun v t => v = .number d ∧ t = s := by
  change Runs _ (if d.isFinite then (pure (.number d) : Eval Value) else fail) frames s _
  by_cases hd : d.isFinite = true
  · rw [if_pos hd]
    exact .pure ⟨rfl, rfl⟩
  · rw [if_neg hd]
    exact .inr ⟨hd, rfl⟩

theorem evaluate_signed {n : Nat} (negative : Bool) (d : Double) :
    Runs (d.isFinite = true)
      ((interpreter (n + 2)).evaluate scope (Expr.ofNumber.signed negative d))
      frames s fun v t => v = .number (if negative then d.negate else d) ∧ t = s := by
  cases negative with
  | false => exact evaluate_number
  | true =>
    change Runs _ ((interpreter (n + 1)).evaluate scope (.number d) >>=
      fun v => Interpreter.unaryValue .minus v) frames s _
    refine evaluate_number.bind fun v t h => ?_
    obtain ⟨rfl, rfl⟩ := h
    exact .pure ⟨rfl, rfl⟩

theorem evaluate_ofNumber {n : Nat} (m : Json.Number) :
    Runs (m.value.isFinite = true) ((interpreter (n + 2)).evaluate scope (.ofNumber m)) frames s
      fun v t => v = .number m.value ∧ t = s := by
  have hfinite : ∀ d : Double, d.negate.isFinite = d.isFinite := fun d =>
    congrArg (fun b => decide (b < 2047)) d.biased_negate
  cases m with
  | integer i =>
    refine (evaluate_signed (decide (i < 0)) (.ofNat i.natAbs)).imp ?_ ?_
    · intro h
      change (Double.ofInt i).isFinite = true at h
      unfold Double.ofInt at h
      split at h
      · rwa [hfinite] at h
      · exact h
    · rintro v t ⟨rfl, rfl⟩
      refine ⟨?_, rfl⟩
      change _ = Value.number (Double.ofInt i)
      simp only [Double.ofInt, decide_eq_true_eq]
  | double d =>
    change Runs (d.isFinite = true) ((interpreter (n + 2)).evaluate scope
      (if d.isNegative then Expr.ofNumber.signed true d.negate else .number d)) frames s _
    split
    · refine (evaluate_signed true d.negate).imp (fun h => ?_) fun v t h => ?_
      · rwa [hfinite]
      · obtain ⟨rfl, rfl⟩ := h
        rw [if_pos rfl, d.negate_negate]
        exact ⟨rfl, rfl⟩
    · exact evaluate_number

theorem evaluate_elements (frames : Nat) (scope : Scope) (es : List Json) : ∀ s : Store, ∃ t,
    (es.map Expr.ofJson).mapM (fun e => place (.delayed scope e)) frames s =
        .ok ((es.zipIdx s.places.size).map (·.2), t) ∧ Grows s t ∧
      ∀ e ∈ es.zipIdx s.places.size, t.places[e.2]? = some (.delayed scope (.ofJson e.1)) := by
  induction es with
  | nil => exact fun s => ⟨s, rfl, .refl, nofun⟩
  | cons e es ih =>
    intro s
    obtain ⟨t, hplace, hgrows, hnew, hsize⟩ :=
      place_run s frames (.delayed scope (.ofJson e))
    obtain ⟨u, hrest, hgrows', hnews⟩ := ih t
    refine ⟨u, ?_, hgrows.trans hgrows', ?_⟩
    · rw [List.map_cons, List.mapM_cons]
      refine (Eval.bind_ok hplace).trans ((Eval.bind_ok hrest).trans ?_)
      rw [hsize]
      rfl
    · rw [List.zipIdx_cons, List.forall_mem_cons, ← hsize]
      refine ⟨?_, hnews⟩
      rw [hgrows'.place _ trivial (lt_size_of_getElem? hnew)]
      exact hnew

theorem evaluate_members {n : Nat} (ms : List (String × Json)) :
    (ms.map memberOf).mapM ((interpreter n).memberField scope []) frames s =
      .ok (ms.map fun m => some (fieldOf scope m), s) := by
  induction ms with
  | nil => rfl
  | cons m ms ih =>
    have hfirst : (interpreter n).memberField scope [] (memberOf m) frames s =
        .ok (some (fieldOf scope m), s) := rfl
    rw [List.map_cons, List.mapM_cons]
    exact (Eval.bind_ok hfirst).trans ((Eval.bind_ok ih).trans rfl)

theorem evaluate_object {n : Nat} (s : Store) (frames : Nat) (scope : Scope)
    (ms : List (String × Json)) : ∃ id t,
    (interpreter n).objectOf scope (.members (ms.map memberOf)) frames s = .ok (id, t) ∧
      Pending t s.places.size s.objects.size (.object id) (.object ms) ∧ Grows s t := by
  have hbinds : Interpreter.memberBinds (ms.map memberOf) = [] :=
    List.filterMap_eq_nil_iff.2 fun m hm => by
      obtain ⟨m, -, rfl⟩ := List.mem_map.1 hm
      rfl
  have hassertions : Interpreter.memberAssertions (ms.map memberOf) = [] :=
    List.filterMap_eq_nil_iff.2 fun m hm => by
      obtain ⟨m, -, rfl⟩ := List.mem_map.1 hm
      rfl
  have hfields : (ms.map fun m => some (fieldOf scope m)).filterMap id =
      ms.map (fieldOf scope) := by
    rw [List.filterMap_map]
    exact congrFun List.filterMap_eq_map ms
  obtain ⟨t, hlayer, hgrows, hnew⟩ := layer_run s frames (layerOf scope ms)
  obtain ⟨u, hobject, hgrows', hnew'⟩ := object_run t frames { layers := [s.layers.size] }
  refine ⟨t.objects.size, u, ?_, .object ms scope _ _ hgrows.objects_le hnew' ?_,
    hgrows.trans hgrows'⟩
  · unfold Interpreter.objectOf
    dsimp only
    rw [hbinds, hassertions]
    refine (Eval.bind_ok (evaluate_members ms)).trans ?_
    rw [hfields]
    exact (Eval.bind_ok hlayer).trans hobject
  · rw [hgrows'.layer _ (lt_size_of_getElem? hnew)]
    exact hnew

/-- Evaluating a document lays out its parts and fails only on a number. -/
theorem evaluate_ofJson {n : Nat} (w : Json) :
    Runs w.canonical.Finite ((interpreter (n + 2)).evaluate scope (.ofJson w)) frames s
      fun v t => Pending t s.places.size s.objects.size v w ∧ Grows s t := by
  cases w with
  | null => exact .of_ok rfl ⟨.null, .refl⟩
  | bool b => exact .of_ok rfl ⟨.bool b, .refl⟩
  | number m =>
    refine (evaluate_ofNumber m).imp (fun h => h) fun v t h => ?_
    obtain ⟨rfl, rfl⟩ := h
    exact ⟨.number m, .refl⟩
  | string s' => exact .of_ok rfl ⟨.text s', .refl⟩
  | array es =>
    obtain ⟨t, hrun, hgrows, hplaces⟩ := evaluate_elements frames scope es s
    rw [← elementsOfJson_eq] at hrun
    exact .of_ok ((Eval.bind_ok hrun).trans rfl) ⟨.array es scope _ (Nat.le_refl _) hplaces, hgrows⟩
  | object ms =>
    obtain ⟨id, t, hrun, hpending, hgrows⟩ :=
      evaluate_object (n := n + 1) s frames scope ms
    rw [← membersOfJson_eq] at hrun
    exact .of_ok ((Eval.bind_ok hrun).trans rfl) ⟨hpending, hgrows⟩

end Jsonnet

end MachineProvider
