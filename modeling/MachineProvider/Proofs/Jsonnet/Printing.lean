import MachineProvider.Proofs.Jsonnet.Stores

/-!
How the value of a document is printed: its parts are evaluated as they are reached, each in the
store that the parts before it left behind, and the text is that of the canonical document.
-/
namespace MachineProvider.Jsonnet

open Eval (framed)

variable {s t u : Store} {frames d n k : Nat} {scope : Scope} {v : Value} {w : Json}

/-! ### The printed text -/

mutual
/-- A document on one line, its numbers written as doubles. -/
def inlineText : Json → String
  | .null => "null"
  | .bool b => if b then "true" else "false"
  | .number n => n.value.plainText
  | .string s => quoted s
  | .array es => Layout.inline.enclose "" "[" "]" (inlineElements es)
  | .object ms => Layout.inline.enclose "" "\x7b" "\x7d" (inlineMembers ms)

def inlineElements : List Json → List String
  | [] => []
  | e :: es => inlineText e :: inlineElements es

def inlineMembers : List (String × Json) → List String
  | [] => []
  | (k, v) :: ms => (quoted k ++ ": " ++ inlineText v) :: inlineMembers ms
end

theorem inlineText_array (es : List Json) :
    inlineText (.array es) = Layout.inline.enclose "" "[" "]" (es.map inlineText) := by
  have h : inlineElements es = es.map inlineText := by
    induction es with
    | nil => rfl
    | cons e es ih => rw [inlineElements, ih, List.map_cons]
  rw [← h, inlineText]

/-- A member on one line. -/
def inlineMember (m : String × Json) : String := quoted m.1 ++ ": " ++ inlineText m.2

theorem inlineText_object (ms : List (String × Json)) :
    inlineText (.object ms) = Layout.inline.enclose "" "\x7b" "\x7d" (ms.map inlineMember) := by
  have h : inlineMembers ms = ms.map inlineMember := by
    induction ms with
    | nil => rfl
    | cons m ms ih =>
      obtain ⟨k, v⟩ := m
      rw [inlineMembers, ih, List.map_cons]
      rfl
  rw [← h, inlineText]

/-! ### Elements -/

/-- A place of its own is evaluated on first use. -/
theorem force_run {id : PlaceId} (h : s.places[id]? = some (.delayed scope (.ofJson w))) :
    Runs w.canonical.Finite ((interpreter (n + 2)).force id) frames s fun v t =>
      Pending t s.places.size s.objects.size v w ∧ Keeps (· ≠ id) (fun _ => True) s t := by
  have hget : (get : Eval Store) frames s = .ok (s, s) := rfl
  unfold Interpreter.force
  refine .bind_ok hget ?_
  rw [h]
  dsimp only
  have hrunning := setPlace_keeps (s := s) id .running
  refine .bind_ok (t := { s with places := s.places.setIfInBounds id .running }) rfl ?_
  refine (evaluate_ofJson w).bind fun v t hv => ?_
  obtain ⟨hpending, hgrows⟩ := hv
  have hsize : (s.places.setIfInBounds id .running).size = s.places.size :=
    Array.size_setIfInBounds ..
  rw [hsize] at hpending
  have hset := setPlace_keeps (s := t) id (.value v)
  refine .bind_ok (t := { t with places := t.places.setIfInBounds id (.value v) }) rfl
    (.pure ⟨?_, ?_⟩)
  · refine hpending.keeps (hset.imp (fun i hi _ => ?_) fun _ _ _ => trivial)
    exact Nat.ne_of_gt (Nat.lt_of_lt_of_le (lt_size_of_getElem? h) hi)
  · exact (hrunning.comp hgrows (fun _ _ _ => trivial) fun _ _ _ => trivial).trans hset

/-- The value of a document is printed as the canonical document, when calls may nest as deep as
it does. -/
def Printed (w : Json) : Prop :=
  ∀ {d k frames : Nat} {s : Store} {v : Value} {place object : Nat}, w.depth ≤ k →
    frames + k ≤ Eval.maxFrames + 1 → Pending s place object v w → place ≤ s.places.size →
    object ≤ s.objects.size →
    Runs w.canonical.Finite ((interpreter (d + k + 3)).print .inline "" v) frames s fun text t =>
      text = inlineText w.canonical ∧ Keeps (· < place) (· < object) s t

theorem element_run {id : PlaceId} (h : s.places[id]? = some (.delayed scope (.ofJson w)))
    (hw : Printed w) (hk : w.depth ≤ k) (hframes : frames + k ≤ Eval.maxFrames + 1) :
    Runs w.canonical.Finite
      (do (interpreter (d + k + 3)).print .inline "" (← (interpreter (d + k + 3)).force id))
      frames s
      fun text t => text = inlineText w.canonical ∧ Keeps (· ≠ id) (fun _ => True) s t := by
  refine (force_run (n := d + k + 1) h).bind fun v t hv => ?_
  obtain ⟨hpending, hkeeps⟩ := hv
  refine (hw hk hframes hpending hkeeps.places_le hkeeps.objects_le).imp (fun h => h)
    fun text u hu => ?_
  exact ⟨hu.1, hkeeps.above hu.2⟩

/-- The elements of a document that are not printed yet, each in a place of its own; what stood in
the store before is kept. -/
structure ElementsLeft (scope : Scope) (place object : Nat) (ds : List Json) (s : Store)
    (es : List (Json × PlaceId)) (t : Store) : Prop where
  mem : ∀ e ∈ es, e.1 ∈ ds
  delayed : ∀ e ∈ es, t.places[e.2]? = some (.delayed scope (.ofJson e.1))
  above : ∀ e ∈ es, place ≤ e.2
  nodup : (es.map (·.2)).Nodup
  keeps : Keeps (· < place) (· < object) s t

theorem ElementsLeft.step {place object : Nat} {ds : List Json} {e : Json × PlaceId}
    {es : List (Json × PlaceId)} (h : ElementsLeft scope place object ds s (e :: es) t)
    (hkeeps : Keeps (· ≠ e.2) (fun _ => True) t u) : ElementsLeft scope place object ds s es u where
  mem f hf := h.mem f (List.mem_cons_of_mem _ hf)
  delayed f hf := by
    have hdelayed := h.delayed f (List.mem_cons_of_mem _ hf)
    have hne : f.2 ≠ e.2 := fun heq =>
      (List.nodup_cons.1 h.nodup).1 (List.mem_map.2 ⟨f, hf, heq⟩)
    rw [hkeeps.place _ hne (lt_size_of_getElem? hdelayed)]
    exact hdelayed
  above f hf := h.above f (List.mem_cons_of_mem _ hf)
  nodup := (List.nodup_cons.1 h.nodup).2
  keeps := by
    refine h.keeps.comp hkeeps (fun i hi _ => ?_) fun _ _ _ => trivial
    exact Nat.ne_of_lt (Nat.lt_of_lt_of_le hi (h.above e List.mem_cons_self))

theorem finite_array {es : List Json} (h : (Json.array es).canonical.Finite) :
    ∀ e ∈ es, e.canonical.Finite := by
  rw [Json.canonical_array, Json.Finite, Json.everyNumber_array, List.forall_mem_map] at h
  exact h

theorem printed_array {es : List Json} (ih : ∀ e ∈ es, Printed e) : Printed (.array es) := by
  intro d k frames s v place object hk hframes hpending hplace hobject
  cases hpending with
  | array es scope first hfirst hplaces =>
    cases k with
    | zero => exact absurd hk (Nat.not_succ_le_zero _)
    | succ k =>
      rw [Json.depth_array_le] at hk
      -- A round prints one element in a store that has changed since the array was laid out.
      have hround : ∀ e is t, ElementsLeft scope place object es s (e :: is) t →
          Runs (Json.array es).canonical.Finite
            (do (interpreter (d + k + 3)).print .inline "" (← (interpreter (d + k + 3)).force e.2))
            frames t
            fun text u => text = inlineText e.1.canonical ∧
              ElementsLeft scope place object es s is u := by
        intro e is t hleft
        have he := hleft.mem e List.mem_cons_self
        refine (element_run (hleft.delayed e List.mem_cons_self) (ih e.1 he) (hk e.1 he)
          (by omega)).imp (fun hfit => finite_array hfit e.1 he)
          fun text u hu => ⟨hu.1, hleft.step hu.2⟩
      have hstart : ElementsLeft scope place object es s (es.zipIdx first) s := by
        refine ⟨fun e he => List.fst_mem_of_mem_zipIdx he, hplaces, fun e he => ?_, ?_, .refl⟩
        · exact Nat.le_trans hfirst (List.le_snd_of_mem_zipIdx he)
        · rw [List.zipIdx_map_snd]
          exact List.nodup_range'
      have hloop : Runs (Json.array es).canonical.Finite
          (((es.zipIdx first).map (·.2)).mapM fun id => do
            (interpreter (d + k + 3)).print .inline ""
              (← (interpreter (d + k + 3)).force id)) frames s
          fun texts t => texts = (es.zipIdx first).map (fun e => inlineText e.1.canonical) ∧
            ElementsLeft scope place object es s [] t :=
        Runs.mapM (I := ElementsLeft scope place object es s) hround _ s hstart
      have htexts : (es.zipIdx first).map (fun e => inlineText e.1.canonical) =
          (es.map Json.canonical).map inlineText := by
        have := congrArg (List.map fun e => inlineText e.canonical) (List.zipIdx_map_fst first es)
        rw [List.map_map] at this
        rw [List.map_map]
        exact this
      refine hloop.bind fun texts t ht => ?_
      obtain ⟨rfl, hleft⟩ := ht
      refine .pure ⟨?_, hleft.keeps⟩
      rw [Json.canonical_array, inlineText_array, htexts]

/-! ### Fields -/

/-- Of members with one name the last is the field. -/
theorem field_of_mem {ms : List (String × Json)} {m : String × Json} (h : m ∈ Entries.ofList ms) :
    (layerOf scope ms).field? m.1 = some { value := .member scope [] (.ofJson m.2) } := by
  have hfind : Entries.find? m.1 ms.reverse = some m.2 := by
    rw [← Entries.find?_ofList]
    exact Entries.find?_of_mem (Entries.ordered_ofList ms).nodup h
  have hmap : Entries.find? m.1 (ms.reverse.map (fieldOf scope)) =
      (Entries.find? m.1 ms.reverse).map fun v => { value := .member scope [] (.ofJson v) } :=
    Entries.find?_map fun v => ({ value := .member scope [] (.ofJson v) } : Field)
  rw [hfind, List.map_reverse] at hmap
  exact (Entries.lookup_eq_find? _ _).trans hmap

theorem ofList_reverse_unit (ps : List (String × Unit)) :
    Entries.ofList ps.reverse = Entries.ofList ps := by
  refine (Entries.ordered_ofList _).ext (Entries.ordered_ofList _) fun k => ?_
  rw [Entries.find?_ofList, Entries.find?_ofList, List.reverse_reverse]
  cases h : Entries.find? k ps.reverse with
  | none =>
    rw [Entries.find?_eq_none] at h ⊢
    exact fun e he => h e (List.mem_reverse.2 he)
  | some u =>
    cases h' : Entries.find? k ps with
    | none =>
      rw [Entries.find?_eq_none] at h'
      exact absurd rfl (h' _ (List.mem_reverse.1 (Entries.mem_of_find? h)))
    | some u' => rfl

/-- The names of an object's fields are those of its members, each once and in order. -/
theorem fieldNames_eq (ms : List (String × Json)) :
    fieldNames [layerOf scope ms] false = (Entries.ofList ms).map (·.1) := by
  have hkeys : Entries.keys (Entries.ofList (ms.map (fieldOf scope)).reverse) =
      (Entries.ofList ms).map (·.1) := by
    have hunit : ∀ {α : Type} (ps : List (String × α)), (Entries.ofList ps).map (·.1) =
        (Entries.ofList (ps.map fun p => (p.1, ()))).map (·.1) := by
      intro α ps
      rw [← Entries.ofList_map (fun _ => ()), List.map_map]
      rfl
    rw [Entries.keys, hunit, List.map_reverse, ofList_reverse_unit, List.map_map, hunit ms]
    rfl
  have hshown : ∀ name ∈ (Entries.ofList ms).map (·.1),
      (false || (shows? name [layerOf scope ms]).getD false) = true := by
    intro name hname
    obtain ⟨m, hm, rfl⟩ := List.mem_map.1 hname
    unfold shows?
    rw [field_of_mem hm]
    rfl
  have hfields : [layerOf scope ms].flatMap (·.fields) = (ms.map (fieldOf scope)).reverse :=
    List.append_nil _
  unfold fieldNames
  dsimp only
  rw [hfields, hkeys]
  exact List.filter_eq_self.2 hshown

/-! ### Objects -/

theorem objectAt_run {id : ObjectId} {o : Object} (h : s.objects[id]? = some o) :
    Eval.objectAt id frames s = .ok (o, s) := by
  change Except.ok (s.objects.getD id default, s) = _
  rw [Array.getD_eq_getD_getElem?, h, Option.getD_some]

theorem layerAt_run {id : LayerId} {l : Layer} (h : s.layers[id]? = some l) :
    Eval.layerAt id frames s = .ok (l, s) := by
  change Except.ok (s.layers.getD id default, s) = _
  rw [Array.getD_eq_getD_getElem?, h, Option.getD_some]

variable {ms : List (String × Json)} {id : ObjectId} {lid : LayerId} {o : Object}

/-- An object without assertions passes its check, and is checked from then on. -/
theorem check_run (n frames : Nat) (h : s.objects[id]? = some { layers := [lid] })
    (hlayer : s.layers[lid]? = some (layerOf scope ms)) : ∃ t,
    (interpreter n).check id frames s = .ok ((), t) ∧
      Keeps (fun _ => True) (· ≠ id) s t ∧
      t.objects[id]? = some { layers := [lid], checked := true } := by
  have hkeeps := modifyObject_keeps (s := s) id ({ · with checked := true })
  refine ⟨{ s with objects := s.objects.modify id ({ · with checked := true }) }, ?_, hkeeps, ?_⟩
  · have hlayer' := (hkeeps.layer _ (lt_size_of_getElem? hlayer)).trans hlayer
    refine (Eval.bind_ok (objectAt_run h)).trans ((Eval.bind_ok rfl).trans ?_)
    exact (Eval.bind_ok (layerAt_run hlayer')).trans rfl
  · rw [Array.getElem?_modify, if_pos rfl, h]
    rfl

theorem check_done (h : s.objects[id]? = some o) (hchecked : o.checked = true) :
    (interpreter n).check id frames s = .ok ((), s) := by
  refine (Eval.bind_ok (objectAt_run h)).trans ?_
  rw [if_pos hchecked]
  rfl

theorem shownFields_run (h : s.objects[id]? = some o) (ho : o.layers = [lid])
    (hlayer : s.layers[lid]? = some (layerOf scope ms)) :
    Interpreter.shownFields id frames s = .ok ((Entries.ofList ms).map (·.1), s) := by
  have hlayers : Eval.layersOf id frames s = .ok ([layerOf scope ms], s) := by
    refine (Eval.bind_ok (objectAt_run h)).trans ?_
    rw [ho, List.mapM_cons]
    exact (Eval.bind_ok (layerAt_run hlayer)).trans rfl
  refine (Eval.bind_ok hlayers).trans ?_
  rw [fieldNames_eq]
  rfl

/-- A field of an object that is checked already, asked for the first time. -/
theorem field_run {m : String × Json} {known : List (String × Option Value)}
    (h : s.objects[id]? = some { layers := [lid], checked := true, known })
    (hlayer : s.layers[lid]? = some (layerOf scope ms)) (hm : m ∈ Entries.ofList ms)
    (hknown : known.lookup m.1 = none) :
    Runs m.2.canonical.Finite ((interpreter (n + 2)).field id m.1) frames s fun v t =>
      Pending t s.places.size s.objects.size v m.2 ∧ Keeps (fun _ => True) (· ≠ id) s t ∧
        t.objects[id]? =
          some { layers := [lid], checked := true, known := (m.1, some v) :: known } := by
  have hvalue : Runs m.2.canonical.Finite ((interpreter (n + 2)).stackedField id m.1 [lid]) frames s
      fun v t => ∃ v', v = some v' ∧ Pending t s.places.size s.objects.size v' m.2 ∧ Grows s t := by
    refine .bind_ok (layerAt_run hlayer) ?_
    rw [field_of_mem hm]
    have hinside : ∃ inner, (interpreter (n + 2)).fieldValue id [] (.member scope [] (.ofJson m.2))
        frames s = (interpreter (n + 2)).evaluate inner (.ofJson m.2) frames s := ⟨_, rfl⟩
    obtain ⟨inner, hinner⟩ := hinside
    refine (Runs.congr hinner (evaluate_ofJson m.2)).bind fun v t ht => .pure ⟨v, rfl, ht⟩
  have hfield : Runs m.2.canonical.Finite ((interpreter (n + 2)).field? id m.1) frames s
      fun v t => ∃ v', v = some v' ∧ Pending t s.places.size s.objects.size v' m.2 ∧
        Keeps (fun _ => True) (· ≠ id) s t ∧ t.objects[id]? =
          some { layers := [lid], checked := true, known := (m.1, some v') :: known } := by
    refine .bind_ok (check_done h rfl) (.bind_ok (objectAt_run h) ?_)
    dsimp only
    rw [hknown]
    refine hvalue.bind fun v t ht => ?_
    obtain ⟨v, rfl, hpending, hgrows⟩ := ht
    have hkeeps := modifyObject_keeps (s := t) id fun o =>
      { o with known := (m.1, some v) :: o.known }
    have hid := lt_size_of_getElem? h
    refine .bind_ok rfl (.pure ⟨v, rfl, ?_, ?_, ?_⟩)
    · refine hpending.keeps (hkeeps.imp (fun _ _ _ => trivial) fun i hi _ => ?_)
      exact Nat.ne_of_gt (Nat.lt_of_lt_of_le hid hi)
    · exact (hgrows.imp (fun _ _ _ => trivial) fun _ _ _ => trivial).trans hkeeps
    · rw [Array.getElem?_modify, if_pos rfl, hgrows.object _ trivial hid, h]
      rfl
  refine hfield.bind fun v t ht => ?_
  obtain ⟨v, rfl, hrest⟩ := ht
  exact .pure hrest

/-- One member of an object on its line. -/
def printMember (i : Interpreter) (id : ObjectId) (name : String) : Eval String := framed do
  return quoted name ++ ": " ++ (← i.print .inline "" (← i.field id name))

theorem member_run {m : String × Json} {known : List (String × Option Value)}
    (h : s.objects[id]? = some { layers := [lid], checked := true, known })
    (hlayer : s.layers[lid]? = some (layerOf scope ms)) (hm : m ∈ Entries.ofList ms)
    (hknown : known.lookup m.1 = none) (hw : Printed m.2) (hk : m.2.depth ≤ k)
    (hframes : frames + (k + 1) ≤ Eval.maxFrames + 1) :
    Runs m.2.canonical.Finite (printMember (interpreter (d + k + 3)) id m.1) frames s fun text t =>
      text = quoted m.1 ++ ": " ++ inlineText m.2.canonical ∧
        Keeps (fun _ => True) (· ≠ id) s t ∧ ∃ v, t.objects[id]? =
          some { layers := [lid], checked := true, known := (m.1, v) :: known } := by
  refine .framed (by omega) ((field_run (n := d + k + 1) h hlayer hm hknown).bind fun v t ht => ?_)
  obtain ⟨hpending, hkeeps, hobject⟩ := ht
  refine (hw hk (by omega) hpending hkeeps.places_le hkeeps.objects_le).bind fun text u hu => ?_
  obtain ⟨rfl, hkeeps'⟩ := hu
  refine .pure ⟨rfl, hkeeps.above hkeeps', some v, ?_⟩
  rw [hkeeps'.object _ (lt_size_of_getElem? h) (lt_size_of_getElem? hobject)]
  exact hobject

/-- The members of an object that are not printed yet: the object knows none of them. -/
structure MembersLeft (scope : Scope) (place object : Nat) (ms : List (String × Json))
    (id : ObjectId) (lid : LayerId) (s : Store) (es : List (String × Json)) (t : Store) : Prop where
  mem : ∀ e ∈ es, e ∈ Entries.ofList ms
  nodup : (es.map (·.1)).Nodup
  layer : t.layers[lid]? = some (layerOf scope ms)
  unknown : ∃ known, t.objects[id]? = some { layers := [lid], checked := true, known } ∧
    ∀ e ∈ es, known.lookup e.1 = none
  keeps : Keeps (· < place) (· < object) s t

theorem MembersLeft.step {place object : Nat} {m : String × Json} {es : List (String × Json)}
    {known : List (String × Option Value)} {v : Option Value}
    (h : MembersLeft scope place object ms id lid s (m :: es) t) (hid : object ≤ id)
    (hknown : ∀ e ∈ m :: es, known.lookup e.1 = none)
    (hkeeps : Keeps (fun _ => True) (· ≠ id) t u)
    (hobject : u.objects[id]? =
      some { layers := [lid], checked := true, known := (m.1, v) :: known }) :
    MembersLeft scope place object ms id lid s es u where
  mem e he := h.mem e (List.mem_cons_of_mem _ he)
  nodup := (List.nodup_cons.1 h.nodup).2
  layer := (hkeeps.layer _ (lt_size_of_getElem? h.layer)).trans h.layer
  unknown := by
    refine ⟨_, hobject, fun e he => ?_⟩
    have hne : e.1 ≠ m.1 := fun heq => (List.nodup_cons.1 h.nodup).1 (List.mem_map.2 ⟨e, he, heq⟩)
    rw [List.lookup_cons, beq_eq_false_iff_ne.2 hne]
    exact hknown e (List.mem_cons_of_mem _ he)
  keeps := by
    refine h.keeps.comp hkeeps (fun _ _ _ => trivial) fun i hi _ => ?_
    exact Nat.ne_of_lt (Nat.lt_of_lt_of_le hi hid)

theorem finite_object (h : (Json.object ms).canonical.Finite) :
    ∀ m ∈ Entries.ofList ms, m.2.canonical.Finite := by
  rw [Json.canonical_object, Json.Finite, Json.everyNumber_object, ← Entries.ofList_map,
    List.forall_mem_map] at h
  exact h

theorem printed_object (ih : ∀ m ∈ ms, Printed m.2) : Printed (.object ms) := by
  intro d k frames s v place object hk hframes hpending hplace hobject
  cases hpending with
  | object ms scope id lid hid hobj hlayer =>
    cases k with
    | zero => exact absurd hk (Nat.not_succ_le_zero _)
    | succ k =>
      rw [Json.depth_object_le] at hk
      have hcheck := check_run (d + k + 3) frames hobj hlayer
      obtain ⟨t, hcheck, hkeeps, hchecked⟩ := hcheck
      have hlayer' := (hkeeps.layer _ (lt_size_of_getElem? hlayer)).trans hlayer
      -- Names are distinct, so that no field is known before its round.
      have hround : ∀ e is u, MembersLeft scope place object ms id lid s (e :: is) u →
          Runs (Json.object ms).canonical.Finite
            (printMember (interpreter (d + k + 3)) id e.1) frames u
            fun text u' => text = quoted e.1 ++ ": " ++ inlineText e.2.canonical ∧
              MembersLeft scope place object ms id lid s is u' := by
        intro e is u hleft
        have he := hleft.mem e List.mem_cons_self
        have hmem := Entries.mem_of_mem_ofList he
        obtain ⟨known, hknown, hnone⟩ := hleft.unknown
        refine (member_run hknown hleft.layer he (hnone e List.mem_cons_self)
          (ih e hmem) (hk e hmem) (by omega)).imp
          (fun hfit => finite_object hfit e he) fun text u' hu => ?_
        obtain ⟨htext, hkeeps, v, hv⟩ := hu
        exact ⟨htext, hleft.step hid hnone hkeeps hv⟩
      have hstart : MembersLeft scope place object ms id lid s (Entries.ofList ms) t := by
        refine ⟨fun e he => he, (Entries.ordered_ofList ms).nodup, hlayer',
          ⟨[], hchecked, fun _ _ => rfl⟩,
          hkeeps.imp (fun _ _ _ => trivial) fun i hi _ => ?_⟩
        exact Nat.ne_of_lt (Nat.lt_of_lt_of_le hi hid)
      have hloop : Runs (Json.object ms).canonical.Finite
          (((Entries.ofList ms).map (·.1)).mapM (printMember (interpreter (d + k + 3)) id)) frames t
          fun texts u => texts = (Entries.ofList ms).map (fun e =>
            quoted e.1 ++ ": " ++ inlineText e.2.canonical) ∧
              MembersLeft scope place object ms id lid s [] u :=
        Runs.mapM (I := MembersLeft scope place object ms id lid s) hround _ t hstart
      have hprint : Runs (Json.object ms).canonical.Finite
          (do
            let names ← Interpreter.shownFields id
            let fields ← names.mapM (printMember (interpreter (d + k + 3)) id)
            return Layout.inline.enclose "" "\x7b" "\x7d" fields) frames t
          fun text u => text = inlineText (Json.object ms).canonical ∧
            Keeps (· < place) (· < object) s u := by
        refine .bind_ok (shownFields_run hchecked rfl hlayer') (hloop.bind fun texts u hu => ?_)
        obtain ⟨rfl, hleft⟩ := hu
        refine .pure ⟨?_, hleft.keeps⟩
        rw [Json.canonical_object, inlineText_object, ← Entries.ofList_map, List.map_map]
        rfl
      exact .bind_ok hcheck hprint

/-- Every document is printed as its canonical form. -/
theorem printed (w : Json) : Printed w := by
  induction w using Json.inductionOn with
  | null =>
    intro d k frames s v place object _ _ hpending _ _
    cases hpending
    exact .of_ok rfl ⟨rfl, .refl⟩
  | bool b =>
    intro d k frames s v place object _ _ hpending _ _
    cases hpending
    exact .of_ok rfl ⟨rfl, .refl⟩
  | number n =>
    intro d k frames s v place object _ _ hpending _ _
    cases hpending
    exact .of_ok rfl ⟨rfl, .refl⟩
  | string s' =>
    intro d k frames s v place object _ _ hpending _ _
    cases hpending
    exact .of_ok rfl ⟨rfl, .refl⟩
  | array es ih => exact printed_array ih
  | object ms ih => exact printed_object ih

end MachineProvider.Jsonnet
