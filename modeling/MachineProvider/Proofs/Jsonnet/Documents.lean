import MachineProvider.Jsonnet.Syntax
import MachineProvider.Proofs.Json.Shape

/-! Documents as the programs that templates write for them. -/
namespace MachineProvider

/-- The double that a template keeps for a number. -/
def Json.Number.value : Json.Number → Double
  | .integer n => .ofInt n
  | .double d => d

/-- Every number has a double that is finite. -/
def Json.Finite (v : Json) : Prop := v.EveryNumber fun n => n.value.isFinite = true

namespace Jsonnet

/-- A member of an object as a template writes it. -/
def memberOf (m : String × Json) : Member := .field (.fixed m.1) false .plain (.ofJson m.2)

def sketchMember (m : String × Json) : String × Json := (m.1, m.2.sketch)

theorem elementsOfJson_eq (es : List Json) : elementsOfJson es = es.map .ofJson := by
  induction es with
  | nil => rfl
  | cons e es ih => rw [elementsOfJson, ih, List.map_cons]

theorem membersOfJson_eq (ms : List (String × Json)) : membersOfJson ms = ms.map memberOf := by
  induction ms with
  | nil => rfl
  | cons m ms ih =>
    obtain ⟨k, v⟩ := m
    rw [membersOfJson, ih, List.map_cons]
    rfl

theorem sketch_array_eq {ws vs : List Json} (h : ws.map Json.sketch = vs.map Json.sketch) :
    (Json.array ws).sketch = (Json.array vs).sketch := by
  unfold Json.sketch at h ⊢
  rw [Json.mapNumbers_array, Json.mapNumbers_array, h]

theorem sketch_object_eq {ws vs : List (String × Json)}
    (h : ws.map sketchMember = vs.map sketchMember) :
    (Json.object ws).sketch = (Json.object vs).sketch := by
  unfold Json.sketch
  rw [Json.mapNumbers_object, Json.mapNumbers_object]
  exact congrArg Json.object h

end Jsonnet

end MachineProvider
