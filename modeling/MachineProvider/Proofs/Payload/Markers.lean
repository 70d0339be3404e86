import MachineProvider.Proofs.Payload.RoundTrip

/-! The markers of a payload that is read: one that is text decides, any other is passed over. -/
namespace MachineProvider

open Json.Fields (Holds)

namespace Payload

variable {α : Type} [Inhabited α] {kind : String} {decode : Json.Decoder α} {ms : Entries Json}

/-- The members of a document apart from its markers. -/
def unmarked (ms : Entries Json) : Entries Json :=
  Entries.erase "kind" (Entries.erase "apiVersion" ms)

theorem find?_unmarked {name : String} (hv : name ≠ "apiVersion") (hk : name ≠ "kind") :
    Entries.find? name (unmarked ms) = Entries.find? name ms := by
  simp [unmarked, Entries.find?_erase, hv, hk]

theorem Holds_unmarked {β : Type} {name : String} {decode : Json.Decoder β} {absent : Option β}
    {b : β} (hv : name ≠ "apiVersion") (hk : name ≠ "kind") :
    Holds name decode absent (unmarked ms) b ↔ Holds name decode absent ms b := by
  simp only [Holds, find?_unmarked hv hk]

theorem ordered_unmarked (ho : ms.Ordered) : (unmarked ms).Ordered := ho.erase.erase

/-- A text among the markers is the right one. -/
structure TextsRight (kind : String) (ms : Entries Json) : Prop where
  version : ∀ s, Entries.find? "apiVersion" ms = some (.string s) → s = PayloadVersion.v1beta1.text
  kind : ∀ s, Entries.find? "kind" ms = some (.string s) → s = kind

theorem textsRight_unmarked (kind : String) (ms : Entries Json) : TextsRight kind (unmarked ms) :=
  ⟨by simp [unmarked, Entries.find?_erase], by simp [unmarked, Entries.find?_erase]⟩

theorem marker?_eq_some {name s : String} :
    marker? name (.object ms) = some s ↔ Entries.find? name ms = some (.string s) := by
  change (Entries.find? name ms).bind Json.asString? = some s ↔ _
  cases Entries.find? name ms with
  | none => simp
  | some v => cases v <;> simp [Json.asString?]

theorem checkMarkers_version {s : String} (h : Entries.find? "apiVersion" ms = some (.string s))
    (hs : s ≠ PayloadVersion.v1beta1.text) :
    checkMarkers kind (.object ms) = .error (.unsupportedVersion kind s) := by
  simp only [checkMarkers, marker?_eq_some.2 h, PayloadVersion.parse, if_neg hs]

/-- Unless the version is wrong, the kind decides. -/
theorem checkMarkers_kind
    (h : ∀ s, Entries.find? "apiVersion" ms = some (.string s) → s = PayloadVersion.v1beta1.text) :
    checkMarkers kind (.object ms) = checkMarkers.checkKind kind (.object ms) := by
  unfold checkMarkers
  cases hm : marker? "apiVersion" (.object ms) with
  | none => rfl
  | some s => simp only [PayloadVersion.parse, if_pos (h s (marker?_eq_some.1 hm))]

theorem checkKind_error {s : String} (h : Entries.find? "kind" ms = some (.string s))
    (hs : s ≠ kind) :
    checkMarkers.checkKind kind (.object ms) = .error (.unexpectedKind kind s) := by
  simp only [checkMarkers.checkKind, marker?_eq_some.2 h, if_neg hs]

theorem checkMarkers_ok : checkMarkers kind (.object ms) = .ok () ↔ TextsRight kind ms := by
  constructor
  · intro h
    have hversion : ∀ s, Entries.find? "apiVersion" ms = some (.string s) →
        s = PayloadVersion.v1beta1.text := fun s hs => Decidable.byContradiction fun hne => by
      simp [checkMarkers_version hs hne] at h
    rw [checkMarkers_kind hversion] at h
    exact ⟨hversion, fun s hs => Decidable.byContradiction fun hne => by
      simp [checkKind_error hs hne] at h⟩
  · intro h
    rw [checkMarkers_kind h.version]
    unfold checkMarkers.checkKind
    cases hm : marker? "kind" (.object ms) with
    | none => rfl
    | some s => simp only [if_pos (h.kind s (marker?_eq_some.1 hm))]

theorem open_object {a : α} :
    open_ kind decode (some (.object ms)) = .ok a ↔
      TextsRight kind ms ∧ decode (.object ms) = .ok a := by
  rw [← checkMarkers_ok]
  change (checkMarkers kind (.object ms)).bind _ = _ ↔ _
  cases hm : checkMarkers kind (.object ms) with
  | error e => simp [Except.bind]
  | ok u => simp [Except.bind, Json.mapError_eq_ok]

theorem open_error {e : PayloadError} (h : checkMarkers kind (.object ms) = .error e) :
    open_ kind decode (some (.object ms)) = .error e := by
  change (checkMarkers kind (.object ms)).bind _ = _
  rw [h]
  rfl

/-- What the markers of an object have to do with how it is read. -/
structure MarkersDecide (kind : String) (read : Option Json → Except PayloadError α)
    (ms : Entries Json) : Prop where
  accepted : ∀ a, read (some (.object ms)) = .ok a ↔
    TextsRight kind ms ∧ read (some (.object (unmarked ms))) = .ok a
  version : ∀ s, Entries.find? "apiVersion" ms = some (.string s) →
    s ≠ PayloadVersion.v1beta1.text →
      read (some (.object ms)) = .error (.unsupportedVersion kind s)
  kind : ∀ s, (∀ v, Entries.find? "apiVersion" ms = some (.string v) →
      v = PayloadVersion.v1beta1.text) →
    Entries.find? "kind" ms = some (.string s) → s ≠ kind →
      read (some (.object ms)) = .error (.unexpectedKind kind s)

theorem markersDecide_open (h : ∀ a, decode (.object (unmarked ms)) = .ok a ↔
    decode (.object ms) = .ok a) : MarkersDecide kind (open_ kind decode) ms where
  accepted a := by
    rw [open_object, open_object, h]
    exact ⟨fun ⟨hm, ha⟩ => ⟨hm, textsRight_unmarked kind ms, ha⟩, fun ⟨hm, _, ha⟩ => ⟨hm, ha⟩⟩
  version _ hs hne := open_error (checkMarkers_version hs hne)
  kind _ hv hs hne := open_error ((checkMarkers_kind hv).trans (checkKind_error hs hne))

end Payload

variable {ms : Entries Json}

theorem ProviderSpec.decode_unmarked (ho : ms.Ordered) (x : ProviderSpec) :
    decode (.object (Payload.unmarked ms)) = .ok x ↔ decode (.object ms) = .ok x := by
  rw [decode_object (Payload.ordered_unmarked ho), decode_object ho]
  simp only [Payload.Holds_unmarked, ne_eq, String.reduceEq, not_false_eq_true]

theorem ProviderStatus.decode_unmarked (ho : ms.Ordered) (y : ProviderStatus) :
    decode (.object (Payload.unmarked ms)) = .ok y ↔ decode (.object ms) = .ok y := by
  rw [decode_object (Payload.ordered_unmarked ho), decode_object ho]
  simp only [Payload.Holds_unmarked, ne_eq, String.reduceEq, not_false_eq_true]

/-- An object is accepted as a payload when each marker that is text is the right one and the rest
of it is accepted. Markers that are no text have no say. -/
theorem payload_markers_decide (ho : ms.Ordered) :
    Payload.MarkersDecide ProviderSpec.kind ProviderSpec.ofRaw ms ∧
      Payload.MarkersDecide ProviderStatus.kind ProviderStatus.ofRaw ms :=
  ⟨Payload.markersDecide_open (ProviderSpec.decode_unmarked ho),
    Payload.markersDecide_open (ProviderStatus.decode_unmarked ho)⟩

theorem payload_markers_decide_number :
    Entries.Ordered [("apiVersion", Json.int 1), ("kind", Json.null)] ∧
      Payload.MarkersDecide ProviderSpec.kind ProviderSpec.ofRaw
        [("apiVersion", Json.int 1), ("kind", Json.null)] :=
  ⟨by decide, (payload_markers_decide (by decide)).1⟩

/-- A number in the place of the version and nothing in the place of the kind. -/
example : ProviderSpec.ofRaw (some (.object [("apiVersion", .int 1), ("kind", .null)])) =
    .ok default := by rfl

end MachineProvider
