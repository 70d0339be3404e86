import MachineProvider.Payload.Envelope
import MachineProvider.Proofs.Payload.Parts

/-! A payload is read back as the one that was written, and is never read as one of
the other kind. -/
namespace MachineProvider

open Json (Decoder Fields)
open Json.Fields (Holds)
open Kubernetes (Condition LabelSelector)

namespace Payload

variable {α : Type} [Inhabited α] {members : List (String × Option Json)}

/-- The members of a payload and its markers. -/
def marked (kind : String) (members : List (String × Option Json)) : List (String × Option Json) :=
  members ++ [("apiVersion", some (.string PayloadVersion.latest.text)),
    ("kind", some (.string kind))]

/-- No name stands twice, neither among the members nor for a marker. -/
def Distinct (members : List (String × Option Json)) : Prop :=
  (members.map (·.1) ++ ["apiVersion", "kind"]).Nodup

theorem get?_close (h : Distinct members) (kind name : String) :
    (close kind members).get? name = ((marked kind members).lookup name).join :=
  Json.get?_record (by simpa [Distinct] using h)

theorem lookup_eq_none (h : Distinct members) {name : String}
    (hname : name ∈ ["apiVersion", "kind"]) :
    members.lookup name = none := by
  refine List.lookup_eq_none_iff.2 fun m hm => bne_iff_ne.2 fun heq => ?_
  exact (List.nodup_append.1 h).2.2 m.1 (List.mem_map_of_mem hm) name hname heq.symm

theorem checkMarkers_close (h : Distinct members) (kind other : String) :
    checkMarkers other (close kind members) =
      if kind = other then .ok () else .error (.unexpectedKind other kind) := by
  have hversion : marker? "apiVersion" (close kind members) = some PayloadVersion.latest.text := by
    simp [marker?, get?_close h, marked, List.lookup_append, lookup_eq_none h, Json.asString?]
  have hkind : marker? "kind" (close kind members) = some kind := by
    simp [marker?, get?_close h, marked, List.lookup_append, lookup_eq_none h, Json.asString?,
      List.lookup_cons]
  simp only [checkMarkers, hversion, checkMarkers.checkKind, hkind]
  rfl

theorem open_close (h : Distinct members) (kind other : String) (decode : Decoder α) :
    open_ other decode (some (close kind members)) =
      if kind = other then (decode (close kind members)).mapError (.decode other)
      else .error (.unexpectedKind other kind) := by
  change (checkMarkers other (close kind members)).bind _ = _
  rw [checkMarkers_close h]
  split <;> rfl

end Payload

namespace ProviderSpec

variable {ms : Entries Json}

theorem decode_object (ho : ms.Ordered) {s : ProviderSpec} :
    decode (.object ms) = .ok s ↔
      Holds "userDataSecret" (Decoder.nullable SecretReference.decode) (some none) ms
        s.userDataSecret ∧
      Holds "userDataSecretSelector" (Decoder.nullable LabelSelector.decode) (some none) ms
        s.userDataSecretSelector ∧
      Holds "tokenSecret" (Decoder.nullable SecretReference.decode) (some none) ms s.tokenSecret ∧
      Holds "baseDomain" .text (some "") ms s.baseDomain ∧
      Holds "zone" .text (some "") ms s.zone ∧
      Holds "antiAffinityKey" .text (some "") ms s.antiAffinityKey ∧
      Holds "serverGroups" (Decoder.orDefault (.list .text)) (some default) ms s.serverGroups ∧
      Holds "tags" (Decoder.orDefault (.map .text)) (some default) ms s.tags ∧
      Holds "rootVolumeTags" (Decoder.nullable (.map .text)) (some none) ms s.rootVolumeTags ∧
      Holds "flavor" .text (some "") ms s.flavor ∧
      Holds "image" .text (some "") ms s.image ∧
      Holds "rootVolumeSizeGB" .u32 (some 0) ms s.rootVolumeSizeGb ∧
      Holds "sshKeys" (Decoder.orDefault (.list .text)) (some default) ms s.sshKeys ∧
      Holds "useIPV6" (Decoder.nullable .flag) (some none) ms s.useIpv6 ∧
      Holds "interfaces" (Decoder.orDefault (.list InterfaceSpec.decode)) (some default) ms
        s.interfaces := by
  simp only [decode, Fields.record_object ho, Fields.read_seq, Fields.read_map, Fields.nullable,
    Fields.defaulted, Fields.optional, Fields.read_single ho]
  constructor
  · rintro ⟨_, h₁, _, h₂, _, h₃, _, h₄, _, h₅, _, h₆, _, h₇, _, h₈, _, h₉, _, h₁₀, _, h₁₁, _, h₁₂,
      _, h₁₃, _, h₁₄, _, h₁₅, rfl⟩
    exact ⟨h₁, h₂, h₃, h₄, h₅, h₆, h₇, h₈, h₉, h₁₀, h₁₁, h₁₂, h₁₃, h₁₄, h₁₅⟩
  · rintro ⟨h₁, h₂, h₃, h₄, h₅, h₆, h₇, h₈, h₉, h₁₀, h₁₁, h₁₂, h₁₃, h₁₄, h₁₅⟩
    exact ⟨_, h₁, _, h₂, _, h₃, _, h₄, _, h₅, _, h₆, _, h₇, _, h₈, _, h₉, _, h₁₀, _, h₁₁, _, h₁₂,
      _, h₁₃, _, h₁₄, _, h₁₅, rfl⟩

theorem distinct_members (s : ProviderSpec) : Payload.Distinct s.members := by
  simp [Payload.Distinct, members]

theorem decode_toRaw {s : ProviderSpec} (h : s.rootVolumeSizeGb < Nat.pow 2 32) :
    decode s.toRaw = .ok s := by
  have hfind := Payload.get?_close s.distinct_members kind
  have hsize : Decoder.u32 (.nat s.rootVolumeSizeGb) = .ok s.rootVolumeSizeGb := by
    have hrange : (0 : Int) ≤ s.rootVolumeSizeGb ∧
        (s.rootVolumeSizeGb : Int) ≤ Nat.pow 2 32 - 1 := by
      have hpow : Nat.pow 2 32 = 4294967296 := rfl
      omega
    simp only [Decoder.u32, Decoder.natural, Json.nat, Json.int, Decoder.integer, if_pos hrange]
    rfl
  refine (decode_object (Entries.ordered_ofList _)).2
    ⟨?_, ?_, ?_, ?_, ?_, ?_, ?_, ?_, ?_, ?_, ?_, ?_, ?_, ?_, ?_⟩
  · exact .written_some (hfind _) fun r _ => ⟨by rintro ⟨⟩, r.decode_toJson⟩
  · exact .written_some (hfind _) fun l _ => ⟨by rintro ⟨⟩, l.decode_toJson⟩
  · exact .written_some (hfind _) fun r _ => ⟨by rintro ⟨⟩, r.decode_toJson⟩
  · exact .written_text (hfind _)
  · exact .written (hfind _) rfl
  · exact .written_text (hfind _)
  · exact .written_list (hfind _) fun _ _ => rfl
  · exact .written (hfind _) (Decoder.map_text_ofStrings _)
  · exact .written_some (hfind _) fun m _ => ⟨by rintro ⟨⟩, Decoder.map_text_ofStrings m⟩
  · exact .written (hfind _) rfl
  · exact .written (hfind _) rfl
  · exact .written (hfind _) hsize
  · exact .written (hfind _) (Decoder.each_map Decoder.text_string _)
  · exact .written_some (hfind _) fun b _ => ⟨by rintro ⟨⟩, rfl⟩
  · exact .written (hfind _) (Decoder.each_map InterfaceSpec.decode_toJson _)

theorem ofRaw_toRaw {s : ProviderSpec} (h : s.rootVolumeSizeGb < Nat.pow 2 32) :
    ofRaw (some s.toRaw) = .ok s := by
  have hopen := Payload.open_close s.distinct_members kind kind decode
  rw [if_pos rfl] at hopen
  exact hopen.trans (congrArg _ (decode_toRaw h))

end ProviderSpec

namespace ProviderStatus

variable {ms : Entries Json}

theorem decode_object (ho : ms.Ordered) {s : ProviderStatus} :
    decode (.object ms) = .ok s ↔
      Holds "instanceId" .text (some "") ms s.instanceId ∧
      Holds "status" .text (some "") ms s.status ∧
      Holds "conditions" (Decoder.orDefault (.list Condition.decode)) (some default) ms
        s.conditions := by
  simp only [decode, Fields.record_object ho, Fields.read_seq, Fields.read_map, Fields.defaulted,
    Fields.optional, Fields.read_single ho]
  constructor
  · rintro ⟨_, h₁, _, h₂, _, h₃, rfl⟩
    exact ⟨h₁, h₂, h₃⟩
  · rintro ⟨h₁, h₂, h₃⟩
    exact ⟨_, h₁, _, h₂, _, h₃, rfl⟩

theorem distinct_members (s : ProviderStatus) : Payload.Distinct s.members := by
  simp [Payload.Distinct, members]

theorem decode_toRaw {s : ProviderStatus} (h : ∀ c ∈ s.conditions, c.Valid) :
    decode s.toRaw = .ok s := by
  have hfind := Payload.get?_close s.distinct_members kind
  refine (decode_object (Entries.ordered_ofList _)).2 ⟨?_, ?_, ?_⟩
  · exact .written_text (hfind _)
  · exact .written_text (hfind _)
  · exact .written_list (hfind _) fun c hc => Condition.decode_toJson (h c hc)

theorem ofRaw_toRaw {s : ProviderStatus} (h : ∀ c ∈ s.conditions, c.Valid) :
    ofRaw (some s.toRaw) = .ok s := by
  have hopen := Payload.open_close s.distinct_members kind kind decode
  rw [if_pos rfl] at hopen
  exact hopen.trans (congrArg _ (decode_toRaw h))

end ProviderStatus

theorem ProviderStatus.ofRaw_spec (x : ProviderSpec) :
    ofRaw (some x.toRaw) = .error (.unexpectedKind kind ProviderSpec.kind) :=
  (Payload.open_close x.distinct_members ProviderSpec.kind kind decode).trans (if_neg (by decide))

theorem ProviderSpec.ofRaw_status (y : ProviderStatus) :
    ofRaw (some y.toRaw) = .error (.unexpectedKind kind ProviderStatus.kind) :=
  (Payload.open_close y.distinct_members ProviderStatus.kind kind decode).trans (if_neg (by decide))

/-- Both payloads are read back from what is written of them, and neither is read as the other. -/
theorem payload_round_trip (x : ProviderSpec) (y : ProviderStatus) :
    (x.rootVolumeSizeGb < Nat.pow 2 32 → ProviderSpec.ofRaw (some x.toRaw) = .ok x) ∧
    ((∀ c ∈ y.conditions, c.Valid) → ProviderStatus.ofRaw (some y.toRaw) = .ok y) ∧
    ProviderStatus.ofRaw (some x.toRaw) =
      .error (.unexpectedKind ProviderStatus.kind ProviderSpec.kind) ∧
    ProviderSpec.ofRaw (some y.toRaw) =
      .error (.unexpectedKind ProviderSpec.kind ProviderStatus.kind) :=
  ⟨ProviderSpec.ofRaw_toRaw, ProviderStatus.ofRaw_toRaw, ProviderStatus.ofRaw_spec x,
    ProviderSpec.ofRaw_status y⟩

/-- Containers that are there and hold nothing, beside ones that are not there. -/
def emptiedSpec : ProviderSpec :=
  { (default : ProviderSpec) with
    zone := "rma1"
    userDataSecretSelector :=
      some ⟨some [⟨"role", "Exists", none⟩, ⟨"role", "In", some []⟩], some ∅⟩
    rootVolumeTags := some ∅
    rootVolumeSizeGb := 4294967295
    useIpv6 := some false
    interfaces := [⟨.publicNetwork, "", none⟩, ⟨.privateNetwork, "net", some []⟩,
      ⟨.privateNetwork, "net", some [⟨"10.0.0.1", ""⟩]⟩] }

/-- A condition that changed within the leap second at the end of 2016. -/
def leapStatus : ProviderStatus where
  instanceId := "uuid"
  status := ""
  conditions := [⟨⟨1483228799, 1000000000⟩, "", some (-1), "Created", "True", "Ready"⟩]

theorem payload_round_trip_leap :
    emptiedSpec.rootVolumeSizeGb < Nat.pow 2 32 ∧ (∀ c ∈ leapStatus.conditions, c.Valid) ∧
      ProviderSpec.ofRaw (some emptiedSpec.toRaw) = .ok emptiedSpec ∧
      ProviderStatus.ofRaw (some leapStatus.toRaw) = .ok leapStatus := by
  have hsize : emptiedSpec.rootVolumeSizeGb < Nat.pow 2 32 := by decide
  have hvalid : ∀ c ∈ leapStatus.conditions, c.Valid := by
    intro c hc
    obtain rfl := List.mem_singleton.1 hc
    exact ⟨by decide, by simp⟩
  have h := payload_round_trip emptiedSpec leapStatus
  exact ⟨hsize, hvalid, h.1 hsize, h.2.1 hvalid⟩

end MachineProvider
