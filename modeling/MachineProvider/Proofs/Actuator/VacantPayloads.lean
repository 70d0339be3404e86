import MachineProvider.Proofs.Actuator.Requests
import MachineProvider.Proofs.Json.Canonical
import MachineProvider.Proofs.Json.Patch
import MachineProvider.Proofs.Payload.Vacancy
import MachineProvider.Proofs.Reconcile.Worlds

/-! Servers that are asked for with a payload whose lists and tags hold nothing. Whether those are
left out, null or empty makes no difference to the provider; for the tags of the root volume and the
addresses of an interface it does. -/
namespace MachineProvider

open Cloud (InterfaceRequest ServerRequest)
open Simulation (World)

/-- A machine with another payload. -/
def Machine.carrying (m : Machine) (payload : Json) : Machine :=
  { m with spec := { m.spec with providerValue := some payload } }

/-- A request that says it has no keys, and that has the tags of an identity. -/
structure Cloud.ServerRequest.Keyless (i : Identity) (r : ServerRequest) : Prop where
  sshKeys : r.written.get? "ssh_keys" = some (.array [])
  tags : ∃ tags, r.written.get? "tags" = some (.object tags) ∧
    Entries.find? machineNameTag tags = some (.string i.name) ∧
    Entries.find? clusterIdTag tags = some (.string i.clusterId)

/-- Lists and tags that hold nothing, in whatever way, make no difference to what is read nor to the
server that is asked for. Only a template could tell, since it sees the machine as it is stored. -/
structure VacantAlike (a : Actuator) (m : Machine) (w : World) (ms : Entries Json) : Prop where
  decoded : ∀ (α β : Vacancies) (spec : ProviderSpec),
    ProviderSpec.ofRaw (some (.object (α.fill ms))) = .ok spec ↔
      ProviderSpec.ofRaw (some (.object (β.fill ms))) = .ok spec
  requested : ∃ asked : Vacancies → Option ServerRequest, ∀ α,
    (w.run (a.create (m.carrying (.object (α.fill ms))))).2.store.requests =
        w.store.requests ++ (asked α).toList ∧
      ((w.run (a.create (m.carrying (.object (α.fill ms))))).1 = .ok () → (asked α).isSome) ∧
      ∀ r, asked α = some r → (∃ i, m.identity? = some i ∧ r.Keyless i) ∧
        ∀ β, (∃ userData, asked β = some { r with userData }) ∨
          ∃ cause, (w.run (a.create (m.carrying (.object (β.fill ms))))).1 = .error (.render cause)

/-- How an interface of a payload is asked for. The public network goes by its name alone; a private
one goes by its identifier, and with addresses if the payload lists any, even none. -/
def AskedFor (e asked : Json) : Prop :=
  ∃ i, InterfaceSpec.decode e = .ok i ∧
    match i.type with
    | .publicNetwork => asked = .object [("network", .string "public")]
    | .privateNetwork =>
      asked.get? "network" = (if i.networkUuid = "" then none else some (.string i.networkUuid)) ∧
        ToldApart (e.slot "addresses" 2) (.array []) (asked.get? "addresses") (.array [])

/-- Where nothing and none are told apart: the root volume of a new server is looked after for any
tags, even none, and the server is asked for with each interface of the payload and with the
addresses of a private one, even none. Without interfaces the request lists none. -/
structure HollowKept (a : Actuator) (m : Machine) (w : World) (ms : Entries Json)
    (spec : ProviderSpec) : Prop where
  volumeTags : ToldApart (Entries.find? "rootVolumeTags" ms) (.object []) spec.rootVolumeTags ∅
  tagged : (w.run (a.create (m.carrying (.object ms)))).1 = .ok () →
    ((w.run (a.create (m.carrying (.object ms)))).2.store.lookups = w.store.lookups ↔
      IsVacant (Entries.find? "rootVolumeTags" ms))
  addresses : ∀ es, Entries.find? "interfaces" ms = some (.array es) →
    List.Forall₂ (fun e i => ToldApart (e.slot "addresses" 2) (.array []) i.addresses []) es
      spec.interfaces
  attached : ∃ asked : Option ServerRequest,
    (w.run (a.create (m.carrying (.object ms)))).2.store.requests =
        w.store.requests ++ asked.toList ∧
      ((w.run (a.create (m.carrying (.object ms)))).1 = .ok () → asked.isSome) ∧
      ∀ r, asked = some r → (spec.interfaces = [] → r.written.get? "interfaces" = none) ∧
        ∀ e es, Entries.find? "interfaces" ms = some (.array (e :: es)) →
          ∃ interfaces, r.written.get? "interfaces" = some (.array interfaces) ∧
            List.Forall₂ AskedFor (e :: es) interfaces

variable {a : Actuator} {m : Machine} {ctx : MachineContext} {request : ServerRequest} {w u : World}
  {space : String} {i : Identity} {spec : ProviderSpec} {is : List InterfaceSpec}
  {ms : Entries Json} {α β : Vacancies}

section Written

theorem Cloud.get?_present {k : String} {ms : List (String × Option Json)}
    (h : (ms.map (·.1)).Nodup) :
    (Cloud.present ms).get? k = (ms.lookup k).join := Json.find?_filterMap h

theorem Cloud.ServerRequest.written_sshKeys (r : ServerRequest) :
    r.written.get? "ssh_keys" = some (.array (r.sshKeys.map .string)) :=
  (Cloud.get?_present (by simp)).trans rfl

theorem Cloud.ServerRequest.written_tags (r : ServerRequest) :
    r.written.get? "tags" = some (.ofStrings r.tags) :=
  (Cloud.get?_present (by simp)).trans rfl

theorem Cloud.ServerRequest.written_interfaces (r : ServerRequest) :
    r.written.get? "interfaces" =
      r.interfaces.map fun is => .array (is.map InterfaceRequest.written) :=
  (Cloud.get?_present (by simp)).trans rfl

theorem Cloud.InterfaceRequest.written_network (i : InterfaceRequest) :
    i.written.get? "network" = if i.network = "" then none else some (.string i.network) := by
  refine (Cloud.get?_present (by simp)).trans ?_
  simp [Cloud.someText]

theorem Cloud.InterfaceRequest.written_addresses (i : InterfaceRequest) :
    i.written.get? "addresses" =
      i.addresses.map fun as => .array (as.map Cloud.AddressRequest.written) :=
  (Cloud.get?_present (by simp)).trans rfl

/-- Without keys in the payload none are asked for, and its tags never hide those of
the identity. -/
theorem keyless_serverRequest (h : ctx.spec.sshKeys = []) (groups : List String)
    (userData : String) :
    (ctx.serverRequest groups userData).Keyless ctx.identity where
  sshKeys := by
    rw [Cloud.ServerRequest.written_sshKeys]
    exact congrArg (fun keys => some (Json.array (keys.map .string))) h
  tags := by
    refine ⟨_, Cloud.ServerRequest.written_tags _, ?_⟩
    obtain ⟨hname, hcluster⟩ :=
      Identity.carriedBy_iff.1 (ctx.identity.carriedBy_union ctx.spec.tags)
    constructor
    · exact (Json.find?_ofStrings _).trans (congrArg (Option.map Json.string) hname)
    · exact (Json.find?_ofStrings _).trans (congrArg (Option.map Json.string) hcluster)

theorem askedFor_request {e : Json} {i : InterfaceSpec} (h : InterfaceSpec.decode e = .ok i) :
    AskedFor e i.request.written := by
  refine ⟨i, h, ?_⟩
  unfold InterfaceSpec.request
  cases i.type with
  | publicNetwork => rfl
  | privateNetwork =>
    refine ⟨Cloud.InterfaceRequest.written_network _, ?_⟩
    rw [Cloud.InterfaceRequest.written_addresses, Option.map_map]
    exact (toldApart_addresses h).map fun as => by simp

theorem written_interfaces_of_nil (hrequest : request.interfaces = interfaceRequests is)
    (h : is = []) : request.written.get? "interfaces" = none := by
  rw [Cloud.ServerRequest.written_interfaces, hrequest, h]
  rfl

/-- The interfaces of a payload are asked for one by one. -/
theorem askedFor_interfaces {e : Json} {es : List Json}
    (hrequest : request.interfaces = interfaceRequests is)
    (h : List.Forall₂ (fun e i => InterfaceSpec.decode e = .ok i) (e :: es) is) :
    ∃ interfaces, request.written.get? "interfaces" = some (.array interfaces) ∧
      List.Forall₂ AskedFor (e :: es) interfaces := by
  have hwritten := Cloud.ServerRequest.written_interfaces request
  rw [hrequest] at hwritten
  obtain ⟨i, is, -, -, rfl⟩ := List.forall₂_cons_left_iff.1 h
  refine ⟨((i :: is).map InterfaceSpec.request).map InterfaceRequest.written, hwritten, ?_⟩
  rw [List.forall₂_map_right_iff, List.forall₂_map_right_iff]
  exact h.imp fun _ _ => askedFor_request

end Written

section Payloads

theorem essentials_fill (ho : ms.Ordered)
    (h : (m.carrying (.object (α.fill ms))).essentials = .ok (space, i, spec)) :
    (m.carrying (.object (β.fill ms))).essentials = .ok (space, i, spec) := by
  obtain ⟨hspace, hi, hspec⟩ := essentials_eq_ok.1 h
  exact essentials_eq_ok.2 ⟨hspace, hi, (Vacancies.ofRaw_fill ho).1 hspec⟩

theorem vacantAlike (a : Actuator) (m : Machine) (w : World) (ho : ms.Ordered) :
    VacantAlike a m w ms where
  decoded _ _ _ := Vacancies.ofRaw_fill ho
  requested := by
    refine ⟨fun α => a.asked (m.carrying (.object (α.fill ms))) w, fun α =>
      ⟨requests_create .., asked_of_created, fun r hr => ?_⟩⟩
    obtain ⟨ctx, groups, userData, hm, hrequest⟩ := asked_essentials hr
    obtain ⟨-, hi, hspec⟩ := essentials_eq_ok.1 hm
    have hkeys : ctx.spec.sshKeys = [] :=
      Vacancies.sshKeys_of_fill ho (Payload.open_object.1 hspec).2
    refine ⟨⟨ctx.identity, hi, ?_⟩, fun β => asked_alike ((essentials_fill ho hm).trans hm.symm) hr⟩
    rw [hrequest]
    exact keyless_serverRequest hkeys groups userData

theorem hollowKept (a : Actuator) (m : Machine) (w : World) (hc : (Json.object ms).Canonical)
    (h : ProviderSpec.ofRaw (some (.object ms)) = .ok spec) : HollowKept a m w ms spec := by
  have hdecode : ProviderSpec.decode (.object ms) = .ok spec := (Payload.open_object.1 h).2
  have htags := toldApart_rootVolumeTags hc hdecode
  refine ⟨htags, fun hok => (lookups_create h hok).trans htags.missing, fun es hes => ?_,
    a.asked (m.carrying (.object ms)) w, requests_create .., asked_of_created, fun r hr => ?_⟩
  · exact (interfaces_forall₂ hc.ordered hdecode hes).imp fun _ _ => toldApart_addresses
  · obtain ⟨ctx, groups, userData, hm, rfl⟩ := asked_essentials hr
    obtain ⟨-, -, hspec⟩ := essentials_eq_ok.1 hm
    obtain rfl := Except.ok.inj (hspec.symm.trans h)
    exact ⟨written_interfaces_of_nil rfl, fun e es hes =>
      askedFor_interfaces rfl (interfaces_forall₂ hc.ordered hdecode hes)⟩

/-- Lists, tags, keys and interfaces that are left out, null or empty come to the same server, while
the tags of a root volume and the addresses of an interface tell nothing from none. -/
theorem vacant_containers_alike (a : Actuator) (m : Machine) (w : World)
    (hc : (Json.object ms).Canonical) :
    VacantAlike a m w ms ∧
      ∀ spec, ProviderSpec.ofRaw (some (.object ms)) = .ok spec → HollowKept a m w ms spec :=
  ⟨vacantAlike a m w hc.ordered, fun _ h => hollowKept a m w hc h⟩

/-- A private interface without addresses and a root volume without tags, both said so. -/
def hollowPayload : Entries Json :=
  [("flavor", .string "flex-4-1"),
    ("interfaces", .array [.object [("addresses", .array []), ("networkUUID", .string "n1"),
      ("type", .string "Private")]]),
    ("rootVolumeTags", .object [])]

def hollowSpec : ProviderSpec :=
  { (default : ProviderSpec) with
    flavor := "flex-4-1"
    interfaces := [⟨.privateNetwork, "n1", some []⟩]
    rootVolumeTags := some ∅ }

theorem vacant_containers_alike_hollow :
    VacantAlike default (Machine.bare "a" "c") default hollowPayload ∧
      HollowKept default (Machine.bare "a" "c") default hollowPayload hollowSpec ∧
      ((default : World).run (Actuator.create default ((Machine.bare "a" "c").carrying
        (.object hollowPayload)))).2.store.requests.map (·.interfaces) =
          [some [⟨"n1", some []⟩]] ∧
      ((default : World).run (Actuator.create default ((Machine.bare "a" "c").carrying
        (.object (Vacancies.fill ⟨.absent, .null, .empty, .null⟩
          hollowPayload))))).2.store.requests.length = 1 := by
  have hc : (Json.object hollowPayload).Canonical := by
    have hcanonical : (Json.object hollowPayload).canonical = .object hollowPayload := by rfl
    exact hcanonical ▸ Json.canonical_canonical (.object hollowPayload)
  have hspec : ProviderSpec.ofRaw (some (.object hollowPayload)) = .ok hollowSpec :=
    eq_ok_of_toOption (by decide +kernel)
  obtain ⟨halike, hkept⟩ := vacant_containers_alike default (Machine.bare "a" "c") default hc
  exact ⟨halike, hkept hollowSpec hspec, by decide +kernel, by decide +kernel⟩

end Payloads

end MachineProvider
