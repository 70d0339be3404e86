import MachineProvider.Proofs.Machine.Shown
import MachineProvider.Proofs.Reconcile.Endings
import MachineProvider.Proofs.Reconcile.Worlds
import Mathlib.Data.List.Forall2

/-! The addresses of a machine are those that its payload asks for, interface by interface, although
the provider and the machine tell networks apart by other means. -/
namespace MachineProvider

open Cloud (InterfaceRequest Store)
open Simulation (World applied)

variable {a : Actuator} {m : Machine} {ctx : MachineContext} {k l : Cluster} {i : InterfaceSpec}
  {host : Nat}

/-- A fixed address, or one that was chosen for an empty one. -/
def AddressSpec.ShownAs (a : AddressSpec) (shown : MachineAddress) : Prop :=
  shown.type = .internalIp ∧ (a.address ≠ "" → shown.address = a.address)

/-- The addresses an interface is shown with: one of the public network, or those of
a private one. -/
def InterfaceSpec.ShownAs (i : InterfaceSpec) (shown : List MachineAddress) : Prop :=
  match i.type with
  | .publicNetwork => ∃ address, shown = [⟨.externalIp, address⟩]
  | .privateNetwork => List.Forall₂ AddressSpec.ShownAs (i.addresses.getD []) shown

/-- The addresses of each interface. Without interfaces there is one on the public network. -/
def InterfacesShown (interfaces : List InterfaceSpec) (shown : List (List MachineAddress)) : Prop :=
  if interfaces.isEmpty then ∃ address, shown = [[⟨.externalIp, address⟩]]
  else List.Forall₂ InterfaceSpec.ShownAs interfaces shown

theorem shownAs_privateAddress (host : Nat) (a : AddressSpec) :
    a.ShownAs ⟨.internalIp, (Store.privateAddress host ⟨a.subnetUuid, a.address⟩).address⟩ := by
  refine ⟨rfl, fun hfixed => ?_⟩
  have hne : a.address.isEmpty = false := String.isEmpty_eq_false_iff.2 hfixed
  simp [Store.privateAddress, hne]

/-- An interface comes back from the provider as it was asked for. -/
theorem shownAs_attach (h : i.type = .privateNetwork → i.networkUuid ≠ publicNetwork) :
    i.ShownAs (interfaceAddresses (Store.attach host i.request)) := by
  unfold InterfaceSpec.ShownAs InterfaceSpec.request Store.attach
  cases htype : i.type with
  | publicNetwork => exact ⟨_, rfl⟩
  | privateNetwork =>
    have hnetwork : ¬i.networkUuid = "public" := h htype
    dsimp only
    rw [if_neg hnetwork]
    cases haddresses : i.addresses with
    | none => exact .nil
    | some as =>
      simp only [interfaceAddresses, Option.map_some, Option.getD_some, List.map_map,
        List.forall₂_map_right_iff, List.forall₂_same]
      exact fun a _ => shownAs_privateAddress host a

theorem interfacesShown_newborn (s : Store) (groups : List String) (userData : String)
    (h : ∀ i ∈ ctx.spec.interfaces, i.type = .privateNetwork → i.networkUuid ≠ publicNetwork) :
    InterfacesShown ctx.spec.interfaces
      ((s.newborn (ctx.serverRequest groups userData)).interfaces.map interfaceAddresses) := by
  change InterfacesShown _ ((Store.interfacesFor (s.servers.length + 10)
    (interfaceRequests ctx.spec.interfaces)).map interfaceAddresses)
  unfold InterfacesShown interfaceRequests
  split
  · exact ⟨_, rfl⟩
  · simp only [Store.interfacesFor, List.map_map, List.forall₂_map_right_iff, List.forall₂_same]
    exact fun i hi => shownAs_attach (h i hi)

/-- A creation that succeeds records the server that was made on the request for the machine. -/
theorem create_recorded (h : (a.create m).CanEnd Cluster.Answers k (.ok ()) l) :
    ∃ (ctx : MachineContext) (groups : List String) (userData : String) (s : Store),
      m.essentials = .ok (ctx.space, ctx.identity, ctx.spec) ∧
      l.document = m.recordedIn (m.withServer (Store.newborn s (ctx.serverRequest groups userData)))
        k.document := by
  obtain ⟨ctx, v, hbegin, hbegun⟩ := (Attempt.canEnd_bind.1 h).resolve_right (by simp)
  obtain ⟨rfl, hctx⟩ := begin_ends hbegin
  obtain ⟨hmachine, hm⟩ := hctx ctx rfl
  obtain ⟨userData, u, hload, hloaded⟩ := (Attempt.canEnd_bind.1 hbegun).resolve_right (by simp)
  obtain rfl := loadUserData_ends hload
  obtain ⟨groups, v, hgroups, hchosen⟩ := (Attempt.canEnd_bind.1 hloaded).resolve_right (by simp)
  obtain ⟨hdocument, -⟩ := groups_ends hgroups
  rcases serve_ends hmachine hchosen with ⟨⟨e, he⟩, -⟩ | ⟨-, -, hok⟩
  · cases he
  · exact ⟨ctx, groups, userData, v.store, hm, hdocument ▸ hok rfl⟩

/-- Where creating a server succeeds, the document of the machine holds a machine that shows the
name of the server and, interface by interface, the addresses that the payload fixes. -/
theorem addresses_survive {w u : World}
    (hm : m.essentials = .ok (ctx.space, ctx.identity, ctx.spec))
    (hnetworks : ∀ i ∈ ctx.spec.interfaces, i.type = .privateNetwork →
      i.networkUuid ≠ publicNetwork)
    (hrun : w.run (a.create m) = (.ok (), u)) :
    ∃ sent, u.patches = w.patches ++ sent ∧ ∀ doc, m.StoredIn doc →
      ∃ n status shown, Machine.StoredIn n (applied sent doc) ∧ n.status = some status ∧
        status.addresses = shownNames ctx.serverName ++ shown.flatten ∧
        InterfacesShown ctx.spec.interfaces shown := by
  obtain ⟨sent, hsent, -⟩ := w.canEnd_cluster (a.create m) .null
  rw [hrun] at hsent
  refine ⟨sent, hsent, fun doc hdoc => ?_⟩
  obtain ⟨sent', hsent', hends⟩ := w.canEnd_cluster (a.create m) doc
  rw [hrun] at hsent' hends
  obtain rfl : sent = sent' := List.append_cancel_left (hsent.symm.trans hsent')
  obtain ⟨made, groups, userData, s, hmade, hdocument⟩ := create_recorded hends
  obtain ⟨-, hrest⟩ := Prod.mk.inj (Except.ok.inj (hmade.symm.trans hm))
  obtain ⟨hidentity, hspec⟩ := Prod.mk.inj hrest
  have hname : made.serverName = ctx.serverName := by
    unfold MachineContext.serverName
    rw [hidentity, hspec]
  refine ⟨m.withServer (Store.newborn s (made.serverRequest groups userData)), _,
    (Store.newborn s (made.serverRequest groups userData)).interfaces.map interfaceAddresses,
    ?_, rfl, ?_, ?_⟩
  · rw [show applied sent doc = _ from hdocument]
    exact hdoc.withServer _
  · rw [← hname]
    exact machineAddresses_eq _
  · rw [← hspec] at hnetworks ⊢
    exact interfacesShown_newborn s groups userData hnetworks

/-- A public interface, a private one with a fixed and an open address, and another whose addresses
are left open. -/
def wiredSpec : ProviderSpec :=
  { (default : ProviderSpec) with
    baseDomain := "example.com"
    interfaces := [⟨.publicNetwork, "", none⟩,
      ⟨.privateNetwork, "n1", some [⟨"10.1.0.5", "s1"⟩, ⟨"", "s1"⟩]⟩,
      ⟨.privateNetwork, "n2", none⟩] }

def wiredPayload : Json :=
  .object [("baseDomain", .string "example.com"),
    ("interfaces", .array [.object [("type", .string "Public")],
      .object [
        ("addresses", .array [
          .object [("address", .string "10.1.0.5"), ("subnetUUID", .string "s1")],
          .object [("subnetUUID", .string "s1")]]),
        ("networkUUID", .string "n1"), ("type", .string "Private")],
      .object [("networkUUID", .string "n2"), ("type", .string "private")]])]

def wired : Machine := { Machine.bare "a" "c" with spec := ⟨none, some wiredPayload⟩ }

def wiredContext : MachineContext := ⟨wired, "ns", ⟨"a", "c"⟩, wiredSpec, ""⟩

def wiredDocument : Json :=
  .object [("metadata", .object [("labels", .object [(clusterIdLabel, .string "c")]),
    ("name", .string "a"), ("namespace", .string "ns")]),
    ("spec", .object [("providerSpec", .object [("value", wiredPayload)])])]

theorem wired_storedIn : wired.StoredIn wiredDocument where
  canonical := by
    have hcanonical : wiredDocument.canonical = wiredDocument := by rfl
    exact hcanonical ▸ Json.canonical_canonical wiredDocument
  object := ⟨_, rfl⟩
  spec := ⟨_, rfl⟩
  status v h := by simp [wiredDocument, Json.get?] at h
  decoded := by rfl

theorem addresses_survive_wired :
    ∃ n status shown, Machine.StoredIn n
        (applied ((default : World).run (Actuator.create default wired)).2.patches wiredDocument) ∧
      n.status = some status ∧ status.addresses = shownNames "a.example.com" ++ shown.flatten ∧
      InterfacesShown wiredSpec.interfaces shown := by
  have hok : ((default : World).run (Actuator.create default wired)).1 = .ok () :=
    eq_ok_of_toOption (by decide +kernel)
  have hm : wired.essentials = .ok (wiredContext.space, wiredContext.identity, wiredContext.spec) :=
    eq_ok_of_toOption (by decide +kernel)
  generalize hrun : (default : World).run (Actuator.create default wired) = ended at hok ⊢
  obtain ⟨r, u⟩ := ended
  obtain rfl : r = .ok () := hok
  obtain ⟨sent, hsent, hshown⟩ := addresses_survive hm (by decide) hrun
  obtain rfl : u.patches = sent := hsent
  exact hshown wiredDocument wired_storedIn

end MachineProvider
