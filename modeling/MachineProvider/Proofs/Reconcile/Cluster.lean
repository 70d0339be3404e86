import MachineProvider.Proofs.Actuator.Calls
import MachineProvider.Proofs.Cloud.Bearers
import MachineProvider.Proofs.Machine.Stored

/-! A cluster that keeps the document of one machine, beside its provider. -/
namespace MachineProvider

open Cloud (Store)

/-- The stored document of one machine, and the provider. -/
structure Cluster where
  document : Json
  store : Store

namespace Cluster

/-- Whether a patch was applied to the document, or was refused without effect. -/
def Patches (patch : Json) (k : Cluster) (r : Except Error Unit) (l : Cluster) : Prop :=
  r = .ok () ∧ l = { k with document := k.document.merge patch } ∨
    (∃ e, r = .error e ∧ e.OfControl) ∧ l = k

/-- Patches of the machine and of its status reach the document; every call may fail. -/
def Answers (k : Cluster) : (c : Call) → c.Answer → Cluster → Prop
  | .cloud c, r, l => k.store.Serves c r l.store ∧ l.document = k.document
  | .control (.patchMachine _ _ patch), r, l => Patches patch k r l
  | .control (.patchMachineStatus _ _ patch), r, l => Patches patch k r l
  | .control c, r, l => (Call.control c).Honest r ∧ l = k
  | _, _, l => l = k

variable {k l : Cluster} {c : Call} {r : c.Answer}

theorem Answers.honest (h : k.Answers c r l) : c.Honest r := by
  cases c with
  | control c =>
    cases c with
    | patchMachine _ _ _ | patchMachineStatus _ _ _ =>
      rcases h with ⟨rfl, -⟩ | ⟨⟨e, rfl, he⟩, -⟩
      · rintro _ ⟨⟩
      · rintro _ ⟨⟩
        exact he
    | _ => exact h.1
  | _ => trivial

theorem Answers.document_eq (h : k.Answers c r l)
    (hmain : ∀ space name patch, c ≠ .control (.patchMachine space name patch))
    (hstatus : ∀ space name patch, c ≠ .control (.patchMachineStatus space name patch)) :
    l.document = k.document := by
  cases c with
  | cloud c => exact h.2
  | control c =>
    cases c with
    | patchMachine space name patch => exact absurd rfl (hmain space name patch)
    | patchMachineStatus space name patch => exact absurd rfl (hstatus space name patch)
    | _ => exact congrArg document h.2
  | client token => exact congrArg document h
  | sleep d => exact congrArg document h
  | draw width => exact congrArg document h

theorem Answers.servers_eq (h : k.Answers c r l)
    (hcreate : ∀ request, c ≠ .cloud (.createServer request))
    (hdelete : ∀ uuid, c ≠ .cloud (.deleteServer uuid)) :
    l.store.servers = k.store.servers := by
  cases c with
  | cloud c =>
    exact h.1.servers_eq (fun _ hc => hcreate _ (congrArg _ hc))
      fun _ hc => hdelete _ (congrArg _ hc)
  | control c =>
    cases c with
    | patchMachine _ _ _ | patchMachineStatus _ _ _ =>
      rcases h with ⟨-, rfl⟩ | ⟨-, rfl⟩ <;> rfl
    | _ => exact congrArg (fun k => k.store.servers) h.2
  | client token => exact congrArg (fun k => k.store.servers) h
  | sleep d => exact congrArg (fun k => k.store.servers) h
  | draw width => exact congrArg (fun k => k.store.servers) h

theorem Answers.aside (h : k.Answers c r l) (hc : c.Aside) :
    l.document = k.document ∧ l.store.servers = k.store.servers :=
  ⟨h.document_eq (by rintro _ _ _ rfl; exact hc) (by rintro _ _ _ rfl; exact hc),
    h.servers_eq (by rintro _ rfl; exact hc) (by rintro _ rfl; exact hc)⟩

end Cluster

/-- What is stored of a machine that has nothing but its name, its namespace and its cluster. -/
def bareDocument : Json :=
  .object [("metadata", .object [("labels", .object [(clusterIdLabel, .string "c")]),
    ("name", .string "a"), ("namespace", .string "ns")]), ("spec", .object [])]

theorem bare_storedIn : (Machine.bare "a" "c").StoredIn bareDocument where
  canonical :=
    ⟨by decide, ⟨by decide, ⟨by decide, trivial, trivial⟩, trivial, trivial, trivial⟩,
      ⟨by decide, trivial⟩, trivial⟩
  object := ⟨_, rfl⟩
  spec := ⟨_, rfl⟩
  status v h := by simp [bareDocument, Json.get?] at h
  decoded := by rfl

end MachineProvider
