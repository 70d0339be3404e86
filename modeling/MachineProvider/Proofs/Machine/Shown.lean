import Mathlib.Data.List.DropRight
import Mathlib.Data.List.TakeWhile
import MachineProvider.Proofs.Machine.Stored

/-! Machines that show a server or carry the finalizer already. -/
namespace MachineProvider

open Cloud (Server)

/-- The names of a machine: a name with a domain is followed by the part in front of it. -/
def shownNames (name : String) : List MachineAddress :=
  [⟨.hostname, name⟩, ⟨.internalDns, name⟩] ++
    if '.' ∈ name.toList then [⟨.internalDns, String.ofList (name.toList.takeWhile (· != '.'))⟩]
    else []

/-- A region is its zone up to the digits at the end. -/
structure RegionOf (zone region : String) : Prop where
  split : ∃ digits : List Char, zone.toList = region.toList ++ digits ∧ ∀ c ∈ digits, c.isDigit
  whole : ∀ c ∈ region.toList.getLast?, ¬ c.isDigit

theorem hostname_eq_self_iff {name : String} : hostname name = name ↔ '.' ∉ name.toList := by
  have hwhole : hostname name = name ↔ name.toList.takeWhile (· != '.') = name.toList := by
    rw [hostname, ← String.toList_inj, String.toList_ofList]
  rw [hwhole, List.takeWhile_eq_self_iff]
  constructor
  · intro h hdot
    simpa using h '.' hdot
  · exact fun h c hc => bne_iff_ne.2 fun heq => h (heq ▸ hc)

theorem machineAddresses_eq (x : Server) :
    machineAddresses x = shownNames x.name ++ (x.interfaces.map interfaceAddresses).flatten := by
  unfold machineAddresses shownNames
  dsimp only
  rw [List.flatMap_def]
  by_cases h : '.' ∈ x.name.toList
  · rw [if_pos h, if_neg fun heq => hostname_eq_self_iff.1 heq h]
    rfl
  · rw [if_neg h, if_pos (hostname_eq_self_iff.2 h)]

theorem regionOf_regionOfZone (zone : String) : RegionOf zone (regionOfZone zone) := by
  have hregion : (regionOfZone zone).toList = zone.toList.rdropWhile Char.isDigit :=
    String.toList_ofList
  refine ⟨⟨zone.toList.rtakeWhile Char.isDigit, ?_, fun c hc => List.mem_rtakeWhile_imp hc⟩,
    fun c hc => ?_⟩
  · rw [hregion, List.rdropWhile_append_rtakeWhile]
  · rw [hregion] at hc
    obtain ⟨hne, rfl⟩ := List.mem_getLast?_eq_getLast hc
    exact List.rdropWhile_last_not _ _ hne

namespace Machine

variable {m n : Machine} {x : Server}

/-- The machine with the finalizer. -/
def marked (m : Machine) : Machine :=
  if m.hasFinalizer then m
  else
    { m with metadata := { m.metadata with
      finalizers := some (m.finalizers ++ [machineFinalizer]) } }

theorem hasFinalizer_marked (m : Machine) : m.marked.hasFinalizer = true := by
  unfold marked
  split
  · assumption
  · simp [hasFinalizer, finalizers]

theorem marked_of_hasFinalizer (h : m.hasFinalizer = true) : m.marked = m := if_pos h

theorem marked_marked (m : Machine) : m.marked.marked = m.marked :=
  marked_of_hasFinalizer m.hasFinalizer_marked

/-- The finalizer is all that the marked machine has more. -/
theorem marked_rest (m : Machine) : ∃ finalizers,
    m.marked = { m with metadata := { m.metadata with finalizers } } := by
  unfold marked
  split
  · exact ⟨m.metadata.finalizers, rfl⟩
  · exact ⟨_, rfl⟩

/-- What a machine shows of a server: its identifier and its flavor, region and zone, its names and
the addresses of its interfaces, and in the payload of the status its identifier and its state, each
of which is left out when empty. -/
structure Shows (m : Machine) (x : Server) : Prop where
  providerId : m.spec.providerId = some ("cloudscale://" ++ x.uuid)
  instanceType : m.labels.get? "machine.openshift.io/instance-type" = some x.flavor.slug
  region : ∃ region, m.labels.get? "machine.openshift.io/region" = some region ∧
    RegionOf x.zone.slug region
  zone : m.labels.get? "machine.openshift.io/zone" = some x.zone.slug
  status : ∃ status, m.status = some status ∧
    status.addresses = shownNames x.name ++ x.interfaces.flatMap (fun i => i.addresses.map fun a =>
      ⟨if i.type = "public" then .externalIp else .internalIp, a.address⟩) ∧
    status.providerStatus = some (.record [
      ("instanceId", if x.uuid = "" then none else some (.string x.uuid)),
      ("status", if x.status = "" then none else some (.string x.status)),
      ("apiVersion", some (.string "machine.appuio.io/v1beta1")),
      ("kind", some (.string "CloudscaleMachineProviderStatus"))])

theorem labels_withServer (m : Machine) (x : Server) :
    (m.withServer x).labels = ((m.labels.insert instanceTypeLabel x.flavor.slug).insert regionLabel
      (regionOfZone x.zone.slug)).insert zoneLabel x.zone.slug := rfl

theorem observedStatus_eq (x : Server) : (observedStatus x).toRaw = .record [
    ("instanceId", if x.uuid = "" then none else some (.string x.uuid)),
    ("status", if x.status = "" then none else some (.string x.status)),
    ("apiVersion", some (.string "machine.appuio.io/v1beta1")),
    ("kind", some (.string "CloudscaleMachineProviderStatus"))] := by
  have htext : ∀ s : String, nonEmptyText s = if s = "" then none else some (.string s) := by
    intro s
    simp [nonEmptyText]
  rw [← htext, ← htext]
  rfl

theorem shows_withServer (m : Machine) (x : Server) : (m.withServer x).Shows x where
  providerId := rfl
  instanceType := by
    rw [labels_withServer]
    simp [StringMap.get?_insert, instanceTypeLabel, regionLabel, zoneLabel]
  region := by
    rw [labels_withServer]
    refine ⟨regionOfZone x.zone.slug, ?_, regionOf_regionOfZone _⟩
    simp [StringMap.get?_insert, regionLabel, zoneLabel]
  zone := by
    rw [labels_withServer]
    simp [StringMap.get?_insert, zoneLabel]
  status := by
    refine ⟨_, rfl, ?_, congrArg some (observedStatus_eq x)⟩
    rw [List.flatMap_def]
    exact machineAddresses_eq x

/-- Showing the same server again changes nothing. -/
theorem withServer_withServer (m : Machine) (x : Server) :
    (m.withServer x).withServer x = m.withServer x := by
  have hlabels : ((m.withServer x).withServer x).labels = (m.withServer x).labels := by
    refine StringMap.ext_get? fun k => ?_
    simp only [labels_withServer, StringMap.get?_insert]
    by_cases hzone : k = zoneLabel
    · simp [hzone]
    · by_cases hregion : k = regionLabel
      · simp [hregion]
      · by_cases htype : k = instanceTypeLabel <;> simp [hzone, hregion, htype]
  have hsome : ((m.withServer x).withServer x).metadata.labels = (m.withServer x).metadata.labels :=
    congrArg some hlabels
  unfold withServer at hsome ⊢
  simp only [Option.getD_some] at hsome ⊢
  rw [hsome]

theorem patches_self (m : Machine) : m.patches m = (none, none) := by
  rw [patches_eq, Json.diff_self, Json.diff_self]
  rfl

/-- The essentials are a matter of four fields. -/
theorem essentials_congr (hname : n.metadata.name = m.metadata.name)
    (hspace : n.metadata.namespace_ = m.metadata.namespace_)
    (hcluster : n.labels.get? clusterIdLabel = m.labels.get? clusterIdLabel)
    (hvalue : n.spec.providerValue = m.spec.providerValue) : n.essentials = m.essentials := by
  unfold essentials
  rw [hname, hspace, hcluster, hvalue]

theorem essentials_marked (m : Machine) : m.marked.essentials = m.essentials := by
  obtain ⟨finalizers, hm⟩ := m.marked_rest
  rw [hm]
  exact essentials_congr rfl rfl rfl rfl

theorem essentials_withServer (m : Machine) (x : Server) :
    (m.withServer x).essentials = m.essentials := by
  refine essentials_congr rfl rfl ?_ rfl
  simp only [labels_withServer, StringMap.get?_insert]
  rfl

theorem isDeleting_marked (m : Machine) : m.marked.metadata.isDeleting = m.metadata.isDeleting := by
  obtain ⟨finalizers, hm⟩ := m.marked_rest
  rw [hm]
  rfl

theorem isDeleting_withServer (m : Machine) (x : Server) :
    (m.withServer x).metadata.isDeleting = m.metadata.isDeleting := rfl

end Machine

end MachineProvider
