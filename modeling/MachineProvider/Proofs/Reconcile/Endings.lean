import MachineProvider.Proofs.Cloud.Effects
import MachineProvider.Proofs.Program.Endings
import MachineProvider.Proofs.Reconcile.Cluster

/-! How each operation on a machine can end, given that every call may fail: where it may stop, and
what it has done to the document and to the provider by then. -/
namespace MachineProvider

open Cloud (Server ServerRequest Store)
open Attempt (Ends)

variable {a : Actuator} {m : Machine} {i : Identity} {ctx : MachineContext} {k l : Cluster}

/-- Neither the document nor anything at the provider has changed. -/
def Cluster.Untouched (k l : Cluster) : Prop := l.document = k.document ∧ k.store.Untouched l.store

section Reads

theorem Cluster.Answers.eq_of_reads {c : Call} {r : c.Answer} (hc : c.Reads) (h : k.Answers c r l) :
    l = k := by
  cases c with
  | cloud c => exact hc.elim
  | sleep d => exact hc.elim
  | draw width => exact hc.elim
  | client token => exact h
  | control c =>
    cases c with
    | getSecret space name => exact h.2
    | listSecrets space selector => exact h.2
    | _ => exact hc.elim

theorem ends_of_reads {α : Type} {x : Attempt α} {r : Except Error α} {ends : Except Error α → Prop}
    (hx : (ExceptT.run x).Only Call.Reads ends) (h : x.CanEnd Cluster.Answers k r l) :
    ends r ∧ l = k :=
  hx.canEnd (R := fun k l => l = k) (fun _ => rfl) (fun h h' => h'.trans h)
    (fun hc hr => ⟨hr.honest, hr.eq_of_reads hc⟩) h

theorem begin_ends {r : Except Error MachineContext}
    (h : (a.begin m).CanEnd Cluster.Answers k r l) :
    l = k ∧ ∀ ctx, r = .ok ctx → ctx.machine = m ∧
      m.essentials = .ok (ctx.space, ctx.identity, ctx.spec) := by
  obtain ⟨hends, hl⟩ := ends_of_reads (begin_essentials a m) h
  refine ⟨hl, ?_⟩
  rintro ctx rfl
  exact hends

theorem loadUserData_ends {space : String} {spec : ProviderSpec} {r : Except Error String}
    (h : (loadUserData m space spec).CanEnd Cluster.Answers k r l) : l = k :=
  (ends_of_reads (loadUserData_only ..) h).2

end Reads

section Lookup

theorem cloud_ends {c : Cloud.Call} {r : Except Error c.Result}
    (h : (Attempt.cloud c).CanEnd Cluster.Answers k r l) :
    l.document = k.document ∧ ∃ answer : Except Cloud.Error c.Result,
      r = answer.mapError .cloud ∧ k.store.Serves c answer l.store := by
  obtain ⟨answer, hr, hserves, hdocument⟩ := Attempt.canEnd_cloud.1 h
  exact ⟨hdocument, answer, hr, hserves⟩

/-- A lookup that succeeds finds all there is. -/
theorem locate_ends (hcluster : i.clusterId ≠ "") {r : Except Error (Option Server)}
    (h : i.locate.CanEnd Cluster.Answers k r l) :
    k.Untouched l ∧ ∀ o, r = .ok o → k.store.bearers i = o.toList := by
  rcases Attempt.canEnd_bind.1 h with ⟨candidates, v, hlist, hrest⟩ | ⟨e, rfl, hlist⟩
  · obtain ⟨hdocument, answer, hanswer, hserves⟩ := cloud_ends hlist
    obtain ⟨hr, rfl⟩ := Attempt.canEnd_ofExcept.1 hrest
    refine ⟨⟨hdocument, hserves.listed_servers⟩, ?_⟩
    rintro o rfl
    cases answer with
    | error e => cases hanswer
    | ok found =>
      obtain rfl : candidates = found := Except.ok.inj hanswer
      rw [hserves.resolve hcluster rfl] at hr
      match hb : k.store.bearers i with
      | [] => rw [hb] at hr; cases hr; rfl
      | [x] => rw [hb] at hr; cases hr; rfl
      | x :: y :: rest => rw [hb] at hr; cases hr
  · obtain ⟨hdocument, answer, -, hserves⟩ := cloud_ends hlist
    exact ⟨⟨hdocument, hserves.listed_servers⟩, by rintro o ⟨⟩⟩

end Lookup

section Parts

/-- A group was opened for the payload, since none had room. -/
structure Opened (spec : ProviderSpec) (s t : Store) : Prop where
  keyed : spec.antiAffinityKey.isEmpty = false
  full : (s.listGroups (some ⟨antiAffinityTag, spec.antiAffinityKey⟩)).find?
    (hasRoom spec.zone) = none
  store : (s.createGroup (groupRequest spec.zone spec.antiAffinityKey)).2.Untouched t

/-- Asking for groups changes nothing, or opens one. -/
def Grouped (spec : ProviderSpec) (s t : Store) : Prop := s.Untouched t ∨ Opened spec s t

theorem Grouped.trans {spec : ProviderSpec} {s t u : Store} (h : Grouped spec s t)
    (h' : t.Untouched u) : Grouped spec s u := by
  rcases h with h | ⟨hkeyed, hfull, hopened⟩
  · exact .inl (h.trans h')
  · exact .inr ⟨hkeyed, hfull, hopened.trans h'⟩

/-- Asking for groups adds one at the end, at most. -/
theorem Grouped.kept {spec : ProviderSpec} {s t : Store} (h : Grouped spec s t) :
    t.servers = s.servers ∧ t.volumeTags = s.volumeTags ∧ s.issued ≤ t.issued ∧
      ∃ added, t.groups = s.groups ++ added ∧ added.length ≤ 1 ∧ ∀ g ∈ added, g.servers = [] := by
  rcases h with h | ⟨-, -, h⟩
  · exact ⟨h.servers, h.volumeTags, Nat.le_of_eq h.issued.symm,
      [], by simp [h.groups], by simp, by simp⟩
  · refine ⟨h.servers, h.volumeTags, h.issued ▸ Nat.le_succ _, _, h.groups, by simp, ?_⟩
    intro g hg
    obtain rfl := List.mem_singleton.1 hg
    rfl

theorem Opened.congr {spec : ProviderSpec} {s s' t t' : Store} (ho : Opened spec s t)
    (hs : s'.Untouched s) (ht : t.Untouched t') : Opened spec s' t' := by
  obtain ⟨hkeyed, hfull, hstore⟩ := ho
  have hperformed := (hs.perform (.createGroup (groupRequest spec.zone spec.antiAffinityKey))).2
  refine ⟨hkeyed, ?_, (hperformed.trans hstore).trans ht⟩
  unfold Store.listGroups at hfull ⊢
  rwa [hs.groups] at hfull

/-- The group that was opened is there for whoever asks next. -/
theorem Opened.room {spec : ProviderSpec} {s t : Store} (h : Opened spec s t) :
    (t.listGroups (some ⟨antiAffinityTag, spec.antiAffinityKey⟩)).find? (hasRoom spec.zone) =
      some (s.createGroup (groupRequest spec.zone spec.antiAffinityKey)).1 := by
  have hgroups : t.groups = s.groups ++
      [(s.createGroup (groupRequest spec.zone spec.antiAffinityKey)).1] :=
    h.store.groups
  have hfull := h.full
  unfold Store.listGroups at hfull ⊢
  rw [hgroups, List.filter_append, List.find?_append, hfull]
  have hadmits : Store.admits (some ⟨antiAffinityTag, spec.antiAffinityKey⟩)
      (s.createGroup (groupRequest spec.zone spec.antiAffinityKey)).1.tags = true := by
    simp [Store.createGroup, groupRequest, Store.admits, Cloud.TagFilter.holds, StringMap.get?,
      StringMap.ofList, Entries.ofList, Entries.insert]
  have hroom : hasRoom spec.zone (s.createGroup (groupRequest spec.zone spec.antiAffinityKey)).1 =
      true := by
    simp [Store.createGroup, groupRequest, hasRoom, maxGroupMembers]
  simp [hadmits, hroom]

theorem allocateGroup_ends {zone key : String} {r : Except Error String}
    (h : (allocateGroup zone key).CanEnd Cluster.Answers k r l) :
    l.document = k.document ∧ (k.store.Untouched l.store ∨
      (k.store.listGroups (some ⟨antiAffinityTag, key⟩)).find? (hasRoom zone) = none ∧
        (k.store.createGroup (groupRequest zone key)).2.Untouched l.store) := by
  rcases Attempt.canEnd_bind.1 h with ⟨gs, v, hlist, hrest⟩ | ⟨e, rfl, hlist⟩
  · obtain ⟨hdocument, answer, hanswer, hserves⟩ := cloud_ends hlist
    cases answer with
    | error e => cases hanswer
    | ok found =>
      obtain rfl : gs = found := Except.ok.inj hanswer
      obtain ⟨rfl, huntouched⟩ := hserves.listed_groups rfl
      cases hf : (k.store.listGroups (some ⟨antiAffinityTag, key⟩)).find? (hasRoom zone) with
      | some g =>
        rw [hf] at hrest
        obtain ⟨-, rfl⟩ := Attempt.canEnd_pure.1 hrest
        exact ⟨hdocument, .inl huntouched⟩
      | none =>
        rw [hf] at hrest
        obtain ⟨_, -, hopen⟩ := Attempt.canEnd_map.1 hrest
        obtain ⟨hdocument', answer, -, hserves'⟩ := cloud_ends hopen
        refine ⟨hdocument'.trans hdocument, ?_⟩
        cases answer with
        | error e => exact .inl (huntouched.trans (hserves'.untouched rfl))
        | ok g =>
          have hperformed := (huntouched.perform (.createGroup (groupRequest zone key))).2
          exact .inr ⟨rfl, hperformed.trans (hserves'.opened rfl).2⟩
  · obtain ⟨hdocument, answer, hanswer, hserves⟩ := cloud_ends hlist
    cases answer with
    | ok found => cases hanswer
    | error e => exact ⟨hdocument, .inl (hserves.untouched rfl)⟩

theorem groups_ends {r : Except Error (List String)} (h : ctx.groups.CanEnd Cluster.Answers k r l) :
    l.document = k.document ∧ Grouped ctx.spec k.store l.store := by
  unfold MachineContext.groups at h
  split at h
  · obtain ⟨-, rfl⟩ := Attempt.canEnd_pure.1 h
    exact ⟨rfl, .inl (.refl _)⟩
  · next hkey =>
    obtain ⟨_, -, hallocate⟩ := Attempt.canEnd_map.1 h
    obtain ⟨hdocument, hstore⟩ := allocateGroup_ends hallocate
    exact ⟨hdocument, hstore.imp_right fun ⟨hfull, hopened⟩ =>
      ⟨Bool.eq_false_iff.2 hkey, hfull, hopened⟩⟩

theorem createServer_ends {request : ServerRequest} {r : Except Error Server}
    (h : (ctx.createServer request).CanEnd Cluster.Answers k r l) :
    l.document = k.document ∧ ((∃ e, r = .error e ∧ e.Early) ∧ k.store.Untouched l.store ∨
      r = .ok { k.store.newborn request with volumes := [] } ∧
        (k.store.createServer request).2.Untouched l.store) := by
  obtain ⟨answer, rfl, hserves, hdocument⟩ := Attempt.canEnd_cloud_mapError.1 h
  refine ⟨hdocument, ?_⟩
  cases answer with
  | error e => exact .inl ⟨⟨_, rfl, trivial⟩, hserves.untouched rfl⟩
  | ok shown =>
    obtain ⟨hshown, hstore⟩ := hserves.performed rfl
    obtain rfl : shown = { k.store.newborn request with volumes := [] } :=
      (Except.ok.inj hshown).symm
    exact .inr ⟨rfl, hstore⟩

/-- The stores differ at most in the tags of the volumes of one server, and in how often servers
were looked at. -/
structure Cloud.Store.Tagged (uuid : String) (s t : Store) : Prop where
  servers : t.servers = s.servers
  groups : t.groups = s.groups
  failures : t.failures = s.failures
  volumeTags : ∀ v, (∀ x, s.servers.find? (·.uuid = uuid) = some x → ∀ w ∈ x.volumes, w.uuid ≠ v) →
    t.volumeTags.get? v = s.volumeTags.get? v

section Tagging

variable {uuid : String} {tags : Cloud.Tags} {s t u : Store}

theorem Cloud.Store.Untouched.tagged (h : s.Untouched t) : s.Tagged uuid t :=
  ⟨h.servers, h.groups, h.failures, fun v _ => by rw [h.volumeTags]⟩

theorem Cloud.Store.Tagged.trans (h : s.Tagged uuid t) (h' : t.Tagged uuid u) :
    s.Tagged uuid u := by
  refine ⟨h'.servers.trans h.servers, h'.groups.trans h.groups, h'.failures.trans h.failures,
    fun v hv => ?_⟩
  have hv' : ∀ x, t.servers.find? (·.uuid = uuid) = some x → ∀ w ∈ x.volumes, w.uuid ≠ v := by
    rwa [h.servers]
  exact (h'.volumeTags v hv').trans (h.volumeTags v hv)

/-- The first volume of a server got the tags, and no other volume did. -/
def Cloud.Store.RootTagged (tags : Cloud.Tags) (x : Server) (s t : Store) : Prop :=
  ∃ volume rest, x.volumes = volume :: rest ∧
    t.volumeTags = s.volumeTags.insert volume.uuid tags

theorem Cloud.Store.RootTagged.congr {x : Server} (h : t.RootTagged tags x u)
    (hvolumes : t.volumeTags = s.volumeTags) : s.RootTagged tags x u := by
  unfold Store.RootTagged at h ⊢
  rwa [hvolumes] at h

/-- A look at a server changes no tags. -/
theorem getServer_ends {found : Except Cloud.Error Server}
    (h : k.Answers (.cloud (.getServer uuid)) found l) :
    l.document = k.document ∧ k.store.Tagged uuid l.store ∧
      l.store.volumeTags = k.store.volumeTags := by
  obtain ⟨hserves, hdocument⟩ := h
  have hvolumes : l.store.volumeTags = k.store.volumeTags :=
    hserves.volumeTags_eq (by rintro _ _ ⟨⟩)
  refine ⟨hdocument, ⟨?_, ?_, hserves.failures_eq, fun v _ => by rw [hvolumes]⟩, hvolumes⟩
  · exact hserves.servers_eq (by rintro _ ⟨⟩) (by rintro _ ⟨⟩)
  · exact hserves.groups_eq (by rintro _ ⟨⟩) (by rintro _ ⟨⟩) (by rintro _ ⟨⟩)

/-- New tags for the first volume of a server are set, or refused without a trace. -/
theorem updateVolume_ends {x : Server} {volume : Cloud.VolumeStub} {rest : List Cloud.VolumeStub}
    {updated : Except Cloud.Error Unit} (hx : k.store.servers.find? (·.uuid = uuid) = some x)
    (hroot : x.volumes = volume :: rest)
    (h : k.Answers (.cloud (.updateVolume volume.uuid ⟨tags⟩)) updated l) :
    l.document = k.document ∧ k.store.Tagged uuid l.store ∧
      (updated = .ok () → k.store.RootTagged tags x l.store) ∧
      ∀ e, updated = .error e → l.store.volumeTags = k.store.volumeTags := by
  obtain ⟨hserves, hdocument⟩ := h
  refine ⟨hdocument, ⟨?_, ?_, hserves.failures_eq, fun v hv => ?_⟩, fun hok => ?_, fun e he => ?_⟩
  · exact hserves.servers_eq (by rintro _ ⟨⟩) (by rintro _ ⟨⟩)
  · exact hserves.groups_eq (by rintro _ ⟨⟩) (by rintro _ ⟨⟩) (by rintro _ ⟨⟩)
  · exact hserves.tagged (hv x hx volume (by simp [hroot])).symm
  · exact ⟨volume, rest, hroot, hserves.rootTagged hok⟩
  · exact (hserves.untouched he).volumeTags

/-- One attempt sets the tags or fails without a trace. -/
theorem tryTag_ends {r : Except AttemptError Unit}
    (h : (tryTag uuid tags).CanEnd Cluster.Answers k r l) :
    l.document = k.document ∧ k.store.Tagged uuid l.store ∧
      (r = .ok () → ∀ x, k.store.servers.find? (·.uuid = uuid) = some x →
        k.store.RootTagged tags x l.store) ∧
      ∀ e, r = .error e → l.store.volumeTags = k.store.volumeTags := by
  obtain ⟨found, v, hget, hrest⟩ := Program.canEnd_bind.1 h
  have hget := Program.canEnd_perform.1 hget
  obtain ⟨hdocument, hlooked, hvolumes⟩ := getServer_ends hget
  cases found with
  | error e =>
    obtain ⟨rfl, rfl⟩ := hrest
    exact ⟨hdocument, hlooked, by rintro ⟨⟩, fun _ _ => hvolumes⟩
  | ok server =>
    obtain ⟨x, hx, hshown⟩ := hget.1.seen rfl
    dsimp only at hrest
    split at hrest
    · obtain ⟨rfl, rfl⟩ := hrest
      exact ⟨hdocument, hlooked, by rintro ⟨⟩, fun _ _ => hvolumes⟩
    · next volume rest hlist =>
      split at hrest
      · obtain ⟨rfl, rfl⟩ := hrest
        exact ⟨hdocument, hlooked, by rintro ⟨⟩, fun _ _ => hvolumes⟩
      · obtain ⟨updated, u, hupdate, hdone⟩ := Program.canEnd_bind.1 hrest
        -- The volume is the first one of the server that was looked at.
        have hroot : x.volumes = volume :: rest := by
          rcases hshown with rfl | rfl
          · exact hlist
          · cases hlist
        obtain ⟨hdocument', htagged, hok, herror⟩ :=
          updateVolume_ends (hlooked.servers ▸ hx) hroot (Program.canEnd_perform.1 hupdate)
        cases updated with
        | error e =>
          obtain ⟨rfl, rfl⟩ := hdone
          exact ⟨hdocument'.trans hdocument, hlooked.trans htagged, by rintro ⟨⟩,
            fun _ _ => (herror e rfl).trans hvolumes⟩
        | ok _ =>
          obtain ⟨rfl, rfl⟩ := hdone
          refine ⟨hdocument'.trans hdocument, hlooked.trans htagged, fun _ y hy => ?_,
            by rintro _ ⟨⟩⟩
          obtain rfl := Option.some.inj (hx.symm.trans hy)
          exact (hok rfl).congr hvolumes

/-- A random number is no matter of the provider. -/
theorem draw_ends {schedule : Backoff} {drawn : Option (Nanoseconds × Backoff)}
    (h : schedule.draw.CanEnd Cluster.Answers k drawn l) : l = k := by
  unfold Backoff.draw at h
  split at h
  · exact h.2
  · split at h
    · exact h.2
    · obtain ⟨_, _, rfl, -, rfl⟩ := h
      rfl

theorem tagAttempts_ends {attempts left : Nat} {schedule : Backoff} {r : Except TaggingError Unit}
    (h : (tagAttempts uuid tags attempts left schedule).CanEnd Cluster.Answers k r l) :
    l.document = k.document ∧ k.store.Tagged uuid l.store ∧
      (r = .ok () → ∀ x, k.store.servers.find? (·.uuid = uuid) = some x →
        k.store.RootTagged tags x l.store) ∧
      ∀ e, r = .error e → l.store.volumeTags = k.store.volumeTags := by
  induction left generalizing k schedule with
  | zero =>
    unfold tagAttempts at h
    obtain ⟨tried, v, htry, hrest⟩ := Program.canEnd_bind.1 h
    obtain ⟨hdocument, htagged, hok, herror⟩ := tryTag_ends htry
    cases tried with
    | ok _ =>
      obtain ⟨rfl, rfl⟩ := hrest
      exact ⟨hdocument, htagged, fun _ => hok rfl, by rintro _ ⟨⟩⟩
    | error e =>
      obtain ⟨rfl, rfl⟩ := hrest
      exact ⟨hdocument, htagged, by rintro ⟨⟩, fun _ _ => herror e rfl⟩
  | succ left ih =>
    unfold tagAttempts at h
    obtain ⟨tried, v, htry, hrest⟩ := Program.canEnd_bind.1 h
    obtain ⟨hdocument, htagged, hok, herror⟩ := tryTag_ends htry
    cases tried with
    | ok _ =>
      obtain ⟨rfl, rfl⟩ := hrest
      exact ⟨hdocument, htagged, fun _ => hok rfl, by rintro _ ⟨⟩⟩
    | error e =>
      obtain ⟨drawn, w, hdraw, hdrawn⟩ := Program.canEnd_bind.1 hrest
      obtain rfl := draw_ends hdraw
      cases drawn with
      | none =>
        obtain ⟨rfl, rfl⟩ := hdrawn
        exact ⟨hdocument, htagged, by rintro ⟨⟩, fun _ _ => herror e rfl⟩
      | some next =>
        obtain ⟨_, w, rfl, hagain⟩ := hdrawn
        obtain ⟨hdocument', htagged', hok', herror'⟩ := ih hagain
        refine ⟨hdocument'.trans hdocument, htagged.trans htagged', fun hr x hx => ?_,
          fun e' he => (herror' e' he).trans (herror e rfl)⟩
        exact (hok' hr x (htagged.servers ▸ hx)).congr (herror e rfl)

/-- The first volume of a server got the tags of a payload that has some, and no
other volume did. -/
def ProviderSpec.RootTagged (spec : ProviderSpec) (x : Server) (s t : Store) : Prop :=
  match spec.rootVolumeTags with
  | none => t.volumeTags = s.volumeTags
  | some tags => s.RootTagged tags x t

theorem ProviderSpec.RootTagged.congr {spec : ProviderSpec} {x : Server} (h : spec.RootTagged x t u)
    (hvolumes : t.volumeTags = s.volumeTags) : spec.RootTagged x s u := by
  unfold ProviderSpec.RootTagged at h ⊢
  cases hspec : spec.rootVolumeTags with
  | none =>
    rw [hspec] at h
    exact h.trans hvolumes
  | some tags =>
    rw [hspec] at h
    exact h.congr hvolumes

theorem tagVolume_ends {server : Server} {schedule : Backoff} {r : Except Error Unit}
    (h : (ctx.tagVolume server schedule).CanEnd Cluster.Answers k r l) :
    l.document = k.document ∧ k.store.Tagged server.uuid l.store ∧
      (r = .ok () → ∀ x, k.store.servers.find? (·.uuid = server.uuid) = some x →
        ctx.spec.RootTagged x k.store l.store) ∧
      ∀ e, r = .error e → l.store.volumeTags = k.store.volumeTags ∧
        (e = .invalidDelay ∨
          ∃ cause, e = .rootVolumeTagging ctx.identity.name server.uuid cause) := by
  unfold MachineContext.tagVolume at h
  unfold ProviderSpec.RootTagged
  cases hspec : ctx.spec.rootVolumeTags with
  | none =>
    rw [hspec] at h
    obtain ⟨rfl, rfl⟩ := Attempt.canEnd_pure.1 h
    exact ⟨rfl, (Store.Untouched.refl _).tagged, fun _ _ _ => rfl, by rintro _ ⟨⟩⟩
  | some tags =>
    rw [hspec] at h
    obtain ⟨outcome, v, htag, rfl, rfl⟩ := Program.canEnd_bind.1 h
    obtain ⟨hdocument, htagged, hok, herror⟩ := tagAttempts_ends htag
    cases outcome with
    | ok _ => exact ⟨hdocument, htagged, fun _ => hok rfl, by rintro _ ⟨⟩⟩
    | error e =>
      refine ⟨hdocument, htagged, by rintro ⟨⟩, ?_⟩
      rintro _ ⟨⟩
      refine ⟨herror e rfl, ?_⟩
      cases e with
      | invalidDelay => exact .inl rfl
      | timeout cause => exact .inr ⟨cause, rfl⟩

end Tagging

/-- The document after the main patch from one machine to another. -/
def Machine.mainIn (m after : Machine) (doc : Json) : Json := doc.mergeIfAny (m.patches after).1

/-- The document after both patches. -/
def Machine.recordedIn (m after : Machine) (doc : Json) : Json :=
  (m.mainIn after doc).mergeIfAny (m.patches after).2

/-- How far the patches from one machine to another may have come in a document. -/
inductive Machine.Recording (m after : Machine) (doc : Json) : Json → Prop
  | begun : Recording m after doc doc
  | main : Recording m after doc (m.mainIn after doc)
  | whole : Recording m after doc (m.recordedIn after doc)

section Recording

variable {r : Except Error Unit} {space name : String}

theorem Cluster.Patches.ends {patch : Json} (h : Cluster.Patches patch k r l) :
    l.store = k.store ∧ (r = .ok () ∧ l.document = k.document.mergeIfAny (some patch) ∨
      (∃ e, r = .error e ∧ e.OfControl) ∧ l.document = k.document) := by
  rcases h with ⟨rfl, rfl⟩ | ⟨hr, rfl⟩
  · exact ⟨rfl, .inl ⟨rfl, rfl⟩⟩
  · exact ⟨rfl, .inr ⟨hr, rfl⟩⟩

theorem patchMachine_ends {patch : Json}
    (h : (Attempt.control (.patchMachine space name patch)).CanEnd Cluster.Answers k r l) :
    l.store = k.store ∧ (r = .ok () ∧ l.document = k.document.mergeIfAny (some patch) ∨
      (∃ e, r = .error e ∧ e.OfControl) ∧ l.document = k.document) :=
  Cluster.Patches.ends (Attempt.canEnd_control.1 h)

theorem recordStatus_ends {status : Option Json}
    (h : (match status with
      | some patch => Attempt.control (.patchMachineStatus space name patch)
      | none => pure () : Attempt Unit).CanEnd Cluster.Answers k r l) :
    l.store = k.store ∧ (r = .ok () ∧ l.document = k.document.mergeIfAny status ∨
      (∃ e, r = .error e ∧ e.OfControl) ∧ l.document = k.document) := by
  cases status with
  | some patch => exact Cluster.Patches.ends (Attempt.canEnd_control.1 h)
  | none =>
    obtain ⟨rfl, rfl⟩ := Attempt.canEnd_pure.1 h
    exact ⟨rfl, .inl ⟨rfl, rfl⟩⟩

theorem recordServer_ends {x : Server} (hctx : ctx.machine = m)
    (h : (ctx.recordServer x).CanEnd Cluster.Answers k r l) :
    l.store = k.store ∧ m.Recording (m.withServer x) k.document l.document ∧
      (r = .ok () → l.document = m.recordedIn (m.withServer x) k.document) := by
  unfold MachineContext.recordServer at h
  rw [hctx] at h
  have hafterMain : ∀ v : Cluster, v.store = k.store →
      v.document = m.mainIn (m.withServer x) k.document →
      (match (m.patches (m.withServer x)).2 with
        | some patch => Attempt.control (.patchMachineStatus ctx.space ctx.identity.name patch)
        | none => pure () : Attempt Unit).CanEnd Cluster.Answers v r l →
      l.store = k.store ∧ m.Recording (m.withServer x) k.document l.document ∧
        (r = .ok () → l.document = m.recordedIn (m.withServer x) k.document) := by
    intro v hstore hdocument hstatus
    obtain ⟨hstore', hends⟩ := recordStatus_ends hstatus
    rw [hdocument] at hends
    refine ⟨hstore'.trans hstore, ?_⟩
    rcases hends with ⟨rfl, hdoc⟩ | ⟨⟨e, rfl, -⟩, hdoc⟩
    · exact ⟨hdoc ▸ .whole, fun _ => hdoc⟩
    · exact ⟨hdoc ▸ .main, by rintro ⟨⟩⟩
  cases hmain : (m.patches (m.withServer x)).1 with
  | none =>
    simp only [hmain] at h
    exact hafterMain k rfl (by rw [Machine.mainIn, hmain]; rfl) h
  | some patch =>
    simp only [hmain] at h
    rcases Attempt.canEnd_bind.1 h with ⟨_, v, hpatch, hstatus⟩ | ⟨e, rfl, hpatch⟩
    · obtain ⟨hstore, ⟨-, hdoc⟩ | ⟨⟨e, he, -⟩, -⟩⟩ := patchMachine_ends hpatch
      · exact hafterMain v hstore (by rw [Machine.mainIn, hmain]; exact hdoc) hstatus
      · cases he
    · obtain ⟨hstore, ⟨hr, -⟩ | ⟨-, hdoc⟩⟩ := patchMachine_ends hpatch
      · cases hr
      · exact ⟨hstore, hdoc ▸ .begun, by rintro ⟨⟩⟩

end Recording

/-- The server is in the zone and of the flavor that the payload names. -/
def ProviderSpec.Fits (spec : ProviderSpec) (x : Server) : Prop :=
  (spec.zone.isEmpty ∨ spec.zone = x.zone.slug) ∧
    (spec.flavor.isEmpty ∨ spec.flavor = x.flavor.slug)

theorem checkDrift_eq_ok {x : Server} : ctx.checkDrift x = .ok () ↔ ctx.spec.Fits x := by
  unfold MachineContext.checkDrift ProviderSpec.Fits
  by_cases hzone : ctx.spec.zone.isEmpty ∨ ctx.spec.zone = x.zone.slug
  · by_cases hflavor : ctx.spec.flavor.isEmpty ∨ ctx.spec.flavor = x.flavor.slug
    · simp only [hzone, hflavor, bind, Except.bind, if_true, and_self]
    · simp only [hzone, hflavor, bind, Except.bind, if_true, if_false, and_false, reduceCtorEq]
  · simp only [hzone, bind, Except.bind, if_false, false_and, reduceCtorEq]

end Parts

section Operations

variable {space : String} {spec : ProviderSpec}

theorem label_of_identity? (h : m.identity? = some i) :
    m.labels.get? clusterIdLabel = some i.clusterId := by
  unfold Machine.identity? at h
  split at h
  · next hcluster => rw [hcluster, ← Option.some.inj h]
  · cases h

theorem clusterId_ne_empty (h : m.identity? = some i)
    (hlabel : m.labels.get? clusterIdLabel ≠ some "") : i.clusterId ≠ "" := by
  intro hempty
  exact hlabel ((label_of_identity? h).trans (congrArg some hempty))

theorem reconcile_living (a : Actuator) (h : m.metadata.isDeleting = false) :
    a.reconcile m = a.converge m := by
  unfold Actuator.reconcile
  rw [h]
  rfl

theorem reconcile_deleted (a : Actuator) (h : m.metadata.isDeleting = true) :
    a.reconcile m = a.release m := by
  unfold Actuator.reconcile
  rw [h]
  rfl

/-- An operation that begins, looks for the server and goes on with what it has found. -/
theorem located_ends (hi : m.identity? = some i) (hcluster : i.clusterId ≠ "") {α : Type}
    {f : MachineContext → Option Server → Attempt α} {r : Except Error α}
    (h : (do
      let ctx ← a.begin m
      let found ← ctx.identity.locate
      f ctx found : Attempt α).CanEnd Cluster.Answers k r l) :
    (∃ e, r = .error e ∧ k.Untouched l) ∨ ∃ ctx o v, ctx.machine = m ∧
      m.essentials = .ok (ctx.space, i, ctx.spec) ∧ k.Untouched v ∧ k.store.bearers i = o.toList ∧
      (f ctx o).CanEnd Cluster.Answers v r l := by
  rcases (Attempt.canEnd_bind.1 h).symm with ⟨e, rfl, hbegin⟩ | ⟨ctx, v, hbegin, hrest⟩
  · obtain ⟨rfl, -⟩ := begin_ends hbegin
    exact .inl ⟨e, rfl, rfl, .refl _⟩
  obtain ⟨rfl, hctx⟩ := begin_ends hbegin
  obtain ⟨hmachine, hm⟩ := hctx ctx rfl
  obtain rfl : i = ctx.identity := Option.some.inj (hi.symm.trans (identity?_of_essentials hm))
  rcases (Attempt.canEnd_bind.1 hrest).symm with ⟨e, rfl, hlocate⟩ | ⟨o, u, hlocate, hfound⟩
  · exact .inl ⟨e, rfl, (locate_ends hcluster hlocate).1⟩
  obtain ⟨huntouched, ho⟩ := locate_ends hcluster hlocate
  exact .inr ⟨ctx, o, u, hmachine, hm, huntouched, ho o rfl, hfound⟩

theorem exists_ends (hi : m.identity? = some i) (hcluster : i.clusterId ≠ "")
    {r : Except Error Bool}
    (h : (a.exists_ m).CanEnd Cluster.Answers k r l) :
    k.Untouched l ∧ ∀ known, r = .ok known →
      ∃ o : Option Server, k.store.bearers i = o.toList ∧ known = o.isSome := by
  rcases located_ends hi hcluster h with
    ⟨e, rfl, huntouched⟩ | ⟨ctx, o, v, -, -, huntouched, ho, hdone⟩
  · exact ⟨huntouched, by rintro known ⟨⟩⟩
  · obtain ⟨rfl, rfl⟩ := Attempt.canEnd_pure.1 hdone
    exact ⟨huntouched, fun known hknown => ⟨o, ho, (Except.ok.inj hknown).symm⟩⟩

/-- Looking after a server touches nothing at the provider, and records only the one
server there is. -/
theorem update_ends (hi : m.identity? = some i) (hcluster : i.clusterId ≠ "")
    {r : Except Error Unit}
    (h : (a.update m).CanEnd Cluster.Answers k r l) :
    k.store.Untouched l.store ∧ ((∃ e, r = .error e) ∧ l.document = k.document ∨
      ∃ x space spec, k.store.bearers i = [x] ∧ m.essentials = .ok (space, i, spec) ∧
        m.Recording (m.withServer x) k.document l.document ∧
        (r = .ok () → l.document = m.recordedIn (m.withServer x) k.document ∧ spec.Fits x)) := by
  rcases located_ends hi hcluster h with ⟨e, rfl, hdocument, hstore⟩ |
    ⟨ctx, o, v, hmachine, hm, ⟨hdocument, hstore⟩, hx, hrecord⟩
  · exact ⟨hstore, .inl ⟨⟨e, rfl⟩, hdocument⟩⟩
  cases o with
  | none =>
    obtain ⟨rfl, rfl⟩ := Attempt.canEnd_throw.1 hrecord
    exact ⟨hstore, .inl ⟨⟨_, rfl⟩, hdocument⟩⟩
  | some x =>
    rcases Attempt.canEnd_bind.1 hrecord with ⟨_, t, hsent, hdrift⟩ | ⟨e, rfl, hsent⟩
    · obtain ⟨rfl, rfl⟩ := Attempt.canEnd_ofExcept.1 hdrift
      obtain ⟨hstore', hrecording, hwhole⟩ := recordServer_ends hmachine hsent
      rw [hdocument] at hrecording hwhole
      refine ⟨hstore'.symm ▸ hstore, .inr ⟨x, _, _, hx, hm, hrecording, fun hok => ?_⟩⟩
      exact ⟨hwhole rfl, checkDrift_eq_ok.1 hok⟩
    · obtain ⟨hstore', hrecording, -⟩ := recordServer_ends hmachine hsent
      rw [hdocument] at hrecording
      exact ⟨hstore'.symm ▸ hstore, .inr ⟨x, _, _, hx, hm, hrecording, by rintro ⟨⟩⟩⟩

/-- How creating a server can end. -/
inductive Creates (m : Machine) (i : Identity) (k : Cluster) : Except Error Unit → Cluster → Prop
  | stopped {e : Error} {l : Cluster} (h : k.Untouched l) : Creates m i k (.error e) l
  | opened {e : Error} {l : Cluster} {space : String} {spec : ProviderSpec}
      (hm : m.essentials = .ok (space, i, spec)) (hdoc : l.document = k.document)
      (hstore : Opened spec k.store l.store) : Creates m i k (.error e) l
  | created {r : Except Error Unit} {l : Cluster} {space : String} {spec : ProviderSpec} {s : Store}
      {request : ServerRequest} (hm : m.essentials = .ok (space, i, spec))
      (hs : Grouped spec k.store s) (htags : i.carriedBy request.tags = true)
      (hzone : request.zone = spec.zone) (hflavor : request.flavor = spec.flavor)
      (hstore : (s.createServer request).2.Tagged (s.newborn request).uuid l.store)
      (hdoc : m.Recording (m.withServer (s.newborn request)) k.document l.document)
      (hok : r = .ok () → l.document = m.recordedIn (m.withServer (s.newborn request)) k.document) :
      Creates m i k r l

theorem Creates.of_grouped {e : Error} (hm : m.essentials = .ok (space, i, spec))
    (hdoc : l.document = k.document) (hstore : Grouped spec k.store l.store) :
    Creates m i k (.error e) l := by
  rcases hstore with hstore | hopened
  · exact .stopped ⟨hdoc, hstore⟩
  · exact .opened hm hdoc hopened

/-- A server that was asked for is recorded and its volume tagged, as far as calls succeed. -/
theorem serve_ends (hctx : ctx.machine = m) {request : ServerRequest} {schedule : Backoff}
    {r : Except Error Unit}
    (h : (do
      let x ← ctx.createServer request
      ctx.recordServer x
      ctx.tagVolume x schedule : Attempt Unit).CanEnd Cluster.Answers k r l) :
    (∃ e, r = .error e) ∧ k.Untouched l ∨
      (k.store.createServer request).2.Tagged (k.store.newborn request).uuid l.store ∧
        m.Recording (m.withServer (k.store.newborn request)) k.document l.document ∧
        (r = .ok () →
          l.document = m.recordedIn (m.withServer (k.store.newborn request)) k.document) := by
  rcases Attempt.canEnd_bind.1 h with ⟨shown, w, hcreate, hcreated⟩ | ⟨e, rfl, hcreate⟩
  · obtain ⟨hdocument, ⟨⟨e, he, -⟩, -⟩ | ⟨hshown, hmade⟩⟩ := createServer_ends hcreate
    · cases he
    cases hshown
    right
    rcases Attempt.canEnd_bind.1 hcreated with ⟨_, t, hsent, htag⟩ | ⟨e, rfl, hsent⟩
    · obtain ⟨hstore, hrecording, hwhole⟩ := recordServer_ends hctx hsent
      obtain ⟨hdocument', htagged, -⟩ := tagVolume_ends htag
      rw [hstore] at htagged
      rw [hdocument, ← hdocument'] at hrecording
      rw [hdocument, ← hdocument'] at hwhole
      exact ⟨hmade.tagged.trans htagged, hrecording, fun _ => hwhole rfl⟩
    · obtain ⟨hstore, hrecording, -⟩ := recordServer_ends hctx hsent
      rw [hdocument] at hrecording
      exact ⟨hstore ▸ hmade.tagged, hrecording, by rintro ⟨⟩⟩
  · obtain ⟨hdocument, ⟨-, huntouched⟩ | ⟨hshown, -⟩⟩ := createServer_ends hcreate
    · exact .inl ⟨⟨e, rfl⟩, hdocument, huntouched⟩
    · cases hshown

theorem create_ends (hi : m.identity? = some i) {r : Except Error Unit}
    (h : (a.create m).CanEnd Cluster.Answers k r l) : Creates m i k r l := by
  rcases (Attempt.canEnd_bind.1 h).symm with ⟨e, rfl, hbegin⟩ | ⟨ctx, v, hbegin, hbegun⟩
  · obtain ⟨rfl, -⟩ := begin_ends hbegin
    exact .stopped ⟨rfl, .refl _⟩
  obtain ⟨rfl, hctx⟩ := begin_ends hbegin
  obtain ⟨hmachine, hm⟩ := hctx ctx rfl
  obtain rfl : i = ctx.identity := Option.some.inj (hi.symm.trans (identity?_of_essentials hm))
  rcases (Attempt.canEnd_bind.1 hbegun).symm with ⟨e, rfl, hload⟩ | ⟨userData, u, hload, hloaded⟩
  · obtain rfl := loadUserData_ends hload
    exact .stopped ⟨rfl, .refl _⟩
  obtain rfl := loadUserData_ends hload
  rcases (Attempt.canEnd_bind.1 hloaded).symm with ⟨e, rfl, hgroups⟩ | ⟨groups, v, hgroups, hchosen⟩
  · obtain ⟨hdocument, hgrouped⟩ := groups_ends hgroups
    exact .of_grouped hm hdocument hgrouped
  obtain ⟨hdocument, hgrouped⟩ := groups_ends hgroups
  have htags : ctx.identity.carriedBy (ctx.serverRequest groups userData).tags = true :=
    ctx.identity.carriedBy_union ctx.spec.tags
  have hzone : (ctx.serverRequest groups userData).zone = ctx.spec.zone := rfl
  have hflavor : (ctx.serverRequest groups userData).flavor = ctx.spec.flavor := rfl
  generalize ctx.serverRequest groups userData = request at hchosen htags hzone hflavor
  rcases serve_ends hmachine hchosen with ⟨⟨e, rfl⟩, hdocument', huntouched⟩ | ⟨hstore, hdoc, hok⟩
  · exact .of_grouped hm (hdocument'.trans hdocument) (hgrouped.trans huntouched)
  · rw [hdocument] at hdoc hok
    exact .created hm hgrouped htags hzone hflavor hstore hdoc hok

/-- The document once the finalizer is set. -/
def Machine.markedIn (m : Machine) (doc : Json) : Json :=
  if m.hasFinalizer then doc else doc.merge (finalizersPatch (m.finalizers ++ [machineFinalizer]))

/-- How a pass over a machine that is not deleted can end. -/
inductive Converges (m : Machine) (i : Identity) (k : Cluster) :
    Except Error Action → Cluster → Prop
  | stopped {e : Error} {l : Cluster}
      (hdoc : l.document = k.document ∨ l.document = m.markedIn k.document)
      (hstore : k.store.Untouched l.store) : Converges m i k (.error e) l
  | updated {r : Except Error Unit} {l : Cluster} {x : Server} {space : String}
      {spec : ProviderSpec}
      (hm : m.essentials = .ok (space, i, spec)) (hx : k.store.bearers i = [x])
      (hstore : k.store.Untouched l.store)
      (hdoc : m.Recording (m.withServer x) (m.markedIn k.document) l.document)
      (hok : r = .ok () → l.document = m.recordedIn (m.withServer x) (m.markedIn k.document) ∧
        spec.Fits x) : Converges m i k (r.map fun _ => .requeue machineResync) l
  | created {r : Except Error Unit} {v l : Cluster} (hdoc : v.document = m.markedIn k.document)
      (hstore : k.store.Untouched v.store) (hnone : k.store.bearers i = [])
      (hcreate : Creates m i v r l) : Converges m i k (r.map fun _ => .requeue machineResync) l

theorem converge_ends (hi : m.identity? = some i) (hcluster : i.clusterId ≠ "")
    {r : Except Error Action} (h : (a.converge m).CanEnd Cluster.Answers k r l) :
    Converges m i k r l := by
  -- With the finalizer set, the pass looks for the server.
  have hrest : ∀ v : Cluster, v.document = m.markedIn k.document → v.store = k.store → (do
      if ← a.exists_ m then a.update m else a.create m
      return Action.requeue machineResync : Attempt Action).CanEnd Cluster.Answers v r l →
      Converges m i k r l := by
    intro v hmarked hstore h
    rcases (Attempt.canEnd_bind.1 h).symm with ⟨e, rfl, hexists⟩ | ⟨known, u, hexists, hknown⟩
    · obtain ⟨⟨hdocument, huntouched⟩, -⟩ := exists_ends hi hcluster hexists
      exact .stopped (.inr (hdocument.trans hmarked)) (hstore ▸ huntouched)
    obtain ⟨⟨hdocument, huntouched⟩, hfound⟩ := exists_ends hi hcluster hexists
    obtain ⟨o, ho, rfl⟩ := hfound _ rfl
    rw [hstore] at huntouched ho
    rw [hmarked] at hdocument
    cases o with
    | none =>
      obtain ⟨r', rfl, hcreate⟩ := Attempt.canEnd_map.1 hknown
      exact .created hdocument huntouched ho (create_ends hi hcreate)
    | some x =>
      obtain ⟨r', rfl, hupdate⟩ := Attempt.canEnd_map.1 hknown
      obtain ⟨huntouched', hends⟩ := update_ends hi hcluster hupdate
      rw [hdocument] at hends
      rcases hends with ⟨⟨e, rfl⟩, hdoc⟩ | ⟨y, space, spec, hy, hm, hdoc, hok⟩
      · exact .stopped (.inr hdoc) (huntouched.trans huntouched')
      · rw [huntouched.bearers i] at hy
        exact .updated hm hy (huntouched.trans huntouched') hdoc hok
  unfold Actuator.converge at h
  unfold Machine.markedIn at hrest
  cases hf : m.hasFinalizer with
  | true =>
    rw [hf] at hrest h
    exact hrest k rfl rfl h
  | false =>
    rw [hf] at hrest h
    rcases Attempt.canEnd_bind.1 h with ⟨_, v, hmark, hrest'⟩ | ⟨e, rfl, hmark⟩
    · obtain ⟨hstore, ⟨-, hdoc⟩ | ⟨⟨e, he, -⟩, -⟩⟩ := patchMachine_ends hmark
      · exact hrest v hdoc hstore hrest'
      · cases he
    · obtain ⟨hstore, ⟨hr, -⟩ | ⟨-, hdoc⟩⟩ := patchMachine_ends hmark
      · cases hr
      · exact .stopped (.inl hdoc) (hstore ▸ .refl _)

/-- How a pass over a deleted machine can end. -/
inductive Releases (m : Machine) (i : Identity) (k : Cluster) : Except Error Action → Cluster → Prop
  | ignored (hf : m.hasFinalizer = false) : Releases m i k (.ok .awaitChange) k
  | stopped {e : Error} {l : Cluster} (h : k.Untouched l) : Releases m i k (.error e) l
  | absent {r : Except Error Action} {l : Cluster} (hnone : k.store.bearers i = [])
      (hstore : k.store.Untouched l.store) : Releases m i k r l
  | removed {r : Except Error Action} {l : Cluster} {x : Server} (hx : k.store.bearers i = [x])
      (hservers : l.store.servers = k.store.servers.filter (·.uuid ≠ x.uuid))
      (hgroups : l.store.groups = k.store.groups.map (Store.leaveGroup x.uuid))
      (hvolumes : l.store.volumeTags = k.store.volumeTags)
      (herror : ∀ e, r = .error e → e.OfControl) : Releases m i k r l

theorem delete_ends (hi : m.identity? = some i) (hcluster : i.clusterId ≠ "")
    {r : Except Error Unit}
    (h : (a.delete m).CanEnd Cluster.Answers k r l) :
    k.Untouched l ∧ (r = .ok () → k.store.bearers i = []) ∨
      r = .ok () ∧ ∃ x, k.store.bearers i = [x] ∧
        l.store.servers = k.store.servers.filter (·.uuid ≠ x.uuid) ∧
        l.store.groups = k.store.groups.map (Store.leaveGroup x.uuid) ∧
        l.store.volumeTags = k.store.volumeTags := by
  rcases located_ends hi hcluster h with ⟨e, rfl, huntouched⟩ |
    ⟨ctx, o, v, -, -, ⟨hdocument, huntouched⟩, hx, hfound⟩
  · exact .inl ⟨huntouched, by rintro ⟨⟩⟩
  cases o with
  | none =>
    obtain ⟨rfl, rfl⟩ := Attempt.canEnd_pure.1 hfound
    exact .inl ⟨⟨hdocument, huntouched⟩, fun _ => hx⟩
  | some x =>
    obtain ⟨hdocument', answer, rfl, hserves⟩ := cloud_ends hfound
    cases answer with
    | error e =>
      have huntouched' := huntouched.trans (hserves.untouched rfl)
      exact .inl ⟨⟨hdocument'.trans hdocument, huntouched'⟩, by rintro ⟨⟩⟩
    | ok _ =>
      obtain ⟨hservers, hgroups, hvolumes⟩ := hserves.removed rfl
      rw [huntouched.servers] at hservers
      rw [huntouched.groups] at hgroups
      rw [huntouched.volumeTags] at hvolumes
      exact .inr ⟨rfl, x, hx, hservers, hgroups, hvolumes⟩

theorem release_ends (hi : m.identity? = some i) (hcluster : i.clusterId ≠ "")
    {r : Except Error Action} (h : (a.release m).CanEnd Cluster.Answers k r l) :
    Releases m i k r l := by
  unfold Actuator.release at h
  cases hf : m.hasFinalizer with
  | false =>
    rw [hf] at h
    obtain ⟨rfl, rfl⟩ := Attempt.canEnd_pure.1 h
    exact .ignored hf
  | true =>
    rw [hf] at h
    rcases (Attempt.canEnd_bind.1 h).symm with ⟨e, rfl, hdelete⟩ | ⟨_, v, hdelete, hrest⟩
    · rcases delete_ends hi hcluster hdelete with ⟨huntouched, -⟩ | ⟨hr, -⟩
      · exact .stopped huntouched
      · cases hr
    obtain ⟨r', rfl, hunmark⟩ := Attempt.canEnd_map.1 hrest
    obtain ⟨hstore, hpatched⟩ := patchMachine_ends hunmark
    rcases delete_ends hi hcluster hdelete with
      ⟨huntouched, hgone⟩ | ⟨-, x, hx, hservers, hgroups, hv⟩
    · exact .absent (hgone rfl) (hstore ▸ huntouched.2)
    · refine .removed hx (hstore ▸ hservers) (hstore ▸ hgroups) (hstore ▸ hv) ?_
      rcases hpatched with ⟨rfl, -⟩ | ⟨⟨e, rfl, he⟩, -⟩
      · rintro e ⟨⟩
      · rintro _ ⟨⟩
        exact he

end Operations

end MachineProvider
