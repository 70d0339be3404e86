import MachineProvider.Proofs.Cloud.Bearers

/-! What each provider call does to the store. A failed call does nothing, and the record of calls
is never looked at. -/
namespace MachineProvider.Cloud.Store

variable {s t u : Store}

/-- The stores differ at most in the calls on record. -/
structure Untouched (s t : Store) : Prop where
  servers : t.servers = s.servers
  groups : t.groups = s.groups
  volumeTags : t.volumeTags = s.volumeTags
  hiddenReads : t.hiddenReads = s.hiddenReads
  volumeDelay : t.volumeDelay = s.volumeDelay
  failures : t.failures = s.failures
  issued : t.issued = s.issued

namespace Untouched

theorem refl (s : Store) : Untouched s s := ⟨rfl, rfl, rfl, rfl, rfl, rfl, rfl⟩

theorem symm (h : Untouched s t) : Untouched t s := by
  obtain ⟨h₁, h₂, h₃, h₄, h₅, h₆, h₇⟩ := h
  exact ⟨h₁.symm, h₂.symm, h₃.symm, h₄.symm, h₅.symm, h₆.symm, h₇.symm⟩

theorem trans (h : Untouched s t) (h' : Untouched t u) : Untouched s u := by
  obtain ⟨h₁, h₂, h₃, h₄, h₅, h₆, h₇⟩ := h
  obtain ⟨h₁', h₂', h₃', h₄', h₅', h₆', h₇'⟩ := h'
  exact ⟨h₁'.trans h₁, h₂'.trans h₂, h₃'.trans h₃, h₄'.trans h₄, h₅'.trans h₅, h₆'.trans h₆,
    h₇'.trans h₇⟩

theorem eq (h : Untouched s t) : t = { s with calls := t.calls } := by
  obtain ⟨h₁, h₂, h₃, h₄, h₅, h₆, h₇⟩ := h
  cases t
  subst h₁ h₂ h₃ h₄ h₅ h₆ h₇
  rfl

theorem of_calls (s : Store) (calls : List Call) : Untouched s { s with calls } :=
  ⟨rfl, rfl, rfl, rfl, rfl, rfl, rfl⟩

/-- Stores that differ in the calls on record only do the same from there. -/
theorem perform (h : Untouched s t) (c : Call) :
    (t.perform c).1 = (s.perform c).1 ∧ Untouched (s.perform c).2 (t.perform c).2 := by
  rw [h.eq]
  cases c with
  | createServer request => exact ⟨rfl, of_calls ..⟩
  | createGroup request => exact ⟨rfl, of_calls ..⟩
  | listServers filter => exact ⟨rfl, of_calls ..⟩
  | listGroups filter => exact ⟨rfl, of_calls ..⟩
  | getServer uuid =>
    simp only [Store.perform, getServer]
    cases s.servers.find? (·.uuid = uuid) with
    | none => exact ⟨rfl, of_calls ..⟩
    | some server =>
      cases s.hiddenReads.get? uuid with
      | none => exact ⟨rfl, of_calls ..⟩
      | some reads => cases reads <;> exact ⟨rfl, of_calls ..⟩
  | deleteServer uuid =>
    simp only [Store.perform, deleteServer]
    split <;> exact ⟨rfl, of_calls ..⟩
  | updateVolume uuid request =>
    simp only [Store.perform, updateVolume]
    rw [show hasVolume { s with calls := t.calls } uuid = s.hasVolume uuid from rfl]
    cases s.hasVolume uuid <;> exact ⟨rfl, of_calls ..⟩

theorem answer (h : Untouched s t) (c : Call) :
    (t.answer c).1 = (s.answer c).1 ∧ Untouched (s.answer c).2 (t.answer c).2 := by
  have hlogged : Untouched { s with calls := s.calls ++ [c] } { t with calls := t.calls ++ [c] } :=
    ((of_calls s _).symm.trans h).trans (of_calls t _)
  have hfailure : t.failure? c.operation = s.failure? c.operation := by
    unfold failure?
    rw [h.failures]
  cases hf : s.failure? c.operation with
  | some text =>
    rw [answer_failing hf, answer_failing (hfailure.trans hf)]
    exact ⟨rfl, hlogged⟩
  | none =>
    rw [answer_working hf, answer_working (hfailure.trans hf)]
    exact hlogged.perform c

theorem bearers (h : Untouched s t) (i : Identity) : t.bearers i = s.bearers i :=
  bearers_congr h.servers i

end Untouched

section Serves

variable {c : Call}

/-- A call that succeeds does what it does when nothing fails. -/
theorem Serves.performed {a : c.Result} {r : Except Error c.Result} (h : s.Serves c r t)
    (hr : r = .ok a) : (s.perform c).1 = .ok a ∧ Untouched (s.perform c).2 t := by
  cases h with
  | failed e => cases hr
  | answered =>
    cases hf : s.failure? c.operation with
    | some text => rw [answer_failing hf] at hr; cases hr
    | none =>
      rw [answer_working hf] at hr ⊢
      obtain ⟨hresult, hstore⟩ := (Untouched.of_calls s (s.calls ++ [c])).perform c
      exact ⟨hresult.symm.trans hr, hstore⟩

theorem answer_of_works (hf : s.failures = []) (c : Call) :
    s.answer c = perform { s with calls := s.calls ++ [c] } c :=
  answer_working (by simp [failure?, hf])

/-- When no failure is set, a call can do what it does. -/
theorem exists_serves (hf : s.failures = []) (c : Call) :
    ∃ t, s.Serves c (s.perform c).1 t ∧ Untouched (s.perform c).2 t := by
  have hworking : s.failure? c.operation = none := by simp [failure?, hf]
  obtain ⟨hresult, hstore⟩ := (Untouched.of_calls s (s.calls ++ [c])).perform c
  rw [← answer_working hworking] at hresult hstore
  exact ⟨_, hresult ▸ .answered, hstore⟩

theorem Serves.untouched {e : Error} {r : Except Error c.Result} (h : s.Serves c r t)
    (hr : r = .error e) : Untouched s t := by
  obtain ⟨calls, h⟩ := h.performs
  cases h with
  | failed e => exact .of_calls ..
  | _ => cases hr

theorem Serves.listed_servers {filter : Option TagFilter}
    {r : Except Error (Call.listServers filter).Result} (h : s.Serves (.listServers filter) r t) :
    Untouched s t := by
  obtain ⟨calls, h⟩ := h.performs
  cases h <;> exact .of_calls ..

theorem Serves.listed_groups {filter : Option TagFilter} {gs : List ServerGroup}
    {r : Except Error (Call.listGroups filter).Result} (h : s.Serves (.listGroups filter) r t)
    (hr : r = .ok gs) : gs = s.listGroups filter ∧ Untouched s t := by
  obtain ⟨calls, h⟩ := h.performs
  cases h with
  | failed e => cases hr
  | grouped => exact ⟨(Except.ok.inj hr).symm, .of_calls ..⟩

end Serves

/-- The server that the next request for one makes. -/
def newborn (s : Store) (request : ServerRequest) : Server :=
  s.build request (identifier (s.issued + 1)) (identifier (s.issued + 2))

/-- What a request for a server leaves behind: the server at the end, and a member more in every
group it names. -/
theorem Serves.created {request : ServerRequest} {shown : Server}
    {r : Except Error (Call.createServer request).Result} (h : s.Serves (.createServer request) r t)
    (hr : r = .ok shown) :
    shown = { s.newborn request with volumes := [] } ∧
      t.servers = s.servers ++ [s.newborn request] ∧
      t.groups = request.groups.foldl (fun gs g => joinGroup g (member (s.newborn request).uuid) gs)
        s.groups ∧ t.volumeTags = s.volumeTags ∧ t.issued = s.issued + 2 := by
  obtain ⟨calls, h⟩ := h.performs
  cases h with
  | failed e => cases hr
  | created => exact ⟨(Except.ok.inj hr).symm, rfl, rfl, rfl, rfl⟩

/-- A group made on request is the last one and empty. -/
theorem Serves.opened {request : GroupRequest} {g : ServerGroup}
    {r : Except Error (Call.createGroup request).Result} (h : s.Serves (.createGroup request) r t)
    (hr : r = .ok g) :
    g = (s.createGroup request).1 ∧ Untouched (s.createGroup request).2 t := by
  obtain ⟨calls, h⟩ := h.performs
  cases h with
  | failed e => cases hr
  | opened => exact ⟨(Except.ok.inj hr).symm, .of_calls ..⟩

theorem Serves.removed {uuid : String} {r : Except Error (Call.deleteServer uuid).Result}
    (h : s.Serves (.deleteServer uuid) r t) (hr : r = .ok ()) :
    t.servers = s.servers.filter (·.uuid ≠ uuid) ∧ t.groups = s.groups.map (leaveGroup uuid) ∧
      t.volumeTags = s.volumeTags := by
  obtain ⟨calls, h⟩ := h.performs
  cases h with
  | failed e => cases hr
  | removed => exact ⟨rfl, rfl, rfl⟩

/-- A look at one server shows it as it is, or without its volumes. -/
theorem Serves.seen {uuid : String} {server : Server}
    {r : Except Error (Call.getServer uuid).Result}
    (h : s.Serves (.getServer uuid) r t) (hr : r = .ok server) :
    ∃ x, s.servers.find? (·.uuid = uuid) = some x ∧
      (server = x ∨ server = { x with volumes := [] }) := by
  obtain ⟨calls, h⟩ := h.performs
  cases h with
  | failed e => cases hr
  | shown hx => exact ⟨_, hx, .inl (Except.ok.inj hr).symm⟩
  | hidden hx => exact ⟨_, hx, .inr (Except.ok.inj hr).symm⟩

theorem Serves.groups_eq {c : Call} {r : Except Error c.Result} (h : s.Serves c r t)
    (hcreate : ∀ request, c ≠ .createServer request) (hdelete : ∀ uuid, c ≠ .deleteServer uuid)
    (hopen : ∀ request, c ≠ .createGroup request) : t.groups = s.groups := by
  obtain ⟨calls, h⟩ := h.performs
  cases h with
  | created request => exact absurd rfl (hcreate request)
  | removed => exact absurd rfl (hdelete _)
  | opened request => exact absurd rfl (hopen request)
  | _ => rfl

theorem Serves.volumeTags_eq {c : Call} {r : Except Error c.Result} (h : s.Serves c r t)
    (hupdate : ∀ uuid request, c ≠ .updateVolume uuid request) : t.volumeTags = s.volumeTags := by
  obtain ⟨calls, h⟩ := h.performs
  cases h with
  | tagged request => exact absurd rfl (hupdate _ request)
  | _ => rfl

theorem Serves.failures_eq {c : Call} {r : Except Error c.Result} (h : s.Serves c r t) :
    t.failures = s.failures := by
  obtain ⟨calls, h⟩ := h.performs
  cases h <;> rfl

/-- New tags of a volume are the tags of that volume only. -/
theorem Serves.tagged {uuid volume : String} {request : VolumeRequest}
    {r : Except Error (Call.updateVolume volume request).Result}
    (h : s.Serves (.updateVolume volume request) r t) (hne : uuid ≠ volume) :
    t.volumeTags.get? uuid = s.volumeTags.get? uuid := by
  obtain ⟨calls, h⟩ := h.performs
  cases h with
  | failed e => rfl
  | tagged => exact (StringMap.get?_insert ..).trans (if_neg hne)

theorem Serves.rootTagged {volume : String} {request : VolumeRequest}
    {r : Except Error (Call.updateVolume volume request).Result}
    (h : s.Serves (.updateVolume volume request) r t) (hr : r = .ok ()) :
    t.volumeTags = s.volumeTags.insert volume request.tags := by
  obtain ⟨calls, h⟩ := h.performs
  cases h with
  | failed e => cases hr
  | tagged => rfl

end MachineProvider.Cloud.Store
