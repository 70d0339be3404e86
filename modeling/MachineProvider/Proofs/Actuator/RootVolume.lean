import Mathlib.Algebra.Order.BigOperators.Group.List
import Mathlib.Algebra.Order.Ring.Nat
import MachineProvider.Actuator.RootVolume
import MachineProvider.Proofs.Cloud.Identifiers
import MachineProvider.Proofs.Program.Traces

/-! What the runs of a tagging look like, whatever the provider answers, and how one of them ends at
a server whose volume is late. -/
namespace MachineProvider

open Cloud (Server Store Tags)
open Program (Path)

namespace Event

def got (uuid : String) (answer : Except Cloud.Error Server) : Event :=
  ⟨.cloud (.getServer uuid), answer⟩

def updated (volume : String) (tags : Tags) (answer : Except Cloud.Error Unit) : Event :=
  ⟨.cloud (.updateVolume volume ⟨tags⟩), answer⟩

def drew (width : Double) (spread : Option Double) : Event := ⟨.draw width, spread⟩

def slept (d : Nanoseconds) : Event := ⟨.sleep d, ()⟩

end Event

variable {uuid : String} {tags : Tags} {es : List Event} {d cap : Nanoseconds}
  {ds : List Nanoseconds}
  {o : Except AttemptError Unit} {draws : Double → Option Double → Prop} {b : Backoff}

section Delays

/-- All random numbers are drawn as they may be. -/
def Allows (draws : Double → Option Double → Prop) (es : List Event) : Prop :=
  ∀ width spread, Event.drew width spread ∈ es → draws width spread

theorem Allows.append {fs : List Event} (h : Allows draws (es ++ fs)) :
    Allows draws es ∧ Allows draws fs :=
  ⟨fun width spread hmem => h width spread (List.mem_append_left _ hmem),
    fun width spread hmem => h width spread (List.mem_append_right _ hmem)⟩

/-- So many delays can be computed, whatever is drawn. -/
def Backoff.Lasts (draws : Double → Option Double → Prop) (b : Backoff) : Nat → Prop
  | 0 => True
  | n + 1 => ∃ d c, b.next? = some (d, c) ∧
    (¬ b.jitter.toFloat ≤ 0 → ∀ spread, draws b.jitter spread →
      (spread.bind (b.jittered? d)).isSome) ∧
    Lasts draws c n

/-- What happens before the next attempt: one sleep, and maybe a draw for its length. -/
inductive Pause (cap : Nanoseconds) : List Event → Nanoseconds → Prop
  | steady {d : Nanoseconds} (h : d ≤ cap) : Pause cap [.slept d] d
  | jittered {width : Double} {spread : Option Double} {d : Nanoseconds} (h : d ≤ cap) :
    Pause cap [.drew width spread, .slept d] d

theorem Backoff.next?_le {c : Backoff} (h : b.next? = some (d, c)) : d ≤ b.cap ∧ c.cap = b.cap := by
  obtain ⟨grown, -, heq⟩ := Option.map_eq_some_iff.1 h
  obtain ⟨rfl, rfl⟩ := Prod.mk.inj heq
  exact ⟨Nat.min_le_right .., rfl⟩

theorem Backoff.jittered?_le {delay : Nanoseconds} {spread : Double}
    (h : b.jittered? delay spread = some d) : d ≤ b.cap := by
  obtain ⟨scaled, -, rfl⟩ := Option.map_eq_some_iff.1 h
  exact Nat.min_le_right ..

/-- A schedule that lasts gives a delay and lasts on. -/
theorem pause_of_traces {n : Nat} {drawn : Option (Nanoseconds × Backoff)}
    (hb : b.Lasts draws (n + 1)) (h : b.draw.Traces es drawn) (hes : Allows draws es) :
    ∃ d c, drawn = some (d, c) ∧ Pause b.cap (es ++ [.slept d]) d ∧ c.cap = b.cap ∧
      c.Lasts draws n := by
  obtain ⟨d, c, hnext, hjitter, hc⟩ := hb
  obtain ⟨hd, hcap⟩ := Backoff.next?_le hnext
  unfold Backoff.draw at h
  rw [hnext] at h
  dsimp only at h
  split at h
  · obtain ⟨rfl, rfl⟩ := h
    exact ⟨d, c, rfl, .steady hd, hcap, hc⟩
  · next hpositive =>
    obtain ⟨spread, _, rfl, rfl, rfl⟩ := h
    have hsome := hjitter hpositive spread (hes _ _ List.mem_cons_self)
    obtain ⟨jittered, hjittered⟩ := Option.isSome_iff_exists.1 hsome
    obtain ⟨x, -, hx⟩ := Option.bind_eq_some_iff.1 hjittered
    refine ⟨jittered, c, ?_, .jittered (Backoff.jittered?_le hx), hcap, hc⟩
    rw [show (spread : Option Double).bind (b.jittered? d) = some jittered from hjittered]
    rfl

end Delays

section Attempts

/-- One attempt: the server is looked at, and its first volume updated if that has an identifier. -/
inductive Attempted (uuid : String) (tags : Tags) : List Event → Except AttemptError Unit → Prop
  | unseen (e : Cloud.Error) : Attempted uuid tags [.got uuid (.error e)]
    (.error (.provider s!"failed to get server: {e.message}"))
  | bare {x : Server} (h : x.volumes = []) :
    Attempted uuid tags [.got uuid (.ok x)] (.error .noVolumes)
  | unnamed {x : Server} {v : Cloud.VolumeStub} {vs : List Cloud.VolumeStub}
      (h : x.volumes = v :: vs)
    (hv : v.uuid = "") : Attempted uuid tags [.got uuid (.ok x)] (.error .emptyVolumeUuid)
  | refused {x : Server} {v : Cloud.VolumeStub} {vs : List Cloud.VolumeStub}
      (h : x.volumes = v :: vs)
    (hv : v.uuid ≠ "") (e : Cloud.Error) :
    Attempted uuid tags [.got uuid (.ok x), .updated v.uuid tags (.error e)]
      (.error (.provider s!"failed to tag volume {v.uuid}: {e.message}"))
  | tagged {x : Server} {v : Cloud.VolumeStub} {vs : List Cloud.VolumeStub}
      (h : x.volumes = v :: vs)
    (hv : v.uuid ≠ "") :
    Attempted uuid tags [.got uuid (.ok x), .updated v.uuid tags (.ok ())] (.ok ())

theorem attempted_of_traces (h : (tryTag uuid tags).Traces es o) : Attempted uuid tags es o := by
  obtain ⟨_, rest, found, rfl, hget, hrest⟩ := Program.traces_bind.1 h
  obtain rfl := Program.traces_perform.1 hget
  cases found with
  | error e =>
    obtain ⟨rfl, rfl⟩ := hrest
    exact .unseen e
  | ok x =>
    dsimp only at hrest
    split at hrest
    · next hnone =>
      obtain ⟨rfl, rfl⟩ := hrest
      exact .bare hnone
    · next v vs hlist =>
      split at hrest
      · next hempty =>
        obtain ⟨rfl, rfl⟩ := hrest
        exact .unnamed hlist (String.isEmpty_iff.1 hempty)
      · next hname =>
        have hv : v.uuid ≠ "" := fun heq => hname (String.isEmpty_iff.2 heq)
        obtain ⟨_, _, updated, rfl, hupdate, hdone⟩ := Program.traces_bind.1 hrest
        obtain rfl := Program.traces_perform.1 hupdate
        cases updated with
        | error e =>
          obtain ⟨rfl, rfl⟩ := hdone
          exact .refused hlist hv e
        | ok _ =>
          obtain ⟨rfl, rfl⟩ := hdone
          exact .tagged hlist hv

/-- Attempts with one pause between two. The last one decides, and only it may succeed. -/
inductive Tries (uuid : String) (tags : Tags) (cap : Nanoseconds) :
    List Event → List Nanoseconds → Except AttemptError Unit → Prop
  | last {es : List Event} {o : Except AttemptError Unit} (h : Attempted uuid tags es o) :
    Tries uuid tags cap es [] o
  | again {es pause rest : List Event} {e : AttemptError} {d : Nanoseconds} {ds : List Nanoseconds}
    {o : Except AttemptError Unit} (h : Attempted uuid tags es (.error e))
    (hpause : Pause cap pause d) (hrest : Tries uuid tags cap rest ds o) :
    Tries uuid tags cap (es ++ (pause ++ rest)) (d :: ds) o

theorem Attempted.naps_eq (h : Attempted uuid tags es o) : naps es = [] := by cases h <;> rfl

theorem Attempted.gets (h : Attempted uuid tags es o) :
    (cloudCalls es).count (.getServer uuid) = 1 := by
  cases h <;> simp [cloudCalls, Event.cloud?, Event.got, Event.updated]

theorem Pause.naps_eq (h : Pause cap es d) : naps es = [d] := by cases h <;> rfl

theorem Pause.cloudCalls_eq (h : Pause cap es d) : cloudCalls es = [] := by cases h <;> rfl

theorem Pause.le (h : Pause cap es d) : d ≤ cap := by cases h <;> assumption

theorem Tries.naps_eq (h : Tries uuid tags cap es ds o) : naps es = ds := by
  induction h with
  | last h => exact h.naps_eq
  | again h hpause _ ih => rw [naps_append, naps_append, h.naps_eq, hpause.naps_eq, ih]; rfl

theorem Tries.gets (h : Tries uuid tags cap es ds o) :
    (cloudCalls es).count (.getServer uuid) = ds.length + 1 := by
  induction h with
  | last h => exact h.gets
  | again h hpause _ ih =>
    rw [cloudCalls_append, cloudCalls_append, hpause.cloudCalls_eq, List.nil_append,
      List.count_append, h.gets, ih, List.length_cons, Nat.add_comm]

theorem Tries.naps_le (h : Tries uuid tags cap es ds o) : ∀ d ∈ ds, d ≤ cap := by
  induction h with
  | last _ => simp
  | again _ hpause _ ih => exact List.forall_mem_cons.2 ⟨hpause.le, ih⟩

theorem Tries.sum_le (h : Tries uuid tags cap es ds o) : ds.sum ≤ ds.length * cap := by
  simpa using List.sum_le_card_nsmul (M := Nat) ds cap h.naps_le

/-- What is made of the last attempt after so many pauses, when there may be `left` of them:
success, or a timeout if there have been all. -/
inductive Reports (attempts left pauses : Nat) :
    Except AttemptError Unit → Except TaggingError Unit → Prop
  | tagged (h : pauses ≤ left) : Reports attempts left pauses (.ok ()) (.ok ())
  | timedOut {e : AttemptError} (h : pauses = left) :
    Reports attempts left pauses (.error e) (.error (.timeout ⟨attempts, e⟩))

theorem Reports.le {attempts left pauses : Nat} {r : Except TaggingError Unit}
    (h : Reports attempts left pauses o r) : pauses ≤ left := by
  cases h with
  | tagged h => exact h
  | timedOut h => exact h.le

theorem Reports.succ {attempts left pauses : Nat} {r : Except TaggingError Unit}
    (h : Reports attempts left pauses o r) : Reports attempts (left + 1) (pauses + 1) o r := by
  cases h with
  | tagged h => exact .tagged (Nat.succ_le_succ h)
  | timedOut h => exact .timedOut (congrArg Nat.succ h)

theorem tries_of_traces {attempts left : Nat} {r : Except TaggingError Unit}
    (hb : b.Lasts draws left)
    (h : (tagAttempts uuid tags attempts left b).Traces es r) (hes : Allows draws es) :
    ∃ ds o, Tries uuid tags b.cap es ds o ∧ Reports attempts left ds.length o r := by
  induction left generalizing es b with
  | zero =>
    unfold tagAttempts at h
    obtain ⟨_, _, o, rfl, htry, hrest⟩ := Program.traces_bind.1 h
    have htried := attempted_of_traces htry
    cases o with
    | ok _ =>
      obtain ⟨rfl, rfl⟩ := hrest
      exact ⟨[], _, .last (by simpa using htried), .tagged (Nat.le_refl 0)⟩
    | error e =>
      obtain ⟨rfl, rfl⟩ := hrest
      exact ⟨[], _, .last (by simpa using htried), .timedOut rfl⟩
  | succ left ih =>
    unfold tagAttempts at h
    obtain ⟨before, _, o, rfl, htry, hrest⟩ := Program.traces_bind.1 h
    have htried := attempted_of_traces htry
    cases o with
    | ok _ =>
      obtain ⟨rfl, rfl⟩ := hrest
      exact ⟨[], _, .last (by simpa using htried), .tagged (Nat.zero_le _)⟩
    | error e =>
      obtain ⟨drawing, _, drawn, rfl, hdraw, hdrawn⟩ := Program.traces_bind.1 hrest
      obtain ⟨d, c, rfl, hpause, hcap, hc⟩ := pause_of_traces hb hdraw hes.append.2.append.1
      obtain ⟨_, rest, _, rfl, hsleep, hagain⟩ := Program.traces_bind.1 hdrawn
      obtain rfl := Program.traces_perform.1 hsleep
      obtain ⟨ds, o, htries, hreports⟩ := ih hc hagain hes.append.2.append.2.append.2
      have hall := Tries.again htried hpause (hcap ▸ htries)
      rw [List.append_assoc] at hall
      exact ⟨d :: ds, o, hall, hreports.succ⟩

end Attempts

section Waiting

variable {s t : Store} {volume : String} {hidden : Nat}

/-- The provider in memory answers, and random numbers are drawn as they may be. -/
def Follows (draws : Double → Option Double → Prop) (s : Store) (c : Call) (r : c.Answer)
    (t : Store) : Prop :=
  match c, r with
  | .cloud c, r => s.answer c = (r, t)
  | .draw width, spread => draws width spread ∧ t = s
  | _, _ => t = s

theorem Allows.of_path (h : Path (Follows draws) s es t) : Allows draws es := by
  induction es generalizing s with
  | nil => exact fun _ _ hmem => nomatch hmem
  | cons e es ih =>
    obtain ⟨v, he, hes⟩ := h
    intro width spread hmem
    rcases List.mem_cons.1 hmem with rfl | hmem
    · exact he.1
    · exact ih hes width spread hmem

theorem Pause.store_eq (h : Pause cap es d) (hpath : Path (Follows draws) s es t) : t = s := by
  cases h with
  | steady _ =>
    obtain ⟨_, rfl, rfl⟩ := hpath
    rfl
  | jittered _ =>
    obtain ⟨_, ⟨-, rfl⟩, _, rfl, rfl⟩ := hpath
    rfl

/-- The server will be shown with the volume after so many looks without it. -/
structure Awaits (uuid volume : String) (hidden : Nat) (s : Store) : Prop where
  works : s.failures = []
  server : ∃ x v vs, s.servers.find? (·.uuid = uuid) = some x ∧ x.volumes = v :: vs ∧
    v.uuid = volume
  hidden : (s.hiddenReads.get? uuid).getD 0 = hidden

section Answers

variable {answer : Except Cloud.Error Server}

theorem Awaits.get_hidden (h : Awaits uuid volume (hidden + 1) s)
    (hr : s.answer (.getServer uuid) = (answer, t)) :
    (∃ x, answer = .ok x ∧ x.volumes = []) ∧ Awaits uuid volume hidden t := by
  obtain ⟨hworks, ⟨x, v, vs, hx, hvolumes, hv⟩, hhidden⟩ := h
  have hreads : s.hiddenReads.get? uuid = some (hidden + 1) := by
    cases hget : s.hiddenReads.get? uuid with
    | none => rw [hget] at hhidden; cases hhidden
    | some n => rw [hget] at hhidden; exact congrArg some hhidden
  rw [Store.answer_of_works hworks] at hr
  simp only [Store.perform, Store.getServer, hx, hreads] at hr
  obtain ⟨rfl, rfl⟩ := Prod.mk.inj hr
  exact ⟨⟨_, rfl, rfl⟩, hworks, ⟨x, v, vs, hx, hvolumes, hv⟩, by simp [StringMap.get?_insert]⟩

theorem Awaits.get_shown (h : Awaits uuid volume 0 s)
    (hr : s.answer (.getServer uuid) = (answer, t)) :
    (∃ x v vs, answer = .ok x ∧ x.volumes = v :: vs ∧ v.uuid = volume) ∧
    Awaits uuid volume 0 t := by
  obtain ⟨hworks, ⟨x, v, vs, hx, hvolumes, hv⟩, hhidden⟩ := h
  rw [Store.answer_of_works hworks] at hr
  simp only [Store.perform, Store.getServer, hx] at hr
  split at hr
  · next hreads => rw [hreads] at hhidden; cases hhidden
  · obtain ⟨rfl, rfl⟩ := Prod.mk.inj hr
    exact ⟨⟨x, v, vs, rfl, hvolumes, hv⟩, hworks, ⟨x, v, vs, hx, hvolumes, hv⟩, hhidden⟩

theorem Awaits.first_volume {x : Server} {v : Cloud.VolumeStub} {vs : List Cloud.VolumeStub}
    (h : Awaits uuid volume 0 s) (hr : s.answer (.getServer uuid) = (.ok x, t))
    (hx : x.volumes = v :: vs) : v.uuid = volume ∧ Awaits uuid volume 0 t := by
  obtain ⟨⟨_, _, _, ⟨⟩, hlist, hv⟩, hafter⟩ := h.get_shown hr
  obtain ⟨rfl, rfl⟩ := List.cons.inj (hx.symm.trans hlist)
  exact ⟨hv, hafter⟩

theorem Awaits.update {answer : Except Cloud.Error Unit} (h : Awaits uuid volume hidden s)
    (hr : s.answer (.updateVolume volume ⟨tags⟩) = (answer, t)) :
    answer = .ok () ∧ t.volumeTags.get? volume = some tags := by
  obtain ⟨hworks, ⟨x, v, vs, hx, hvolumes, hv⟩, -⟩ := h
  have hhas : s.hasVolume volume = true := by
    refine List.any_eq_true.2 ⟨x, List.mem_of_find?_eq_some hx, ?_⟩
    simp [hvolumes, hv]
  rw [Store.answer_of_works hworks] at hr
  change Store.updateVolume _ volume ⟨tags⟩ = _ at hr
  unfold Store.updateVolume at hr
  split at hr
  · obtain ⟨rfl, rfl⟩ := Prod.mk.inj hr
    exact ⟨rfl, by simp [StringMap.get?_insert]⟩
  · next hlacks => exact absurd hhas hlacks

end Answers

/-- While the volume is hidden, an attempt finds none and the wait gets shorter. -/
theorem Awaits.attempted_hidden (h : Awaits uuid volume (hidden + 1) s)
    (ha : Attempted uuid tags es o) (hpath : Path (Follows draws) s es t) :
    o = .error .noVolumes ∧ cloudCalls es = [.getServer uuid] ∧ Awaits uuid volume hidden t := by
  cases ha with
  | unseen e =>
    obtain ⟨_, hget, rfl⟩ := hpath
    obtain ⟨⟨_, ⟨⟩, -⟩, -⟩ := h.get_hidden hget
  | bare _ =>
    obtain ⟨_, hget, rfl⟩ := hpath
    exact ⟨rfl, rfl, (h.get_hidden hget).2⟩
  | unnamed hlist _ | refused hlist _ _ | tagged hlist _ =>
    obtain ⟨_, hget, -⟩ := hpath
    obtain ⟨⟨_, ⟨⟩, hnone⟩, -⟩ := h.get_hidden hget
    cases hlist.symm.trans hnone

/-- An attempt succeeds once the volume is shown. -/
theorem Awaits.attempted_shown (h : Awaits uuid volume 0 s) (hne : volume ≠ "")
    (ha : Attempted uuid tags es o) (hpath : Path (Follows draws) s es t) :
    o = .ok () ∧ cloudCalls es = [.getServer uuid, .updateVolume volume ⟨tags⟩] ∧
      t.volumeTags.get? volume = some tags := by
  cases ha with
  | unseen e =>
    obtain ⟨_, hget, rfl⟩ := hpath
    obtain ⟨⟨_, _, _, ⟨⟩, -⟩, -⟩ := h.get_shown hget
  | bare hnone =>
    obtain ⟨_, hget, rfl⟩ := hpath
    obtain ⟨⟨_, _, _, ⟨⟩, hlist, -⟩, -⟩ := h.get_shown hget
    cases hnone.symm.trans hlist
  | unnamed hlist hempty =>
    obtain ⟨_, hget, rfl⟩ := hpath
    obtain ⟨rfl, -⟩ := h.first_volume hget hlist
    exact absurd hempty hne
  | refused hlist _ e =>
    obtain ⟨_, hget, _, hupdate, rfl⟩ := hpath
    obtain ⟨rfl, hshown⟩ := h.first_volume hget hlist
    cases (hshown.update hupdate).1
  | tagged hlist _ =>
    obtain ⟨_, hget, _, hupdate, rfl⟩ := hpath
    obtain ⟨rfl, hshown⟩ := h.first_volume hget hlist
    exact ⟨rfl, rfl, (hshown.update hupdate).2⟩

/-- Attempts go on until the volume is shown, and end without it when there are too few. -/
theorem Awaits.tries (h : Awaits uuid volume hidden s) (hne : volume ≠ "")
    (htries : Tries uuid tags cap es ds o) (hpath : Path (Follows draws) s es t) :
    (o = .ok () ∧ ds.length = hidden ∧ t.volumeTags.get? volume = some tags ∧
      cloudCalls es =
        List.replicate (hidden + 1) (.getServer uuid) ++ [.updateVolume volume ⟨tags⟩]) ∨
    (o = .error .noVolumes ∧ ds.length < hidden ∧
      cloudCalls es = List.replicate (ds.length + 1) (.getServer uuid)) := by
  induction htries generalizing hidden s with
  | last ha =>
    cases hidden with
    | zero =>
      obtain ⟨ho, hcalls, htagged⟩ := h.attempted_shown hne ha hpath
      exact .inl ⟨ho, rfl, htagged, hcalls⟩
    | succ hidden =>
      obtain ⟨ho, hcalls, -⟩ := h.attempted_hidden ha hpath
      exact .inr ⟨ho, Nat.succ_pos _, hcalls⟩
  | again ha hpause _ ih =>
    obtain ⟨u, htried, hlater⟩ := Program.path_append.1 hpath
    obtain ⟨v, hpaused, hrest⟩ := Program.path_append.1 hlater
    obtain rfl := hpause.store_eq hpaused
    cases hidden with
    | zero => cases (h.attempted_shown hne ha htried).1
    | succ hidden =>
      obtain ⟨-, hcalls, hafter⟩ := h.attempted_hidden ha htried
      simp only [cloudCalls_append, hcalls, hpause.cloudCalls_eq, List.nil_append, List.length_cons]
      rcases ih hafter hrest with ⟨ho, hlength, htagged, hcalls'⟩ | ⟨ho, hlength, hcalls'⟩
      · exact .inl ⟨ho, congrArg Nat.succ hlength, htagged, by rw [hcalls']; rfl⟩
      · exact .inr ⟨ho, Nat.succ_lt_succ hlength, by rw [hcalls']; rfl⟩

/-- A new server awaits its volume for as many looks as are set. -/
theorem awaits_createServer (hworks : s.failures = []) (hs : s.Unissued)
    (hfresh : s.hiddenReads.get? (Store.identifier (s.issued + 1)) = none)
    (request : Cloud.ServerRequest) :
    Awaits (Store.identifier (s.issued + 1)) (Store.identifier (s.issued + 2)) s.volumeDelay
      (s.createServer request).2 := by
  obtain ⟨-, hfind⟩ := hs.find?_newborn rfl (Nat.le_refl _) request
  refine ⟨hworks, ⟨s.newborn request, _, [], hfind, rfl, rfl⟩, ?_⟩
  have hreads : (s.createServer request).2.hiddenReads = if 0 < s.volumeDelay then
      s.hiddenReads.insert (Store.identifier (s.issued + 1)) s.volumeDelay else s.hiddenReads := rfl
  rw [hreads]
  split
  · rw [StringMap.get?_insert, if_pos rfl]
    rfl
  · next hzero => rw [hfresh, Nat.eq_zero_of_not_pos hzero]; rfl

theorem identifier_ne_empty (n : Nat) : Store.identifier n ≠ "" := fun h => by
  have hlength := congrArg String.length h
  simp [Store.identifier] at hlength

/-- There is a run of every program at a provider in memory, as long as something can be drawn. -/
theorem exists_trace {α : Type} (h : ∀ width, ∃ spread, draws width spread)
    (p : Program α) (s : Store) :
    ∃ es a t, p.Traces es a ∧ Path (Follows draws) s es t := by
  have hanswered : ∀ (c : Call) (s : Store), ∃ answered : c.Answer × Store,
      Follows draws s c answered.1 answered.2 := by
    intro c s
    cases c with
    | cloud c => exact ⟨s.answer c, rfl⟩
    | draw width =>
      obtain ⟨spread, hspread⟩ := h width
      exact ⟨(spread, s), hspread, rfl⟩
    | sleep d => exact ⟨((), s), rfl⟩
    | client token => exact ⟨(.ok (), s), rfl⟩
    | control c => exact ⟨(.error (.watch ""), s), rfl⟩
  choose answer hanswer using hanswered
  obtain ⟨es, htrace, hpath⟩ := Program.canEnd_iff_traces.1 (p.canEnd_run s fun u c => hanswer c u)
  exact ⟨es, _, _, htrace, hpath⟩

end Waiting

section Runs

variable {schedule : Backoff}

/-- A tagging makes its attempts one after another with a pause between two, at most as many as the
schedule has steps but at least one. It succeeds with the first one that does, and gives the reason
of the last one when none does. A new server whose volume is hidden for some looks is tagged exactly
when these are fewer than the attempts. -/
theorem root_volume_retries
    (hlasts : schedule.Lasts draws (max schedule.steps 1 - 1)) (tags : Tags) :
    (∀ uuid es r, (tagRootVolume uuid tags schedule).Traces es r → Allows draws es →
      ∃ o, Tries uuid tags schedule.cap es (naps es) o ∧
        Reports (max schedule.steps 1) (max schedule.steps 1 - 1) (naps es).length o r ∧
        (cloudCalls es).count (.getServer uuid) = (naps es).length + 1 ∧
        (cloudCalls es).count (.getServer uuid) ≤ max schedule.steps 1 ∧
        (∀ d ∈ naps es, d ≤ schedule.cap) ∧
        (naps es).sum ≤ (max schedule.steps 1 - 1) * schedule.cap) ∧
    ∀ (s : Store) (request : Cloud.ServerRequest), s.failures = [] → s.Unissued →
      s.hiddenReads.get? (Store.identifier (s.issued + 1)) = none →
      ∀ es r t, (tagRootVolume (Store.identifier (s.issued + 1)) tags schedule).Traces es r →
        Path (Follows draws) (s.createServer request).2 es t →
        if s.volumeDelay < max schedule.steps 1 then
          r = .ok () ∧ t.volumeTags.get? (Store.identifier (s.issued + 2)) = some tags ∧
          cloudCalls es =
            List.replicate (s.volumeDelay + 1) (.getServer (Store.identifier (s.issued + 1))) ++
              [.updateVolume (Store.identifier (s.issued + 2)) ⟨tags⟩]
        else
          r = .error (.timeout ⟨max schedule.steps 1, .noVolumes⟩) ∧
          cloudCalls es =
            List.replicate (max schedule.steps 1)
              (.getServer (Store.identifier (s.issued + 1))) := by
  refine ⟨fun uuid es r htrace hes => ?_, fun s request hworks hs hfresh es r t htrace hpath => ?_⟩
  · obtain ⟨ds, o, htries, hreports⟩ := tries_of_traces hlasts htrace hes
    obtain rfl := htries.naps_eq
    have hpauses := hreports.le
    refine ⟨o, htries, hreports, htries.gets, by rw [htries.gets]; omega, htries.naps_le, ?_⟩
    exact htries.sum_le.trans (Nat.mul_le_mul_right _ hpauses)
  · obtain ⟨ds, o, htries, hreports⟩ := tries_of_traces hlasts htrace (.of_path hpath)
    have hawaits := awaits_createServer hworks hs hfresh request
    rcases hawaits.tries (identifier_ne_empty _) htries hpath with
      ⟨rfl, hlength, htagged, hcalls⟩ | ⟨rfl, hlength, hcalls⟩
    · cases hreports with
      | tagged hle =>
        rw [if_pos (by omega)]
        exact ⟨rfl, htagged, hcalls⟩
    · cases hreports with
      | timedOut hall =>
        rw [if_neg (by omega)]
        exact ⟨rfl, by rw [hcalls, hall, Nat.sub_add_cancel (Nat.le_max_right ..)]⟩

/-- From one millisecond, doubling up to five, three attempts, a tenth of jitter. -/
def brisk : Backoff := ⟨1000000, .ofFloat 2, .ofFloat 0.1, 5000000, 3⟩

/-- No jitter, or all of a tenth. -/
def TenthDrawn (_ : Double) (spread : Option Double) : Prop :=
  spread ∈ [some (.ofFloat (-0.1)), some ⟨0⟩, some (.ofFloat 0.1)]

theorem tenthDrawn_some (width : Double) : ∃ spread, TenthDrawn width spread :=
  ⟨_, List.mem_cons_self⟩

theorem brisk_lasts : brisk.Lasts TenthDrawn 2 := by
  refine ⟨1000000, { brisk with current := 2000000 }, by decide +kernel, fun _ => ?_,
    2000000, { brisk with current := 4000000 }, by decide +kernel, fun _ => ?_, trivial⟩
  · unfold TenthDrawn
    decide +kernel
  · unfold TenthDrawn
    decide +kernel

/-- A store whose new servers hide their volumes for two looks. -/
def lateStore : Store := { Store.empty with volumeDelay := 2 }

theorem unissued_lateStore : lateStore.Unissued :=
  ⟨by rintro _ ⟨⟩, by rintro _ ⟨⟩⟩

/-- The third and last attempt finds a volume that is hidden for two looks. -/
theorem root_volume_retries_brisk : ∃ es t,
    (tagRootVolume (Store.identifier 1) default brisk).Traces es (.ok ()) ∧
      Path (Follows TenthDrawn) (lateStore.createServer default).2 es t ∧
      cloudCalls es = [.getServer (Store.identifier 1), .getServer (Store.identifier 1),
        .getServer (Store.identifier 1), .updateVolume (Store.identifier 2) ⟨default⟩] ∧
      (naps es).length = 2 ∧ (naps es).sum ≤ 2 * 5000000 := by
  obtain ⟨es, r, t, htrace, hpath⟩ := exists_trace tenthDrawn_some
    (tagRootVolume (Store.identifier 1) default brisk) (lateStore.createServer default).2
  obtain ⟨hbounded, hwaits⟩ := root_volume_retries brisk_lasts default
  obtain ⟨rfl, -, hcalls⟩ := hwaits lateStore default rfl unissued_lateStore rfl es r t htrace hpath
  obtain ⟨_, _, _, hgets, -, -, hsum⟩ := hbounded _ es _ htrace (.of_path hpath)
  refine ⟨es, t, htrace, hpath, hcalls, ?_, hsum⟩
  have hthree : (cloudCalls es).count (.getServer (Store.identifier 1)) = 3 := by
    rw [hcalls]
    decide +kernel
  omega

end Runs

end MachineProvider
