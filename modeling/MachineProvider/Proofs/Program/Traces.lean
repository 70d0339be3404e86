import MachineProvider.Proofs.Program.Endings

/-! The calls of a run, each with its answer. The runs of a program in a world are those of its
traces that the world can follow. -/
namespace MachineProvider

/-- A call and what was answered. -/
abbrev Event := (c : Call) × c.Answer

namespace Event

def nap? : Event → Option Nanoseconds
  | ⟨.sleep d, _⟩ => some d
  | _ => none

def cloud? : Event → Option Cloud.Call
  | ⟨.cloud c, _⟩ => some c
  | _ => none

end Event

/-- How long is slept, each time. -/
def naps (es : List Event) : List Nanoseconds := es.filterMap Event.nap?

/-- The calls to the provider. -/
def cloudCalls (es : List Event) : List Cloud.Call := es.filterMap Event.cloud?

theorem naps_append (es fs : List Event) : naps (es ++ fs) = naps es ++ naps fs :=
  List.filterMap_append

theorem cloudCalls_append (es fs : List Event) :
    cloudCalls (es ++ fs) = cloudCalls es ++ cloudCalls fs := List.filterMap_append

namespace Program

variable {α β World : Type} {answers : World → (c : Call) → c.Answer → World → Prop}
  {w u : World} {es fs : List Event}

/-- A run with these events ends with a result. -/
def Traces : Program α → List Event → α → Prop
  | done a, es, b => es = [] ∧ b = a
  | call c next, es, b =>
    ∃ (r : c.Answer) (rest : List Event), es = ⟨c, r⟩ :: rest ∧ (next r).Traces rest b

/-- The events can happen in a world one after another, and lead to another one. -/
def Path (answers : World → (c : Call) → c.Answer → World → Prop) :
    World → List Event → World → Prop
  | w, [], u => u = w
  | w, e :: es, u => ∃ v, answers w e.1 e.2 v ∧ Path answers v es u

theorem traces_bind {p : Program α} {f : α → Program β} {b : β} :
    (p.bind f).Traces es b ↔
      ∃ before after a, es = before ++ after ∧ p.Traces before a ∧ (f a).Traces after b := by
  induction p generalizing es with
  | done a =>
    constructor
    · intro h
      exact ⟨[], es, a, rfl, ⟨rfl, rfl⟩, h⟩
    · rintro ⟨_, after, _, rfl, ⟨rfl, rfl⟩, h⟩
      exact h
  | call c next ih =>
    constructor
    · rintro ⟨r, rest, rfl, h⟩
      obtain ⟨before, after, a, rfl, ha, hb⟩ := (ih r).1 h
      exact ⟨⟨c, r⟩ :: before, after, a, rfl, ⟨r, before, rfl, ha⟩, hb⟩
    · rintro ⟨_, after, a, rfl, ⟨r, before, rfl, ha⟩, hb⟩
      exact ⟨r, before ++ after, rfl, (ih r).2 ⟨before, after, a, rfl, ha, hb⟩⟩

theorem traces_perform {c : Call} {r : c.Answer} : (perform c).Traces es r ↔ es = [⟨c, r⟩] := by
  constructor
  · rintro ⟨_, _, rfl, rfl, rfl⟩
    rfl
  · rintro rfl
    exact ⟨r, [], rfl, rfl, rfl⟩

theorem path_append :
    Path answers w (es ++ fs) u ↔ ∃ v, Path answers w es v ∧ Path answers v fs u := by
  induction es generalizing w with
  | nil =>
    constructor
    · intro h
      exact ⟨w, rfl, h⟩
    · rintro ⟨_, rfl, h⟩
      exact h
  | cons e es ih =>
    constructor
    · rintro ⟨v, he, h⟩
      obtain ⟨x, hes, hfs⟩ := ih.1 h
      exact ⟨x, ⟨v, he, hes⟩, hfs⟩
    · rintro ⟨x, ⟨v, he, hes⟩, hfs⟩
      exact ⟨v, he, ih.2 ⟨x, hes, hfs⟩⟩

theorem canEnd_iff_traces {p : Program α} {a : α} :
    p.CanEnd answers w a u ↔ ∃ es, p.Traces es a ∧ Path answers w es u := by
  induction p generalizing w with
  | done b =>
    constructor
    · rintro ⟨rfl, rfl⟩
      exact ⟨[], ⟨rfl, rfl⟩, rfl⟩
    · rintro ⟨_, ⟨rfl, rfl⟩, rfl⟩
      exact ⟨rfl, rfl⟩
  | call c next ih =>
    constructor
    · rintro ⟨r, v, hr, h⟩
      obtain ⟨es, htrace, hpath⟩ := (ih r).1 h
      exact ⟨⟨c, r⟩ :: es, ⟨r, es, rfl, htrace⟩, v, hr, hpath⟩
    · rintro ⟨_, ⟨r, es, rfl, htrace⟩, v, hr, hpath⟩
      exact ⟨r, v, hr, (ih r).2 ⟨es, htrace, hpath⟩⟩

end Program

end MachineProvider
