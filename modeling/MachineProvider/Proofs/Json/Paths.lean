import MachineProvider.Proofs.Json.Patch

/-! Paths through a document, and those of them that a merge patch can change. -/
namespace MachineProvider.Json

open Entries (find?)

/-- One step down, to a member of an object or to an element of an array. -/
inductive Step where
  | key (name : String)
  | index (i : Nat)
deriving DecidableEq

abbrev Path := List Step

def child? : Json → Step → Option Json
  | object ms, .key name => find? name ms
  | array es, .index i => es[i]?
  | _, _ => none

/-- What stands at a path. -/
def at? : Json → Path → Option Json
  | v, [] => some v
  | v, s :: p => (v.child? s).bind fun w => w.at? p

/-- Nothing, null or an object: a patch that names members finds nothing there to replace. -/
def Roomy (o : Option Json) : Prop := o = none ∨ o = some null ∨ ∃ ms, o = some (object ms)

/-- Neither path leads to the other. -/
def Apart (p q : Path) : Prop := ¬ p <+: q ∧ ¬ q <+: p

instance (p q : Path) : Decidable (Apart p q) := inferInstanceAs (Decidable (_ ∧ _))

/-- The paths that begin at a member, without that step. -/
def pathsUnder (name : String) (paths : List Path) : List Path :=
  paths.filterMap fun
    | .key k :: p => if k = name then some p else none
    | _ => none

variable {v w patch : Json} {o : Option Json} {ms as bs : Entries Json} {k : String}
  {p q : Path} {paths : List Path}

theorem mem_pathsUnder : p ∈ pathsUnder k paths ↔ .key k :: p ∈ paths := by
  simp only [pathsUnder, List.mem_filterMap]
  constructor
  · rintro ⟨q, hq, heq⟩
    rcases q with _ | ⟨_ | _, r⟩
    · cases heq
    · simp only [Option.ite_none_right_eq_some, Option.some.injEq] at heq
      obtain ⟨rfl, rfl⟩ := heq
      exact hq
    · cases heq
  · intro h
    exact ⟨_, h, if_pos rfl⟩

theorem at?_key : (object ms).at? (.key k :: p) = (find? k ms).bind (·.at? p) := rfl

theorem Roomy.at?_index (h : Roomy o) {i : Nat} : o.bind (·.at? (.index i :: p)) = none := by
  rcases h with rfl | rfl | ⟨ms, rfl⟩ <;> rfl

/-- A patch that writes at the given paths or below them, and nowhere else. -/
inductive Within : List Path → Json → Prop
  | here {paths : List Path} {v : Json} (h : [] ∈ paths) : Within paths v
  | members {paths : List Path} {ms : Entries Json} (hne : paths ≠ []) (ho : ms.Ordered)
      (h : ∀ m ∈ ms, Within (pathsUnder m.1 paths) m.2) : Within paths (.object ms)

theorem Within.mono {paths' : List Path} (h : Within paths v) (hsub : paths ⊆ paths') :
    Within paths' v := by
  induction h generalizing paths' with
  | here h => exact .here (hsub h)
  | members hne ho _ ih =>
    obtain ⟨q, hq⟩ := List.exists_mem_of_ne_nil _ hne
    refine .members (List.ne_nil_of_mem (hsub hq)) ho fun m hm => ih m hm fun p hp => ?_
    exact mem_pathsUnder.2 (hsub (mem_pathsUnder.1 hp))

/-- A member of what is patched is what stood there, be it an object or not. -/
theorem bind_at?_key :
    o.bind (·.at? (.key k :: p)) = (find? k (o.getD null).members).bind (·.at? p) := by
  rcases o with _ | v
  · rfl
  · cases v <;> rfl

/-- A member below which something is written is merged, and not removed. -/
theorem Within.mergeMember (h : Within paths v) (hp : ∀ q ∈ paths, ¬ q <+: p) :
    mergeMember o (some v) = some (merge (o.getD null) v) := by
  cases v with
  | null =>
    cases h with
    | here hnil => exact absurd List.nil_prefix (hp [] hnil)
  | _ => rfl

/-- Away from the paths it writes at, a patch leaves everything as it was. It can only make an
object, out of nothing or null, to hold what it writes. -/
theorem at?_merge (hw : Within paths patch)
    (hroom : ∀ q ∈ paths, ∀ r, r <+: q → r ≠ q → Roomy (o.bind (·.at? r)))
    (hp : ∀ q ∈ paths, ¬ q <+: p) :
    (merge (o.getD null) patch).at? p = o.bind (·.at? p) ∨
      (∃ q ∈ paths, p <+: q) ∧ ∃ ms, (merge (o.getD null) patch).at? p = some (object ms) := by
  induction hw generalizing o p with
  | here h => exact absurd List.nil_prefix (hp [] h)
  | @members paths ms hne ho h ih =>
    obtain ⟨q, hq⟩ := List.exists_mem_of_ne_nil paths hne
    cases p with
    | nil => exact .inr ⟨⟨q, hq, List.nil_prefix⟩, _, rfl⟩
    | cons s p =>
      cases s with
      | index i =>
        -- An array would be lost, but there is none where members are to be written.
        have hne : [] ≠ q := fun heq => hp q hq (heq ▸ List.nil_prefix)
        have hself : o.bind (·.at? []) = o := by cases o <;> rfl
        have hroom := hroom q hq [] List.nil_prefix hne
        rw [hself] at hroom
        exact .inl hroom.at?_index.symm
      | key k =>
        change ((object (mergeMembers (o.getD null).members ms)).at? (.key k :: p) = _) ∨
          _ ∧ ∃ vs, (object (mergeMembers (o.getD null).members ms)).at? (.key k :: p) = _
        rw [bind_at?_key, at?_key, find?_mergeMembers ho]
        cases hf : find? k ms with
        | none => exact .inl rfl
        | some c =>
          have hmem := Entries.mem_of_find? hf
          have hfresh : ∀ q ∈ pathsUnder k paths, ¬ q <+: p := fun q hq hpre =>
            hp _ (mem_pathsUnder.1 hq) (List.cons_prefix_cons.2 ⟨rfl, hpre⟩)
          have hbelow : ∀ q ∈ pathsUnder k paths, ∀ r, r <+: q → r ≠ q →
              Roomy ((find? k (o.getD null).members).bind (·.at? r)) := by
            intro q hq r hr hrq
            rw [← bind_at?_key]
            exact hroom _ (mem_pathsUnder.1 hq) (.key k :: r) (List.cons_prefix_cons.2 ⟨rfl, hr⟩)
              (by simpa using hrq)
          rw [(h _ hmem).mergeMember hfresh]
          refine (ih _ hmem hbelow hfresh).imp id ?_
          rintro ⟨⟨q, hq, hpre⟩, hobj⟩
          exact ⟨⟨_, mem_pathsUnder.1 hq, List.cons_prefix_cons.2 ⟨rfl, hpre⟩⟩, hobj⟩

theorem within_of_find? (hne : paths ≠ []) (ho : ms.Ordered)
    (h : ∀ k c, find? k ms = some c → Within (pathsUnder k paths) c) : Within paths (object ms) :=
  .members hne ho fun m hm => h m.1 m.2 (Entries.find?_of_mem ho.nodup hm)

/-- The patch between two objects writes where their members differ. -/
theorem within_diff (ha : as.Ordered) (hb : bs.Ordered) (hne : paths ≠ [])
    (h : ∀ k c, change? (find? k as) (find? k bs) = some c → Within (pathsUnder k paths) c)
    (hd : diff (object as) (object bs) = some patch) : Within paths patch := by
  obtain ⟨cs, hcs, hfind, hdiff⟩ := diff_object ha hb
  rw [hdiff] at hd
  split at hd
  · cases hd
  · cases hd
    exact within_of_find? hne hcs fun k c hc => h k c ((hfind k).symm.trans hc)

end MachineProvider.Json
