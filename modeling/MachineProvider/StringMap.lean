/-! Finite maps over string keys, kept as entries in strictly increasing order of their keys. -/
namespace MachineProvider

/-- Keyed entries; the operations keep them in increasing order. -/
abbrev Entries (α : Type) := List (String × α)

namespace Entries

variable {α β : Type}

def Ordered (es : Entries α) : Prop := es.Pairwise fun a b => a.1 < b.1

instance (es : Entries α) : Decidable es.Ordered :=
  inferInstanceAs (Decidable (es.Pairwise _))

/-- The value of the first entry under a key. -/
def find? (key : String) : Entries α → Option α
  | [] => none
  | (k, v) :: rest => if k = key then some v else find? key rest

def keys (es : Entries α) : List String := es.map (·.1)

/-- Adds an entry at its place, replacing one of the same key. -/
def insert (key : String) (value : α) : Entries α → Entries α
  | [] => [(key, value)]
  | (k, v) :: rest =>
    if key < k then (key, value) :: (k, v) :: rest
    else if key = k then (key, value) :: rest
    else (k, v) :: insert key value rest

def erase (key : String) (es : Entries α) : Entries α := es.filter (·.1 ≠ key)

/-- Entries in key order; of two entries under one key the later wins. -/
def ofList (pairs : List (String × α)) : Entries α :=
  pairs.foldl (fun es p => insert p.1 p.2 es) []

theorem find?_insert {key : String} {value : α} {es : Entries α} {k : String} :
    find? k (es.insert key value) = if k = key then some value else find? k es := by
  induction es with
  | nil => simp [insert, find?, eq_comm]
  | cons e rest ih =>
    obtain ⟨l, v⟩ := e
    simp only [insert]
    split
    · simp [find?, eq_comm]
    · split
      · next heq => subst heq; by_cases hk : k = key <;> simp [find?, hk, Ne.symm]
      · next hne =>
        simp only [find?, ih]
        by_cases hl : l = k
        · subst hl; simp [Ne.symm hne]
        · simp [hl]

theorem find?_erase {key : String} {es : Entries α} {k : String} :
    find? k (es.erase key) = if k = key then none else find? k es := by
  induction es with
  | nil => simp [erase, find?]
  | cons e rest ih =>
    obtain ⟨l, v⟩ := e
    by_cases hl : l = key
    · subst hl
      by_cases hk : k = l <;> simp_all [erase, find?, eq_comm]
    · by_cases hk : k = l
      · subst hk; simp [erase, find?, hl]
      · simp_all [erase, find?, eq_comm]

theorem mem_insert {key : String} {value : α} {es : Entries α} {p : String × α}
    (h : p ∈ insert key value es) : p = (key, value) ∨ p ∈ es := by
  induction es with
  | nil => simpa [insert] using h
  | cons e rest ih =>
    obtain ⟨k, v⟩ := e
    simp only [insert] at h
    split at h
    · simpa using h
    · split at h
      · rcases List.mem_cons.1 h with h | h
        · exact .inl h
        · exact .inr (List.mem_cons_of_mem _ h)
      · rcases List.mem_cons.1 h with h | h
        · exact .inr (h ▸ List.mem_cons_self)
        · exact (ih h).imp_right (List.mem_cons_of_mem _)

theorem Ordered.insert {key : String} {value : α} {es : Entries α} (h : es.Ordered) :
    (es.insert key value).Ordered := by
  induction es with
  | nil => exact List.pairwise_singleton _ _
  | cons e rest ih =>
    obtain ⟨k, v⟩ := e
    obtain ⟨hhead, htail⟩ := List.pairwise_cons.1 h
    simp only [Entries.insert]
    split
    · next hlt =>
      refine List.pairwise_cons.2 ⟨fun p hp => ?_, h⟩
      rcases List.mem_cons.1 hp with rfl | hp
      · exact hlt
      · exact String.lt_trans hlt (hhead p hp)
    · next hge =>
      split
      · next heq =>
        subst heq
        exact List.pairwise_cons.2 ⟨hhead, htail⟩
      · next hne =>
        refine List.pairwise_cons.2 ⟨fun p hp => ?_, ih htail⟩
        rcases mem_insert hp with rfl | hp
        · exact Decidable.byContradiction fun hlt => hne (String.le_antisymm hlt hge)
        · exact hhead p hp

theorem Ordered.erase {key : String} {es : Entries α} (h : es.Ordered) :
    (es.erase key).Ordered := List.Pairwise.filter _ h

theorem Ordered.foldl_insert {pairs : List (String × α)} {es : Entries α} (h : es.Ordered) :
    (pairs.foldl (fun es p => Entries.insert p.1 p.2 es) es : Entries α).Ordered := by
  induction pairs generalizing es with
  | nil => exact h
  | cons p rest ih => exact ih h.insert

theorem ordered_ofList (pairs : List (String × α)) : (ofList pairs).Ordered :=
  Ordered.foldl_insert .nil

end Entries

/-- A finite map from strings. -/
structure StringMap (α : Type) where
  entries : Entries α
  ordered : entries.Ordered

namespace StringMap

variable {α β : Type}

instance [DecidableEq α] : DecidableEq (StringMap α)
  | ⟨a, _⟩, ⟨b, _⟩ => decidable_of_iff (a = b) ⟨fun h => by subst h; rfl, fun h => by cases h; rfl⟩

def empty : StringMap α := ⟨[], .nil⟩

instance : Inhabited (StringMap α) := ⟨empty⟩

instance : EmptyCollection (StringMap α) := ⟨empty⟩

def isEmpty (m : StringMap α) : Bool := m.entries.isEmpty

def get? (m : StringMap α) (key : String) : Option α := m.entries.find? key

def contains (m : StringMap α) (key : String) : Bool := (m.get? key).isSome

def insert (m : StringMap α) (key : String) (value : α) : StringMap α :=
  ⟨m.entries.insert key value, m.ordered.insert⟩

theorem get?_insert {m : StringMap α} {key : String} {value : α} {k : String} :
    (m.insert key value).get? k = if k = key then some value else m.get? k := Entries.find?_insert

def ofList (pairs : List (String × α)) : StringMap α :=
  ⟨Entries.ofList pairs, Entries.ordered_ofList pairs⟩

def toList (m : StringMap α) : List (String × α) := m.entries

/-- Both maps together; where both hold a key, the second one's value counts. -/
def union (m n : StringMap α) : StringMap α :=
  ⟨n.entries.foldl (fun es p => es.insert p.1 p.2) m.entries,
    Entries.Ordered.foldl_insert m.ordered⟩

/-- The same keys with their values changed. -/
def map (f : α → β) (m : StringMap α) : StringMap β :=
  ⟨m.entries.map fun p => (p.1, f p.2), by
    have h := m.ordered
    exact List.pairwise_map.2 (List.Pairwise.imp (fun h => h) h)⟩

end StringMap

end MachineProvider
