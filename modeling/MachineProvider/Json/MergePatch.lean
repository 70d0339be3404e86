import MachineProvider.Json.Basic
/-!
Merge patches: a member of the patch replaces the target's member, null removes it, and objects
merge member by member. `diff` finds the patch between two documents and `merge` applies one.
-/
namespace MachineProvider.Json

mutual
/-- The patch from one document to another; none when they are equal. -/
def diff (source goal : Json) : Option Json :=
  if same source goal then none
  else
    match source, goal with
    | object old, object new =>
      match diffMembers old new ++ removals old new with
      | [] => none
      | changes => some (ofMembers changes)
    | _, _ => some goal

/-- The members that are new or changed. -/
def diffMembers (old : List (String × Json)) : List (String × Json) → List (String × Json)
  | [] => []
  | (k, v) :: rest =>
    match Entries.find? k old with
    | none => (k, v) :: diffMembers old rest
    | some previous =>
      match diff previous v with
      | none => diffMembers old rest
      | some change => (k, change) :: diffMembers old rest

/-- Null for every member that is gone. -/
def removals (old new : List (String × Json)) : List (String × Json) :=
  (old.filter fun (k, _) => (Entries.find? k new).isNone).map fun (k, _) => (k, null)
end

/-- The members of a document; one that is no object has none. -/
def members : Json → Entries Json
  | object ms => ms
  | _ => []

mutual
/-- The document with a patch applied; a patch that is no object replaces it. -/
def merge (target : Json) : Json → Json
  | object changes => object (mergeMembers target.members changes)
  | patch => patch

/-- The members with the changes applied one after the other. -/
def mergeMembers (ms : Entries Json) : List (String × Json) → Entries Json
  | [] => ms
  | (k, null) :: rest => mergeMembers (Entries.erase k ms) rest
  | (k, v) :: rest =>
    mergeMembers (Entries.insert k (merge ((Entries.find? k ms).getD null) v) ms) rest
end

/-- A document without its status, and the status. -/
def splitStatus : Json → Json × Json
  | object ms => (object (Entries.erase "status" ms), (Entries.find? "status" ms).getD null)
  | v => (v, null)

end MachineProvider.Json
