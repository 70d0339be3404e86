import MachineProvider.StringMap
import MachineProvider.Json.Number
/-!
JSON documents. A canonical document keeps the members of every object in key order, each key
once; `canonical` gives that form.
-/
namespace MachineProvider

inductive Json where
  | null
  | bool (value : Bool)
  | number (value : Json.Number)
  | string (value : String)
  | array (elements : List Json)
  | object (members : List (String × Json))
deriving Inhabited

namespace Json

mutual
/-- Equality of documents, numbers compared as numbers. -/
def same : Json → Json → Bool
  | null, null => true
  | bool a, bool b => a == b
  | number a, number b => a.same b
  | string a, string b => a == b
  | array a, array b => sameElements a b
  | object a, object b => sameMembers a b
  | _, _ => false

def sameElements : List Json → List Json → Bool
  | [], [] => true
  | a :: as, b :: bs => same a b && sameElements as bs
  | _, _ => false

def sameMembers : List (String × Json) → List (String × Json) → Bool
  | [], [] => true
  | (k, a) :: as, (l, b) :: bs => k == l && same a b && sameMembers as bs
  | _, _ => false
end

instance : BEq Json := ⟨same⟩

mutual
/-- Members in key order; of repeated keys the last counts. -/
def canonical : Json → Json
  | array es => array (canonicalElements es)
  | object ms => object (Entries.ofList (canonicalMembers ms))
  | leaf => leaf

def canonicalElements : List Json → List Json
  | [] => []
  | e :: es => canonical e :: canonicalElements es

def canonicalMembers : List (String × Json) → List (String × Json)
  | [] => []
  | (k, v) :: ms => (k, canonical v) :: canonicalMembers ms
end

mutual
/-- Every object lists its members in key order, each key once. -/
def Canonical : Json → Prop
  | array es => CanonicalElements es
  | object ms => Entries.Ordered ms ∧ CanonicalMembers ms
  | _ => True

def CanonicalElements : List Json → Prop
  | [] => True
  | e :: es => Canonical e ∧ CanonicalElements es

def CanonicalMembers : List (String × Json) → Prop
  | [] => True
  | (_, v) :: ms => Canonical v ∧ CanonicalMembers ms
end

/-- The member of an object under a key. -/
def get? (key : String) : Json → Option Json
  | object ms => Entries.find? key ms
  | _ => none

def asString? : Json → Option String
  | string s => some s
  | _ => none

def isNull : Json → Bool
  | null => true
  | _ => false

/-- An integer; one that needs more than 64 bits is no JSON value of this library. -/
def int (n : Int) : Json := number (.integer n)

def nat (n : Nat) : Json := int n

/-- An object from members in any order. -/
def ofMembers (ms : List (String × Json)) : Json := object (Entries.ofList ms)

/-- An object from the members that are present. -/
def record (ms : List (String × Option Json)) : Json :=
  ofMembers (ms.filterMap fun (k, v) => v.map (k, ·))

def ofMap (m : StringMap Json) : Json := object m.entries

def ofStrings (m : StringMap String) : Json := ofMap (m.map string)

end Json

end MachineProvider
