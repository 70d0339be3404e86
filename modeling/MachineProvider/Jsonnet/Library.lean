/-! The builtin functions of the standard library: their names and their parameters. -/
namespace MachineProvider.Jsonnet

inductive Builtin where
  | typeOf
  | length
  | id
  | extVar
  | trace
  | makeArray
  | range
  | map
  | filter
  | foldl
  | foldr
  | sortImpl
  | reverse
  | count
  | member
  | join
  | objectFieldsEx
  | objectHasEx
  | substr
  | splitLimit
  | strReplace
  | asciiUpper
  | asciiLower
  | codepoint
  | char
  | format
  | md5
  | base64
  | base64Decode
  | escapeStringJson
  | parseJson
  | manifestJsonEx
  | floor
  | ceil
  | sqrt
  | pow
deriving DecidableEq

namespace Builtin

/-- The names a function and its parameters go by. -/
structure Entry where
  builtin : Builtin
  name : String
  params : List String

def entries : List Entry :=
  [⟨.typeOf, "type", ["x"]⟩,
   ⟨.length, "length", ["x"]⟩,
   ⟨.id, "id", ["v"]⟩,
   ⟨.extVar, "extVar", ["x"]⟩,
   ⟨.trace, "trace", ["str", "rest"]⟩,
   ⟨.makeArray, "makeArray", ["sz", "func"]⟩,
   ⟨.range, "range", ["from", "to"]⟩,
   ⟨.map, "map", ["func", "arr"]⟩,
   ⟨.filter, "filter", ["func", "arr"]⟩,
   ⟨.foldl, "foldl", ["func", "arr", "init"]⟩,
   ⟨.foldr, "foldr", ["func", "arr", "init"]⟩,
   ⟨.sortImpl, "sortImpl", ["arr", "keyF"]⟩,
   ⟨.reverse, "reverse", ["value"]⟩,
   ⟨.count, "count", ["arr", "x"]⟩,
   ⟨.member, "member", ["arr", "x"]⟩,
   ⟨.join, "join", ["sep", "arr"]⟩,
   ⟨.objectFieldsEx, "objectFieldsEx", ["obj", "inc_hidden"]⟩,
   ⟨.objectHasEx, "objectHasEx", ["obj", "fname", "inc_hidden"]⟩,
   ⟨.substr, "substr", ["str", "from", "len"]⟩,
   ⟨.splitLimit, "splitLimit", ["str", "c", "maxSplits"]⟩,
   ⟨.strReplace, "strReplace", ["str", "from", "to"]⟩,
   ⟨.asciiUpper, "asciiUpper", ["str"]⟩,
   ⟨.asciiLower, "asciiLower", ["str"]⟩,
   ⟨.codepoint, "codepoint", ["str"]⟩,
   ⟨.char, "char", ["n"]⟩,
   ⟨.format, "format", ["str", "vals"]⟩,
   ⟨.md5, "md5", ["str"]⟩,
   ⟨.base64, "base64", ["input"]⟩,
   ⟨.base64Decode, "base64Decode", ["str"]⟩,
   ⟨.escapeStringJson, "escapeStringJson", ["str_"]⟩,
   ⟨.parseJson, "parseJson", ["s"]⟩,
   ⟨.manifestJsonEx, "manifestJsonEx", ["value", "indent"]⟩,
   ⟨.floor, "floor", ["x"]⟩,
   ⟨.ceil, "ceil", ["x"]⟩,
   ⟨.sqrt, "sqrt", ["x"]⟩,
   ⟨.pow, "pow", ["x", "n"]⟩]

def ofName? (name : String) : Option Builtin :=
  (entries.find? (·.name == name)).map (·.builtin)

def params (b : Builtin) : List String :=
  ((entries.find? (·.builtin == b)).map (·.params)).getD []

end Builtin

end MachineProvider.Jsonnet
