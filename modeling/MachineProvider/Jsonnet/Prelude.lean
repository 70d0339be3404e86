import MachineProvider.Jsonnet.Grammar
/-!
The part of the standard library that is written in the template language itself, over the
builtin functions.
-/
namespace MachineProvider.Jsonnet

/-- The members of the library's object. -/
def preludeMembers : List String :=
  ["__intrinsic_namespace__:: 'std'",
   "local std = self",
   "local id = std.id",

   "isString(v):: std.type(v) == 'string'",
   "isNumber(v):: std.type(v) == 'number'",
   "isBoolean(v):: std.type(v) == 'boolean'",
   "isObject(v):: std.type(v) == 'object'",
   "isArray(v):: std.type(v) == 'array'",
   "isFunction(v):: std.type(v) == 'function'",
   "toString(a):: if std.type(a) == 'string' then a else '' + a",

   "startsWith(a, b)::
      if std.length(a) < std.length(b) then false
      else std.substr(a, 0, std.length(b)) == b",
   "endsWith(a, b)::
      if std.length(a) < std.length(b) then false
      else std.substr(a, std.length(a) - std.length(b), std.length(b)) == b",
   "lstripChars(str, chars)::
      if std.length(str) > 0 && std.member(chars, str[0]) then std.lstripChars(str[1:], chars)
      else str",
   "rstripChars(str, chars)::
      local len = std.length(str);
      if len > 0 && std.member(chars, str[len - 1]) then std.rstripChars(str[:len - 1], chars)
      else str",
   "stripChars(str, chars):: std.lstripChars(std.rstripChars(str, chars), chars)",
   "stringChars(str):: std.makeArray(std.length(str), function(i) str[i])",
   "split(str, c)::
      assert std.isString(str) && std.isString(c) && std.length(c) == 1;
      std.splitLimit(str, c, -1)",

   "local natural(str) =
      local zero = std.codepoint('0');
      local addDigit(aggregate, char) =
        local digit = std.codepoint(char) - zero;
        assert digit >= 0 && digit < 10;
        10 * aggregate + digit;
      std.foldl(addDigit, std.stringChars(str), 0)",
   "parseInt(str)::
      assert std.isString(str);
      assert std.length(str) > 0 && str != '-';
      if str[0] == '-' then -natural(str[1:]) else natural(str)",

   "assertEqual(a, b)::
      if a == b then true else error 'Assertion failed. ' + a + ' != ' + b",
   "abs(n)::
      if !std.isNumber(n) then error 'no number' else if n > 0 then n else -n",
   "max(a, b)::
      if !std.isNumber(a) then error 'no number'
      else if !std.isNumber(b) then error 'no number'
      else if a > b then a else b",
   "min(a, b)::
      if !std.isNumber(a) then error 'no number'
      else if !std.isNumber(b) then error 'no number'
      else if a < b then a else b",

   "manifestJson(value):: std.manifestJsonEx(value, '    ') tailstrict",

   "sort(arr, keyF=id):: std.sortImpl(arr, keyF)",
   "uniq(arr, keyF=id)::
      local f(a, b) =
        if std.length(a) == 0 then [b]
        else if keyF(a[std.length(a) - 1]) == keyF(b) then a
        else a + [b];
      std.foldl(f, arr, [])",
   "set(arr, keyF=id):: std.uniq(std.sort(arr, keyF), keyF)",
   "setUnion(a, b, keyF=id)::
      local aux(a, b, i, j, acc) =
        if i >= std.length(a) then acc + b[j:]
        else if j >= std.length(b) then acc + a[i:]
        else
          local ak = keyF(a[i]);
          local bk = keyF(b[j]);
          if ak == bk then aux(a, b, i + 1, j + 1, acc + [a[i]]) tailstrict
          else if ak < bk then aux(a, b, i + 1, j, acc + [a[i]]) tailstrict
          else aux(a, b, i, j + 1, acc + [b[j]]) tailstrict;
      aux(a, b, 0, 0, [])",
   "setDiff(a, b, keyF=id)::
      local aux(a, b, i, j, acc) =
        if i >= std.length(a) then acc
        else if j >= std.length(b) then acc + a[i:]
        else
          local ak = keyF(a[i]);
          local bk = keyF(b[j]);
          if ak == bk then aux(a, b, i + 1, j + 1, acc) tailstrict
          else if ak < bk then aux(a, b, i + 1, j, acc + [a[i]]) tailstrict
          else aux(a, b, i, j + 1, acc) tailstrict;
      aux(a, b, 0, 0, []) tailstrict",

   "objectFields(o):: std.objectFieldsEx(o, false)",
   "objectFieldsAll(o):: std.objectFieldsEx(o, true)",
   "objectHas(o, f):: std.objectHasEx(o, f, false)",
   "objectHasAll(o, f):: std.objectHasEx(o, f, true)",
   "objectValues(o):: [o[k] for k in std.objectFields(o)]",

   "mergePatch(target, patch)::
      if std.isObject(patch) then
        local target_object = if std.isObject(target) then target else \x7b\x7d;
        local target_fields = std.objectFields(target_object);
        local null_fields = [k for k in std.objectFields(patch) if patch[k] == null];
        local both_fields = std.setUnion(target_fields, std.objectFields(patch));
        \x7b
          [k]:
            if !std.objectHas(patch, k) then target_object[k]
            else if !std.objectHas(target_object, k) then std.mergePatch(null, patch[k]) tailstrict
            else std.mergePatch(target_object[k], patch[k]) tailstrict
          for k in std.setDiff(both_fields, null_fields)
        \x7d
      else patch",
   "prune(a)::
      local isContent(b) =
        if b == null then false
        else if std.isArray(b) then std.length(b) > 0
        else if std.isObject(b) then std.length(b) > 0
        else true;
      if std.isArray(a) then [std.prune(x) for x in a if isContent(std.prune(x))]
      else if std.isObject(a) then \x7b
        [x]: std.prune(a[x]) for x in std.objectFields(a) if isContent(std.prune(a[x]))
      \x7d
      else a"]

/-- The program of the library's object. -/
def prelude : Except RenderError Expr :=
  program ("\x7b" ++ String.intercalate ",\n" preludeMembers ++ "\x7d")

end MachineProvider.Jsonnet
