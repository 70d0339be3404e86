import MachineProvider.Json.Printer
/-! How printed values are laid out, and how their texts are quoted. -/
namespace MachineProvider.Jsonnet

inductive Layout where
  /-- On one line, a blank inside empty brackets. -/
  | inline
  /-- An element a line, indented by so much more; an empty line inside empty brackets. -/
  | indented (step : String)

namespace Layout

/-- The indentation one level further in. -/
def deeper (layout : Layout) (pad : String) : String :=
  match layout with
  | inline => pad
  | indented step => pad ++ step

/-- Elements between their brackets. -/
def enclose (layout : Layout) (pad opening closing : String) (elements : List String) : String :=
  match layout, elements with
  | inline, [] => opening ++ " " ++ closing
  | inline, _ => opening ++ String.intercalate ", " elements ++ closing
  | indented _, [] => opening ++ "\n\n" ++ pad ++ closing
  | indented step, _ =>
    let inner := deeper (indented step) pad
    opening ++ "\n" ++ String.intercalate ",\n" (elements.map (inner ++ ·)) ++ "\n" ++
      pad ++ closing

end Layout

def quotedChar (c : Char) : List Char :=
  if 0x7f ≤ c.toNat ∧ c.toNat ≤ 0x9f then '\\' :: 'u' :: Json.hex4 c.toNat else Json.escapeChar c

/-- Between quotes; both blocks of controls are escaped. -/
def quoted (s : String) : String := String.ofList ('"' :: s.toList.flatMap quotedChar ++ ['"'])

end MachineProvider.Jsonnet
