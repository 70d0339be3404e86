import MachineProvider.Text.Utf8
/-! Percent encoding of text in addresses. -/
namespace MachineProvider.Text

/-- Letters and digits of ASCII. -/
def isAlphanumeric (c : Char) : Bool :=
  ('a' ≤ c && c ≤ 'z') || ('A' ≤ c && c ≤ 'Z') || ('0' ≤ c && c ≤ '9')

/-- Letters, digits and the four marks that never need encoding. -/
def isUnreserved (c : Char) : Bool :=
  isAlphanumeric c || c == '-' || c == '_' || c == '.' || c == '~'

def hexDigitUpper (n : Nat) : Char := if n < 10 then Char.ofNat (n + 48) else Char.ofNat (n + 55)

def percentByte (b : UInt8) : List Char :=
  ['%', hexDigitUpper (b.toNat / 16), hexDigitUpper (b.toNat % 16)]

/-- Encodes every byte of the text except the unreserved characters. -/
def percentEncode (s : String) : String :=
  String.ofList <| (utf8 s).flatMap fun b =>
    let c := Char.ofNat b.toNat
    if isUnreserved c then [c] else percentByte b

/-- The encoding of form fields: a plus for a blank, and fewer marks left as they are. -/
def formEncode (s : String) : String :=
  String.ofList <| (utf8 s).flatMap fun b =>
    let c := Char.ofNat b.toNat
    if isAlphanumeric c || c == '*' || c == '-' || c == '.' || c == '_' then [c]
    else if c == ' ' then ['+']
    else percentByte b

end MachineProvider.Text
