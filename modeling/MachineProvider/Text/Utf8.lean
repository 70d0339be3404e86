/-! Bytes of a text, and the text of bytes that need not be valid. -/
namespace MachineProvider.Text

abbrev Bytes := List UInt8

def utf8 (s : String) : Bytes := s.toUTF8.toList

/-- How many continuation bytes a lead byte asks for. -/
def tailLength (lead : Nat) : Nat :=
  if 0xc2 ≤ lead ∧ lead ≤ 0xdf then 1
  else if 0xe0 ≤ lead ∧ lead ≤ 0xef then 2
  else if 0xf0 ≤ lead ∧ lead ≤ 0xf4 then 3
  else 0

/-- The first continuation byte excludes overlong forms, surrogates and numbers past the last. -/
def isSecond (lead b : Nat) : Bool :=
  let low := if lead = 0xe0 then 0xa0 else if lead = 0xf0 then 0x90 else 0x80
  let high := if lead = 0xed then 0x9f else if lead = 0xf4 then 0x8f else 0xbf
  low ≤ b && b ≤ high

def isContinuation (b : UInt8) : Bool := 0x80 ≤ b.toNat && b.toNat ≤ 0xbf

/-- The continuation bytes that belong to a lead byte. -/
def continuation (lead : Nat) : Bytes → Bytes
  | [] => []
  | b :: rest =>
    if tailLength lead ≠ 0 ∧ isSecond lead b.toNat then
      b :: (rest.take (tailLength lead - 1)).takeWhile isContinuation
    else []

/-- The lead byte's own bits. -/
def leadBits (lead : Nat) : Nat :=
  match tailLength lead with
  | 1 => lead % 32
  | 2 => lead % 16
  | _ => lead % 8

def replacement : Char := '\ufffd'

/-- One replacement character stands for each longest part of a sequence that breaks off. -/
def decodeLossy : Bytes → List Char
  | [] => []
  | b :: rest =>
    if b < 0x80 then Char.ofNat b.toNat :: decodeLossy rest
    else
      let tail := continuation b.toNat rest
      let c :=
        if tailLength b.toNat ≠ 0 ∧ tail.length = tailLength b.toNat then
          Char.ofNat (tail.foldl (fun n t => n * 64 + t.toNat % 64) (leadBits b.toNat))
        else replacement
      c :: decodeLossy (rest.drop tail.length)
termination_by bs => bs.length
decreasing_by all_goals simp +arith [List.length_drop]

def ofUtf8Lossy (bytes : Bytes) : String := String.ofList (decodeLossy bytes)

/-- The text of valid bytes. -/
def ofUtf8? (bytes : Bytes) : Option String := String.fromUTF8? ⟨bytes.toArray⟩

end MachineProvider.Text
