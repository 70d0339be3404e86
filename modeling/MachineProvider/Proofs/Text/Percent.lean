import MachineProvider.Json.Parser
import MachineProvider.Proofs.Text.ByteOrder
import MachineProvider.Text.Percent

/-! Percent-encoded text consists of characters without a meaning in addresses and is read back. -/
namespace MachineProvider.Text

open Json.Parser (hexDigit?)
open String (utf8EncodeChar)

variable {c : Char} {cs ds : List Char} {b : UInt8}

/-- The bytes of a text with its escapes undone. A percent sign without two hexadecimal digits
behind it stands for itself. -/
def unescape : List Char → Bytes
  | [] => []
  | '%' :: a :: b :: rest =>
    match hexDigit? a, hexDigit? b with
    | some high, some low => UInt8.ofNat (high * 16 + low) :: unescape rest
    | _, _ => utf8EncodeChar '%' ++ unescape (a :: b :: rest)
  | c :: rest => utf8EncodeChar c ++ unescape rest

/-- The text that was encoded; none when its bytes are no text. -/
def percentDecode? (cs : List Char) : Option String := ofUtf8? (unescape cs)

/-- Unreserved characters, and percent signs with two hexadecimal digits each. -/
inductive Escaped : List Char → Prop
  | nil : Escaped []
  | plain {c : Char} {cs : List Char} (hc : isUnreserved c = true) (h : Escaped cs) :
      Escaped (c :: cs)
  | escape {a b : Char} {cs : List Char} (ha : (hexDigit? a).isSome) (hb : (hexDigit? b).isSome)
      (h : Escaped cs) : Escaped ('%' :: a :: b :: cs)

theorem ofUtf8?_utf8 (s : String) : ofUtf8? (utf8 s) = some s := by
  have hbytes : (⟨(utf8 s).toArray⟩ : ByteArray) = s.toUTF8 := by
    unfold utf8 ByteArray.toList
    rw [toList_loop]
    rfl
  unfold ofUtf8? String.fromUTF8?
  rw [hbytes]
  exact dif_pos s.isValidUTF8

/-- What a byte of a text is written as. -/
def escapeByte (b : UInt8) : List Char :=
  if isUnreserved (Char.ofNat b.toNat) then [Char.ofNat b.toNat] else percentByte b

theorem toList_percentEncode (s : String) :
    (percentEncode s).toList = (utf8 s).flatMap escapeByte := by
  rw [percentEncode, String.toList_ofList]
  rfl

theorem isUnreserved_ascii (h : isUnreserved c = true) : 0x20 < c.toNat ∧ c.toNat < 0x7f := by
  have hbetween : ∀ low high : Char, 0x20 < low.toNat → high.toNat < 0x7f → low ≤ c ∧ c ≤ high →
      0x20 < c.toNat ∧ c.toNat < 0x7f :=
    fun _ _ hlow hhigh h => ⟨Nat.lt_of_lt_of_le hlow h.1, Nat.lt_of_le_of_lt h.2 hhigh⟩
  simp only [isUnreserved, isAlphanumeric, Bool.or_eq_true, Bool.and_eq_true, decide_eq_true_eq,
    beq_iff_eq] at h
  rcases h with (((((h | h) | h) | rfl) | rfl) | rfl) | rfl
  · exact hbetween 'a' 'z' (by decide) (by decide) h
  · exact hbetween 'A' 'Z' (by decide) (by decide) h
  · exact hbetween '0' '9' (by decide) (by decide) h
  all_goals decide

theorem isUnreserved_of_hexDigit (h : (hexDigit? c).isSome) : isUnreserved c = true := by
  have hle : ∀ d : Char, d ≤ 'F' → d ≤ 'Z' := fun d h => Char.le_trans h (by decide)
  have hle' : ∀ d : Char, d ≤ 'f' → d ≤ 'z' := fun d h => Char.le_trans h (by decide)
  unfold hexDigit? at h
  split at h
  · next hc => simp [isUnreserved, isAlphanumeric, hc]
  · split at h
    · next hc => simp [isUnreserved, isAlphanumeric, hc.1, hle' c hc.2]
    · split at h
      · next hc => simp [isUnreserved, isAlphanumeric, hc.1, hle c hc.2]
      · cases h

theorem hexDigit_upper : ∀ n < 16, hexDigit? (hexDigitUpper n) = some n := by decide

theorem utf8EncodeChar_ascii (h : c.toNat < 0x80) : utf8EncodeChar c = [UInt8.ofNat c.toNat] := by
  unfold utf8EncodeChar
  exact if_pos (Nat.le_of_lt_succ h)

theorem toNat_ofNat_byte (b : UInt8) : (Char.ofNat b.toNat).toNat = b.toNat := by
  have hvalid : b.toNat.isValidChar := .inl (by have := b.toNat_lt; omega)
  unfold Char.ofNat
  rw [dif_pos hvalid]
  rfl

theorem unescape_cons (hc : c ≠ '%') : unescape (c :: cs) = utf8EncodeChar c ++ unescape cs := by
  rw [unescape]
  rintro _ _ _ rfl
  exact absurd rfl hc

theorem unescape_escapeByte (b : UInt8) (cs : List Char) :
    unescape (escapeByte b ++ cs) = b :: unescape cs := by
  have hb := b.toNat_lt
  unfold escapeByte
  split
  · next hc =>
    have hplain : Char.ofNat b.toNat ≠ '%' := by
      intro h
      rw [h] at hc
      cases hc
    have hascii : (Char.ofNat b.toNat).toNat < 0x80 := Nat.lt_succ_of_lt (isUnreserved_ascii hc).2
    rw [List.singleton_append, unescape_cons hplain, utf8EncodeChar_ascii hascii, toNat_ofNat_byte,
      UInt8.ofNat_toNat]
    rfl
  · simp only [percentByte, List.cons_append, List.nil_append, unescape]
    rw [hexDigit_upper _ (by omega), hexDigit_upper _ (by omega)]
    simp only [Nat.div_add_mod', UInt8.ofNat_toNat]

theorem unescape_flatMap (bs : Bytes) : unescape (bs.flatMap escapeByte) = bs := by
  induction bs with
  | nil => rfl
  | cons b bs ih => rw [List.flatMap_cons, unescape_escapeByte, ih]

theorem percentDecode?_percentEncode (s : String) :
    percentDecode? (percentEncode s).toList = some s := by
  rw [percentDecode?, toList_percentEncode, unescape_flatMap, ofUtf8?_utf8]

theorem Escaped.append (h : Escaped cs) (h' : Escaped ds) : Escaped (cs ++ ds) := by
  induction h with
  | nil => exact h'
  | plain hc _ ih => exact .plain hc ih
  | escape ha hb _ ih => exact .escape ha hb ih

theorem escaped_escapeByte (b : UInt8) : Escaped (escapeByte b) := by
  have hb := b.toNat_lt
  unfold escapeByte
  split
  · next hc => exact .plain hc .nil
  · refine .escape ?_ ?_ .nil
    · rw [hexDigit_upper _ (by omega)]; rfl
    · rw [hexDigit_upper _ (by omega)]; rfl

theorem escaped_percentEncode (s : String) : Escaped (percentEncode s).toList := by
  rw [toList_percentEncode]
  induction utf8 s with
  | nil => exact .nil
  | cons b bs ih => exact (escaped_escapeByte b).append ih

/-- Nothing else stands in encoded text. -/
theorem Escaped.mem (h : Escaped cs) (hc : c ∈ cs) : isUnreserved c = true ∨ c = '%' := by
  induction h with
  | nil => cases hc
  | plain hd _ ih =>
    rcases List.mem_cons.1 hc with rfl | hc
    · exact .inl hd
    · exact ih hc
  | escape ha hb _ ih =>
    simp only [List.mem_cons] at hc
    rcases hc with rfl | rfl | rfl | hc
    · exact .inr rfl
    · exact .inl (isUnreserved_of_hexDigit ha)
    · exact .inl (isUnreserved_of_hexDigit hb)
    · exact ih hc

end MachineProvider.Text
