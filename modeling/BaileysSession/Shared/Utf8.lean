import BaileysSession.Shared.ByteCodes

set_option autoImplicit false

-- UTF-8, with a decoder that replaces what is malformed and never fails.
namespace Utf8

def encodeCode (code : Nat) : Bytes :=
  if code < 0x80 then [UInt8.ofNat code]
  else if code < 0x800 then [UInt8.ofNat (0xC0 + code / 64), UInt8.ofNat (0x80 + code % 64)]
  else if code < 0x10000 then
    [UInt8.ofNat (0xE0 + code / 4096), UInt8.ofNat (0x80 + code / 64 % 64),
      UInt8.ofNat (0x80 + code % 64)]
  else
    [UInt8.ofNat (0xF0 + code / 262144), UInt8.ofNat (0x80 + code / 4096 % 64),
      UInt8.ofNat (0x80 + code / 64 % 64), UInt8.ofNat (0x80 + code % 64)]

def encodeChar (char : Char) : Bytes := encodeCode char.toNat

def encode (text : String) : Bytes := text.toList.flatMap encodeChar

/-- A character of which so many bytes are missing, and where the next one has to lie. -/
structure Partial where
  code : Nat
  needed : Nat
  lower : Nat
  upper : Nat

def replacement : Char := Char.ofNat 0xFFFD

/-- The first byte of a character: the character itself, what is still to come, or neither. -/
def lead (byte : Nat) : List Char × Option Partial :=
  if byte < 0x80 then ([Char.ofNat byte], none)
  else if 0xC2 ≤ byte ∧ byte ≤ 0xDF then ([], some ⟨byte - 0xC0, 1, 0x80, 0xBF⟩)
  else if 0xE0 ≤ byte ∧ byte ≤ 0xEF then
    ([], some ⟨byte - 0xE0, 2, if byte = 0xE0 then 0xA0 else 0x80,
      if byte = 0xED then 0x9F else 0xBF⟩)
  else if 0xF0 ≤ byte ∧ byte ≤ 0xF4 then
    ([], some ⟨byte - 0xF0, 3, if byte = 0xF0 then 0x90 else 0x80,
      if byte = 0xF4 then 0x8F else 0xBF⟩)
  else ([replacement], none)

def decodeFrom : Option Partial → Bytes → List Char
  | none, [] => []
  | some _, [] => [replacement]
  | none, byte :: rest =>
    let (chars, next) := lead byte.toNat
    chars ++ decodeFrom next rest
  | some seen, byte :: rest =>
    if seen.lower ≤ byte.toNat ∧ byte.toNat ≤ seen.upper then
      let code := seen.code * 64 + (byte.toNat - 0x80)
      if seen.needed = 1 then Char.ofNat code :: decodeFrom none rest
      else decodeFrom (some ⟨code, seen.needed - 1, 0x80, 0xBF⟩) rest
    else
      -- The byte is looked at again, as the first one of a character.
      let (chars, next) := lead byte.toNat
      replacement :: (chars ++ decodeFrom next rest)

def decode (bytes : Bytes) : String := String.ofList (decodeFrom none bytes)

theorem toNat_small {number : Nat} (small : number < 256) : (UInt8.ofNat number).toNat = number := by
  rw [UInt8.toNat_ofNat']
  exact Nat.mod_eq_of_lt small

theorem decodeFrom_lead {number : Nat} {seen : Partial} (small : number < 256)
    (opens : lead number = ([], some seen)) (rest : Bytes) :
    decodeFrom none (UInt8.ofNat number :: rest) = decodeFrom (some seen) rest := by
  rw [decodeFrom, toNat_small small, opens]
  rfl

theorem decodeFrom_middle {number : Nat} {seen : Partial}
    (within : seen.lower ≤ number ∧ number ≤ seen.upper) (small : number < 256)
    (more : seen.needed ≠ 1) (rest : Bytes) :
    decodeFrom (some seen) (UInt8.ofNat number :: rest) =
      decodeFrom (some ⟨seen.code * 64 + (number - 0x80), seen.needed - 1, 0x80, 0xBF⟩) rest := by
  rw [decodeFrom, toNat_small small, if_pos within, if_neg more]

theorem decodeFrom_last {number : Nat} {seen : Partial}
    (within : seen.lower ≤ number ∧ number ≤ seen.upper) (small : number < 256)
    (last : seen.needed = 1) (rest : Bytes) :
    decodeFrom (some seen) (UInt8.ofNat number :: rest) =
      Char.ofNat (seen.code * 64 + (number - 0x80)) :: decodeFrom none rest := by
  rw [decodeFrom, toNat_small small, if_pos within, if_pos last]

section Characters

variable {code : Nat} (rest : Bytes)

theorem decodeFrom_one (small : code < 0x80) :
    decodeFrom none (encodeCode code ++ rest) = Char.ofNat code :: decodeFrom none rest := by
  have byte := toNat_small (show code < 256 by omega)
  simp [encodeCode, small, decodeFrom, byte, lead]

theorem decodeFrom_two (large : 0x80 ≤ code) (small : code < 0x800) :
    decodeFrom none (encodeCode code ++ rest) = Char.ofNat code :: decodeFrom none rest := by
  have one : ¬ code < 0x80 := by omega
  have opens : lead (0xC0 + code / 64) = ([], some ⟨code / 64, 1, 0x80, 0xBF⟩) := by
    have first : ¬ 0xC0 + code / 64 < 0x80 := by omega
    have second : 0xC2 ≤ 0xC0 + code / 64 ∧ 0xC0 + code / 64 ≤ 0xDF := by omega
    rw [lead, if_neg first, if_pos second, Nat.add_sub_cancel_left]
  have whole : code / 64 * 64 + (0x80 + code % 64 - 0x80) = code := by omega
  simp only [encodeCode, one, small, if_false, if_true, List.cons_append, List.nil_append]
  rw [decodeFrom_lead (by omega) opens, decodeFrom_last (by simp only; omega) (by omega) rfl, whole]

theorem decodeFrom_three (large : 0x800 ≤ code) (small : code < 0x10000)
    (valid : code < 0xD800 ∨ 0xDFFF < code) :
    decodeFrom none (encodeCode code ++ rest) = Char.ofNat code :: decodeFrom none rest := by
  have one : ¬ code < 0x80 := by omega
  have two : ¬ code < 0x800 := by omega
  have opens : lead (0xE0 + code / 4096) = ([], some ⟨code / 4096, 2,
      if 0xE0 + code / 4096 = 0xE0 then 0xA0 else 0x80,
      if 0xE0 + code / 4096 = 0xED then 0x9F else 0xBF⟩) := by
    have first : ¬ 0xE0 + code / 4096 < 0x80 := by omega
    have second : ¬ (0xC2 ≤ 0xE0 + code / 4096 ∧ 0xE0 + code / 4096 ≤ 0xDF) := by omega
    have third : 0xE0 ≤ 0xE0 + code / 4096 ∧ 0xE0 + code / 4096 ≤ 0xEF := by omega
    rw [lead, if_neg first, if_neg second, if_pos third, Nat.add_sub_cancel_left]
  -- The bounds leave out the longer forms of smaller codes and the surrogates.
  have within : (if 0xE0 + code / 4096 = 0xE0 then 0xA0 else 0x80) ≤ 0x80 + code / 64 % 64 ∧
      0x80 + code / 64 % 64 ≤ if 0xE0 + code / 4096 = 0xED then 0x9F else 0xBF := by
    constructor <;> split <;> omega
  have whole : (code / 4096 * 64 + (0x80 + code / 64 % 64 - 0x80)) * 64 +
      (0x80 + code % 64 - 0x80) = code := by omega
  simp only [encodeCode, one, two, small, if_false, if_true, List.cons_append, List.nil_append]
  rw [decodeFrom_lead (by omega) opens, decodeFrom_middle within (by omega) (by simp),
    decodeFrom_last (by simp only; omega) (by omega) rfl, whole]

theorem decodeFrom_four (large : 0x10000 ≤ code) (small : code < 0x110000) :
    decodeFrom none (encodeCode code ++ rest) = Char.ofNat code :: decodeFrom none rest := by
  have one : ¬ code < 0x80 := by omega
  have two : ¬ code < 0x800 := by omega
  have three : ¬ code < 0x10000 := by omega
  have opens : lead (0xF0 + code / 262144) = ([], some ⟨code / 262144, 3,
      if 0xF0 + code / 262144 = 0xF0 then 0x90 else 0x80,
      if 0xF0 + code / 262144 = 0xF4 then 0x8F else 0xBF⟩) := by
    have first : ¬ 0xF0 + code / 262144 < 0x80 := by omega
    have second : ¬ (0xC2 ≤ 0xF0 + code / 262144 ∧ 0xF0 + code / 262144 ≤ 0xDF) := by omega
    have third : ¬ (0xE0 ≤ 0xF0 + code / 262144 ∧ 0xF0 + code / 262144 ≤ 0xEF) := by omega
    have fourth : 0xF0 ≤ 0xF0 + code / 262144 ∧ 0xF0 + code / 262144 ≤ 0xF4 := by omega
    rw [lead, if_neg first, if_neg second, if_neg third, if_pos fourth, Nat.add_sub_cancel_left]
  have within : (if 0xF0 + code / 262144 = 0xF0 then 0x90 else 0x80) ≤ 0x80 + code / 4096 % 64 ∧
      0x80 + code / 4096 % 64 ≤ if 0xF0 + code / 262144 = 0xF4 then 0x8F else 0xBF := by
    constructor <;> split <;> omega
  have whole : ((code / 262144 * 64 + (0x80 + code / 4096 % 64 - 0x80)) * 64 +
      (0x80 + code / 64 % 64 - 0x80)) * 64 + (0x80 + code % 64 - 0x80) = code := by omega
  simp only [encodeCode, one, two, three, if_false, List.cons_append, List.nil_append]
  rw [decodeFrom_lead (by omega) opens, decodeFrom_middle within (by omega) (by simp),
    decodeFrom_middle (by simp only; omega) (by omega) (by simp),
    decodeFrom_last (by simp only; omega) (by omega) rfl, whole]

end Characters

theorem decodeFrom_encodeChar (char : Char) (rest : Bytes) :
    decodeFrom none (encodeChar char ++ rest) = char :: decodeFrom none rest := by
  have valid : char.toNat < 0xD800 ∨ 0xDFFF < char.toNat ∧ char.toNat < 0x110000 := char.valid
  have read : decodeFrom none (encodeCode char.toNat ++ rest) =
      Char.ofNat char.toNat :: decodeFrom none rest := by
    rcases Nat.lt_or_ge char.toNat 0x80 with one | more
    · exact decodeFrom_one rest one
    · rcases Nat.lt_or_ge char.toNat 0x800 with two | more
      · exact decodeFrom_two rest (by assumption) two
      · rcases Nat.lt_or_ge char.toNat 0x10000 with three | more
        · exact decodeFrom_three rest (by assumption) three (by omega)
        · exact decodeFrom_four rest more (by omega)
  rw [encodeChar, read, Char.ofNat_toNat]

theorem decode_encode (text : String) : decode (encode text) = text := by
  have chars : ∀ list : List Char, decodeFrom none (list.flatMap encodeChar) = list := by
    intro list
    induction list with
    | nil => rfl
    | cons char rest ih => rw [List.flatMap_cons, decodeFrom_encodeChar, ih]
  rw [decode, encode, chars, String.ofList_toList]

end Utf8
