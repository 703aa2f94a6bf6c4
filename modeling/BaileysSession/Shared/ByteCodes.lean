import Mathlib.Data.List.Basic

set_option autoImplicit false

abbrev Bytes := List UInt8

-- Two texts for bytes, with decoders that are as lenient as those of common runtimes.
namespace Base64

def symbol (sextet : Nat) : Char :=
  if sextet < 26 then Char.ofNat (65 + sextet)
  else if sextet < 52 then Char.ofNat (97 + (sextet - 26))
  else if sextet < 62 then Char.ofNat (48 + (sextet - 52))
  else if sextet = 62 then '+'
  else '/'

/-- The standard alphabet and the one for URLs and file names. -/
def sextet? (char : Char) : Option Nat :=
  if 'A' ≤ char ∧ char ≤ 'Z' then some (char.toNat - 65)
  else if 'a' ≤ char ∧ char ≤ 'z' then some (char.toNat - 97 + 26)
  else if '0' ≤ char ∧ char ≤ '9' then some (char.toNat - 48 + 52)
  else if char = '+' ∨ char = '-' then some 62
  else if char = '/' ∨ char = '_' then some 63
  else none

def encodeChars : Bytes → List Char
  | first :: second :: third :: rest =>
    symbol (first.toNat / 4) :: symbol (first.toNat % 4 * 16 + second.toNat / 16) ::
      symbol (second.toNat % 16 * 4 + third.toNat / 64) :: symbol (third.toNat % 64) ::
        encodeChars rest
  | [first, second] =>
    [symbol (first.toNat / 4), symbol (first.toNat % 4 * 16 + second.toNat / 16),
      symbol (second.toNat % 16 * 4), '=']
  | [first] => [symbol (first.toNat / 4), symbol (first.toNat % 4 * 16), '=', '=']
  | [] => []

def encode (bytes : Bytes) : String := String.ofList (encodeChars bytes)

/-- Groups of four make three bytes; a group that is not full makes the bytes it has all bits of. -/
def ofSextets : List Nat → Bytes
  | first :: second :: third :: fourth :: rest =>
    UInt8.ofNat (first * 4 + second / 16) :: UInt8.ofNat (second % 16 * 16 + third / 4) ::
      UInt8.ofNat (third % 4 * 64 + fourth) :: ofSextets rest
  | [first, second, third] =>
    [UInt8.ofNat (first * 4 + second / 16), UInt8.ofNat (second % 16 * 16 + third / 4)]
  | [first, second] => [UInt8.ofNat (first * 4 + second / 16)]
  | _ => []

-- In UTF-16.
def units (char : Char) : List Nat :=
  if char.toNat < 0x10000 then [char.toNat]
  else [0xD800 + (char.toNat - 0x10000) / 0x400, 0xDC00 + (char.toNat - 0x10000) % 0x400]

-- Of each UTF-16 unit only the low byte is looked at.
def lowBytes (chars : List Char) : List Char :=
  chars.flatMap fun char => (units char).map fun unit => Char.ofNat (unit % 256)

/-- Reads up to the first padding and passes over whatever is not in the alphabet. -/
def decode (text : String) : Bytes :=
  ofSextets (((lowBytes text.toList).takeWhile fun char => decide (char ≠ '=')).filterMap sextet?)

theorem lowBytes_latin {chars : List Char} (latin : ∀ char ∈ chars, char.toNat < 256) :
    lowBytes chars = chars := by
  induction chars with
  | nil => rfl
  | cons char rest ih =>
    have small : char.toNat < 256 := latin char List.mem_cons_self
    have one : units char = [char.toNat] := if_pos (Nat.lt_trans small (by decide))
    have later := ih fun other inside => latin other (List.mem_cons_of_mem _ inside)
    rw [lowBytes, List.flatMap_cons, one, List.map_singleton, Nat.mod_eq_of_lt small,
      Char.ofNat_toNat]
    exact congrArg (char :: ·) later

theorem symbol_spec (sextet : Fin 64) : sextet? (symbol sextet) = some sextet.val ∧
    symbol sextet ≠ '=' ∧ (symbol sextet).toNat < 256 := by
  revert sextet
  decide

theorem symbol_latin {sextet : Nat} (small : sextet < 64) : (symbol sextet).toNat < 256 :=
  (symbol_spec ⟨sextet, small⟩).2.2

theorem encodeChars_latin (bytes : Bytes) : ∀ char ∈ encodeChars bytes, char.toNat < 256 := by
  induction bytes using encodeChars.induct with
  | case1 first second third rest ih =>
    have one := first.toNat_lt
    have two := second.toNat_lt
    have three := third.toNat_lt
    simp only [encodeChars, List.forall_mem_cons]
    exact ⟨symbol_latin (by omega), symbol_latin (by omega), symbol_latin (by omega),
      symbol_latin (by omega), ih⟩
  | case2 first second =>
    have one := first.toNat_lt
    have two := second.toNat_lt
    simp only [encodeChars, List.forall_mem_cons]
    exact ⟨symbol_latin (by omega), symbol_latin (by omega), symbol_latin (by omega), by decide,
      List.forall_mem_nil _⟩
  | case3 first =>
    have one := first.toNat_lt
    simp only [encodeChars, List.forall_mem_cons]
    exact ⟨symbol_latin (by omega), symbol_latin (by omega), by decide, by decide,
      List.forall_mem_nil _⟩
  | case4 => exact List.forall_mem_nil _

theorem byte_ofNat (byte : UInt8) {number : Nat} (same : number = byte.toNat) :
    UInt8.ofNat number = byte := by
  rw [same, UInt8.ofNat_toNat]

theorem read_symbol {sextet : Nat} (small : sextet < 64) (rest : List Char) :
    ((symbol sextet :: rest).takeWhile fun char => decide (char ≠ '=')).filterMap sextet? =
      sextet :: (rest.takeWhile fun char => decide (char ≠ '=')).filterMap sextet? := by
  obtain ⟨value, padding, -⟩ := symbol_spec ⟨sextet, small⟩
  rw [List.takeWhile_cons, if_pos (decide_eq_true padding), List.filterMap_cons]
  rw [value]

theorem decode_encodeChars (bytes : Bytes) :
    ofSextets (((encodeChars bytes).takeWhile fun char => decide (char ≠ '=')).filterMap sextet?) =
      bytes := by
  induction bytes using encodeChars.induct with
  | case1 first second third rest ih =>
    have one := first.toNat_lt
    have two := second.toNat_lt
    have three := third.toNat_lt
    rw [encodeChars, read_symbol (by omega), read_symbol (by omega), read_symbol (by omega),
      read_symbol (by omega), ofSextets, ih, byte_ofNat first (by omega),
      byte_ofNat second (by omega), byte_ofNat third (by omega)]
  | case2 first second =>
    have one := first.toNat_lt
    have two := second.toNat_lt
    rw [encodeChars, read_symbol (by omega), read_symbol (by omega), read_symbol (by omega)]
    simp only [List.takeWhile_cons, ne_eq, not_true_eq_false, decide_false, Bool.false_eq_true,
      if_false, List.filterMap_nil, ofSextets]
    rw [byte_ofNat first (by omega), byte_ofNat second (by omega)]
  | case3 first =>
    have one := first.toNat_lt
    rw [encodeChars, read_symbol (by omega), read_symbol (by omega)]
    simp only [List.takeWhile_cons, ne_eq, not_true_eq_false, decide_false, Bool.false_eq_true,
      if_false, List.filterMap_nil, ofSextets]
    rw [byte_ofNat first (by omega)]
  | case4 => rfl

theorem decode_encode (bytes : Bytes) : decode (encode bytes) = bytes := by
  rw [decode, encode, String.toList_ofList, lowBytes_latin (encodeChars_latin bytes)]
  exact decode_encodeChars bytes

theorem encodeChars_length (bytes : Bytes) :
    (encodeChars bytes).length = (bytes.length + 2) / 3 * 4 := by
  induction bytes using encodeChars.induct with
  | case1 first second third rest ih =>
    simp only [encodeChars, List.length_cons, ih]
    omega
  | case2 first second => simp [encodeChars]
  | case3 first => simp [encodeChars]
  | case4 => rfl

end Base64

namespace Hex

def digit? (char : Char) : Option Nat :=
  if '0' ≤ char ∧ char ≤ '9' then some (char.toNat - 48)
  else if 'a' ≤ char ∧ char ≤ 'f' then some (char.toNat - 97 + 10)
  else if 'A' ≤ char ∧ char ≤ 'F' then some (char.toNat - 65 + 10)
  else none

/-- Reads pairs of digits up to the first pair that is none. -/
def decodeChars : List Char → Bytes
  | high :: low :: rest =>
    match digit? high, digit? low with
    | some first, some second => UInt8.ofNat (first * 16 + second) :: decodeChars rest
    | _, _ => []
  | _ => []

def decode (text : String) : Bytes := decodeChars text.toList

def digit (value : Nat) : Char :=
  if value < 10 then Char.ofNat (48 + value) else Char.ofNat (97 + (value - 10))

def encode (bytes : Bytes) : String :=
  String.ofList (bytes.flatMap fun byte => [digit (byte.toNat / 16), digit (byte.toNat % 16)])

theorem digit_spec (value : Fin 16) : digit? (digit value) = some value.val := by
  revert value
  decide

theorem decode_encode (bytes : Bytes) : decode (encode bytes) = bytes := by
  rw [decode, encode, String.toList_ofList]
  induction bytes with
  | nil => rfl
  | cons byte rest ih =>
    have small := byte.toNat_lt
    have high := digit_spec ⟨byte.toNat / 16, by omega⟩
    have low := digit_spec ⟨byte.toNat % 16, by omega⟩
    have whole : UInt8.ofNat (byte.toNat / 16 * 16 + byte.toNat % 16) = byte :=
      Base64.byte_ofNat byte (by omega)
    simp only [List.flatMap_cons, List.cons_append, List.nil_append, decodeChars, high, low, ih,
      whole]

theorem encode_digits (bytes : Bytes) :
    (encode bytes).toList.length = bytes.length * 2 ∧
      ∀ char ∈ (encode bytes).toList, (digit? char).isSome := by
  rw [encode, String.toList_ofList]
  constructor
  · induction bytes with
    | nil => rfl
    | cons byte rest ih =>
      rw [List.flatMap_cons, List.length_append, ih]
      simp only [List.length_cons, List.length_nil]
      omega
  · intro char inside
    obtain ⟨byte, _, written⟩ := List.mem_flatMap.mp inside
    have small := byte.toNat_lt
    have high := digit_spec ⟨byte.toNat / 16, by omega⟩
    have low := digit_spec ⟨byte.toNat % 16, by omega⟩
    rcases List.mem_cons.mp written with rfl | second
    · rw [high]
      rfl
    · rw [List.mem_singleton.mp second, low]
      rfl

end Hex
