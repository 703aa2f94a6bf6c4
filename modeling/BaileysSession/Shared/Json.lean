import BaileysSession.Shared.InsertionMap
import Mathlib.Data.List.Sort

set_option autoImplicit false

-- JSON as `JSON.stringify` writes it and `JSON.parse` reads it.
inductive Json where
  | null
  | bool (value : Bool)
  | number (value : Int)
  -- A number with a fraction or an exponent, as it is written.
  | decimal (literal : String)
  | text (value : String)
  | array (items : List Json)
  -- The members as an object lists its own keys.
  | object (members : List (String × Json))

namespace Json

section Writing

def hexPair (code : Nat) : List Char := [Nat.digitChar (code / 16), Nat.digitChar (code % 16)]

def quoteChar (char : Char) : List Char :=
  if char = '"' then ['\\', '"']
  else if char = '\\' then ['\\', '\\']
  else if char = '\x08' then ['\\', 'b']
  else if char = '\x0c' then ['\\', 'f']
  else if char = '\n' then ['\\', 'n']
  else if char = '\r' then ['\\', 'r']
  else if char = '\t' then ['\\', 't']
  else if char.toNat < 32 then ['\\', 'u', '0', '0'] ++ hexPair char.toNat
  else [char]

def quote (text : String) : List Char := '"' :: text.toList.flatMap quoteChar ++ ['"']

def writeNumber : Int → List Char
  | .ofNat value => Nat.toDigits 10 value
  | .negSucc value => '-' :: Nat.toDigits 10 (value + 1)

mutual

def write : Json → List Char
  | .null => "null".toList
  | .bool true => "true".toList
  | .bool false => "false".toList
  | .number value => writeNumber value
  | .decimal literal => literal.toList
  | .text value => quote value
  | .array items => '[' :: writeItems items
  | .object members => '{' :: writeMembers members

def writeItems : List Json → List Char
  | [] => [']']
  | [item] => write item ++ [']']
  | item :: rest => write item ++ ',' :: writeItems rest

def writeMembers : List (String × Json) → List Char
  | [] => ['}']
  | [(name, value)] => quote name ++ ':' :: (write value ++ ['}'])
  | (name, value) :: rest => quote name ++ ':' :: (write value ++ ',' :: writeMembers rest)

end

def stringify (json : Json) : String := String.ofList json.write

end Writing

section Reading

def isSpace (char : Char) : Bool := char = ' ' || char = '\n' || char = '\r' || char = '\t'

def skipSpace (chars : List Char) : List Char := chars.dropWhile isSpace

def hexValue (char : Char) : Option Nat :=
  if '0' ≤ char ∧ char ≤ '9' then some (char.toNat - '0'.toNat)
  else if 'a' ≤ char ∧ char ≤ 'f' then some (char.toNat - 'a'.toNat + 10)
  else if 'A' ≤ char ∧ char ≤ 'F' then some (char.toNat - 'A'.toNat + 10)
  else none

def hexValues (digits : List Char) : Option Nat :=
  digits.foldl (fun value digit => do some (16 * (← value) + (← hexValue digit))) (some 0)

def unescape : Char → Option Char
  | '"' => some '"'
  | '\\' => some '\\'
  | '/' => some '/'
  | 'b' => some '\x08'
  | 'f' => some '\x0c'
  | 'n' => some '\n'
  | 'r' => some '\r'
  | 't' => some '\t'
  | _ => none

/-- What a string is made of: characters, and code units that are spelled out. -/
abbrev Piece := Char ⊕ Nat

-- Reads to the closing quote.
def pieces : List Char → Option (List Piece × List Char)
  | [] => none
  | '"' :: rest => some ([], rest)
  | '\\' :: 'u' :: a :: b :: c :: d :: rest =>
    (hexValues [a, b, c, d]).bind fun code =>
      (pieces rest).map fun read => (.inr code :: read.1, read.2)
  | '\\' :: letter :: rest =>
    (unescape letter).bind fun char =>
      (pieces rest).map fun read => (.inl char :: read.1, read.2)
  | char :: rest =>
    if char = '\\' ∨ char.toNat < 32 then none
    else (pieces rest).map fun read => (.inl char :: read.1, read.2)

def isSurrogate (code : Nat) : Bool := 0xD800 ≤ code && code < 0xE000

-- A surrogate without its partner is no character.
def joinPieces : List Piece → Option (List Char)
  | [] => some []
  | .inl char :: rest => (joinPieces rest).map (char :: ·)
  | .inr code :: rest =>
    if isSurrogate code then
      match rest with
      | .inr low :: more =>
        if code < 0xDC00 ∧ 0xDC00 ≤ low ∧ low < 0xE000 then
          (joinPieces more).map
            (Char.ofNat (0x10000 + (code - 0xD800) * 0x400 + (low - 0xDC00)) :: ·)
        else none
      | _ => none
    else (joinPieces rest).map (Char.ofNat code :: ·)

def readString (chars : List Char) : Option (String × List Char) :=
  (pieces chars).bind fun read =>
    (joinPieces read.1).map fun text => (String.ofList text, read.2)

-- The digits of a fraction or an exponent after what introduces it.
def someDigits (start chars : List Char) : Option (List Char × List Char) :=
  let digits := chars.takeWhile Char.isDigit
  if digits = [] then none else some (start ++ digits, chars.dropWhile Char.isDigit)

def readFraction : List Char → Option (List Char × List Char)
  | '.' :: rest => someDigits ['.'] rest
  | chars => some ([], chars)

def readExponent : List Char → Option (List Char × List Char)
  | letter :: rest =>
    if letter = 'e' ∨ letter = 'E' then
      match rest with
      | '+' :: digits => someDigits [letter, '+'] digits
      | '-' :: digits => someDigits [letter, '-'] digits
      | digits => someDigits [letter] digits
    else some ([], letter :: rest)
  | [] => some ([], [])

def readUnsigned (negative : Bool) (chars : List Char) : Option (Json × List Char) :=
  let digits := chars.takeWhile Char.isDigit
  if digits = [] ∨ (digits.head? = some '0' ∧ digits.length > 1) then none
  else
    (readFraction (chars.dropWhile Char.isDigit)).bind fun fraction =>
      (readExponent fraction.2).map fun exponent =>
        if fraction.1 = [] ∧ exponent.1 = [] then
          let value : Int := Nat.ofDigitChars 10 digits 0
          (.number (if negative then -value else value), exponent.2)
        else
          let sign := if negative then ['-'] else []
          (.decimal (String.ofList (sign ++ digits ++ fraction.1 ++ exponent.1)), exponent.2)

def readNumber : List Char → Option (Json × List Char)
  | '-' :: rest => readUnsigned true rest
  | chars => readUnsigned false chars

-- A name that is an array index.
def index? (name : String) : Option Nat :=
  let digits := name.toList
  let value := Nat.ofDigitChars 10 digits 0
  if digits = [] ∨ digits.all Char.isDigit = false ∨
      (digits.head? = some '0' ∧ digits.length > 1) ∨ 4294967295 ≤ value then none
  else some value

/-- Objects list array indices first, by number, and other names as they were added. -/
def Precedes (first second : String) : Prop :=
  match index? first, index? second with
  | some index, some other => index ≤ other
  | none, some _ => False
  | _, none => True

instance (first second : String) : Decidable (Precedes first second) := by
  unfold Precedes
  split
  · exact inferInstanceAs (Decidable (_ ≤ _))
  · exact isFalse id
  · exact isTrue trivial

-- Of members with one name the last one stays, where the first one was.
def collectMembers (members : List (String × Json)) : List (String × Json) :=
  (members.foldl (fun found member => InsertionMap.setEntry member.1 member.2 found) []).insertionSort
    fun first second => Precedes first.1 second.1

mutual

-- A text cannot be nested deeper than it is long.
def read : Nat → List Char → Option (Json × List Char)
  | 0, _ => none
  | fuel + 1, chars =>
    match skipSpace chars with
    | 'n' :: 'u' :: 'l' :: 'l' :: rest => some (.null, rest)
    | 't' :: 'r' :: 'u' :: 'e' :: rest => some (.bool true, rest)
    | 'f' :: 'a' :: 'l' :: 's' :: 'e' :: rest => some (.bool false, rest)
    | '"' :: rest => (readString rest).map fun string => (.text string.1, string.2)
    | '[' :: rest =>
      if (skipSpace rest).head? = some ']' then some (.array [], (skipSpace rest).tail)
      else (readItems fuel rest).map fun items => (.array items.1, items.2)
    | '{' :: rest =>
      if (skipSpace rest).head? = some '}' then some (.object [], (skipSpace rest).tail)
      else (readMembers fuel rest).map fun members =>
        (.object (collectMembers members.1), members.2)
    | other => readNumber other

def readItems : Nat → List Char → Option (List Json × List Char)
  | 0, _ => none
  | fuel + 1, chars =>
    (read fuel chars).bind fun item =>
      match skipSpace item.2 with
      | ']' :: rest => some ([item.1], rest)
      | ',' :: rest => (readItems fuel rest).map fun more => (item.1 :: more.1, more.2)
      | _ => none

def readMembers : Nat → List Char → Option (List (String × Json) × List Char)
  | 0, _ => none
  | fuel + 1, chars =>
    match skipSpace chars with
    | '"' :: start =>
      (readString start).bind fun name =>
        match skipSpace name.2 with
        | ':' :: start =>
          (read fuel start).bind fun value =>
            match skipSpace value.2 with
            | '}' :: rest => some ([(name.1, value.1)], rest)
            | ',' :: rest =>
              (readMembers fuel rest).map fun more => ((name.1, value.1) :: more.1, more.2)
            | _ => none
        | _ => none
    | _ => none

end

/-- `none` where `JSON.parse` throws. -/
def parse (text : String) : Option Json :=
  (read (text.toList.length + 1) text.toList).bind fun result =>
    if skipSpace result.2 = [] then some result.1 else none

end Reading

end Json
