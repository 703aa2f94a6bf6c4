import BaileysSession.Shared.Json
import Mathlib.Data.List.TakeWhile

set_option autoImplicit false

namespace Json

section Strings

def pieceOf (char : Char) : Piece :=
  if char.toNat < 32 ∧ char ∉ ['\x08', '\x0c', '\n', '\r', '\t'] then .inr char.toNat else .inl char

theorem hexValues_hexPair : ∀ code < 32, hexValues ('0' :: '0' :: hexPair code) = some code := by
  decide

theorem pieces_plain {char : Char} (rest : List Char) (noQuote : char ≠ '"') (noSlash : char ≠ '\\')
    (printed : ¬ char.toNat < 32) :
    pieces (char :: rest) = (pieces rest).map fun read => (.inl char :: read.1, read.2) := by
  rw [pieces.eq_def]
  split
  · rename_i same
    cases same
  · rename_i same
    exact absurd (List.cons.inj same).1 noQuote
  · rename_i same
    exact absurd (List.cons.inj same).1 noSlash
  · rename_i same
    exact absurd (List.cons.inj same).1 noSlash
  · rename_i same
    obtain ⟨rfl, rfl⟩ := List.cons.inj same
    rw [if_neg (by tauto)]

theorem pieces_quoteChar (char : Char) (rest : List Char) :
    pieces (quoteChar char ++ rest) =
      (pieces rest).map fun read => (pieceOf char :: read.1, read.2) := by
  by_cases control : char.toNat < 32
  · by_cases short : char ∈ ['\x08', '\x0c', '\n', '\r', '\t']
    · simp only [List.mem_cons, List.not_mem_nil, or_false] at short
      rcases short with rfl | rfl | rfl | rfl | rfl <;> rfl
    · have piece : pieceOf char = .inr char.toNat := if_pos ⟨control, short⟩
      simp only [List.mem_cons, List.not_mem_nil, or_false, not_or] at short
      obtain ⟨noB, noF, noN, noR, noT⟩ := short
      have noQuote : char ≠ '"' := fun same => absurd control (same ▸ by decide)
      have noSlash : char ≠ '\\' := fun same => absurd control (same ▸ by decide)
      have spelled : quoteChar char = ['\\', 'u', '0', '0'] ++ hexPair char.toNat := by
        simp only [quoteChar, if_neg noQuote, if_neg noSlash, if_neg noB, if_neg noF, if_neg noN,
          if_neg noR, if_neg noT, if_pos control]
      have code := hexValues_hexPair char.toNat control
      rw [spelled, piece]
      show (hexValues ('0' :: '0' :: hexPair char.toNat)).bind _ = _
      rw [code]
      rfl
  · have piece : pieceOf char = .inl char := if_neg fun both => control both.1
    by_cases quoted : char = '"'
    · subst quoted
      rfl
    by_cases slash : char = '\\'
    · subst slash
      rfl
    have apart : ∀ other : Char, other.toNat < 32 → char ≠ other :=
      fun other low same => control (same ▸ low)
    have raw : quoteChar char = [char] := by
      simp only [quoteChar, if_neg quoted, if_neg slash, if_neg control,
        if_neg (apart '\x08' (by decide)), if_neg (apart '\x0c' (by decide)),
        if_neg (apart '\n' (by decide)), if_neg (apart '\r' (by decide)),
        if_neg (apart '\t' (by decide))]
    rw [raw, piece]
    exact pieces_plain rest quoted slash control

theorem joinPieces_pieceOf (char : Char) (rest : List Piece) :
    joinPieces (pieceOf char :: rest) = (joinPieces rest).map (char :: ·) := by
  unfold pieceOf
  split
  · rename_i control
    have low : isSurrogate char.toNat = false := by
      have below := control.1
      simp only [isSurrogate, Bool.and_eq_false_iff, decide_eq_false_iff_not]
      omega
    rw [joinPieces.eq_def]
    simp only [low, Bool.false_eq_true, if_false, Char.ofNat_toNat]
  · rfl

theorem pieces_quoted (chars rest : List Char) :
    pieces (chars.flatMap quoteChar ++ '"' :: rest) = some (chars.map pieceOf, rest) := by
  induction chars with
  | nil => rfl
  | cons char more ih =>
    rw [List.flatMap_cons, List.append_assoc, pieces_quoteChar, ih]
    rfl

theorem joinPieces_map (chars : List Char) : joinPieces (chars.map pieceOf) = some chars := by
  induction chars with
  | nil => rfl
  | cons char rest ih =>
    rw [List.map_cons, joinPieces_pieceOf, ih]
    rfl

theorem readString_quote (text : String) (rest : List Char) :
    readString (text.toList.flatMap quoteChar ++ '"' :: rest) = some (text, rest) := by
  rw [readString, pieces_quoted, Option.bind_some, joinPieces_map, Option.map_some,
    String.ofList_toList]

end Strings

section Numbers

/-- What follows does not continue a number. -/
def EndsNumber (rest : List Char) : Prop :=
  ∀ char, rest.head? = some char →
    char.isDigit = false ∧ char ≠ '.' ∧ char ≠ 'e' ∧ char ≠ 'E'

theorem toDigits_leading_zero {value : Nat}
    (zero : (Nat.toDigits 10 value).head? = some '0') : value = 0 := by
  induction value using Nat.strongRecOn with
  | ind value ih =>
    by_cases small : value < 10
    · rw [Nat.toDigits_of_lt_base small] at zero
      have checked : ∀ digit < 10, Nat.digitChar digit = '0' → digit = 0 := by decide
      exact checked value small (Option.some.inj zero)
    · rw [Nat.toDigits_of_base_le (by decide) (Nat.le_of_not_lt small),
        List.head?_append_of_ne_nil _ Nat.toDigits_ne_nil] at zero
      have quotient := ih (value / 10) (by omega) zero
      omega

theorem takeWhile_digits {digits rest : List Char} (all : ∀ char ∈ digits, char.isDigit = true)
    (ends : EndsNumber rest) : (digits ++ rest).takeWhile Char.isDigit = digits ∧
      (digits ++ rest).dropWhile Char.isDigit = rest := by
  have stops : rest.takeWhile Char.isDigit = [] ∧ rest.dropWhile Char.isDigit = rest := by
    cases rest with
    | nil => exact ⟨rfl, rfl⟩
    | cons char more => simp [(ends char rfl).1]
  rw [List.takeWhile_append_of_pos all, List.dropWhile_append_of_pos all, stops.1, stops.2,
    List.append_nil]
  exact ⟨rfl, rfl⟩

theorem readUnsigned_toDigits (negative : Bool) (value : Nat) {rest : List Char}
    (ends : EndsNumber rest) :
    readUnsigned negative (Nat.toDigits 10 value ++ rest) =
      some (.number (if negative then -(value : Int) else value), rest) := by
  have digits : ∀ char ∈ Nat.toDigits 10 value, char.isDigit = true := fun char inside =>
    Nat.isDigit_of_mem_toDigits (by decide) (by decide) inside
  obtain ⟨taken, left⟩ := takeWhile_digits digits ends
  have proper : ¬ (Nat.toDigits 10 value = [] ∨
      (Nat.toDigits 10 value).head? = some '0' ∧ (Nat.toDigits 10 value).length > 1) := by
    rintro (empty | ⟨zero, longer⟩)
    · exact Nat.toDigits_ne_nil empty
    · obtain rfl := toDigits_leading_zero zero
      exact absurd longer (by decide)
  have fraction : readFraction rest = some ([], rest) := by
    cases rest with
    | nil => rfl
    | cons char more =>
      have noDot := (ends char rfl).2.1
      unfold readFraction
      split
      · rename_i same
        exact absurd (List.cons.inj same).1 noDot
      · rfl
  have exponent : readExponent rest = some ([], rest) := by
    cases rest with
    | nil => rfl
    | cons char more =>
      obtain ⟨noE, noE'⟩ := (ends char rfl).2.2
      simp [readExponent, noE, noE']
  unfold readUnsigned
  simp only [taken, left, if_neg proper, fraction, exponent, Option.bind_some, Option.map_some,
    and_self, if_true, Nat.ofDigitChars_ten_toDigits]

theorem readNumber_writeNumber (value : Int) {rest : List Char} (ends : EndsNumber rest) :
    readNumber (writeNumber value ++ rest) = some (.number value, rest) := by
  cases value with
  | ofNat value =>
    have read := readUnsigned_toDigits false value ends
    have unsigned : readNumber (writeNumber (.ofNat value) ++ rest) =
        readUnsigned false (Nat.toDigits 10 value ++ rest) := by
      rw [writeNumber]
      unfold readNumber
      split
      · rename_i more same
        cases digits : Nat.toDigits 10 value with
        | nil => exact absurd digits Nat.toDigits_ne_nil
        | cons digit others =>
          have isDigit := Nat.isDigit_of_mem_toDigits (b := 10) (by decide) (by decide)
            (digits ▸ List.mem_cons_self : digit ∈ Nat.toDigits 10 value)
          rw [digits, List.cons_append] at same
          rw [(List.cons.inj same).1] at isDigit
          cases isDigit
      · rfl
    rw [unsigned, read]
    rfl
  | negSucc value => exact readUnsigned_toDigits true (value + 1) ends

end Numbers

section Values

-- The keys of an object, in the order in which it lists them.
def OwnKeys (names : List String) : Prop := names.Nodup ∧ names.Pairwise Precedes

instance (names : List String) : Decidable (OwnKeys names) :=
  inferInstanceAs (Decidable (_ ∧ _))

theorem OwnKeys.sublist {names fewer : List String} (keys : OwnKeys names)
    (kept : fewer.Sublist names) : OwnKeys fewer :=
  ⟨keys.1.sublist kept, keys.2.sublist kept⟩

mutual

/-- Numbers are integers, and the members of an object have names as its keys are. -/
def WellFormed : Json → Prop
  | .decimal _ => False
  | .array items => ItemsWellFormed items
  | .object members => OwnKeys (members.map Prod.fst) ∧ MembersWellFormed members
  | _ => True

def ItemsWellFormed : List Json → Prop
  | [] => True
  | item :: rest => WellFormed item ∧ ItemsWellFormed rest

def MembersWellFormed : List (String × Json) → Prop
  | [] => True
  | (_, value) :: rest => WellFormed value ∧ MembersWellFormed rest

end

theorem skipSpace_cons {char : Char} (rest : List Char) (printed : isSpace char = false) :
    skipSpace (char :: rest) = char :: rest := by
  rw [skipSpace, List.dropWhile_cons_of_neg (by simp [printed])]

theorem collect_unique {members : List (String × Json)} (unique : (members.map Prod.fst).Nodup)
    (found : List (String × Json)) (fresh : ∀ member ∈ members, member.1 ∉ found.map Prod.fst) :
    members.foldl (fun found member => InsertionMap.setEntry member.1 member.2 found) found =
      found ++ members := by
  induction members generalizing found with
  | nil => simp
  | cons member rest ih =>
    rw [List.map_cons, List.nodup_cons] at unique
    rw [List.foldl_cons, InsertionMap.setEntry_fresh _ (fresh member List.mem_cons_self),
      ih unique.2, List.append_assoc]
    · rfl
    · intro other inside
      rw [List.map_append, List.mem_append, not_or]
      refine ⟨fresh other (List.mem_cons_of_mem member inside), ?_⟩
      intro single
      have same : other.1 = member.1 := List.mem_singleton.mp single
      exact unique.1 (same ▸ List.mem_map_of_mem inside)

theorem collectMembers_own {members : List (String × Json)}
    (keys : OwnKeys (members.map Prod.fst)) : collectMembers members = members := by
  rw [collectMembers, collect_unique keys.1 [] fun _ _ => List.not_mem_nil]
  exact (List.pairwise_map.mp keys.2).insertionSort_eq

theorem starts_number {char : Char} (starts : char = '-' ∨ char.isDigit = true) :
    isSpace char = false ∧ char ∉ [']', '}', 'n', 't', 'f', '"', '[', '{'] := by
  rcases starts with rfl | digit
  · decide
  · have apart : ∀ other : Char, other.isDigit = false → char ≠ other := by
      rintro other plain rfl
      rw [plain] at digit
      cases digit
    constructor
    · simp only [isSpace, decide_eq_false (apart ' ' rfl), decide_eq_false (apart '\n' rfl),
        decide_eq_false (apart '\r' rfl), decide_eq_false (apart '\t' rfl), Bool.or_self]
    · intro inside
      simp only [List.mem_cons, List.not_mem_nil, or_false] at inside
      rcases inside with rfl | rfl | rfl | rfl | rfl | rfl | rfl | rfl <;> cases digit

theorem writeNumber_starts (value : Int) :
    ∃ char rest, writeNumber value = char :: rest ∧ (char = '-' ∨ char.isDigit = true) := by
  cases value with
  | ofNat value =>
    cases digits : Nat.toDigits 10 value with
    | nil => exact absurd digits Nat.toDigits_ne_nil
    | cons digit others =>
      exact ⟨digit, others, digits, .inr (Nat.isDigit_of_mem_toDigits (b := 10) (by decide)
        (by decide) (digits ▸ List.mem_cons_self : digit ∈ Nat.toDigits 10 value))⟩
  | negSucc value => exact ⟨'-', _, rfl, .inl rfl⟩

theorem read_number (fuel : Nat) {char : Char} (rest : List Char)
    (starts : char = '-' ∨ char.isDigit = true) :
    read (fuel + 1) (char :: rest) = readNumber (char :: rest) := by
  obtain ⟨printed, apart⟩ := starts_number starts
  simp only [List.mem_cons, List.not_mem_nil, or_false, not_or] at apart
  obtain ⟨-, -, noN, noT, noF, noQuote, noArray, noObject⟩ := apart
  rw [read, skipSpace_cons rest printed]
  split
  · rename_i same
    exact absurd (List.cons.inj same).1 noN
  · rename_i same
    exact absurd (List.cons.inj same).1 noT
  · rename_i same
    exact absurd (List.cons.inj same).1 noF
  · rename_i same
    exact absurd (List.cons.inj same).1 noQuote
  · rename_i same
    exact absurd (List.cons.inj same).1 noArray
  · rename_i same
    exact absurd (List.cons.inj same).1 noObject
  · rfl

theorem write_starts {json : Json} (wellFormed : json.WellFormed) :
    ∃ char rest, json.write = char :: rest ∧ isSpace char = false ∧ char ≠ ']' ∧ char ≠ '}' := by
  cases json with
  | null => exact ⟨'n', _, rfl, by decide⟩
  | bool value => cases value <;> exact ⟨_, _, rfl, by decide⟩
  | number value =>
    obtain ⟨char, rest, written, starts⟩ := writeNumber_starts value
    obtain ⟨printed, apart⟩ := starts_number starts
    simp only [List.mem_cons, List.not_mem_nil, or_false, not_or] at apart
    exact ⟨char, rest, written, printed, apart.1, apart.2.1⟩
  | decimal literal => exact False.elim wellFormed
  | text value => exact ⟨'"', _, rfl, by decide⟩
  | array items => exact ⟨'[', _, rfl, by decide⟩
  | object members => exact ⟨'{', _, rfl, by decide⟩

structure Reads (fuel : Nat) : Prop where
  value : ∀ (json : Json) (rest : List Char), json.WellFormed → json.write.length ≤ fuel →
    EndsNumber rest → read fuel (json.write ++ rest) = some (json, rest)
  items : ∀ (items : List Json) (rest : List Char), items ≠ [] → ItemsWellFormed items →
    (writeItems items).length ≤ fuel → readItems fuel (writeItems items ++ rest) = some (items, rest)
  members : ∀ (members : List (String × Json)) (rest : List Char), members ≠ [] →
    MembersWellFormed members → (writeMembers members).length ≤ fuel →
      readMembers fuel (writeMembers members ++ rest) = some (members, rest)

theorem endsNumber_cons {char : Char} {rest : List Char} (punctuation : char ∈ [',', ']', '}']) :
    EndsNumber (char :: rest) := by
  intro other same
  obtain rfl := Option.some.inj same
  simp only [List.mem_cons, List.not_mem_nil, or_false] at punctuation
  rcases punctuation with rfl | rfl | rfl <;> decide

theorem writeItems_cons (item next : Json) (rest : List Json) :
    writeItems (item :: next :: rest) = item.write ++ ',' :: writeItems (next :: rest) := rfl

theorem writeMembers_cons (name : String) (value : Json) (next : String × Json)
    (rest : List (String × Json)) :
    writeMembers ((name, value) :: next :: rest) =
      quote name ++ ':' :: (value.write ++ ',' :: writeMembers (next :: rest)) := rfl

theorem read_items {fuel : Nat} (reads : Reads fuel) (items : List Json) (rest : List Char)
    (some : items ≠ []) (wellFormed : ItemsWellFormed items)
    (enough : (writeItems items).length ≤ fuel + 1) :
    readItems (fuel + 1) (writeItems items ++ rest) = .some (items, rest) := by
  cases items with
  | nil => exact absurd rfl some
  | cons item more =>
    cases more with
    | nil =>
      have here := reads.value item (']' :: rest) wellFormed.1 (by
        simp only [writeItems, List.length_append, List.length_singleton] at enough
        omega) (endsNumber_cons (by decide))
      simp only [writeItems, List.append_assoc, List.singleton_append, readItems, here,
        Option.bind_some]
      rfl
    | cons next others =>
      have lengths : item.write.length + (writeItems (next :: others)).length ≤ fuel := by
        simp only [writeItems_cons, List.length_append, List.length_cons] at enough
        omega
      have here := reads.value item (',' :: (writeItems (next :: others) ++ rest)) wellFormed.1
        (by omega) (endsNumber_cons (by decide))
      have later := reads.items (next :: others) rest (List.cons_ne_nil _ _) wellFormed.2 (by omega)
      simp only [writeItems_cons, List.append_assoc, List.cons_append, readItems, here,
        Option.bind_some]
      show (readItems fuel (writeItems (next :: others) ++ rest)).map _ = _
      rw [later]
      rfl

theorem quote_append (name : String) (rest : List Char) :
    quote name ++ rest = '"' :: (name.toList.flatMap quoteChar ++ '"' :: rest) := by
  simp [quote]

theorem read_member {fuel : Nat} (reads : Reads fuel) (name : String) {value : Json}
    (wellFormed : value.WellFormed) (enough : value.write.length ≤ fuel) {char : Char}
    (punctuation : char ∈ [',', ']', '}']) (rest : List Char) :
    readMembers (fuel + 1) (quote name ++ ':' :: (value.write ++ char :: rest)) =
      match skipSpace (char :: rest) with
      | '}' :: rest => some ([(name, value)], rest)
      | ',' :: rest =>
        (readMembers fuel rest).map fun more => ((name, value) :: more.1, more.2)
      | _ => none := by
  have here := reads.value value (char :: rest) wellFormed enough (endsNumber_cons punctuation)
  have start : skipSpace (quote name ++ ':' :: (value.write ++ char :: rest)) =
      '"' :: (name.toList.flatMap quoteChar ++ '"' :: ':' :: (value.write ++ char :: rest)) := by
    rw [quote_append, skipSpace_cons _ (by decide)]
  have colon : skipSpace (':' :: (value.write ++ char :: rest)) =
      ':' :: (value.write ++ char :: rest) := skipSpace_cons _ (by decide)
  rw [readMembers, start]
  simp only [readString_quote, Option.bind_some, colon]
  exact congrArg (Option.bind · _) here

theorem read_members {fuel : Nat} (reads : Reads fuel) (members : List (String × Json))
    (rest : List Char) (some : members ≠ []) (wellFormed : MembersWellFormed members)
    (enough : (writeMembers members).length ≤ fuel + 1) :
    readMembers (fuel + 1) (writeMembers members ++ rest) = .some (members, rest) := by
  cases members with
  | nil => exact absurd rfl some
  | cons member more =>
    obtain ⟨name, value⟩ := member
    cases more with
    | nil =>
      have shorter : value.write.length ≤ fuel := by
        simp only [writeMembers, List.length_append, List.length_cons] at enough
        omega
      have brace : '}' ∈ [',', ']', '}'] := by decide
      have here := read_member reads name wellFormed.1 shorter brace rest
      simp only [writeMembers, List.append_assoc, List.cons_append] at here ⊢
      exact here
    | cons next others =>
      have lengths : value.write.length + (writeMembers (next :: others)).length ≤ fuel := by
        simp only [writeMembers_cons, List.length_append, List.length_cons] at enough
        omega
      have comma : ',' ∈ [',', ']', '}'] := by decide
      have here := read_member reads name wellFormed.1 (by omega) comma
        (writeMembers (next :: others) ++ rest)
      have later := reads.members (next :: others) rest (List.cons_ne_nil _ _) wellFormed.2
        (by omega)
      simp only [writeMembers_cons, List.append_assoc, List.cons_append] at here ⊢
      rw [here]
      show (readMembers fuel (writeMembers (next :: others) ++ rest)).map _ = _
      rw [later]
      rfl

theorem writeItems_starts {items : List Json} (some : items ≠ [])
    (wellFormed : ItemsWellFormed items) (rest : List Char) :
    (skipSpace (writeItems items ++ rest)).head? ≠ .some ']' := by
  cases items with
  | nil => exact absurd rfl some
  | cons item more =>
    obtain ⟨char, others, written, printed, noBracket, -⟩ := write_starts wellFormed.1
    have starts : ∃ tail, writeItems (item :: more) ++ rest = char :: tail := by
      cases more <;> simp [writeItems, written]
    obtain ⟨tail, same⟩ := starts
    rw [same, skipSpace_cons tail printed]
    exact fun bracket => noBracket (Option.some.inj bracket)

theorem writeMembers_starts {members : List (String × Json)} (some : members ≠ [])
    (rest : List Char) : (skipSpace (writeMembers members ++ rest)).head? ≠ .some '}' := by
  cases members with
  | nil => exact absurd rfl some
  | cons member more =>
    have starts : ∃ tail, writeMembers (member :: more) ++ rest = '"' :: tail := by
      cases more <;> simp [writeMembers, quote]
    obtain ⟨tail, same⟩ := starts
    rw [same, skipSpace_cons tail (by decide)]
    exact fun brace => absurd (Option.some.inj brace) (by decide)

theorem read_value {fuel : Nat} (reads : Reads fuel) (json : Json) (rest : List Char)
    (wellFormed : json.WellFormed) (enough : json.write.length ≤ fuel + 1)
    (ends : EndsNumber rest) : read (fuel + 1) (json.write ++ rest) = some (json, rest) := by
  cases json with
  | null => rfl
  | bool value => cases value <;> rfl
  | number value =>
    obtain ⟨char, more, written, starts⟩ := writeNumber_starts value
    have number := readNumber_writeNumber value ends
    rw [written] at number
    rw [write, written, List.cons_append, read_number fuel _ starts]
    exact number
  | decimal literal => exact False.elim wellFormed
  | text value =>
    rw [write, quote_append, read, skipSpace_cons _ (by decide)]
    show (readString _).map _ = _
    rw [readString_quote]
    rfl
  | array items =>
    cases items with
    | nil => rfl
    | cons item more =>
      have shorter : (writeItems (item :: more)).length ≤ fuel := by
        simp only [write, List.length_cons] at enough
        omega
      have here := reads.items (item :: more) rest (List.cons_ne_nil _ _) wellFormed shorter
      have start := writeItems_starts (List.cons_ne_nil item more) wellFormed rest
      rw [write, List.cons_append, read, skipSpace_cons _ (by decide)]
      show (if _ then _ else (readItems fuel _).map _) = _
      rw [if_neg start, here]
      rfl
  | object members =>
    cases members with
    | nil => rfl
    | cons member more =>
      have shorter : (writeMembers (member :: more)).length ≤ fuel := by
        simp only [write, List.length_cons] at enough
        omega
      have here := reads.members (member :: more) rest (List.cons_ne_nil _ _) wellFormed.2 shorter
      have start := writeMembers_starts (List.cons_ne_nil member more) rest
      rw [write, List.cons_append, read, skipSpace_cons _ (by decide)]
      show (if _ then _ else (readMembers fuel _).map _) = _
      rw [if_neg start, here, Option.map_some, collectMembers_own wellFormed.1]

theorem reads (fuel : Nat) : Reads fuel := by
  induction fuel with
  | zero =>
    refine ⟨fun json _ wellFormed short => ?_, fun items _ some _ short => ?_,
      fun members _ some _ short => ?_⟩
    · obtain ⟨_, _, written, -⟩ := write_starts wellFormed
      rw [written] at short
      cases short
    · cases items with
      | nil => exact absurd rfl some
      | cons item more => cases more <;> simp [writeItems] at short
    · cases members with
      | nil => exact absurd rfl some
      | cons member more => cases more <;> simp [writeMembers] at short
  | succ fuel ih =>
    exact ⟨read_value ih, read_items ih, read_members ih⟩

/-- What `JSON.stringify` writes, `JSON.parse` reads back. -/
theorem parse_stringify {json : Json} (wellFormed : json.WellFormed) :
    parse (stringify json) = some json := by
  have whole := (reads (json.write.length + 1)).value json [] wellFormed (Nat.le_succ _) nofun
  rw [List.append_nil] at whole
  rw [parse, stringify, String.toList_ofList, whole]
  rfl

end Values

end Json
