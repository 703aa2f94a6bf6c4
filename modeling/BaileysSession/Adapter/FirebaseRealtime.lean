import BaileysSession.Adapter.Database
import BaileysSession.Shared.Overlay
import Mathlib.Data.List.Dedup

set_option autoImplicit false

namespace BaileysSession.FirebaseRealtime

open Overlay

section Source

-- What `/[.#$[\]/]/g` matches.
def reserved : List Char := ['.', '#', '$', '[', ']', '/']

def escapeChar (char : Char) : List Char :=
  if char ∈ reserved then '~' :: (Nat.repr char.toNat).toList ++ ['~'] else [char]

def escapeSegment (segment : String) : String :=
  String.ofList (segment.toList.flatMap escapeChar)

def path (sessionId : String) (key : Option String) : String :=
  let base := "baileys_sessions/" ++ escapeSegment sessionId
  match key with
  | some key => if key ≠ "" then base ++ "/" ++ escapeSegment key else base
  | none => base

/-- The database is a tree; these are its records by the names on the way to them. -/
abbrev Tree := InsertionMap (List String) SessionRecord

def segments (path : String) : List String :=
  ((path.toList.splitOn '/').filter fun name => decide (name ≠ [])).map String.ofList

def under (place leaf : List String) : Bool := place.isPrefixOf leaf

def remove (tree : Tree) (place : List String) : Tree :=
  tree.filter fun leaf => !under place leaf.1

def write (tree : Tree) (place : List String) (record : SessionRecord) : Tree :=
  (remove tree place).set place record

-- `Object.keys(snapshot.val())`
def childNames (tree : Tree) (place : List String) : List String :=
  (tree.keys.filterMap fun leaf => if under place leaf then leaf[place.length]? else none).dedup

def get (tree : Tree) (sessionId key : String) : Option SessionRecord :=
  tree.get? (segments (path sessionId (some key)))

def getMany (tree : Tree) (sessionId : String) (keys : List String) :
    InsertionMap String SessionRecord :=
  keys.foldl (fun found key =>
    match get tree sessionId key with
    | some record => found.set key record
    | none => found) .empty

-- The paths of one `update` are written in order, with versions that were read before.
def setMany (tree : Tree) (now : Int) (sessionId : String) (entries : List Entry) : Tree :=
  let existingVersions := getMany tree sessionId (entries.map Entry.key)
  entries.foldl (fun tree entry =>
    let currentVersion := ((existingVersions.get? entry.key).map SessionRecord.version).getD 0
    write tree (segments (path sessionId (some entry.key)))
      ⟨entry.value, now, currentVersion + 1⟩) tree

def deleteMany (tree : Tree) (sessionId : String) (keys : List String) : Tree :=
  keys.foldl (fun tree key => remove tree (segments (path sessionId (some key)))) tree

def deleteSession (tree : Tree) (sessionId : String) : Tree :=
  remove tree (segments (path sessionId none))

def getAllKeys (tree : Tree) (sessionId : String) : List String :=
  childNames tree (segments (path sessionId none))

def listSessions (tree : Tree) : List String := childNames tree (segments "baileys_sessions")

end Source

section Escaping

def Plain (text : String) : Prop := ∀ char ∈ text.toList, char ∉ reserved

instance : DecidablePred Plain := fun text => List.decidableBAll _ text.toList

/-- The texts that session ids and keys are taken from. -/
def Legal (text : String) : Prop := text ≠ "" ∧ '~' ∉ text.toList

instance : DecidablePred Legal := fun text =>
  inferInstanceAs (Decidable (text ≠ "" ∧ '~' ∉ text.toList))

theorem escapeChar_plain {char : Char} (ordinary : char ∉ reserved) : escapeChar char = [char] :=
  if_neg ordinary

theorem escapeChar_special {char : Char} (special : char ∈ reserved) :
    ∃ first second, escapeChar char = ['~', first, second, '~'] := by
  simp only [reserved, List.mem_cons, List.not_mem_nil, or_false] at special
  rcases special with rfl | rfl | rfl | rfl | rfl | rfl
  all_goals exact ⟨_, _, rfl⟩

theorem escapeChar_clean (char : Char) : ∀ other ∈ escapeChar char, other ∉ reserved := by
  by_cases special : char ∈ reserved
  · have checked : (reserved.all fun char => (escapeChar char).all fun other =>
        decide (other ∉ reserved)) = true := by decide
    intro other inside
    have here := List.all_eq_true.mp checked char special
    exact of_decide_eq_true (List.all_eq_true.mp here other inside)
  · rw [escapeChar_plain special]
    intro other inside
    rw [List.mem_singleton.mp inside]
    exact special

theorem escapeChar_injective {char other : Char} (special : char ∈ reserved)
    (otherSpecial : other ∈ reserved) (same : escapeChar char = escapeChar other) : char = other := by
  have checked : (reserved.all fun char => reserved.all fun other =>
      decide (escapeChar char = escapeChar other → char = other)) = true := by decide
  have here := List.all_eq_true.mp checked char special
  exact of_decide_eq_true (List.all_eq_true.mp here other otherSpecial) same

theorem escape_injective {first second : List Char} (inFirst : '~' ∉ first)
    (inSecond : '~' ∉ second) (same : first.flatMap escapeChar = second.flatMap escapeChar) :
    first = second := by
  have filled : ∀ char, escapeChar char ≠ [] := by
    intro char
    by_cases special : char ∈ reserved
    · obtain ⟨_, _, shape⟩ := escapeChar_special special
      simp [shape]
    · simp [escapeChar_plain special]
  induction first generalizing second with
  | nil =>
    cases second with
    | nil => rfl
    | cons head tail =>
      rw [List.flatMap_nil, List.flatMap_cons] at same
      exact absurd (List.append_eq_nil_iff.mp same.symm).1 (filled head)
  | cons char rest ih =>
    cases second with
    | nil =>
      rw [List.flatMap_nil, List.flatMap_cons] at same
      exact absurd (List.append_eq_nil_iff.mp same).1 (filled char)
    | cons head tail =>
      rw [List.flatMap_cons, List.flatMap_cons] at same
      simp only [List.mem_cons, not_or] at inFirst inSecond
      by_cases special : char ∈ reserved <;> by_cases other : head ∈ reserved
      · obtain ⟨_, _, shape⟩ := escapeChar_special special
        obtain ⟨_, _, otherShape⟩ := escapeChar_special other
        have lengths : (escapeChar char).length = (escapeChar head).length := by
          rw [shape, otherShape]
          rfl
        obtain ⟨chars, rests⟩ := List.append_inj same lengths
        rw [escapeChar_injective special other chars, ih inFirst.2 inSecond.2 rests]
      · obtain ⟨_, _, shape⟩ := escapeChar_special special
        rw [shape, escapeChar_plain other] at same
        simp only [List.cons_append, List.cons.injEq] at same
        exact absurd same.1 inSecond.1
      · obtain ⟨_, _, shape⟩ := escapeChar_special other
        rw [shape, escapeChar_plain special] at same
        simp only [List.cons_append, List.cons.injEq] at same
        exact absurd same.1.symm inFirst.1
      · rw [escapeChar_plain special, escapeChar_plain other] at same
        simp only [List.cons_append, List.nil_append, List.cons.injEq] at same
        rw [same.1, ih inFirst.2 inSecond.2 same.2]

theorem escapeSegment_injective {first second : String} (legal : Legal first)
    (otherLegal : Legal second) (same : escapeSegment first = escapeSegment second) :
    first = second := by
  have lists := congrArg String.toList same
  simp only [escapeSegment, String.toList_ofList] at lists
  exact String.toList_inj.mp (escape_injective legal.2 otherLegal.2 lists)

theorem escapeSegment_clean (text : String) : Plain (escapeSegment text) := by
  intro char inside
  rw [escapeSegment, String.toList_ofList] at inside
  obtain ⟨_, -, escaped⟩ := List.mem_flatMap.mp inside
  exact escapeChar_clean _ char escaped

theorem escapeSegment_plain {text : String} (plain : Plain text) : escapeSegment text = text := by
  have kept : ∀ chars : List Char, (∀ char ∈ chars, char ∉ reserved) →
      chars.flatMap escapeChar = chars := by
    intro chars
    induction chars with
    | nil => exact fun _ => rfl
    | cons char rest ih =>
      intro ordinary
      rw [List.flatMap_cons, escapeChar_plain (ordinary char List.mem_cons_self),
        ih fun other inside => ordinary other (List.mem_cons_of_mem char inside)]
      rfl
  rw [escapeSegment, kept text.toList plain, String.ofList_toList]

theorem tilde_of_escaped {text : String} (special : ¬ Plain text) :
    '~' ∈ (escapeSegment text).toList := by
  simp only [Plain, not_forall, not_not] at special
  obtain ⟨char, inside, reserved⟩ := special
  obtain ⟨_, _, shape⟩ := escapeChar_special reserved
  rw [escapeSegment, String.toList_ofList]
  exact List.mem_flatMap.mpr ⟨char, inside, by rw [shape]; exact List.mem_cons_self⟩

theorem escapeSegment_twice (text : String) :
    escapeSegment (escapeSegment text) = escapeSegment text :=
  escapeSegment_plain (escapeSegment_clean text)

theorem escapeSegment_nonempty {text : String} (filled : text ≠ "") : escapeSegment text ≠ "" := by
  intro same
  by_cases plain : Plain text
  · exact filled (escapeSegment_plain plain ▸ same)
  · have inside := tilde_of_escaped plain
    rw [same] at inside
    cases inside

end Escaping

section Places

def place (sessionId key : String) : List String :=
  ["baileys_sessions", escapeSegment sessionId, escapeSegment key]

def sessionPlace (sessionId : String) : List String := ["baileys_sessions", escapeSegment sessionId]

theorem slash_free (text : String) : '/' ∉ (escapeSegment text).toList := by
  intro inside
  exact escapeSegment_clean text '/' inside (by decide)

theorem segments_base {sessionId : String} (filled : sessionId ≠ "") :
    segments (path sessionId none) = sessionPlace sessionId := by
  have lists : (path sessionId none).toList =
      "baileys_sessions".toList ++ '/' :: (escapeSegment sessionId).toList := by
    unfold path
    simp [String.toList_append]
  rw [segments, lists, List.splitOn_append_cons_self_of_not_mem (by decide),
    List.splitOn_eq_singleton (slash_free sessionId)]
  simp [sessionPlace, escapeSegment_nonempty filled]

theorem segments_path {sessionId key : String} (filled : sessionId ≠ "") (named : key ≠ "") :
    segments (path sessionId (some key)) = place sessionId key := by
  have lists : (path sessionId (some key)).toList = "baileys_sessions".toList ++ '/' ::
      ((escapeSegment sessionId).toList ++ '/' :: (escapeSegment key).toList) := by
    unfold path
    simp [named, String.toList_append]
  rw [segments, lists, List.splitOn_append_cons_self_of_not_mem (by decide),
    List.splitOn_append_cons_self_of_not_mem (slash_free sessionId),
    List.splitOn_eq_singleton (slash_free key)]
  simp [place, escapeSegment_nonempty filled, escapeSegment_nonempty named]

theorem place_injective {sessionId key other name : String} (session : Legal sessionId)
    (legal : Legal key) (otherSession : Legal other) (otherLegal : Legal name)
    (same : place sessionId key = place other name) : sessionId = other ∧ key = name := by
  simp only [place, List.cons.injEq, true_and, and_true] at same
  exact ⟨escapeSegment_injective session otherSession same.1,
    escapeSegment_injective legal otherLegal same.2⟩

theorem under_place_iff {sessionId key other name : String} (session : Legal sessionId)
    (legal : Legal key) (otherSession : Legal other) (otherLegal : Legal name) :
    under (place sessionId key) (place other name) = true ↔ sessionId = other ∧ key = name := by
  constructor
  · intro below
    have starts := List.isPrefixOf_iff_prefix.mp below
    have lengths : (place sessionId key).length = (place other name).length := by simp [place]
    exact place_injective session legal otherSession otherLegal (starts.eq_of_length lengths)
  · rintro ⟨rfl, rfl⟩
    exact List.isPrefixOf_iff_prefix.mpr (List.prefix_refl _)

theorem under_sessionPlace_iff {sessionId other name : String} (session : Legal sessionId)
    (otherSession : Legal other) :
    under (sessionPlace sessionId) (place other name) = true ↔ sessionId = other := by
  have prefixed : under (sessionPlace sessionId) (place other name) = true ↔
      escapeSegment sessionId = escapeSegment other := by
    simp [under, sessionPlace, place, List.isPrefixOf]
  rw [prefixed]
  exact ⟨escapeSegment_injective session otherSession, congrArg escapeSegment⟩

theorem get?_remove (tree : Tree) (target leaf : List String) :
    (remove tree target).get? leaf = if under target leaf = true then none else tree.get? leaf := by
  ext record
  rw [remove, InsertionMap.get?_filter_eq_some]
  by_cases below : under target leaf = true <;> simp [below]

theorem get?_write (tree : Tree) (target leaf : List String) (record : SessionRecord) :
    (write tree target record).get? leaf =
      if leaf = target then some record
      else if under target leaf = true then none else tree.get? leaf := by
  rw [write, InsertionMap.get?_set, get?_remove]

end Places

section Rows

-- Which value a pair of a session id and a key has.
abbrev Rows := Store (String × String) String

inductive Operation where
  | setMany (sessionId : String) (entries : List Entry) (dateNow : Int)
  | deleteMany (sessionId : String) (keys : List String)
  | deleteSession (sessionId : String)
  deriving DecidableEq, Repr

def Operation.apply (tree : Tree) : Operation → Tree
  | .setMany sessionId entries dateNow => FirebaseRealtime.setMany tree dateNow sessionId entries
  | .deleteMany sessionId keys => FirebaseRealtime.deleteMany tree sessionId keys
  | .deleteSession sessionId => FirebaseRealtime.deleteSession tree sessionId

/-- What an operation is to do to the rows. -/
def Operation.asked (rows : Rows) : Operation → Rows
  | .setMany sessionId entries _ =>
    putAll rows (entries.map fun entry => ((sessionId, entry.key), entry.value))
  | .deleteMany sessionId keys => fun row =>
    if row.1 = sessionId ∧ row.2 ∈ keys then none else rows row
  | .deleteSession sessionId => fun row => if row.1 = sessionId then none else rows row

def Operation.Supported : Operation → Prop
  | .setMany sessionId entries _ =>
    Legal sessionId ∧ ∀ entry ∈ entries, Legal entry.key
  | .deleteMany sessionId keys =>
    Legal sessionId ∧ ∀ key ∈ keys, Legal key
  | .deleteSession sessionId => Legal sessionId

def run (operations : List Operation) : Tree := operations.foldl Operation.apply .empty

def runRows (operations : List Operation) : Rows := operations.foldl Operation.asked fun _ => none

structure Mirrors (tree : Tree) (rows : Rows) : Prop where
  leaves : ∀ leaf, tree.get? leaf ≠ none → ∃ sessionId key, Legal sessionId ∧
    Legal key ∧ leaf = place sessionId key
  values : ∀ sessionId key, Legal sessionId → Legal key →
    (tree.get? (place sessionId key)).map SessionRecord.value = rows (sessionId, key)
  legal : ∀ sessionId key, rows (sessionId, key) ≠ none →
    Legal sessionId ∧ Legal key

variable {tree : Tree} {rows : Rows}

theorem Mirrors.write (mirrors : Mirrors tree rows) {sessionId key : String}
    (session : Legal sessionId) (named : Legal key)
    (record : SessionRecord) :
    Mirrors (write tree (place sessionId key) record)
      (put rows ((sessionId, key), record.value)) := by
  constructor
  · intro leaf present
    rw [get?_write] at present
    split at present
    · rename_i here
      exact ⟨sessionId, key, session, named, here⟩
    · split at present
      · exact absurd rfl present
      · exact mirrors.leaves leaf present
  · intro other name otherSession otherNamed
    have below := under_place_iff session named otherSession otherNamed
    rw [get?_write, put, Function.update_apply]
    by_cases here : sessionId = other ∧ key = name
    · obtain ⟨rfl, rfl⟩ := here
      rw [if_pos rfl, if_pos rfl]
      rfl
    · have away : place other name ≠ place sessionId key := by
        intro same
        obtain ⟨rfl, rfl⟩ := place_injective otherSession otherNamed session named same
        exact here ⟨rfl, rfl⟩
      have pair : (other, name) ≠ (sessionId, key) := by
        rintro ⟨⟩
        exact here ⟨rfl, rfl⟩
      rw [if_neg away, if_neg (mt below.mp here), if_neg pair]
      exact mirrors.values other name otherSession otherNamed
  · intro other name present
    rw [put, Function.update_apply] at present
    split at present
    · rename_i same
      cases same
      exact ⟨session, named⟩
    · exact mirrors.legal other name present

theorem Mirrors.remove (mirrors : Mirrors tree rows) {target : List String} {gone : String × String → Prop}
    [DecidablePred gone]
    (below : ∀ sessionId key, Legal sessionId → Legal key →
      (under target (place sessionId key) = true ↔ gone (sessionId, key))) :
    Mirrors (remove tree target) fun row => if gone row then none else rows row := by
  constructor
  · intro leaf present
    rw [get?_remove] at present
    split at present
    · exact absurd rfl present
    · exact mirrors.leaves leaf present
  · intro sessionId key session named
    have stored := mirrors.values sessionId key session named
    rw [get?_remove]
    by_cases deleted : gone (sessionId, key)
    · rw [if_pos ((below sessionId key session named).mpr deleted), if_pos deleted]
      rfl
    · rw [if_neg (mt (below sessionId key session named).mp deleted), if_neg deleted, stored]
  · intro sessionId key present
    split at present
    · exact absurd rfl present
    · exact mirrors.legal sessionId key present

theorem Mirrors.setMany (mirrors : Mirrors tree rows) {sessionId : String}
    (session : Legal sessionId) {entries : List Entry} (named : ∀ entry ∈ entries, Legal entry.key)
    (now : Int) :
    Mirrors (setMany tree now sessionId entries)
      (putAll rows (entries.map fun entry => ((sessionId, entry.key), entry.value))) := by
  unfold FirebaseRealtime.setMany
  generalize getMany tree sessionId (entries.map Entry.key) = existingVersions
  dsimp only
  induction entries generalizing tree rows with
  | nil => exact mirrors
  | cons entry rest ih =>
    have legal := named entry List.mem_cons_self
    rw [List.foldl_cons, segments_path session.1 legal.1]
    exact ih (mirrors.write session legal _) fun other later =>
      named other (List.mem_cons_of_mem entry later)

theorem Mirrors.deleteMany (mirrors : Mirrors tree rows) {sessionId : String}
    (session : Legal sessionId) {keys : List String} (named : ∀ key ∈ keys, Legal key) :
    Mirrors (deleteMany tree sessionId keys) fun row =>
      if row.1 = sessionId ∧ row.2 ∈ keys then none else rows row := by
  induction keys generalizing tree rows with
  | nil => simpa [FirebaseRealtime.deleteMany] using mirrors
  | cons key rest ih =>
    have legal := named key List.mem_cons_self
    have first : Mirrors (FirebaseRealtime.remove tree (segments (path sessionId (some key)))) fun row =>
        if row.1 = sessionId ∧ row.2 = key then none else rows row := by
      rw [segments_path session.1 legal.1]
      refine mirrors.remove fun other name otherSession otherNamed => ?_
      rw [under_place_iff session legal otherSession otherNamed, eq_comm, and_congr_right_iff]
      exact fun _ => eq_comm
    have later := ih first fun other inside => named other (List.mem_cons_of_mem key inside)
    have both : (fun row : String × String => if row.1 = sessionId ∧ row.2 ∈ rest then none
        else if row.1 = sessionId ∧ row.2 = key then none else rows row) =
        fun row => if row.1 = sessionId ∧ row.2 ∈ key :: rest then none else rows row := by
      funext row
      by_cases here : row.1 = sessionId <;> by_cases first : row.2 = key <;>
        by_cases later : row.2 ∈ rest <;> simp [here, first, later]
    exact both ▸ later

theorem Mirrors.deleteSession (mirrors : Mirrors tree rows) {sessionId : String}
    (session : Legal sessionId) :
    Mirrors (deleteSession tree sessionId) fun row =>
      if row.1 = sessionId then none else rows row := by
  rw [FirebaseRealtime.deleteSession, segments_base session.1]
  refine mirrors.remove fun other name otherSession _ => ?_
  rw [under_sessionPlace_iff session otherSession, eq_comm]

theorem run_mirrors {operations : List Operation}
    (supported : ∀ operation ∈ operations, operation.Supported) :
    Mirrors (run operations) (runRows operations) := by
  have kept : ∀ {tree : Tree} {rows : Rows}, Mirrors tree rows →
      Mirrors (operations.foldl Operation.apply tree) (operations.foldl Operation.asked rows) := by
    induction operations with
    | nil => exact fun mirrors => mirrors
    | cons operation rest ih =>
      intro tree rows mirrors
      have first := supported operation List.mem_cons_self
      refine ih (fun other later => supported other (List.mem_cons_of_mem operation later)) ?_
      cases operation with
      | setMany sessionId entries dateNow => exact mirrors.setMany first.1 first.2 dateNow
      | deleteMany sessionId keys => exact mirrors.deleteMany first.1 first.2
      | deleteSession sessionId => exact mirrors.deleteSession first
  refine kept ⟨?_, fun _ _ _ _ => rfl, ?_⟩
  · exact fun _ present => absurd rfl present
  · exact fun _ _ present => absurd rfl present

end Rows

section Listing

variable {tree : Tree} {rows : Rows}

theorem mem_childNames (tree : Tree) (target : List String) (name : String) :
    name ∈ childNames tree target ↔
      ∃ leaf, tree.get? leaf ≠ none ∧ under target leaf = true ∧ leaf[target.length]? = some name := by
  rw [childNames, List.mem_dedup, List.mem_filterMap]
  refine exists_congr fun leaf => ?_
  have stored : leaf ∈ tree.keys ↔ tree.get? leaf ≠ none := by
    rw [Ne, InsertionMap.get?_eq_none_iff, not_not]
  rw [stored]
  by_cases below : under target leaf = true <;> simp [below]

theorem Mirrors.stored (mirrors : Mirrors tree rows) {sessionId key : String}
    (present : rows (sessionId, key) ≠ none) : tree.get? (place sessionId key) ≠ none := by
  obtain ⟨session, named⟩ := mirrors.legal sessionId key present
  rw [← mirrors.values sessionId key session named] at present
  exact fun missing => present (by rw [missing]; rfl)

theorem Mirrors.present (mirrors : Mirrors tree rows) {sessionId key : String}
    (session : Legal sessionId) (named : Legal key)
    (stored : tree.get? (place sessionId key) ≠ none) : rows (sessionId, key) ≠ none := by
  obtain ⟨record, found⟩ := Option.ne_none_iff_exists'.mp stored
  rw [← mirrors.values sessionId key session named, found]
  exact Option.some_ne_none _

theorem Mirrors.mem_getAllKeys (mirrors : Mirrors tree rows) {sessionId : String}
    (session : Legal sessionId) (name : String) :
    name ∈ getAllKeys tree sessionId ↔
      ∃ key, rows (sessionId, key) ≠ none ∧ name = escapeSegment key := by
  rw [getAllKeys, segments_base session.1, mem_childNames]
  constructor
  · rintro ⟨leaf, present, below, child⟩
    obtain ⟨other, key, otherSession, named, rfl⟩ := mirrors.leaves leaf present
    obtain rfl := (under_sessionPlace_iff session otherSession).mp below
    exact ⟨key, mirrors.present session named present, (Option.some.inj child).symm⟩
  · rintro ⟨key, present, rfl⟩
    exact ⟨place sessionId key, mirrors.stored present,
      (under_sessionPlace_iff session session).mpr rfl, rfl⟩

theorem Mirrors.mem_listSessions (mirrors : Mirrors tree rows) (name : String) :
    name ∈ listSessions tree ↔
      ∃ sessionId key, rows (sessionId, key) ≠ none ∧ name = escapeSegment sessionId := by
  have top : segments "baileys_sessions" = ["baileys_sessions"] := by
    rw [segments, List.splitOn_eq_singleton (by decide)]
    rfl
  rw [listSessions, top, mem_childNames]
  constructor
  · rintro ⟨leaf, present, -, child⟩
    obtain ⟨sessionId, key, session, named, rfl⟩ := mirrors.leaves leaf present
    exact ⟨sessionId, key, mirrors.present session named present, (Option.some.inj child).symm⟩
  · rintro ⟨sessionId, key, present, rfl⟩
    exact ⟨place sessionId key, mirrors.stored present, rfl, rfl⟩

end Listing

end BaileysSession.FirebaseRealtime
