import BaileysSession.Shared.KeyedTable
import Mathlib.Data.List.Pairwise

set_option autoImplicit false

-- Statements with placeholders, and what they do to a table with a primary key.
namespace Sql

open KeyedTable (Arrangement)

inductive Value where
  | text (value : String)
  | number (value : Int)
  deriving DecidableEq, Repr

def Value.plus : Value → Int → Value
  | .number value, amount => .number (value + amount)
  | .text value, _ => .text value

-- What a driver sends for a placeholder.
inductive Param where
  | value (value : Value)
  | array (values : List Value)
  deriving DecidableEq, Repr

inductive Term where
  -- `$1`, `$2`, ...
  | numbered (index : Nat)
  | question
  | literal (value : Value)
  deriving DecidableEq, Repr

variable {Column : Type}

abbrev Row (Column : Type) := Column → Value

inductive Test (Column : Type) where
  | equals (column : Column) (term : Term)
  -- `column = ANY(array)`
  | any (column : Column) (array : Term)
  -- `column IN (terms)`
  | among (column : Column) (terms : List Term)

-- What an existing row gets in its place: a value of the new row, or one of its own with something
-- added.
inductive Expression (Column : Type) where
  | excluded (column : Column)
  | own (column : Column) (amount : Int)

inductive Statement (Column : Type) where
  | select (tests : List (Test Column)) (limit : Option Nat)
  | selectDistinct (column : Column)
  | insert (columns : List Column) (tuples : List (List Term))
    (updates : List (Column × Expression Column))
  | delete (tests : List (Test Column))

structure Query (Column : Type) where
  statement : Statement Column
  params : List Param

section Binding

-- What a term stands for, and the parameters no `?` has taken so far.
def Term.read (params : List Param) : Term → List Param → Option (Param × List Param)
  | .numbered 0, _ => none
  | .numbered (index + 1), left => params[index]?.map fun param => (param, left)
  | .question, [] => none
  | .question, param :: left => some (param, left)
  | .literal value, left => some (.value value, left)

def Term.scalar (params : List Param) (term : Term) (left : List Param) :
    Option (Value × List Param) :=
  match term.read params left with
  | some (.value value, left) => some (value, left)
  | _ => none

def scalars (params : List Param) : List Term → List Param → Option (List Value × List Param)
  | [], left => some ([], left)
  | term :: rest, left =>
    (term.scalar params left).bind fun first =>
      (scalars params rest first.2).map fun later => (first.1 :: later.1, later.2)

structure Check (Column : Type) where
  column : Column
  values : List Value

def Test.bind (params : List Param) : Test Column → List Param → Option (Check Column × List Param)
  | .equals column term, left =>
    (term.scalar params left).map fun found => (⟨column, [found.1]⟩, found.2)
  | .any column array, left =>
    match array.read params left with
    | some (.array values, left) => some (⟨column, values⟩, left)
    | _ => none
  | .among column terms, left =>
    (scalars params terms left).map fun found => (⟨column, found.1⟩, found.2)

def bindTests (params : List Param) :
    List (Test Column) → List Param → Option (List (Check Column) × List Param)
  | [], left => some ([], left)
  | test :: rest, left =>
    (test.bind params left).bind fun first =>
      (bindTests params rest first.2).map fun later => (first.1 :: later.1, later.2)

def bindTuples (params : List Param) :
    List (List Term) → List Param → Option (List (List Value) × List Param)
  | [], left => some ([], left)
  | tuple :: rest, left =>
    (scalars params tuple left).bind fun first =>
      (bindTuples params rest first.2).map fun later => (first.1 :: later.1, later.2)

inductive Bound (Column : Type) where
  | select (checks : List (Check Column)) (limit : Option Nat)
  | selectDistinct (column : Column)
  | insert (columns : List Column) (tuples : List (List Value))
    (updates : List (Column × Expression Column))
  | delete (checks : List (Check Column))

def Statement.bind (params : List Param) :
    Statement Column → Option (Bound Column × List Param)
  | .select tests limit =>
    (bindTests params tests params).map fun found => (.select found.1 limit, found.2)
  | .selectDistinct column => some (.selectDistinct column, params)
  | .insert columns tuples updates =>
    (bindTuples params tuples params).map fun found => (.insert columns found.1 updates, found.2)
  | .delete tests => (bindTests params tests params).map fun found => (.delete found.1, found.2)

def Term.index : Term → Nat
  | .numbered index => index
  | .question | .literal _ => 0

def Test.terms : Test Column → List Term
  | .equals _ term | .any _ term => [term]
  | .among _ terms => terms

def Statement.terms : Statement Column → List Term
  | .select tests _ | .delete tests => tests.flatMap Test.terms
  | .selectDistinct _ => []
  | .insert _ tuples _ => tuples.flatten

def highest (terms : List Term) : Nat := terms.foldr (fun term most => max term.index most) 0

-- As many parameters as placeholders: no `?` has to take one that a `$n` asks for.
def Query.bound (query : Query Column) : Option (Bound Column) :=
  (query.statement.bind query.params).bind fun found =>
    if found.2.length = highest query.statement.terms then some found.1 else none

-- `$1` to `$n` from the parameter at an index on.
def numberedFrom (start : Nat) : Nat → List Term
  | 0 => []
  | count + 1 => .numbered (start + 1) :: numberedFrom (start + 1) count

theorem scalars_questions (params left : List Param) (values : List Value) :
    scalars params (values.map fun _ => .question) (values.map .value ++ left) =
      some (values, left) := by
  induction values with
  | nil => rfl
  | cons value rest ih =>
    simp only [List.map_cons, List.cons_append, scalars, Term.scalar, Term.read, Option.bind_some,
      ih, Option.map_some]

theorem scalars_numbered (before after left : List Param) (values : List Value) :
    scalars (before ++ (values.map .value ++ after)) (numberedFrom before.length values.length)
      left = some (values, left) := by
  induction values generalizing before with
  | nil => rfl
  | cons value rest ih =>
    have later := ih (before ++ [.value value])
    rw [List.length_append, List.length_singleton, List.append_assoc, List.singleton_append] at later
    have found : (before ++ (Param.value value :: (rest.map .value ++ after)))[before.length]? =
        some (.value value) := by simp
    simp only [List.length_cons, numberedFrom, List.map_cons, List.cons_append, scalars, Term.scalar,
      Term.read, found, Option.map_some, Option.bind_some, later]

theorem bindTuples_questions (params left : List Param) (tuples : List (List Value)) :
    bindTuples params (tuples.map fun tuple => tuple.map fun _ => .question)
        (tuples.flatMap (fun tuple => tuple.map .value) ++ left) = some (tuples, left) := by
  induction tuples with
  | nil => rfl
  | cons tuple rest ih =>
    simp only [List.map_cons, List.flatMap_cons, List.append_assoc, bindTuples, scalars_questions,
      Option.bind_some, ih, Option.map_some]

theorem bindTuples_numbered (width : Nat) (before left : List Param) (skipped : Nat)
    (starts : before.length = skipped * width) (tuples : List (List Value))
    (wide : ∀ tuple ∈ tuples, tuple.length = width) :
    bindTuples (before ++ tuples.flatMap fun tuple => tuple.map .value)
        (tuples.mapIdx fun index _ => numberedFrom ((index + skipped) * width) width) left =
      some (tuples, left) := by
  induction tuples generalizing before skipped with
  | nil => rfl
  | cons tuple rest ih =>
    have size := wide tuple List.mem_cons_self
    have first := scalars_numbered before (rest.flatMap fun tuple => tuple.map .value) left tuple
    rw [starts, size] at first
    have ends : (before ++ tuple.map Param.value).length = (skipped + 1) * width := by
      rw [List.length_append, List.length_map, starts, size, Nat.succ_mul]
    have later := ih (before ++ tuple.map .value) (skipped + 1) ends fun other inside =>
      wide other (List.mem_cons_of_mem tuple inside)
    rw [List.append_assoc] at later
    simp only [List.mapIdx_cons, List.flatMap_cons, bindTuples, Nat.zero_add, first,
      Option.bind_some]
    simp only [Nat.add_assoc, Nat.add_comm 1 skipped, later, Option.map_some]

theorem highest_cons (term : Term) (rest : List Term) :
    highest (term :: rest) = max term.index (highest rest) := rfl

theorem highest_append (first second : List Term) :
    highest (first ++ second) = max (highest first) (highest second) := by
  induction first with
  | nil => exact (Nat.zero_max _).symm
  | cons term rest ih => rw [List.cons_append, highest_cons, highest_cons, ih, Nat.max_assoc]

theorem highest_questions {terms : List Term} (only : ∀ term ∈ terms, term.index = 0) :
    highest terms = 0 := by
  induction terms with
  | nil => rfl
  | cons term rest ih =>
    rw [highest_cons, only term List.mem_cons_self,
      ih fun other inside => only other (List.mem_cons_of_mem term inside), Nat.max_self]

theorem highest_numberedFrom (start count : Nat) :
    highest (numberedFrom start count) = if count = 0 then 0 else start + count := by
  induction count generalizing start with
  | zero => rfl
  | succ count ih =>
    rw [numberedFrom, highest_cons, ih, Term.index]
    split <;> simp <;> omega

theorem highest_tuples (width skipped : Nat) (tuples : List (List Value)) :
    highest (tuples.mapIdx fun index _ => numberedFrom ((index + skipped) * width) width).flatten =
      if tuples = [] ∨ width = 0 then 0 else (tuples.length + skipped) * width := by
  induction tuples generalizing skipped with
  | nil => rfl
  | cons tuple rest ih =>
    have later := ih (skipped + 1)
    have shifted : ∀ index, index + 1 + skipped = index + (skipped + 1) := fun index => by omega
    simp only [List.mapIdx_cons, List.flatten_cons, highest_append, highest_numberedFrom, shifted,
      later, Nat.zero_add]
    by_cases none : width = 0
    · simp [none]
    · by_cases last : rest = []
      · simp [none, last, Nat.add_comm 1 skipped, Nat.succ_mul]
      · have grows : skipped * width + width ≤ (rest.length + (skipped + 1)) * width := by
          rw [← Nat.succ_mul]
          exact Nat.mul_le_mul_right width (by omega)
        simp only [none, last, or_self, if_false, List.length_cons, reduceCtorEq, shifted]
        omega

end Binding

section Execution

inductive Failure where
  | parameters
  | tooMany
  | outOfRange
  -- "cannot affect row a second time"
  | twice
  deriving DecidableEq, Repr

structure Engine (Column : Type) where
  primaryKey : List Column
  defaults : Row Column
  -- What the collation makes of a value that is compared.
  fold : Value → Value
  -- Whether a statement that would insert or update one row twice is refused.
  once : Bool
  maxParams : Option Nat
  fits : Column → Value → Bool

variable [DecidableEq Column] (engine : Engine Column)

def Engine.keyOf (row : Row Column) : List Value :=
  engine.primaryKey.map fun column => engine.fold (row column)

def Check.holds (row : Row Column) (check : Check Column) : Bool :=
  decide (engine.fold (row check.column) ∈ check.values.map engine.fold)

def meets (checks : List (Check Column)) (row : Row Column) : Bool :=
  checks.all fun check => check.holds engine row

def merge (updates : List (Column × Expression Column)) (row own : Row Column) : Row Column :=
  fun column =>
    match updates.lookup column with
    | some (.excluded other) => row other
    | some (.own other amount) => (own other).plus amount
    | none => own column

def Engine.newRow (columns : List Column) (values : List Value) : Row Column :=
  fun column => ((columns.zip values).lookup column).getD (engine.defaults column)

def Engine.upsertAll (updates : List (Column × Expression Column)) (table rows : List (Row Column)) :
    List (Row Column) :=
  rows.foldl (fun table row => KeyedTable.upsert engine.keyOf (merge updates) row table) table

def Engine.insert (columns : List Column) (tuples : List (List Value))
    (updates : List (Column × Expression Column)) (table : List (Row Column)) :
    Except Failure (List (Row Column)) :=
  let rows := tuples.map (engine.newRow columns)
  if rows.all (fun row => columns.all fun column => engine.fits column (row column)) = false then
    .error .outOfRange
  else if engine.once = true ∧ ¬ KeyedTable.Keyed engine.keyOf rows then .error .twice
  else .ok (engine.upsertAll updates table rows)

-- The rows a statement answers with, and those it leaves.
def Engine.run (order : Arrangement (Row Column)) (table : List (Row Column)) :
    Bound Column → Except Failure (List (Row Column) × List (Row Column))
  | .select checks limit =>
    let found := order.arrange (table.filter (meets engine checks))
    .ok (limit.elim found found.take, table)
  | .selectDistinct column =>
    .ok ((order.arrange table).pwFilter fun row other =>
      engine.fold (row column) ≠ engine.fold (other column), table)
  | .insert columns tuples updates =>
    (engine.insert columns tuples updates table).map fun written => ([], written)
  | .delete checks => .ok ([], table.filter fun row => !meets engine checks row)

def Engine.query (order : Arrangement (Row Column)) (table : List (Row Column))
    (query : Query Column) : Except Failure (List (Row Column) × List (Row Column)) :=
  if engine.maxParams.any fun most => decide (most < query.params.length) then .error .tooMany
  else
    match query.bound with
    | none => .error .parameters
    | some bound => engine.run order table bound

-- Statements in one transaction.
def Engine.batch (order : Arrangement (Row Column)) :
    List (Query Column) → List (Row Column) → Except Failure (List (Row Column))
  | [], table => .ok table
  | query :: rest, table =>
    (engine.query order table query).bind fun answered => Engine.batch order rest answered.2

/-- The columns hold the rows, and no two of them are one where that is refused. -/
structure Engine.Takes (columns : List Column) (rows : List (Row Column)) : Prop where
  fits : ∀ row ∈ rows, ∀ column ∈ columns, engine.fits column (row column) = true
  once : engine.once = true → KeyedTable.Keyed engine.keyOf rows

variable {engine} {columns : List Column} {tuples : List (List Value)}

theorem insert_taken (takes : engine.Takes columns (tuples.map (engine.newRow columns)))
    (updates : List (Column × Expression Column)) (table : List (Row Column)) :
    engine.insert columns tuples updates table =
      .ok (engine.upsertAll updates table (tuples.map (engine.newRow columns))) := by
  have within : ((tuples.map (engine.newRow columns)).all fun row =>
      columns.all fun column => engine.fits column (row column)) = true :=
    List.all_eq_true.mpr fun row inside => List.all_eq_true.mpr (takes.fits row inside)
  have fresh : ¬ (engine.once = true ∧
      ¬ KeyedTable.Keyed engine.keyOf (tuples.map (engine.newRow columns))) :=
    fun refused => refused.2 (takes.once refused.1)
  rw [Engine.insert, within, if_neg (by decide), if_neg fresh]

theorem insert_refused (refuses : ¬ engine.Takes columns (tuples.map (engine.newRow columns)))
    (updates : List (Column × Expression Column)) (table : List (Row Column)) :
    ∃ failure, engine.insert columns tuples updates table = .error failure := by
  unfold Engine.insert
  dsimp only
  split
  · exact ⟨_, rfl⟩
  · rename_i within
    rw [Bool.not_eq_false, List.all_eq_true] at within
    split
    · exact ⟨_, rfl⟩
    · rename_i fresh
      refine absurd ⟨fun row inside => List.all_eq_true.mp (within row inside), fun once => ?_⟩ refuses
      exact not_not.mp fun repeated => fresh ⟨once, repeated⟩

end Execution

end Sql
