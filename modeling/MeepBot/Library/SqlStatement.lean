import Mathlib.Data.List.Rotate
import Mathlib.Logic.Function.Basic
import MeepBot.Library.SqlText

/-!
# Statements over single tables

The statements that a sequence of tokens can be, and what they do to tables whose rows are lists
of values. A statement that does not succeed leaves the database as it is.
-/

namespace Sql

/-! ### Statements -/

structure Column where
  name : Text
  /-- The type and the constraints. -/
  attributes : List Keyword
  deriving DecidableEq

/-- What to do where a unique value is already there. -/
inductive Conflict where
  | abort
  | ignore
  | replace
  deriving DecidableEq

inductive Condition where
  | always
  | equals (column : Text) (v : Value)
  | like (column : Text) (v : Value)
  deriving DecidableEq

inductive Statement where
  | create (table : Text) (columns : List Column)
  | insert (conflict : Conflict) (table : Text) (columns : Option (List Text)) (row : List Value)
  | update (table column : Text) (v : Value) (key : Text) (x : Value)
  | delete (table key : Text) (x : Value)
  /-- No column stands for all of them, no limit for all rows. -/
  | select (column : Option Text) (table : Text) (condition : Condition) (random : Bool)
    (limit : Option Int)
  deriving DecidableEq

/-! ### Grammar -/

/-- The columns of a new table, up to the closing bracket. -/
def columnsFrom : Option Column → List Token → Option (List Column × List Token)
  | none, .name n :: ts => columnsFrom (some ⟨n, []⟩) ts
  | some c, .key k :: ts => columnsFrom (some { c with attributes := c.attributes ++ [k] }) ts
  | some c, .comma :: ts => (columnsFrom none ts).map fun (cs, ts) => (c :: cs, ts)
  | some c, .closing :: ts => some ([c], ts)
  | _, _ => none

def names : List Token → Option (List Text × List Token)
  | .name n :: .comma :: ts => (names ts).map fun (ns, ts) => (n :: ns, ts)
  | .name n :: .closing :: ts => some ([n], ts)
  | _ => none

def constants : List Token → Option (List Value × List Token)
  | .constant v :: .comma :: ts => (constants ts).map fun (vs, ts) => (v :: vs, ts)
  | .constant v :: .closing :: ts => some ([v], ts)
  | _ => none

def row (conflict : Conflict) (table : Text) (columns : Option (List Text)) :
    List Token → Option Statement
  | .key .values :: .opening :: ts =>
    match constants ts with
    | some (vs, [.semicolon]) => some (.insert conflict table columns vs)
    | _ => none
  | _ => none

def insertion (conflict : Conflict) (table : Text) : List Token → Option Statement
  | .opening :: ts => (names ts).bind fun (ns, ts) => row conflict table (some ns) ts
  | ts => row conflict table none ts

def condition : List Token → Condition × List Token
  | .key .where_ :: .name c :: .equals :: .constant v :: ts => (.equals c v, ts)
  | .key .where_ :: .name c :: .key .like :: .constant v :: ts => (.like c v, ts)
  | ts => (.always, ts)

def ordering : List Token → Bool × List Token
  | .key .order :: .key .by_ :: .key .random :: .opening :: .closing :: ts => (true, ts)
  | ts => (false, ts)

def limiting : List Token → Option Int × List Token
  | .key .limit :: .constant (.number n) :: ts => (some n, ts)
  | ts => (none, ts)

def selection (column : Option Text) (table : Text) (ts : List Token) : Option Statement :=
  let (condition, ts) := condition ts
  let (random, ts) := ordering ts
  let (limit, ts) := limiting ts
  if ts = [.semicolon] then some (.select column table condition random limit) else none

/-- The statement of a sequence of tokens. -/
def statement : List Token → Option Statement
  | .key .create :: .key .table :: .key .if_ :: .key .not :: .key .exists_ :: .name t ::
      .opening :: ts =>
    match columnsFrom none ts with
    | some (cs, [.semicolon]) => some (.create t cs)
    | _ => none
  | .key .insert :: .key .into :: .name t :: ts => insertion .abort t ts
  | .key .insert :: .key .or_ :: .key .ignore :: .key .into :: .name t :: ts =>
    insertion .ignore t ts
  | .key .insert :: .key .or_ :: .key .replace :: .key .into :: .name t :: ts =>
    insertion .replace t ts
  | [.key .update, .name t, .key .set, .name c, .equals, .constant v, .key .where_, .name k,
      .equals, .constant x, .semicolon] => some (.update t c v k x)
  | [.key .delete, .key .from_, .name t, .key .where_, .name k, .equals, .constant x,
      .semicolon] => some (.delete t k x)
  | .key .select :: .star :: .key .from_ :: .name t :: ts => selection none t ts
  | .key .select :: .name c :: .key .from_ :: .name t :: ts => selection (some c) t ts
  | _ => none

/-- The statement of a query text. -/
def read (query : Text) : Option Statement := (tokens query).bind statement

/-- What a printed query is read as depends on its pieces. -/
theorem read_printed (fmt : Text) (args : List Arg) :
    read (printed fmt args) =
      (((pieces fmt args).foldl Scanner.take .start).finish).bind statement := by
  rw [read, tokens_printed]

/-! ### Tables -/

namespace Column

def nocase (c : Column) : Bool := .nocase ∈ c.attributes

def unique (c : Column) : Bool := .unique ∈ c.attributes || .primary ∈ c.attributes

/-- The integer that numbers the rows, with numbers that are never used again. -/
def counter (c : Column) : Bool := [.integer, .primary, .autoincrement].all (· ∈ c.attributes)

end Column

/-- What the comparisons of a dialect depend on: the key of a text under `NOCASE`, and `LIKE`. -/
structure Dialect where
  fold : Text → Text
  like : Text → Text → Bool

/-- Whether two values are equal; nothing equals `NULL`. -/
def Value.agrees (d : Dialect) (nocase : Bool) : Value → Value → Bool
  | .number m, .number n => m = n
  | .text s, .text t => if nocase then d.fold s = d.fold t else s = t
  | _, _ => false

structure Table where
  columns : List Column
  rows : List (List Value)
  /-- The largest number that a row was given. -/
  sequence : Int

abbrev Database := Text → Option Table

/-- The largest number there is for a row. -/
def maxNumber : Int := 2 ^ 63 - 1

namespace Table

def cell (row : List Value) (i : Nat) : Value := row.getD i .null

def place (t : Table) (column : Text) : Option Nat :=
  t.columns.findIdx? fun c => c.name = column

def nocase (t : Table) (i : Nat) : Bool := (t.columns[i]?.map Column.nocase).getD false

/-- A condition on the rows, unless it is about a column that is not there. -/
def test (t : Table) (d : Dialect) : Condition → Option (List Value → Bool)
  | .always => some fun _ => true
  | .equals c v => (t.place c).map fun i row => (cell row i).agrees d (t.nocase i) v
  | .like c v =>
    (t.place c).map fun i row =>
      match cell row i, v with
      | .text s, .text p => d.like p s
      | _, _ => false

/-- The columns of the answer. -/
def project (t : Table) : Option Text → Option (List Value → List Value)
  | none => some fun row => row
  | some c => (t.place c).map fun i row => [cell row i]

/-- Whether a new row and an old one agree in a unique column. -/
def clash (t : Table) (d : Dialect) (new old : List Value) : Bool :=
  (List.range t.columns.length).any fun i =>
    (t.columns[i]?.map Column.unique).getD false &&
      (cell new i).agrees d (t.nocase i) (cell old i)

/-- The values of a new row in the order of the columns. -/
def arrange (t : Table) (columns : Option (List Text)) (vs : List Value) : Option (List Value) :=
  match columns with
  | none => if vs.length = t.columns.length then some vs else none
  | some ns =>
    if ns.length = vs.length ∧ ∀ n ∈ ns, (t.place n).isSome then
      some (t.columns.map fun c => ((ns.zip vs).lookup c.name).getD .null)
    else none

/-- A new row with its number, and the largest number from now on. -/
def number (t : Table) (row : List Value) : Option (List Value × Int) :=
  match t.columns.findIdx? Column.counter with
  | none => some (row, t.sequence)
  | some i =>
    match cell row i with
    | .null =>
      if t.sequence < maxNumber then
        some (row.set i (.number (t.sequence + 1)), t.sequence + 1)
      else none
    | .number n => some (row, max t.sequence n)
    | .text _ => none

def add (t : Table) (row : List Value) (sequence : Int) : Table :=
  { t with rows := t.rows ++ [row], sequence := sequence }

end Table

/-! ### Execution -/

inductive Result where
  | error
  | rows (rows : List (List Value))
  deriving DecidableEq

/-- The rows of an answer. Of a random order `pick` tells the first row alone. -/
def limited (random : Bool) (limit : Option Int) (pick : Nat) (rows : List (List Value)) :
    List (List Value) :=
  let rows := if random then rows.rotate pick else rows
  match limit with
  -- a negative limit is none
  | some n => if 0 ≤ n then rows.take n.toNat else rows
  | none => rows

/-- `INSERT` into the table `t`. -/
def insert (d : Dialect) (conflict : Conflict) (columns : Option (List Text)) (vs : List Value)
    (t : Table) : Option Table :=
  (t.arrange columns vs).bind fun row =>
    (t.number row).bind fun (row, sequence) =>
      if t.rows.any (t.clash d row) then
        match conflict with
        | .abort => none
        | .ignore => some t
        | .replace =>
          some ({ t with rows := t.rows.filter fun old => !t.clash d row old }.add row sequence)
      else some (t.add row sequence)

/-- `UPDATE` of a column that is not unique. -/
def update (d : Dialect) (column : Text) (v : Value) (key : Text) (x : Value) (t : Table) :
    Option Table :=
  (t.place column).bind fun i =>
    (t.test d (.equals key x)).bind fun found =>
      if (t.columns[i]?.map Column.unique).getD false then none
      else some { t with rows := t.rows.map fun row => if found row then row.set i v else row }

def delete (d : Dialect) (key : Text) (x : Value) (t : Table) : Option Table :=
  (t.test d (.equals key x)).map fun found =>
    { t with rows := t.rows.filter fun row => !found row }

def select (d : Dialect) (pick : Nat) (column : Option Text) (condition : Condition) (random : Bool)
    (limit : Option Int) (t : Table) : Option (List (List Value)) :=
  (t.test d condition).bind fun found =>
    (t.project column).map fun project =>
      limited random limit pick ((t.rows.filter found).map project)

/-- A change of one table. -/
def change (db : Database) (table : Text) (f : Table → Option Table) : Result × Database :=
  match (db table).bind f with
  | some t => (.rows [], Function.update db table (some t))
  | none => (.error, db)

def exec (d : Dialect) (pick : Nat) (db : Database) : Statement → Result × Database
  | .create table columns =>
    match db table with
    | some _ => (.rows [], db)
    | none => (.rows [], Function.update db table (some ⟨columns, [], 0⟩))
  | .insert conflict table columns vs => change db table (insert d conflict columns vs)
  | .update table column v key x => change db table (update d column v key x)
  | .delete table key x => change db table (delete d key x)
  | .select column table condition random limit =>
    match (db table).bind (select d pick column condition random limit) with
    | some rows => (.rows rows, db)
    | none => (.error, db)

end Sql
