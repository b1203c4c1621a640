import MeepBot.Library.Represented
import MeepBot.Queries

/-!
# The tables of the database

A database that holds the two tables of rows that the bot is modelled on, and what each function
of `UserDB` and `QuotesDB` does to it: the operation of the same name on the tables.
-/

namespace MeepBot
namespace Connection

open Sql

/-- The two tables. -/
structure Tables where
  users : UserTable
  quotes : QuotesTable

/-! ### Rows -/

def ofText : Option Str → Value
  | none => .null
  | some s => .text s

/-- The values of a column of type `int`. -/
def FitsInt (n : Int) : Prop := -2 ^ 31 ≤ n ∧ n < 2 ^ 31

/-- The columns of a user. The mask may be kept as a number. -/
structure UserCells (cells : List Value) (r : UserRow) : Prop where
  warnings : FitsInt r.warnings
  cells : ∃ mask, columnText mask = r.mask ∧
    cells = [.text r.username, ofText r.description, .number r.accessLevel.value,
      .number (ofBool r.isProtected), .number r.warnings, mask]

/-- The columns of a quote, whose texts are C strings. -/
structure QuoteCells (cells : List Value) (r : QuoteRow) : Prop where
  quote : '\x00' ∉ r.quote
  addedBy : '\x00' ∉ r.addedBy
  cells : cells = [.number r.id, .text r.quote, .text r.addedBy]

/-- The users table with some rows. -/
def usersOf (rows : List (List Value)) : Table := ⟨userColumns, rows, 0⟩

/-- The quotes table with some rows and the largest number used. -/
def quotesOf (rows : List (List Value)) (lastId : Int) : Table := ⟨quoteColumns, rows, lastId⟩

/-- The database holds the two tables. -/
structure Holds (db : Database) (t : Tables) : Prop where
  users : ∃ rows, db userTable = some (usersOf rows) ∧ t.users.Represents UserCells rows
  quotes : ∃ rows, db quotesTable = some (quotesOf rows t.quotes.lastId) ∧
    t.quotes.quotes.Represents QuoteCells rows

/-- The test for a name. -/
def foundName (name : Str) (cells : List Value) : Bool :=
  (Table.cell cells 0).agrees dialect true (.text name)

/-- The test for a number. -/
def foundNumber (id : Int) (cells : List Value) : Bool :=
  (Table.cell cells 0).agrees dialect false (.number id)

theorem finds_name (name : Str) :
    KeyedTable.Finds UserCells UserRow.key (foundName name) (toLower name) := by
  rintro cells r ⟨-, mask, -, rfl⟩
  rfl

theorem finds_number (id : Int) :
    KeyedTable.Finds QuoteCells QuoteRow.id (foundNumber id) id := by
  rintro cells r ⟨-, -, rfl⟩
  rfl

/-! ### Statements on the tables -/

/-- What a first step returns for an answer. -/
def statusOf : Option (List Value) → Status
  | none => .done
  | some cells => .row cells

theorem step_select {c : Connection} {table : Text} {t : Table} {column : Option Text}
    {condition : Condition} {random : Bool} {limit : Option Int} {pick : Nat}
    {answer : List (List Value)} (present : c.db table = some t)
    (selected : Sql.select dialect pick column condition random limit t = some answer) :
    c.step (some (.select column table condition random limit)) pick =
      (statusOf answer.head?, c) := by
  have executed : exec dialect pick c.db (.select column table condition random limit) =
      (.rows answer, c.db) := by
    simp only [exec, present, Option.bind_some, selected]
  rw [step]
  simp only [executed]
  cases answer <;> rfl

theorem head_limited {limit : Option Int} (one : limit = none ∨ limit = some 1) (pick : Nat)
    (rows : List (List Value)) : (limited false limit pick rows).head? = rows.head? := by
  rcases one with rfl | rfl
  · rfl
  · cases rows <;> rfl

/-- A query in the order of the table answers with the first row that is found. -/
theorem step_found {c : Connection} {table : Text} {t : Table} {column : Option Text}
    {condition : Condition} {limit : Option Int} {found : List Value → Bool}
    {project : List Value → List Value} (present : c.db table = some t)
    (test : t.test dialect condition = some found) (projects : t.project column = some project)
    (one : limit = none ∨ limit = some 1) :
    c.step (some (.select column table condition false limit)) 0 =
      (statusOf ((t.rows.find? found).map project), c) := by
  have selected : Sql.select dialect 0 column condition false limit t =
      some (limited false limit 0 ((t.rows.filter found).map project)) := by
    simp only [Sql.select, test, projects, Option.bind_some, Option.map_some]
  rw [step_select present selected, head_limited one, List.head?_map, List.head?_filter]

/-- A query in a random order answers with any of the rows that are found. -/
theorem step_random {c : Connection} {table : Text} {t : Table} {column : Option Text}
    {condition : Condition} {pick : Nat} {found : List Value → Bool}
    {project : List Value → List Value} (present : c.db table = some t)
    (test : t.test dialect condition = some found) (projects : t.project column = some project) :
    c.step (some (.select column table condition true (some 1))) pick =
      (statusOf ((t.rows.filter found)[pick % (t.rows.filter found).length]?.map project), c) := by
  have selected : Sql.select dialect pick column condition true (some 1) t =
      some (limited true (some 1) pick ((t.rows.filter found).map project)) := by
    simp only [Sql.select, test, projects, Option.bind_some, Option.map_some]
  have first (rows : List (List Value)) :
      (limited true (some 1) pick rows).head? = rows[pick % rows.length]? := by
    have one : (limited true (some 1) pick rows).head? = (rows.rotate pick).head? := by
      change ((rows.rotate pick).take 1).head? = _
      cases rows.rotate pick <;> rfl
    rw [one]
    cases rows with
    | nil => rfl
    | cons row rows =>
      have inside : pick % (row :: rows).length < (row :: rows).length :=
        Nat.mod_lt _ (Nat.succ_pos _)
      rw [← List.rotate_mod, List.head?_rotate inside]
  rw [step_select present selected, first, List.getElem?_map, List.length_map]

theorem step_change {c : Connection} {table : Text} {t t' : Table} {stmt : Statement}
    {f : Table → Option Table} {pick : Nat} (present : c.db table = some t)
    (means : exec dialect pick c.db stmt = change c.db table f) (changed : f t = some t') :
    c.step (some stmt) pick = (.done, { c with db := Function.update c.db table (some t') }) := by
  rw [step]
  simp only [means, change, present, Option.bind_some, changed]

theorem step_failed {c : Connection} {table : Text} {t : Table} {stmt : Statement}
    {f : Table → Option Table} {pick : Nat} (present : c.db table = some t)
    (means : exec dialect pick c.db stmt = change c.db table f) (failed : f t = none) :
    c.step (some stmt) pick = (.error, c) := by
  rw [step]
  simp only [means, change, present, Option.bind_some, failed]

/-- A changed users table. -/
theorem Holds.setUsers {db : Database} {t : Tables} (holds : Holds db t) {rows : List (List Value)}
    {users : UserTable} (rep : users.Represents UserCells rows) :
    Holds (Function.update db userTable (some (usersOf rows))) { t with users := users } := by
  obtain ⟨rows', present, quotes⟩ := holds.quotes
  have other : quotesTable ≠ userTable := by decide
  exact ⟨⟨rows, Function.update_self .., rep⟩,
    ⟨rows', by rw [Function.update_of_ne other, present], quotes⟩⟩

/-- A changed quotes table. -/
theorem Holds.setQuotes {db : Database} {t : Tables} (holds : Holds db t)
    {rows : List (List Value)} (quotes : QuotesTable)
    (rep : quotes.quotes.Represents QuoteCells rows) :
    Holds (Function.update db quotesTable (some (quotesOf rows quotes.lastId)))
      { t with quotes := quotes } := by
  obtain ⟨rows', present, users⟩ := holds.users
  have other : userTable ≠ quotesTable := by decide
  exact ⟨⟨rows', by rw [Function.update_of_ne other, present], users⟩,
    ⟨rows, Function.update_self .., rep⟩⟩

/-! ### Users -/

theorem test_named (rows : List (List Value)) (name : Str) :
    (usersOf rows).test dialect (named name) = some (foundName name) := rfl

/-- A column of the users that is set where the name is found. -/
theorem step_update {c : Connection} {t : Tables} (holds : Holds c.db t) (column : Text) (i : Nat)
    (place : (usersOf []).place column = some i)
    (plain : (userColumns[i]?.map Column.unique).getD false = false) (v : Value) (name : Str)
    (f : KeyedTable.Rewrite UserRow.key)
    (keeps : ∀ cells r, UserCells cells r → UserCells (cells.set i v) (f r)) :
    ∃ db, c.step (some (.update userTable column v "username".toList (.text name))) 0 =
        (.done, { c with db := db }) ∧
      Holds db { t with users := t.users.update (toLower name) f } := by
  obtain ⟨rows, present, rep⟩ := holds.users
  have here : (usersOf rows).place column = some i := place
  have test := test_named rows name
  have changed : Sql.update dialect column v "username".toList (.text name) (usersOf rows) =
      some (usersOf (rows.map fun row => if foundName name row then row.set i v else row)) := by
    rw [named] at test
    simp only [Sql.update, here, Option.bind_some, test]
    rw [if_neg (by rw [usersOf, plain]; exact Bool.false_ne_true)]
    rfl
  exact ⟨_, step_change present rfl changed, holds.setUsers (rep.update (finds_name name) keeps)⟩

/-- A new user clashes with the row of its name. -/
theorem finds_clash {cells : List Value} {r : UserRow} (same : UserCells cells r) :
    KeyedTable.Finds UserCells UserRow.key ((usersOf []).clash dialect cells) r.key := by
  obtain ⟨-, mask, -, rfl⟩ := same
  rintro old row ⟨-, mask', -, rfl⟩
  have first : (usersOf []).clash dialect [.text r.username, ofText r.description,
      .number r.accessLevel.value, .number (ofBool r.isProtected), .number r.warnings, mask]
      [.text row.username, ofText row.description, .number row.accessLevel.value,
        .number (ofBool row.isProtected), .number row.warnings, mask'] =
      (decide (r.key = row.key) || false) := rfl
  rw [first, Bool.or_false, decide_eq_decide]
  exact eq_comm

theorem step_insert_ignore {c : Connection} {t : Tables} (holds : Holds c.db t)
    {cells : List Value} {r : UserRow} (same : UserCells cells r) :
    ∃ db, c.step (some (.insert .ignore userTable none cells)) 0 = (.done, { c with db := db }) ∧
      Holds db { t with users := t.users.insertOrIgnore r } := by
  obtain ⟨rows, present, rep⟩ := holds.users
  have six : cells.length = userColumns.length := by
    obtain ⟨-, mask, -, rfl⟩ := same
    rfl
  have grown := rep.insertOrIgnore same (finds_clash same)
  have changed : Sql.insert dialect .ignore none cells (usersOf rows) = some (usersOf
      (if rows.any ((usersOf []).clash dialect cells) then rows else rows ++ [cells])) := by
    have arranged : (usersOf rows).arrange none cells = some cells := if_pos six
    have number : (usersOf rows).number cells = some (cells, 0) := rfl
    simp only [Sql.insert, arranged, number, Option.bind_some]
    change (if rows.any ((usersOf []).clash dialect cells) then _ else _) = _
    split <;> rfl
  exact ⟨_, step_change present rfl changed, holds.setUsers grown⟩

theorem step_insert_replace {c : Connection} {t : Tables} (holds : Holds c.db t)
    {cells : List Value} {r : UserRow} (same : UserCells cells r) :
    ∃ db, c.step (some (.insert .replace userTable none cells)) 0 = (.done, { c with db := db }) ∧
      Holds db { t with users := t.users.insertOrReplace r } := by
  obtain ⟨rows, present, rep⟩ := holds.users
  have six : cells.length = userColumns.length := by
    obtain ⟨-, mask, -, rfl⟩ := same
    rfl
  have grown := rep.insertOrReplace same (finds_clash same)
  have changed : Sql.insert dialect .replace none cells (usersOf rows) = some (usersOf
      ((rows.filter fun old => !(usersOf []).clash dialect cells old) ++ [cells])) := by
    have arranged : (usersOf rows).arrange none cells = some cells := if_pos six
    have number : (usersOf rows).number cells = some (cells, 0) := rfl
    simp only [Sql.insert, arranged, number, Option.bind_some]
    change (if rows.any ((usersOf []).clash dialect cells) then _ else _) = _
    split
    next => rfl
    next free =>
      -- nothing is replaced
      have all : (rows.filter fun old => !(usersOf []).clash dialect cells old) = rows := by
        refine List.filter_eq_self.mpr fun old member => ?_
        simpa using fun hit => free (List.any_eq_true.mpr ⟨old, member, hit⟩)
      rw [all]
      rfl
  exact ⟨_, step_change present rfl changed, holds.setUsers grown⟩

/-- The row of a name is what a query for the name answers with. -/
theorem step_named {c : Connection} {t : Tables} (holds : Holds c.db t) (name : Str) :
    ∃ found, Option.Rel UserCells found (UserDB.rowOf t.users name) ∧
      ∀ column project limit (d : Connection), d.db = c.db →
        (usersOf []).project column = some project → (limit = none ∨ limit = some 1) →
        d.step (some (.select column userTable (named name) false limit)) 0 =
          (statusOf (found.map project), d) := by
  obtain ⟨rows, present, rep⟩ := holds.users
  refine ⟨rows.find? (foundName name), rep.find (finds_name name), ?_⟩
  intro column project limit d same projects one
  have here : (usersOf rows).project column = some project := projects
  exact step_found (by rw [same, present]) (test_named rows name) here one

/-- What a function of the database does: its answer, the tables it leaves, and the statements it
leaves open. -/
structure Does {α : Type} (c : Connection) (r : α × Connection) (answer : α) (after : Tables)
    (left : Nat) : Prop where
  answer : r.1 = answer
  holds : Holds r.2.db after
  statements : r.2.statements = c.statements + left

theorem Does.read {α β : Type} {c : Connection} {r : α × Connection} {answer : α} {after : Tables}
    {left : Nat} (does : Does c r answer after left) (g : α → β) :
    Does c (g r.1, r.2) (g answer) after left :=
  ⟨congrArg g does.answer, does.holds, does.statements⟩

theorem columnInt_of_fits {n : Int} (fits : FitsInt n) : QuotesDB.columnInt n = n :=
  Int.bmod_eq_of_le (by have := fits.1; omega) (by have := fits.2; omega)

/-- What `GetUserEntry` reads from the columns of a user. -/
theorem UserCells.entry {cells : List Value} {r : UserRow} (same : UserCells cells r) :
    UserEntry.mk ((columnText (Table.cell cells 1)).getD [])
      ((columnText (Table.cell cells 5)).getD []) (toAccessLevel (columnInt (Table.cell cells 2)))
      (decide (columnInt (Table.cell cells 3) ≠ 0)) (columnInt (Table.cell cells 4)) =
      UserDB.entryOf r := by
  obtain ⟨username, description, level, isProtected, warnings, mask'⟩ := r
  obtain ⟨fits, mask, masked, rfl⟩ := same
  have desc : columnText (ofText description) = description := by cases description <;> rfl
  have rank : toAccessLevel (columnInt (.number level.value)) = level := by cases level <;> rfl
  have locked : decide (columnInt (.number (ofBool isProtected)) ≠ 0) = isProtected := by
    cases isProtected <;> rfl
  have count : columnInt (.number warnings) = warnings := columnInt_of_fits fits
  simp only [UserDB.entryOf, UserEntry.mk.injEq]
  exact ⟨congrArg (·.getD []) desc, congrArg (·.getD []) masked, rank, locked, count⟩

/-! ### The functions of `UserDB` -/

section
variable {c : Connection} {t : Tables} (holds : Holds c.db t)
include holds

theorem addUser_does (name : Str) (level : AccessLevel) :
    Does c (c.addUser name level) true { t with users := UserDB.addUser t.users name level } 0 := by
  have zero : FitsInt 0 := by constructor <;> decide
  have same : UserCells [.text name, .null, .number level.value, .number 0, .number 0, .null]
      (UserDB.newRow name level) := ⟨zero, .null, rfl, rfl⟩
  obtain ⟨db, stepped, after⟩ := step_insert_ignore (c := c.prepared) holds same
  simp only [Connection.addUser, prepare_addUser, stepped]
  exact ⟨rfl, after, rfl⟩

theorem hasUser_does (name : Str) :
    Does c (c.hasUser name) (UserDB.hasUser t.users name) t 0 := by
  obtain ⟨found, row, stepped⟩ := step_named holds name
  simp only [Connection.hasUser, prepare_hasUser, stepped none _ none c.prepared rfl rfl (.inl rfl)]
  refine ⟨?_, holds, rfl⟩
  rw [UserDB.hasUser]
  generalize UserDB.rowOf t.users name = r at row ⊢
  cases row <;> rfl

/-- The statement stays open where there is no row. -/
theorem isProtected_does (name : Str) :
    Does c (c.isProtected name) (UserDB.isProtected t.users name) t
      (if (UserDB.rowOf t.users name).isNone then 1 else 0) := by
  obtain ⟨found, row, stepped⟩ := step_named holds name
  simp only [Connection.isProtected, prepare_isProtected,
    stepped (some "isprotected".toList) (fun row => [Table.cell row 3]) none c.prepared rfl rfl
      (.inl rfl)]
  rw [UserDB.isProtected]
  generalize UserDB.rowOf t.users name = r at row ⊢
  cases row with
  | none => exact ⟨rfl, holds, rfl⟩
  | @some cells r same =>
    obtain ⟨-, mask, -, rfl⟩ := same
    refine ⟨?_, holds, rfl⟩
    change decide (columnInt (.number (ofBool r.isProtected)) ≠ 0) = r.isProtected
    cases r.isProtected <;> rfl

theorem protect_does (name : Str) (bProtect : Bool) :
    Does c (c.protect name bProtect) true
      { t with users := (UserDB.protect t.users name bProtect).2 } 0 := by
  obtain ⟨db, stepped, after⟩ := step_update (c := c.prepared) holds "isprotected".toList 3 rfl rfl
    (.number (ofBool bProtect)) name ⟨fun r => { r with isProtected := bProtect }, fun _ => rfl⟩ (by
      rintro cells r ⟨warnings, mask, masked, rfl⟩
      exact ⟨warnings, mask, masked, rfl⟩)
  simp only [Connection.protect, prepare_protect, stepped]
  exact ⟨rfl, after, rfl⟩

theorem getUserEntry_does (name : Str) :
    Does c (c.getUserEntry name) (UserDB.getUserEntry t.users name) t 0 := by
  obtain ⟨found, row, stepped⟩ := step_named holds name
  simp only [Connection.getUserEntry, prepare_getUserEntry,
    stepped none _ (some 1) c.prepared rfl rfl (.inr rfl)]
  refine ⟨?_, holds, rfl⟩
  rw [UserDB.getUserEntry]
  generalize UserDB.rowOf t.users name = r at row ⊢
  cases row with
  | none => rfl
  | some same => exact congrArg some same.entry

theorem setDescription_does (name desc : Str) :
    Does c (c.setDescription name desc) true
      { t with users := (UserDB.setDescription t.users name desc).2 } 1 := by
  obtain ⟨db, stepped, after⟩ := step_update (c := c.prepared) holds "description".toList 1 rfl rfl
    (.text desc) name ⟨fun r => { r with description := some desc }, fun _ => rfl⟩ (by
      rintro cells r ⟨warnings, mask, masked, rfl⟩
      exact ⟨warnings, mask, masked, rfl⟩)
  simp only [Connection.setDescription, prepare_setDescription, stepped]
  exact ⟨rfl, after, rfl⟩

theorem setWarnings_does (name : Str) {warnings : Int} (fits : FitsInt warnings) :
    Does c (c.setWarnings name warnings) true
      { t with users := (UserDB.setWarnings t.users name warnings).2 } 0 := by
  obtain ⟨db, stepped, after⟩ := step_update (c := c.prepared) holds "warnings".toList 4 rfl rfl
    (.number warnings) name ⟨fun r => { r with warnings := warnings }, fun _ => rfl⟩ (by
      rintro cells r ⟨-, mask, masked, rfl⟩
      exact ⟨fits, mask, masked, rfl⟩)
  simp only [Connection.setWarnings, prepare_setWarnings, stepped]
  exact ⟨rfl, after, rfl⟩

/-- A function that reads one field of an entry. -/
theorem readEntry_does {α : Type} (name : Str) (absent : α) (field : UserEntry → α) :
    Does c (((c.getUserEntry name).1.map field).getD absent, (c.getUserEntry name).2)
      (((UserDB.getUserEntry t.users name).map field).getD absent) t 0 :=
  (getUserEntry_does holds name).read fun entry => (entry.map field).getD absent

theorem getAccessLevel_does (name : Str) :
    Does c (c.getAccessLevel name) (UserDB.getAccessLevel t.users name) t 0 := by
  have read := readEntry_does holds name .banned UserEntry.level
  unfold Connection.getAccessLevel UserDB.getAccessLevel
  generalize UserDB.getUserEntry t.users name = entry at read ⊢
  generalize c.getUserEntry name = r at read ⊢
  rcases r with ⟨_ | _, d⟩ <;> cases entry <;> exact read

theorem getDescription_does (name : Str) :
    Does c (c.getDescription name) (UserDB.getDescription t.users name) t 0 := by
  have read := readEntry_does holds name [] UserEntry.desc
  unfold Connection.getDescription UserDB.getDescription
  generalize UserDB.getUserEntry t.users name = entry at read ⊢
  generalize c.getUserEntry name = r at read ⊢
  rcases r with ⟨_ | _, d⟩ <;> cases entry <;> exact read

theorem getWarnings_does (name : Str) :
    Does c (c.getWarnings name) (UserDB.getWarnings t.users name) t 0 := by
  have read := readEntry_does holds name (-1) UserEntry.warnings
  unfold Connection.getWarnings UserDB.getWarnings
  generalize UserDB.getUserEntry t.users name = entry at read ⊢
  generalize c.getUserEntry name = r at read ⊢
  rcases r with ⟨_ | _, d⟩ <;> cases entry <;> exact read

omit holds in
/-- A function that asks for the protection first. -/
theorem Does.unprotected {name : Str}
    (asked : Does c (c.isProtected name) (UserDB.isProtected t.users name) t
      (if (UserDB.rowOf t.users name).isNone then 1 else 0))
    {set : Connection → Bool × Connection} {users : UserTable}
    (does : ∀ d : Connection, Holds d.db t → Does d (set d) true { t with users := users } 0) :
    Does c (match c.isProtected name with
        | (true, c) => (false, c)
        | (false, c) => set c)
      (if UserDB.isProtected t.users name then (false, t.users) else (true, users)).1
      { t with users :=
        (if UserDB.isProtected t.users name then (false, t.users) else (true, users)).2 }
      (if (UserDB.rowOf t.users name).isNone then 1 else 0) := by
  obtain ⟨answer, holds, statements⟩ := asked
  generalize UserDB.isProtected t.users name = locked at answer ⊢
  generalize c.isProtected name = r at answer holds statements ⊢
  obtain ⟨locked', d⟩ := r
  subst answer
  cases locked' with
  | true => exact ⟨rfl, holds, statements⟩
  | false =>
    obtain ⟨done, after, kept⟩ := does d holds
    exact ⟨done, after, kept.trans statements⟩

theorem setAccessLevel_does (name : Str) (level : AccessLevel) :
    Does c (c.setAccessLevel name level) (UserDB.setAccessLevel t.users name level).1
      { t with users := (UserDB.setAccessLevel t.users name level).2 }
      (if (UserDB.rowOf t.users name).isNone then 1 else 0) := by
  refine (isProtected_does holds name).unprotected fun d holds => ?_
  obtain ⟨db, stepped, after⟩ := step_update (c := d.prepared) holds "accesslevel".toList 2 rfl rfl
    (.number level.value) name ⟨fun r => { r with accessLevel := level }, fun _ => rfl⟩ (by
      rintro cells r ⟨warnings, mask, masked, rfl⟩
      exact ⟨warnings, mask, masked, rfl⟩)
  simp only [prepare_setAccessLevel, stepped]
  exact ⟨rfl, after, rfl⟩

theorem setUserEntry_does (name : Str) (entry : UserEntry) (fits : FitsInt entry.warnings)
    (pointer : Int) :
    Does c (c.setUserEntry name entry pointer)
      (UserDB.setUserEntry t.users name entry pointer).1
      { t with users := (UserDB.setUserEntry t.users name entry pointer).2 }
      (if (UserDB.rowOf t.users name).isNone then 1 else 0) := by
  refine (isProtected_does holds name).unprotected fun d holds => ?_
  have same : UserCells [.text name, .text (cstr entry.desc), .number entry.level.value,
      .number (ofBool entry.locked), .number entry.warnings, .number pointer]
      ⟨name, some (cstr entry.desc), entry.level, entry.locked, entry.warnings,
        some (decimalInt pointer)⟩ := ⟨fits, .number pointer, rfl, rfl⟩
  obtain ⟨db, stepped, after⟩ := step_insert_replace (c := d.prepared) holds same
  simp only [prepare_setUserEntry, stepped]
  exact ⟨rfl, after, rfl⟩

end

/-! ### The functions of `QuotesDB` -/

theorem test_numbered (rows : List (List Value)) (lastId id : Int) :
    (quotesOf rows lastId).test dialect (numbered id) = some (foundNumber id) := rfl

section
variable {c : Connection} {t : Tables} (holds : Holds c.db t)
include holds

/-- The row of a number is what a query for the number answers with. -/
theorem step_numbered (id : Int) :
    ∃ found, Option.Rel QuoteCells found (t.quotes.quotes.lookup id) ∧
      ∀ column project (d : Connection), d.db = c.db →
        (quotesOf [] 0).project (some column) = some project →
        d.step (some (.select (some column) quotesTable (numbered id) false none)) 0 =
          (statusOf (found.map project), d) := by
  obtain ⟨rows, present, rep⟩ := holds.quotes
  refine ⟨rows.find? (foundNumber id), rep.find (finds_number id), ?_⟩
  intro column project d same projects
  have here : (quotesOf rows t.quotes.lastId).project (some column) = some project := projects
  exact step_found (by rw [same, present]) (test_numbered rows _ id) here (.inl rfl)

theorem quoteExists_does (id : Int) :
    Does c (c.quoteExists id) (QuotesDB.quoteExists t.quotes id) t 0 := by
  obtain ⟨found, row, stepped⟩ := step_numbered holds id
  simp only [Connection.quoteExists, prepare_quote,
    stepped "quote".toList (fun row => [Table.cell row 1]) c.prepared rfl rfl]
  refine ⟨?_, holds, rfl⟩
  rw [QuotesDB.quoteExists]
  generalize t.quotes.quotes.lookup id = r at row ⊢
  cases row <;> rfl

theorem getQuoteByID_does (id : Int) :
    Does c (c.getQuoteByID id) (QuotesDB.getQuoteByID t.quotes id) t 0 := by
  obtain ⟨found, row, stepped⟩ := step_numbered holds id
  simp only [Connection.getQuoteByID, getFirstQuote, prepare_quote,
    stepped "quote".toList (fun row => [Table.cell row 1]) c.prepared rfl rfl]
  rw [QuotesDB.getQuoteByID]
  generalize t.quotes.quotes.lookup id = r at row ⊢
  cases row with
  | none => exact ⟨rfl, holds, rfl⟩
  | @some cells r same =>
    obtain ⟨clean, -, rfl⟩ := same
    exact ⟨congrArg some (QuotesDB.cstr_copyBuffer clean), holds, rfl⟩

/-- The statement always stays open. -/
theorem getQuoteAuthor_does (id : Int) :
    Does c (c.getQuoteAuthor id) (QuotesDB.getQuoteAuthor t.quotes id) t 1 := by
  obtain ⟨found, row, stepped⟩ := step_numbered holds id
  simp only [Connection.getQuoteAuthor, prepare_author,
    stepped "addedby".toList (fun row => [Table.cell row 2]) c.prepared rfl rfl]
  rw [QuotesDB.getQuoteAuthor]
  generalize t.quotes.quotes.lookup id = r at row ⊢
  cases row with
  | none => exact ⟨rfl, holds, rfl⟩
  | @some cells r same =>
    obtain ⟨-, clean, rfl⟩ := same
    exact ⟨congrArg some (QuotesDB.cstr_copyBuffer clean), holds, rfl⟩

/-- A number chosen among the quotes that pass a test. -/
theorem step_chosen (condition : Condition) {found : List Value → Bool} {q : QuoteRow → Bool}
    (test : ∀ rows lastId, (quotesOf rows lastId).test dialect condition = some found)
    (agree : ∀ cells r, QuoteCells cells r → found cells = q r) (pick : Nat) {d : Connection}
    (same : d.db = c.db) :
    ∃ cells, d.step (some (.select (some "id".toList) quotesTable condition true (some 1))) pick =
        (statusOf cells, d) ∧
      (match cells with
        | some cells => columnInt (Table.cell cells 0)
        | none => -1) = QuotesDB.choose (t.quotes.quotes.rows.filter q) pick := by
  obtain ⟨rows, present, rep⟩ := holds.quotes
  have filtered : List.Forall₂ QuoteCells (rows.filter found) (t.quotes.quotes.rows.filter q) :=
    List.rel_filter (fun cells r same => by simp [agree cells r same]) rep
  have chosen := KeyedTable.rel_getElem? filtered (pick % (rows.filter found).length)
  refine ⟨_, step_random (by rw [same, present]) (test rows _) rfl, ?_⟩
  simp only [quotesOf]
  rw [QuotesDB.choose, ← filtered.length_eq]
  generalize (rows.filter found)[pick % (rows.filter found).length]? = cells at chosen ⊢
  generalize (t.quotes.quotes.rows.filter q)[pick % (rows.filter found).length]? = r at chosen ⊢
  cases chosen with
  | none => rfl
  | @some cells r same =>
    obtain ⟨-, -, rfl⟩ := same
    rfl

theorem getIDByPattern_does (pattern : Str) (pick : Nat) :
    Does c (c.getIDByPattern pattern pick) (QuotesDB.getIDByPattern t.quotes pattern pick) t 0 := by
  obtain ⟨cells, stepped, chosen⟩ := step_chosen holds
    (.like "quote".toList (.text ('%' :: pattern ++ ['%'])))
    (q := fun r => Sql.like ('%' :: pattern ++ ['%']) r.quote) (fun _ _ => rfl)
    (by rintro cells r ⟨-, -, rfl⟩; rfl) pick (d := c.prepared) rfl
  simp only [Connection.getIDByPattern, prepare_pattern, stepped]
  rw [QuotesDB.getIDByPattern, ← chosen]
  cases cells <;> exact ⟨rfl, holds, rfl⟩

theorem getRandomID_does (pick : Nat) :
    Does c (c.getRandomID pick) (QuotesDB.getRandomID t.quotes pick) t 0 := by
  obtain ⟨cells, stepped, chosen⟩ := step_chosen holds .always (q := fun _ => true)
    (fun _ _ => rfl) (fun _ _ _ => rfl) pick (d := c.prepared) rfl
  rw [List.filter_eq_self.mpr fun _ _ => rfl] at chosen
  simp only [Connection.getRandomID, prepare_random, stepped]
  rw [QuotesDB.getRandomID, ← chosen]
  cases cells <;> exact ⟨rfl, holds, rfl⟩

theorem addQuote_does {adder quote : Str} (adderClean : '\x00' ∉ adder)
    (quoteClean : '\x00' ∉ quote) :
    Does c (c.addQuote adder quote) (QuotesDB.addQuote t.quotes adder quote).1
      { t with quotes := (QuotesDB.addQuote t.quotes adder quote).2 } 0 := by
  obtain ⟨rows, present, rep⟩ := holds.quotes
  -- the next number is above all those of the table
  have free (rows' : List (List Value)) (lastId : Int) : rows.any ((quotesOf rows' lastId).clash
      dialect [.number (t.quotes.lastId + 1), .text quote, .text adder]) = false := by
    have finds : KeyedTable.Finds QuoteCells QuoteRow.id ((quotesOf rows' lastId).clash dialect
        [.number (t.quotes.lastId + 1), .text quote, .text adder]) (t.quotes.lastId + 1) := by
      rintro old row ⟨-, -, rfl⟩
      have first : (quotesOf rows' lastId).clash dialect
          [.number (t.quotes.lastId + 1), .text quote, .text adder]
          [.number row.id, .text row.quote, .text row.addedBy] =
          (decide (t.quotes.lastId + 1 = row.id) || false) := rfl
      rw [first, Bool.or_false, decide_eq_decide]
      exact eq_comm
    rw [← Bool.not_eq_true, rep.any finds, ← KeyedTable.lookup_none_iff]
    exact QuotesDB.lookup_above t.quotes (Int.lt_succ _)
  have arranged : (quotesOf rows t.quotes.lastId).arrange
      (some ["id".toList, "quote".toList, "addedby".toList]) [.null, .text quote, .text adder] =
      some [.null, .text quote, .text adder] := rfl
  have number : (quotesOf rows t.quotes.lastId).number [.null, .text quote, .text adder] =
      if t.quotes.lastId < maxNumber then
        some ([.number (t.quotes.lastId + 1), .text quote, .text adder], t.quotes.lastId + 1)
      else none := rfl
  have inserted : Sql.insert dialect .abort
      (some ["id".toList, "quote".toList, "addedby".toList]) [.null, .text quote, .text adder]
      (quotesOf rows t.quotes.lastId) =
      if t.quotes.lastId < maxNumber then
        some (quotesOf (rows ++ [[.number (t.quotes.lastId + 1), .text quote, .text adder]])
          (t.quotes.lastId + 1))
      else none := by
    simp only [Sql.insert, arranged, number, Option.bind_some]
    split
    next =>
      rw [Option.bind_some]
      change (if rows.any _ then _ else _) = _
      rw [if_neg (by rw [free]; exact Bool.false_ne_true)]
      rfl
    next => rfl
  simp only [Connection.addQuote, prepare_addQuote]
  by_cases room : t.quotes.lastId < 2 ^ 63 - 1
  · have same : QuoteCells [.number (t.quotes.lastId + 1), .text quote, .text adder]
        ⟨t.quotes.lastId + 1, quote, adder⟩ := ⟨quoteClean, adderClean, rfl⟩
    have added : (QuotesDB.addQuote t.quotes adder quote).2.quotes.rows =
        t.quotes.quotes.rows ++ [⟨t.quotes.lastId + 1, quote, adder⟩] := by
      rw [QuotesDB.addQuote, if_pos room]
      exact KeyedTable.rows_insertOrIgnore (QuotesDB.lookup_above t.quotes (Int.lt_succ _))
    have after := holds.setQuotes (QuotesDB.addQuote t.quotes adder quote).2 (rep.append same added)
    rw [QuotesDB.lastId_addQuote room] at after
    rw [step_change (c := c.prepared) present rfl (inserted.trans (if_pos room))]
    refine ⟨?_, after, rfl⟩
    rw [QuotesDB.addQuote, if_pos room]
    rfl
  · rw [step_failed (c := c.prepared) present rfl (inserted.trans (if_neg room)),
      QuotesDB.addQuote, if_neg room]
    exact ⟨rfl, holds, rfl⟩

theorem removeQuote_does (id : Int) :
    Does c (c.removeQuote id) (QuotesDB.removeQuote t.quotes id).1
      { t with quotes := (QuotesDB.removeQuote t.quotes id).2 } 0 := by
  obtain ⟨answer, after, statements⟩ := quoteExists_does holds id
  rw [Connection.removeQuote]
  generalize c.quoteExists id = r at answer after statements ⊢
  obtain ⟨found, d⟩ := r
  change found = _ at answer
  subst answer
  cases present : QuotesDB.quoteExists t.quotes id with
  | false =>
    have kept : QuotesDB.removeQuote t.quotes id = (false, t.quotes) :=
      if_neg (by rw [present]; exact Bool.false_ne_true)
    rw [kept]
    exact ⟨rfl, after, statements⟩
  | true =>
    obtain ⟨rows, here, rep⟩ := after.quotes
    have removed : (QuotesDB.removeQuote t.quotes id).2.quotes = t.quotes.quotes.delete id := by
      rw [QuotesDB.removeQuote, if_pos present]
    have left : (QuotesDB.removeQuote t.quotes id).2.quotes.Represents QuoteCells
        (rows.filter fun row => !foundNumber id row) := by
      rw [removed]
      exact rep.delete (finds_number id)
    have after := after.setQuotes (QuotesDB.removeQuote t.quotes id).2 left
    rw [QuotesDB.lastId_removeQuote] at after
    have deleted : Sql.delete dialect "id".toList (.number id) (quotesOf rows t.quotes.lastId) =
        some (quotesOf (rows.filter fun row => !foundNumber id row) t.quotes.lastId) := rfl
    simp only [prepare_removeQuote]
    rw [step_change (c := d.prepared) here rfl deleted]
    refine ⟨?_, after, statements⟩
    rw [QuotesDB.removeQuote, if_pos present]
    rfl

end

/-! ### Calls -/

/-- A call of a function of one of the two classes. -/
inductive DbCall where
  | addUser (name : Str) (level : AccessLevel)
  | hasUser (name : Str)
  | isProtected (name : Str)
  | protect (name : Str) (bProtect : Bool)
  | getUserEntry (name : Str)
  | setUserEntry (name : Str) (entry : UserEntry) (pointer : Int)
  | getAccessLevel (name : Str)
  | setAccessLevel (name : Str) (level : AccessLevel)
  | getDescription (name : Str)
  | setDescription (name desc : Str)
  | getWarnings (name : Str)
  | setWarnings (name : Str) (warnings : Int)
  | quoteExists (id : Int)
  | getQuoteByID (id : Int)
  | getIDByPattern (pattern : Str) (pick : Nat)
  | getQuoteAuthor (id : Int)
  | getRandomID (pick : Nat)
  | addQuote (adder quote : Str)
  | removeQuote (id : Int)

inductive Answer where
  | flag (b : Bool)
  | entry (e : Option UserEntry)
  | level (l : AccessLevel)
  | text (s : Option Str)
  | number (n : Int)
  deriving DecidableEq

/-- An answer of a function. -/
def told {α : Type} (tell : α → Answer) (r : α × Connection) : Answer × Connection :=
  (tell r.1, r.2)

theorem Does.told {α : Type} {c : Connection} {r : α × Connection} {answer : α} {after : Tables}
    {left : Nat} (does : Does c r answer after left) (tell : α → Answer) :
    Does c (told tell r) (tell answer) after left := does.read tell

namespace DbCall

/-- The call, as the query texts that it executes. -/
def execute : DbCall → Connection → Answer × Connection
  | .addUser name level, c => told .flag (c.addUser name level)
  | .hasUser name, c => told .flag (c.hasUser name)
  | .isProtected name, c => told .flag (c.isProtected name)
  | .protect name bProtect, c => told .flag (c.protect name bProtect)
  | .getUserEntry name, c => told .entry (c.getUserEntry name)
  | .setUserEntry name entry pointer, c => told .flag (c.setUserEntry name entry pointer)
  | .getAccessLevel name, c => told .level (c.getAccessLevel name)
  | .setAccessLevel name level, c => told .flag (c.setAccessLevel name level)
  | .getDescription name, c => told (fun s => .text (some s)) (c.getDescription name)
  | .setDescription name desc, c => told .flag (c.setDescription name desc)
  | .getWarnings name, c => told .number (c.getWarnings name)
  | .setWarnings name warnings, c => told .flag (c.setWarnings name warnings)
  | .quoteExists id, c => told .flag (c.quoteExists id)
  | .getQuoteByID id, c => told .text (c.getQuoteByID id)
  | .getIDByPattern pattern pick, c => told .number (c.getIDByPattern pattern pick)
  | .getQuoteAuthor id, c => told .text (c.getQuoteAuthor id)
  | .getRandomID pick, c => told .number (c.getRandomID pick)
  | .addQuote adder quote, c => told .flag (c.addQuote adder quote)
  | .removeQuote id, c => told .flag (c.removeQuote id)

/-- The same call, as the operation on the tables that the bot is modelled on. -/
def operate : DbCall → Tables → Answer × Tables
  | .addUser name level, t => (.flag true, { t with users := UserDB.addUser t.users name level })
  | .hasUser name, t => (.flag (UserDB.hasUser t.users name), t)
  | .isProtected name, t => (.flag (UserDB.isProtected t.users name), t)
  | .protect name bProtect, t =>
    (UserDB.protect t.users name bProtect).map Answer.flag fun users => { t with users := users }
  | .getUserEntry name, t => (.entry (UserDB.getUserEntry t.users name), t)
  | .setUserEntry name entry pointer, t =>
    (UserDB.setUserEntry t.users name entry pointer).map Answer.flag fun users =>
      { t with users := users }
  | .getAccessLevel name, t => (.level (UserDB.getAccessLevel t.users name), t)
  | .setAccessLevel name level, t =>
    (UserDB.setAccessLevel t.users name level).map Answer.flag fun users =>
      { t with users := users }
  | .getDescription name, t => (.text (some (UserDB.getDescription t.users name)), t)
  | .setDescription name desc, t =>
    (UserDB.setDescription t.users name desc).map Answer.flag fun users => { t with users := users }
  | .getWarnings name, t => (.number (UserDB.getWarnings t.users name), t)
  | .setWarnings name warnings, t =>
    (UserDB.setWarnings t.users name warnings).map Answer.flag fun users =>
      { t with users := users }
  | .quoteExists id, t => (.flag (QuotesDB.quoteExists t.quotes id), t)
  | .getQuoteByID id, t => (.text (QuotesDB.getQuoteByID t.quotes id), t)
  | .getIDByPattern pattern pick, t =>
    (.number (QuotesDB.getIDByPattern t.quotes pattern pick), t)
  | .getQuoteAuthor id, t => (.text (QuotesDB.getQuoteAuthor t.quotes id), t)
  | .getRandomID pick, t => (.number (QuotesDB.getRandomID t.quotes pick), t)
  | .addQuote adder quote, t =>
    (QuotesDB.addQuote t.quotes adder quote).map Answer.flag fun quotes =>
      { t with quotes := quotes }
  | .removeQuote id, t =>
    (QuotesDB.removeQuote t.quotes id).map Answer.flag fun quotes => { t with quotes := quotes }

/-- The statements that the call leaves open. -/
def left : DbCall → Tables → Nat
  | .setDescription .., _ | .getQuoteAuthor .., _ => 1
  | .isProtected name, t | .setUserEntry name .., t | .setAccessLevel name .., t =>
    if (UserDB.rowOf t.users name).isNone then 1 else 0
  | _, _ => 0

/-- Warnings are of type `int`, and the texts of a quote are C strings. -/
def Fits : DbCall → Prop
  | .setUserEntry _ entry _ => FitsInt entry.warnings
  | .setWarnings _ warnings => FitsInt warnings
  | .addQuote adder quote => '\x00' ∉ adder ∧ '\x00' ∉ quote
  | _ => True

/-- Every call, on query texts and on the tables. -/
theorem execute_does (call : DbCall) (fits : call.Fits) {c : Connection} {t : Tables}
    (holds : Holds c.db t) :
    Does c (call.execute c) (call.operate t).1 (call.operate t).2 (call.left t) := by
  cases call with
  | addUser name level => exact (addUser_does holds name level).told .flag
  | hasUser name => exact (hasUser_does holds name).told .flag
  | isProtected name => exact (isProtected_does holds name).told .flag
  | protect name bProtect => exact (protect_does holds name bProtect).told .flag
  | getUserEntry name => exact (getUserEntry_does holds name).told .entry
  | setUserEntry name entry pointer =>
    exact (setUserEntry_does holds name entry fits pointer).told .flag
  | getAccessLevel name => exact (getAccessLevel_does holds name).told .level
  | setAccessLevel name level => exact (setAccessLevel_does holds name level).told .flag
  | getDescription name => exact (getDescription_does holds name).told fun s => .text (some s)
  | setDescription name desc => exact (setDescription_does holds name desc).told .flag
  | getWarnings name => exact (getWarnings_does holds name).told .number
  | setWarnings name warnings => exact (setWarnings_does holds name fits).told .flag
  | quoteExists id => exact (quoteExists_does holds id).told .flag
  | getQuoteByID id => exact (getQuoteByID_does holds id).told .text
  | getIDByPattern pattern pick => exact (getIDByPattern_does holds pattern pick).told .number
  | getQuoteAuthor id => exact (getQuoteAuthor_does holds id).told .text
  | getRandomID pick => exact (getRandomID_does holds pick).told .number
  | addQuote adder quote => exact (addQuote_does holds fits.1 fits.2).told .flag
  | removeQuote id => exact (removeQuote_does holds id).told .flag

end DbCall

/-! ### A new database -/

theorem step_create {c : Connection} {table : Text} (absent : c.db table = none)
    (columns : List Column) (pick : Nat) :
    c.step (some (.create table columns)) pick =
      (.done, { c with db := Function.update c.db table (some ⟨columns, [], 0⟩) }) := by
  rw [step]
  simp only [exec, absent]

theorem createQuotes_db {c : Connection} (absent : c.db quotesTable = none) :
    c.createQuotes.db = Function.update c.db quotesTable (some (quotesOf [] 0)) := by
  simp only [createQuotes, prepare_createQuotes, step_create (c := c.prepared) absent]
  rfl

theorem createUsers_db {c : Connection} (absent : c.db userTable = none) :
    c.createUsers.db = Function.update c.db userTable (some (usersOf [])) := by
  simp only [createUsers, prepare_createUsers, step_create (c := c.prepared) absent]
  rfl

/-- A new file, behind the constructors of the two classes. -/
theorem created_holds : Holds opened.createQuotes.createUsers.db ⟨.empty, .empty⟩ := by
  have other : userTable ≠ quotesTable := by decide
  have quotes : opened.createQuotes.db =
      Function.update opened.db quotesTable (some (quotesOf [] 0)) := createQuotes_db rfl
  have absent : opened.createQuotes.db userTable = none := by
    rw [quotes, Function.update_of_ne other]
    rfl
  rw [createUsers_db absent, quotes]
  refine ⟨⟨[], Function.update_self .., .nil⟩, ⟨[], ?_, .nil⟩⟩
  rw [Function.update_of_ne other.symm]
  exact Function.update_self ..

end Connection
end MeepBot
