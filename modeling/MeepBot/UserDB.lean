import Mathlib.Order.Lattice
import Mathlib.Data.Nat.Basic
import MeepBot.Text
import MeepBot.Library.KeyedTable

/-!
# UserDB

The table of users. Its primary key is the name under the collation `NOCASE`, so the key of
a row is the name in lower case. Every statement is taken to succeed; an `UPDATE` that
matches no row succeeds as well.
-/

namespace MeepBot

inductive AccessLevel where
  /-- not allowed to use us at all -/
  | banned
  /-- casual usage, some commands -/
  | user
  /-- add quotes, send PMs, etc. -/
  | op
  /-- mod commands, manage ops and data -/
  | mod
  /-- manage the bot, manage all other users -/
  | admin
  deriving DecidableEq

namespace AccessLevel

/-- The enumerator's value, which is also its rank. -/
def value : AccessLevel → Nat
  | banned => 0
  | user => 1
  | op => 2
  | mod => 3
  | admin => 4

theorem value_injective : Function.Injective value := by
  intro a b
  cases a <;> cases b <;> decide

instance : LinearOrder AccessLevel := LinearOrder.lift' value value_injective

theorem banned_le (a : AccessLevel) : banned ≤ a := Nat.zero_le _

end AccessLevel

/-- A row of the table; `none` is `NULL`. -/
structure UserRow where
  username : Str
  description : Option Str
  accessLevel : AccessLevel
  isProtected : Bool
  warnings : Int
  mask : Option Str
  deriving DecidableEq

namespace UserRow

/-- The key under `NOCASE`. -/
def key (r : UserRow) : Str := toLower r.username

end UserRow

/-- What the bot reads from a row; the columns that may be `NULL` read as empty texts. -/
structure UserEntry where
  desc : Str
  mask : Str
  level : AccessLevel
  locked : Bool
  warnings : Int
  deriving DecidableEq

abbrev UserTable := KeyedTable UserRow.key

namespace UserDB

/-- The row of a name, in any letter case. -/
def rowOf (t : UserTable) (name : Str) : Option UserRow := t.lookup (toLower name)

/-- A row as `AddUser` inserts it. -/
def newRow (name : Str) (level : AccessLevel) : UserRow := ⟨name, none, level, false, 0, none⟩

def addUser (t : UserTable) (name : Str) (level : AccessLevel) : UserTable :=
  t.insertOrIgnore (newRow name level)

def hasUser (t : UserTable) (name : Str) : Bool := (rowOf t name).isSome

/-- `IsProtected`; for an absent name it returns `LEVEL_USER`, which is true. -/
def isProtected (t : UserTable) (name : Str) : Bool :=
  match rowOf t name with
  | some r => r.isProtected
  | none => AccessLevel.user.value ≠ 0

def protect (t : UserTable) (name : Str) (bProtect : Bool) : Bool × UserTable :=
  (true, t.update (toLower name) ⟨fun r => { r with isProtected := bProtect }, fun _ => rfl⟩)

def entryOf (r : UserRow) : UserEntry :=
  ⟨r.description.getD [], r.mask.getD [], r.accessLevel, r.isProtected, r.warnings⟩

def getUserEntry (t : UserTable) (name : Str) : Option UserEntry := (rowOf t name).map entryOf

/-- `SetUserEntry`. The mask is printed with `%d`, so what is stored is not its text but the
number its pointer is read as. -/
def setUserEntry (t : UserTable) (name : Str) (entry : UserEntry) (pointer : Int) :
    Bool × UserTable :=
  if isProtected t name then (false, t)
  else (true, t.insertOrReplace ⟨name, some (cstr entry.desc), entry.level, entry.locked,
    entry.warnings, some (decimalInt pointer)⟩)

def getAccessLevel (t : UserTable) (name : Str) : AccessLevel :=
  match getUserEntry t name with
  | some entry => entry.level
  | none => .banned

def setAccessLevel (t : UserTable) (name : Str) (level : AccessLevel) : Bool × UserTable :=
  if isProtected t name then (false, t)
  else (true, t.update (toLower name) ⟨fun r => { r with accessLevel := level }, fun _ => rfl⟩)

def getDescription (t : UserTable) (name : Str) : Str :=
  match getUserEntry t name with
  | some entry => entry.desc
  | none => []

def setDescription (t : UserTable) (name desc : Str) : Bool × UserTable :=
  (true, t.update (toLower name) ⟨fun r => { r with description := some desc }, fun _ => rfl⟩)

/-- `GetWarnings`; -1 stands for an absent name. -/
def getWarnings (t : UserTable) (name : Str) : Int :=
  match getUserEntry t name with
  | some entry => entry.warnings
  | none => -1

def setWarnings (t : UserTable) (name : Str) (warnings : Int) : Bool × UserTable :=
  (true, t.update (toLower name) ⟨fun r => { r with warnings := warnings }, fun _ => rfl⟩)

/-- The operations that write the table. -/
inductive Operation where
  | addUser (name : Str) (level : AccessLevel)
  | setAccessLevel (name : Str) (level : AccessLevel)
  | setUserEntry (name : Str) (entry : UserEntry) (pointer : Int)
  | setDescription (name desc : Str)
  | setWarnings (name : Str) (warnings : Int)
  | protect (name : Str) (bProtect : Bool)

def Operation.apply (t : UserTable) : Operation → UserTable
  | addUser name level => UserDB.addUser t name level
  | setAccessLevel name level => (UserDB.setAccessLevel t name level).2
  | setUserEntry name entry pointer => (UserDB.setUserEntry t name entry pointer).2
  | setDescription name desc => (UserDB.setDescription t name desc).2
  | setWarnings name warnings => (UserDB.setWarnings t name warnings).2
  | protect name bProtect => (UserDB.protect t name bProtect).2

/-! ### What an operation does to the row of a name -/

theorem getUserEntry_of_row {t : UserTable} {name : Str} {r : UserRow}
    (row : rowOf t name = some r) : getUserEntry t name = some (entryOf r) := by
  rw [getUserEntry, row, Option.map_some]

theorem getUserEntry_none {t : UserTable} {name : Str} (absent : rowOf t name = none) :
    getUserEntry t name = none := by
  rw [getUserEntry, absent, Option.map_none]

theorem hasUser_of_row {t : UserTable} {name : Str} {r : UserRow} (row : rowOf t name = some r) :
    hasUser t name = true := by
  rw [hasUser, row, Option.isSome_some]

theorem not_hasUser {t : UserTable} {name : Str} (absent : rowOf t name = none) :
    ¬hasUser t name = true := by
  rw [hasUser, absent, Option.isSome_none]
  exact Bool.false_ne_true

theorem getWarnings_of_row {t : UserTable} {name : Str} {r : UserRow}
    (row : rowOf t name = some r) : getWarnings t name = r.warnings := by
  rw [getWarnings, getUserEntry_of_row row, entryOf]

/-- The rows are what the names find. -/
theorem forall_rows_iff {t : UserTable} {P : UserRow → Prop} :
    (∀ r ∈ t.rows, P r) ↔ ∀ name r, rowOf t name = some r → P r := by
  constructor
  · exact fun all name r row => all r (KeyedTable.mem_of_lookup row)
  · exact fun all r member =>
      all r.username r ((KeyedTable.lookup_some_iff t r.key r).mpr ⟨member, rfl⟩)

theorem addUser_cases (t : UserTable) (name : Str) (level : AccessLevel) :
    addUser t name level = t ∨ (addUser t name level).rows = t.rows ++ [newRow name level] :=
  KeyedTable.insertOrIgnore_cases t (newRow name level)

/-- A row that is there stays as it is when its name, or any other, is added. -/
theorem rowOf_addUser {t : UserTable} {name other : Str} {level : AccessLevel} {r : UserRow}
    (row : rowOf t name = some r) : rowOf (addUser t other level) name = some r :=
  KeyedTable.lookup_insertOrIgnore row

theorem rowOf_addUser_of_absent {t : UserTable} {name : Str} (absent : rowOf t name = none)
    (level : AccessLevel) : rowOf (addUser t name level) name = some (newRow name level) :=
  KeyedTable.lookup_insertOrIgnore_of_absent (r := newRow name level) absent

theorem rowOf_update (t : UserTable) (name other : Str) (f : KeyedTable.Rewrite UserRow.key) :
    rowOf (t.update (toLower name) f) other =
      (rowOf t other).map fun r => if toLower other = toLower name then f r else r :=
  KeyedTable.lookup_update t (toLower name) (toLower other) f

theorem rowOf_protect (t : UserTable) (name other : Str) (b : Bool) :
    rowOf (protect t name b).2 other = (rowOf t other).map fun r =>
      if toLower other = toLower name then { r with isProtected := b } else r :=
  rowOf_update ..

theorem rowOf_setDescription (t : UserTable) (name other desc : Str) :
    rowOf (setDescription t name desc).2 other = (rowOf t other).map fun r =>
      if toLower other = toLower name then { r with description := some desc } else r :=
  rowOf_update ..

theorem rowOf_setWarnings (t : UserTable) (name other : Str) (warnings : Int) :
    rowOf (setWarnings t name warnings).2 other = (rowOf t other).map fun r =>
      if toLower other = toLower name then { r with warnings := warnings } else r :=
  rowOf_update ..

theorem rowOf_setAccessLevel (t : UserTable) (name other : Str) (level : AccessLevel) :
    rowOf (setAccessLevel t name level).2 other = (rowOf t other).map fun r =>
      if toLower other = toLower name ∧ r.isProtected = false then { r with accessLevel := level }
      else r := by
  -- the protection that is asked for is the one of the row, if the names agree
  have own {r : UserRow} (row : rowOf t other = some r) (same : toLower other = toLower name) :
      isProtected t name = r.isProtected := by
    have row' : rowOf t name = some r := by rw [rowOf, ← same]; exact row
    rw [isProtected, row']
  rw [setAccessLevel]
  by_cases locked : isProtected t name = true
  · rw [if_pos locked]
    cases row : rowOf t other with
    | none => rfl
    | some r =>
      by_cases same : toLower other = toLower name
      · rw [own row same] at locked
        simp [locked]
      · simp [same]
  · rw [if_neg locked, rowOf_update]
    cases row : rowOf t other with
    | none => rfl
    | some r =>
      by_cases same : toLower other = toLower name
      · rw [own row same] at locked
        simp [same, locked]
      · simp [same]

/-- A replacing insertion is refused for a protected row, and is about no other. -/
theorem rowOf_setUserEntry_of_protected {t : UserTable} {name : Str} {r : UserRow}
    (row : rowOf t name = some r) (locked : r.isProtected = true) (other : Str) (entry : UserEntry)
    (pointer : Int) : rowOf (setUserEntry t other entry pointer).2 name = some r := by
  unfold setUserEntry
  split
  · exact row
  next unlocked =>
    rw [rowOf, KeyedTable.lookup_insertOrReplace, if_neg, ← rowOf, row]
    intro same
    have row' : rowOf t other = some r := (congrArg t.lookup same.symm).trans row
    rw [isProtected, row'] at unlocked
    exact unlocked locked

theorem hasUser_addUser (t : UserTable) (name : Str) (level : AccessLevel) :
    hasUser (addUser t name level) name = true :=
  KeyedTable.lookup_insertOrIgnore_self t (newRow name level)

end UserDB
end MeepBot
