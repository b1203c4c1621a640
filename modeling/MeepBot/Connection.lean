import MeepBot.Library.SqlStatement
import MeepBot.Platform
import MeepBot.UserDB
import MeepBot.QuotesDB

/-!
# The connection to the database

`SQLite::Prepare`, and the functions of `UserDB` and `QuotesDB` with the query texts they print.
The database is what the texts are executed on, so nothing here knows what a row means. Every
statement is taken to succeed that can be read and is about tables and columns that are there.
-/

namespace MeepBot

open Sql

/-- `NOCASE` and `LIKE` -/
def dialect : Dialect := ⟨toLower, Sql.like⟩

/-- What the first `sqlite3_step` of a statement returns. -/
inductive Status where
  | row (columns : List Value)
  | done
  | error

structure Connection where
  db : Database
  /-- The prepared statements that are not finalized. -/
  statements : Nat

namespace Connection

/-- `SQLite::Open` of a new file. -/
def opened : Connection := ⟨fun _ => none, 0⟩

/-- `sqlite3_close` fails while there are statements that are not finalized. -/
def closes (c : Connection) : Bool := c.statements = 0

/-- `SQLite::Prepare`; nothing where the text cannot be read. -/
def prepare (c : Connection) (fmt : String) (args : List Arg) : Option Statement × Connection :=
  let stmt := Sql.read (printed fmt.toList args)
  (stmt, if stmt.isSome then { c with statements := c.statements + 1 } else c)

/-- `sqlite3_step`, once. -/
def step (c : Connection) (stmt : Option Statement) (pick : Nat) : Status × Connection :=
  match stmt with
  | none => (.error, c)
  | some stmt =>
    match exec dialect pick c.db stmt with
    | (.error, db) => (.error, { c with db := db })
    | (.rows [], db) => (.done, { c with db := db })
    | (.rows (columns :: _), db) => (.row columns, { c with db := db })

/-- `sqlite3_finalize`; there is nothing to do for a null pointer. -/
def finalize (c : Connection) (stmt : Option Statement) : Connection :=
  if stmt.isSome then { c with statements := c.statements - 1 } else c

def Done : Status → Bool
  | .done => true
  | _ => false

/-! ### Columns -/

/-- `sqlite3_column_text` -/
def columnText : Value → Option Str
  | .null => none
  | .number n => some (decimalInt n)
  | .text s => some s

/-- The number that a text begins with. -/
def numericPrefix (s : Str) : Int :=
  let (negative, t) := splitSign (s.dropWhile isSpace)
  let n : Int := Nat.ofDigitChars 10 (t.takeWhile Char.isDigit) 0
  max (-2 ^ 63) (min (2 ^ 63 - 1) (if negative then -n else n))

/-- `sqlite3_column_int` -/
def columnInt : Value → Int
  | .null => 0
  | .number n => QuotesDB.columnInt n
  | .text s => QuotesDB.columnInt (numericPrefix s)

/-- An integer as an `AccessLevel`. Numbers outside the enumeration compare like its ends. -/
def toAccessLevel (n : Int) : AccessLevel :=
  if n ≤ 0 then .banned
  else if n = 1 then .user
  else if n = 2 then .op
  else if n = 3 then .mod
  else .admin

def ofBool (b : Bool) : Int := if b then 1 else 0

/-! ### UserDB -/

/-- `USER_TABLE` -/
def userTable : Str := "users".toList

/-- `UserDB()` -/
def createUsers (c : Connection) : Connection :=
  let (stmt, c) := c.prepare
    ("CREATE TABLE IF NOT EXISTS %s(" ++
      "username TEXT UNIQUE PRIMARY KEY COLLATE NOCASE, " ++
      "description TEXT, accessLevel INTEGER, isProtected INTEGER, " ++
      "warnings INTEGER, mask STRING);") [.text userTable]
  let (_, c) := c.step stmt 0
  c.finalize stmt

def addUser (c : Connection) (name : Str) (level : AccessLevel) : Bool × Connection :=
  let (stmt, c) := c.prepare "INSERT OR IGNORE INTO %s VALUES('%q',NULL,%d,0,0,NULL);"
    [.text userTable, .text name, .number level.value]
  if stmt.isNone then (false, c)
  else
    let (ret, c) := c.step stmt 0
    (Done ret, c.finalize stmt)

def hasUser (c : Connection) (name : Str) : Bool × Connection :=
  let (stmt, c) := c.prepare "SELECT * from %s WHERE username = '%q';"
    [.text userTable, .text name]
  if stmt.isNone then (false, c)
  else
    let (ret, c) := c.step stmt 0
    (ret matches .row _, c.finalize stmt)

def isProtected (c : Connection) (name : Str) : Bool × Connection :=
  let (stmt, c) := c.prepare "SELECT isProtected FROM %s WHERE username = '%q';"
    [.text userTable, .text name]
  if stmt.isNone then (AccessLevel.user.value ≠ 0, c)
  else
    match c.step stmt 0 with
    | (.row columns, c) => (columnInt (Table.cell columns 0) ≠ 0, c.finalize stmt)
    -- the statement is not finalized here
    | (_, c) => (AccessLevel.user.value ≠ 0, c)

def protect (c : Connection) (name : Str) (bProtect : Bool) : Bool × Connection :=
  let (stmt, c) := c.prepare "UPDATE %s SET isProtected = %d WHERE username = '%q';"
    [.text userTable, .number (ofBool bProtect), .text name]
  let (ret, c) := c.step stmt 0
  (Done ret, c.finalize stmt)

/-- `GetUserEntry`, into a fresh entry. -/
def getUserEntry (c : Connection) (name : Str) : Option UserEntry × Connection :=
  let (stmt, c) := c.prepare "SELECT * from %s WHERE username = '%q' LIMIT 1;"
    [.text userTable, .text name]
  if stmt.isNone then (none, c)
  else
    let (ret, c) := c.step stmt 0
    let entry := match ret with
      | .row columns => some
          { desc := (columnText (Table.cell columns 1)).getD []
            level := toAccessLevel (columnInt (Table.cell columns 2))
            locked := columnInt (Table.cell columns 3) ≠ 0
            warnings := columnInt (Table.cell columns 4)
            mask := (columnText (Table.cell columns 5)).getD [] }
      | _ => none
    (entry, c.finalize stmt)

/-- `SetUserEntry`; the mask is printed with `%d`, as the number its pointer is read as. -/
def setUserEntry (c : Connection) (name : Str) (entry : UserEntry) (pointer : Int) :
    Bool × Connection :=
  match c.isProtected name with
  | (true, c) => (false, c)
  | (false, c) =>
    let (stmt, c) := c.prepare "INSERT OR REPLACE INTO %s VALUES('%q','%q',%d,%d,%d, %d);"
      [.text userTable, .text name, .text (cstr entry.desc), .number entry.level.value,
        .number (ofBool entry.locked), .number entry.warnings, .number pointer]
    if stmt.isNone then (false, c)
    else
      let (ret, c) := c.step stmt 0
      (Done ret, c.finalize stmt)

def getAccessLevel (c : Connection) (name : Str) : AccessLevel × Connection :=
  match c.getUserEntry name with
  | (none, c) => (.banned, c)
  | (some entry, c) => (entry.level, c)

def setAccessLevel (c : Connection) (name : Str) (level : AccessLevel) : Bool × Connection :=
  match c.isProtected name with
  | (true, c) => (false, c)
  | (false, c) =>
    let (stmt, c) := c.prepare "UPDATE %s SET accessLevel = %d WHERE username = '%q';"
      [.text userTable, .number level.value, .text name]
    let (ret, c) := c.step stmt 0
    (Done ret, c.finalize stmt)

def getDescription (c : Connection) (name : Str) : Str × Connection :=
  match c.getUserEntry name with
  | (none, c) => ([], c)
  | (some entry, c) => (entry.desc, c)

def setDescription (c : Connection) (name desc : Str) : Bool × Connection :=
  let (stmt, c) := c.prepare "UPDATE %s SET description='%q' WHERE username = '%q';"
    [.text userTable, .text desc, .text name]
  let (ret, c) := c.step stmt 0
  -- the statement is never finalized
  (Done ret, c)

def getWarnings (c : Connection) (name : Str) : Int × Connection :=
  match c.getUserEntry name with
  | (none, c) => (-1, c)
  | (some entry, c) => (entry.warnings, c)

def setWarnings (c : Connection) (name : Str) (warnings : Int) : Bool × Connection :=
  let (stmt, c) := c.prepare "UPDATE %s SET warnings=%d WHERE username = '%q';"
    [.text userTable, .number warnings, .text name]
  if stmt.isNone then (false, c)
  else
    let (ret, c) := c.step stmt 0
    (Done ret, c.finalize stmt)

/-! ### QuotesDB -/

/-- `QUOTES_TABLE` -/
def quotesTable : Str := "quotes".toList

/-- `QuotesDB()` -/
def createQuotes (c : Connection) : Connection :=
  let (stmt, c) := c.prepare
    ("CREATE TABLE IF NOT EXISTS %s(id INTEGER PRIMARY KEY AUTOINCREMENT, " ++
      "quote TEXT, addedBy TEXT);") [.text quotesTable]
  let (_, c) := c.step stmt 0
  c.finalize stmt

/-- `GetFirstQuote`: a copy of the first column. -/
def getFirstQuote (c : Connection) (stmt : Option Statement) : Option Str × Connection :=
  match c.step stmt 0 with
  | (.row columns, c) =>
    ((columnText (Table.cell columns 0)).map fun val => cstr (QuotesDB.copyBuffer val), c)
  | (_, c) => (none, c)

def quoteExists (c : Connection) (iQuoteID : Int) : Bool × Connection :=
  let (stmt, c) := c.prepare "SELECT quote FROM %s WHERE id = %d;"
    [.text quotesTable, .number iQuoteID]
  if stmt.isNone then (false, c)
  else
    let (ret, c) := c.step stmt 0
    (ret matches .row _, c.finalize stmt)

def getQuoteByID (c : Connection) (iQuoteID : Int) : Option Str × Connection :=
  let (stmt, c) := c.prepare "SELECT quote FROM %s WHERE id = %d;"
    [.text quotesTable, .number iQuoteID]
  let (ret, c) := c.getFirstQuote stmt
  (ret, c.finalize stmt)

def getIDByPattern (c : Connection) (pattern : Str) (pick : Nat) : Int × Connection :=
  let (stmt, c) := c.prepare
    "SELECT id FROM %s WHERE quote LIKE '%%%q%%' ORDER BY RANDOM() LIMIT 1;"
    [.text quotesTable, .text pattern]
  match c.step stmt pick with
  | (.row columns, c) => (columnInt (Table.cell columns 0), c.finalize stmt)
  | (_, c) => (-1, c.finalize stmt)

def getQuoteAuthor (c : Connection) (iQuoteID : Int) : Option Str × Connection :=
  let (stmt, c) := c.prepare "SELECT addedBy from %s WHERE id = %d;"
    [.text quotesTable, .number iQuoteID]
  -- the statement is never finalized
  match c.step stmt 0 with
  | (.row columns, c) =>
    ((columnText (Table.cell columns 0)).map fun val => cstr (QuotesDB.copyBuffer val), c)
  | (_, c) => (none, c)

def getRandomID (c : Connection) (pick : Nat) : Int × Connection :=
  let (stmt, c) := c.prepare "SELECT id FROM %s ORDER BY RANDOM() LIMIT 1;" [.text quotesTable]
  if stmt.isNone then (-1, c)
  else
    match c.step stmt pick with
    | (.row columns, c) => (columnInt (Table.cell columns 0), c.finalize stmt)
    | (_, c) => (-1, c.finalize stmt)

def addQuote (c : Connection) (adder quote : Str) : Bool × Connection :=
  let (stmt, c) := c.prepare "INSERT INTO %s (id,quote,AddedBy) VALUES(NULL,'%q','%q');"
    [.text quotesTable, .text quote, .text adder]
  let (ret, c) := c.step stmt 0
  (Done ret, c.finalize stmt)

def removeQuote (c : Connection) (iQuoteID : Int) : Bool × Connection :=
  match c.quoteExists iQuoteID with
  | (false, c) => (false, c)
  | (true, c) =>
    let (stmt, c) := c.prepare "DELETE FROM %s WHERE id = %d;" [.text quotesTable, .number iQuoteID]
    let (ret, c) := c.step stmt 0
    (Done ret, c.finalize stmt)

end Connection
end MeepBot
