import Mathlib.Data.List.Forall2
import MeepBot.Connection

/-!
# What the query texts are read as

Each query text of `UserDB` and `QuotesDB`, with whatever arguments, is read as the one statement
its format means: a text argument only ever becomes a value, whatever quotes, comment signs or
semicolons it has.
-/

namespace MeepBot
namespace Connection

open Sql

/-- The columns of the users table. -/
def userColumns : List Column :=
  [⟨"username".toList, [.text, .unique, .primary, .key, .collate, .nocase]⟩,
   ⟨"description".toList, [.text]⟩, ⟨"accesslevel".toList, [.integer]⟩,
   ⟨"isprotected".toList, [.integer]⟩, ⟨"warnings".toList, [.integer]⟩,
   ⟨"mask".toList, [.string]⟩]

def quoteColumns : List Column :=
  [⟨"id".toList, [.integer, .primary, .key, .autoincrement]⟩, ⟨"quote".toList, [.text]⟩,
   ⟨"addedby".toList, [.text]⟩]

/-- A row of the users table by name. -/
def named (name : Str) : Condition := .equals "username".toList (.text name)

/-- A row of the quotes table by number. -/
def numbered (id : Int) : Condition := .equals "id".toList (.number id)

/-- A statement that was prepared. -/
def prepared (c : Connection) : Connection := { c with statements := c.statements + 1 }

theorem prepare_eq {fmt : String} {args : List Arg} {stmt : Statement}
    (reads : Sql.read (printed fmt.toList args) = some stmt) (c : Connection) :
    c.prepare fmt args = (some stmt, c.prepared) := by
  rw [prepare, reads]
  rfl

section
set_option maxRecDepth 8000

theorem prepare_createUsers (c : Connection) :
    c.prepare ("CREATE TABLE IF NOT EXISTS %s(" ++
      "username TEXT UNIQUE PRIMARY KEY COLLATE NOCASE, " ++
      "description TEXT, accessLevel INTEGER, isProtected INTEGER, " ++
      "warnings INTEGER, mask STRING);") [.text userTable] =
      (some (.create userTable userColumns), c.prepared) :=
  prepare_eq (by rw [read_printed]; rfl) c

theorem prepare_addUser (c : Connection) (name : Str) (level : Int) :
    c.prepare "INSERT OR IGNORE INTO %s VALUES('%q',NULL,%d,0,0,NULL);"
      [.text userTable, .text name, .number level] =
      (some (.insert .ignore userTable none
        [.text name, .null, .number level, .number 0, .number 0, .null]), c.prepared) :=
  prepare_eq (by rw [read_printed]; rfl) c

theorem prepare_hasUser (c : Connection) (name : Str) :
    c.prepare "SELECT * from %s WHERE username = '%q';" [.text userTable, .text name] =
      (some (.select none userTable (named name) false none), c.prepared) :=
  prepare_eq (by rw [read_printed]; rfl) c

theorem prepare_isProtected (c : Connection) (name : Str) :
    c.prepare "SELECT isProtected FROM %s WHERE username = '%q';" [.text userTable, .text name] =
      (some (.select (some "isprotected".toList) userTable (named name) false none),
        c.prepared) :=
  prepare_eq (by rw [read_printed]; rfl) c

theorem prepare_getUserEntry (c : Connection) (name : Str) :
    c.prepare "SELECT * from %s WHERE username = '%q' LIMIT 1;" [.text userTable, .text name] =
      (some (.select none userTable (named name) false (some 1)), c.prepared) :=
  prepare_eq (by rw [read_printed]; rfl) c

theorem prepare_protect (c : Connection) (name : Str) (value : Int) :
    c.prepare "UPDATE %s SET isProtected = %d WHERE username = '%q';"
      [.text userTable, .number value, .text name] =
      (some (.update userTable "isprotected".toList (.number value) "username".toList
        (.text name)), c.prepared) :=
  prepare_eq (by rw [read_printed]; rfl) c

theorem prepare_setUserEntry (c : Connection) (name desc : Str) (level locked warnings mask : Int) :
    c.prepare "INSERT OR REPLACE INTO %s VALUES('%q','%q',%d,%d,%d, %d);"
      [.text userTable, .text name, .text desc, .number level, .number locked, .number warnings,
        .number mask] =
      (some (.insert .replace userTable none [.text name, .text desc, .number level,
        .number locked, .number warnings, .number mask]), c.prepared) :=
  prepare_eq (by rw [read_printed]; rfl) c

theorem prepare_setAccessLevel (c : Connection) (name : Str) (level : Int) :
    c.prepare "UPDATE %s SET accessLevel = %d WHERE username = '%q';"
      [.text userTable, .number level, .text name] =
      (some (.update userTable "accesslevel".toList (.number level) "username".toList
        (.text name)), c.prepared) :=
  prepare_eq (by rw [read_printed]; rfl) c

theorem prepare_setDescription (c : Connection) (name desc : Str) :
    c.prepare "UPDATE %s SET description='%q' WHERE username = '%q';"
      [.text userTable, .text desc, .text name] =
      (some (.update userTable "description".toList (.text desc) "username".toList
        (.text name)), c.prepared) :=
  prepare_eq (by rw [read_printed]; rfl) c

theorem prepare_setWarnings (c : Connection) (name : Str) (warnings : Int) :
    c.prepare "UPDATE %s SET warnings=%d WHERE username = '%q';"
      [.text userTable, .number warnings, .text name] =
      (some (.update userTable "warnings".toList (.number warnings) "username".toList
        (.text name)), c.prepared) :=
  prepare_eq (by rw [read_printed]; rfl) c

theorem prepare_createQuotes (c : Connection) :
    c.prepare ("CREATE TABLE IF NOT EXISTS %s(id INTEGER PRIMARY KEY AUTOINCREMENT, " ++
      "quote TEXT, addedBy TEXT);") [.text quotesTable] =
      (some (.create quotesTable quoteColumns), c.prepared) :=
  prepare_eq (by rw [read_printed]; rfl) c

theorem prepare_quote (c : Connection) (id : Int) :
    c.prepare "SELECT quote FROM %s WHERE id = %d;" [.text quotesTable, .number id] =
      (some (.select (some "quote".toList) quotesTable (numbered id) false none), c.prepared) :=
  prepare_eq (by rw [read_printed]; rfl) c

theorem prepare_author (c : Connection) (id : Int) :
    c.prepare "SELECT addedBy from %s WHERE id = %d;" [.text quotesTable, .number id] =
      (some (.select (some "addedby".toList) quotesTable (numbered id) false none),
        c.prepared) :=
  prepare_eq (by rw [read_printed]; rfl) c

theorem prepare_pattern (c : Connection) (pattern : Str) :
    c.prepare "SELECT id FROM %s WHERE quote LIKE '%%%q%%' ORDER BY RANDOM() LIMIT 1;"
      [.text quotesTable, .text pattern] =
      (some (.select (some "id".toList) quotesTable
        (.like "quote".toList (.text ('%' :: pattern ++ ['%']))) true (some 1)), c.prepared) :=
  prepare_eq (by rw [read_printed]; rfl) c

theorem prepare_random (c : Connection) :
    c.prepare "SELECT id FROM %s ORDER BY RANDOM() LIMIT 1;" [.text quotesTable] =
      (some (.select (some "id".toList) quotesTable .always true (some 1)), c.prepared) :=
  prepare_eq (by rw [read_printed]; rfl) c

theorem prepare_addQuote (c : Connection) (quote adder : Str) :
    c.prepare "INSERT INTO %s (id,quote,AddedBy) VALUES(NULL,'%q','%q');"
      [.text quotesTable, .text quote, .text adder] =
      (some (.insert .abort quotesTable (some ["id".toList, "quote".toList, "addedby".toList])
        [.null, .text quote, .text adder]), c.prepared) :=
  prepare_eq (by rw [read_printed]; rfl) c

theorem prepare_removeQuote (c : Connection) (id : Int) :
    c.prepare "DELETE FROM %s WHERE id = %d;" [.text quotesTable, .number id] =
      (some (.delete quotesTable "id".toList (.number id)), c.prepared) :=
  prepare_eq (by rw [read_printed]; rfl) c

end

end Connection
end MeepBot
