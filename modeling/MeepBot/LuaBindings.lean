import MeepBot.Library.Effect
import MeepBot.Platform
import MeepBot.Bot

/-!
# Lua bindings: the functions under `MeepBot`

A function of the scripts is a program on the bot. It may stop with a Lua error, which the
caller of `Respond` catches, or with a signal, which ends the process. The functions below
are the ones registered from C++. Where one is given something that is not a string it does
nothing and answers `nil` or `false`; the scripts' strings come from C strings.
-/

namespace MeepBot

/-- How a script is cut short. -/
inductive Abort where
  | error (msg : Str)
  | signal (name : Str)
  deriving DecidableEq

/-- A function of the scripts, running on the bot. -/
abbrev LuaM := Effect.Program Bot Abort

namespace LuaM

open Effect

/-- A Lua error. -/
def error {α : Type} (msg : String) : LuaM α := throw (.error msg.toList)

/-- Index a value that may be nil, or calculate or compare with it. -/
def need {α : Type} (msg : String) : Option α → LuaM α
  | some a => pure a
  | none => error msg

@[simp] theorem need_some {α : Type} (msg : String) (a : α) : need msg (some a) = pure a := rfl

end LuaM

namespace LuaBindings

open Effect

/-! ### `MeepBot` -/

def say : Option Str → LuaM Unit
  | some str => change fun b => b.say str
  | none => pure ()

def pm : Option Str → Option Str → LuaM Unit
  | some name, some msg => change fun b => b.pm name msg
  | _, _ => pure ()

/-- `ModAction`; `Kick`, `Disable`, `Ban`, `Unban`, `Mute` and `Unmute` give it their code. -/
def modAction (name : Str) (code : MessageCode) : LuaM Unit :=
  change fun b => (b.write (.message code blank name)).2

/-! ### `MeepBot.Quotes` -/

def pick : LuaM Nat :=
  act fun b =>
    (b.world.picks.head, { b with world := { b.world with picks := b.world.picks.tail } })

/-- An id as the scripts see it: `nil` unless it is positive. -/
def positive (idx : Int) : Option Int := if 0 < idx then some idx else none

def quoteAdd : Str → Option Str → LuaM Bool
  | adder, some quote =>
    act fun b =>
      let (added, quotes) := QuotesDB.addQuote b.quotes adder quote
      (added, { b with quotes := quotes })
  | _, none => pure false

def quoteGetRandomID : LuaM (Option Int) := do
  let i ← pick
  query fun b => positive (QuotesDB.getRandomID b.quotes i)

def quoteGetIDByPattern (pattern : Str) : LuaM (Option Int) := do
  let i ← pick
  query fun b => positive (QuotesDB.getIDByPattern b.quotes pattern i)

section
variable [Platform]

def quoteGetByID (id : LuaNumber) : LuaM (Option Str) :=
  query fun b => QuotesDB.getQuoteByID b.quotes id.toInt

def quoteRemove (id : LuaNumber) : LuaM Bool :=
  act fun b =>
    let (removed, quotes) := QuotesDB.removeQuote b.quotes id.toInt
    (removed, { b with quotes := quotes })

def quoteGetAuthor (id : LuaNumber) : LuaM (Option Str) :=
  query fun b => QuotesDB.getQuoteAuthor b.quotes id.toInt

end

/-! ### `MeepBot.Users` -/

def getAccessLevel (name : Str) : LuaM AccessLevel :=
  query fun b => UserDB.getAccessLevel b.users name

/-- A setter of the users table. -/
def setUsers (f : UserTable → Bool × UserTable) : LuaM Bool :=
  act fun b =>
    let (ret, users) := f b.users
    (ret, { b with users := users })

def setAccessLevel (name : Str) (level : AccessLevel) : LuaM Bool :=
  setUsers fun users => UserDB.setAccessLevel users name level

def getUserEntry (name : Str) : LuaM (Option UserEntry) :=
  query fun b => UserDB.getUserEntry b.users name

def protect (user : Str) (bProtect : Bool) : LuaM Bool :=
  setUsers fun users => UserDB.protect users user bProtect

def setDescription (target desc : Str) : LuaM Bool :=
  setUsers fun users => UserDB.setDescription users target desc

def getWarnings (user : Str) : LuaM Int := query fun b => UserDB.getWarnings b.users user

def setWarnings (user : Str) (warnings : Int) : LuaM Bool :=
  if warnings < 0 ∨ 5 < warnings then pure false
  else setUsers fun users => UserDB.setWarnings users user warnings

/-! ### `MeepBot.Utils` -/

/-- `Rand` with a bound. A remainder by zero raises a signal. -/
def rand [Platform] (bound : LuaNumber) : LuaM Nat := do
  let ret ← act fun b =>
    (b.world.values.head, { b with world := { b.world with values := b.world.values.tail } })
  if bound.toUnsigned = 0 then throw (.signal "Floating point exception".toList)
  else pure (ret % bound.toUnsigned + 1).toNat

def resolve (caller pattern : Str) : LuaM Str := query fun b => b.userList.resolve caller pattern

/-- `Resolve` for arguments that may be missing. -/
def resolveParams (caller : Str) : Option Str → LuaM (Option Str)
  | some pattern => query fun b => some (b.userList.resolve caller pattern)
  | none => pure none

end LuaBindings
end MeepBot
