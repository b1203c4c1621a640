import MeepBot.LuaStack
import MeepBot.LuaBindings

/-!
# The C functions of the bindings

The functions that `Register` puts into the table `MeepBot`, as they work on the stack of their
caller, and the registration itself. Arguments are counted from the top of the stack, so that a
call with too many uses the last ones.
-/

namespace MeepBot

/-- The functions written in C that the scripts can call. -/
inductive CFunction where
  | say | emote | pm
  | kick | disable | ban | unban | mute | unmute
  | quoteAdd | quoteGetRandomID | quoteGetIDByPattern | quoteGetByID | quoteRemove | quoteGetAuthor
  | getAccessLevel | setAccessLevel | getUserEntry | protect | getDescription | setDescription
  | getWarnings | setWarnings
  | rand | resolve
  deriving DecidableEq

namespace AccessLevel

/-- The conversion of a number to the enumeration. -/
def ofInt? : Int → Option AccessLevel
  | 0 => some banned
  | 1 => some user
  | 2 => some op
  | 3 => some mod
  | 4 => some admin
  | _ => none

end AccessLevel

namespace Natives

open Effect LuaC LuaStack

variable {F : Type}

/-- What the function does with `BOT`. -/
def onBot {α : Type} (f : Bot → α × Bot) : LuaC F Bot α :=
  act fun s => ((f s.host).1, { s with host := (f s.host).2 })

def tell (f : Bot → Bot) : LuaC F Bot Unit := onBot fun b => ((), f b)

def ask {α : Type} (f : Bot → α) : LuaC F Bot α := onBot fun b => (f b, b)

/-- A setter of the users table. -/
def onUsers (f : UserTable → Bool × UserTable) : LuaC F Bot Bool :=
  onBot fun b => ((f b.users).1, { b with users := (f b.users).2 })

/-- The choice of `ORDER BY RANDOM()`. -/
def choice : LuaC F Bot Nat :=
  onBot fun b =>
    (b.world.picks.head, { b with world := { b.world with picks := b.world.picks.tail } })

/-- An id, or `nil` where there is none. -/
def pushId (idx : Int) : LuaC F Bot Unit :=
  if 0 < idx then pushNumber (.finite idx) else pushNil

/-- A C string, or `nil` for a null pointer. -/
def pushText : Option Str → LuaC F Bot Unit
  | some text => pushString (cstr text)
  | none => pushNil

section
variable [NumberText]

/-! ### `bot_funcs` -/

/-- What `Say` and `Emote` share. -/
def speak (f : Bot → Str → Bot) : LuaC F Bot Nat := do
  if ← isString (-1) then
    let str ← luaToString (-1)
    tell fun b => f b (str.getD [])
    pure 0
  else pure 0

def say : LuaC F Bot Nat := speak Bot.say

def emote : LuaC F Bot Nat := speak Bot.emote

def pm : LuaC F Bot Nat := do
  let name ← luaToString (-2)
  let msg ← luaToString (-1)
  match name, msg with
  | some name, some msg => do tell fun b => b.pm name msg; pure 0
  | _, _ => pure 0

def modAction (code : MessageCode) : LuaC F Bot Nat := do
  match ← luaToString (-1) with
  | some name => do tell fun b => (b.write (.message code blank name)).2; pure 0
  | none => pure 0

/-! ### `quote_funcs` -/

def quoteAdd : LuaC F Bot Nat := do
  let adder ← luaToString (-2)
  let quote ← luaToString (-1)
  match adder, quote with
  | some adder, some quote => do
    pushBoolean (← onBot fun b =>
      let (added, quotes) := QuotesDB.addQuote b.quotes adder quote
      (added, { b with quotes := quotes }))
    pure 1
  | _, _ => do pushBoolean false; pure 1

def quoteGetRandomID : LuaC F Bot Nat := do
  let i ← choice
  pushId (← ask fun b => QuotesDB.getRandomID b.quotes i)
  pure 1

def quoteGetIDByPattern : LuaC F Bot Nat := do
  if ← isString (-1) then
    let pattern ← luaToString (-1)
    let i ← choice
    pushId (← ask fun b => QuotesDB.getIDByPattern b.quotes (pattern.getD []) i)
    pure 1
  else do pushNil; pure 1

section
variable [Platform]

omit [NumberText] in
def quoteGetByID : LuaC F Bot Nat := do
  if ← isNumber (-1) then
    let idx := (← toNumber (-1)).toInt
    pushText (← ask fun b => QuotesDB.getQuoteByID b.quotes idx)
    pure 1
  else do pushNil; pure 1

omit [NumberText] in
def quoteRemove : LuaC F Bot Nat := do
  if ← isNumber (-1) then
    let idx := (← toNumber (-1)).toInt
    pushBoolean (← onBot fun b =>
      let (removed, quotes) := QuotesDB.removeQuote b.quotes idx
      (removed, { b with quotes := quotes }))
    -- `return true`
    pure 1
  else do pushBoolean false; pure 1

omit [NumberText] in
def quoteGetAuthor : LuaC F Bot Nat := do
  if ← isNumber (-1) then
    let idx := (← toNumber (-1)).toInt
    pushText (← ask fun b => QuotesDB.getQuoteAuthor b.quotes idx)
    pure 1
  else do pushNil; pure 1

end

/-! ### `user_funcs` -/

def getAccessLevel : LuaC F Bot Nat := do
  match ← luaToString (-1) with
  | some name => do
    pushNumber (.ofNat (← ask fun b => UserDB.getAccessLevel b.users name).value)
    pure 1
  | none => do pushNil; pure 1

def setAccessLevel [Platform] : LuaC F Bot Nat := do
  let name ← luaToString (-2)
  let level := AccessLevel.ofInt? (← toNumber (-1)).toInt
  match name, level with
  | none, _ => do pushBoolean false; pure 1
  | some name, some level => do
    pushBoolean (← onUsers fun users => UserDB.setAccessLevel users name level)
    pure 1
  | some _, none => throw .undefined

/-- `SetKeyVal` for a table below the key and the value. -/
def setKeyVal (key : Str) (val : LuaValue) : LuaC F Bot Unit := do
  pushString key
  push val
  setTable (-3)

def getUserEntry : LuaC F Bot Nat := do
  let name ← luaToString (-1)
  match ← ask fun b => name.bind (UserDB.getUserEntry b.users) with
  | none => do pushNil; pure 1
  | some entry => do
    newTable
    setKeyVal "level".toList (.level entry.level)
    setKeyVal "desc".toList (.string (cstr entry.desc))
    setKeyVal "protected".toList (.boolean entry.locked)
    setKeyVal "warnings".toList (.number (.finite entry.warnings))
    setKeyVal "mask".toList (.string (cstr entry.mask))
    pure 1

def protect : LuaC F Bot Nat := do
  let user ← luaToString (-2)
  let bProtect ← toBoolean (-1)
  match user with
  | none => do pushBoolean false; pure 1
  | some user => do
    pushBoolean (← onUsers fun users => UserDB.protect users user bProtect)
    pure 1

def getDescription : LuaC F Bot Nat := do
  let user ← luaToString (-1)
  match ← ask fun b => user.bind (UserDB.getUserEntry b.users) with
  | none => do pushNil; pure 1
  | some entry => do pushString (cstr entry.desc); pure 1

def setDescription : LuaC F Bot Nat := do
  let target ← luaToString (-2)
  let desc ← luaToString (-1)
  match target, desc with
  | some target, some desc => do
    pushBoolean (← onUsers fun users => UserDB.setDescription users target desc)
    pure 1
  | _, _ => do pushBoolean false; pure 1

def getWarnings : LuaC F Bot Nat := do
  match ← luaToString (-1) with
  | none => do pushNil; pure 1
  | some user => do
    pushNumber (.finite (← ask fun b => UserDB.getWarnings b.users user))
    pure 1

def setWarnings [Platform] : LuaC F Bot Nat := do
  let user ← luaToString (-2)
  let warnings := (← toNumber (-1)).toInt
  match user with
  | none => do pushBoolean false; pure 1
  | some user =>
    if warnings < 0 ∨ 5 < warnings then do pushBoolean false; pure 1
    else do
      pushBoolean (← onUsers fun users => UserDB.setWarnings users user warnings)
      pure 1

/-! ### `util_funcs` -/

omit [NumberText] in
def rand [Platform] : LuaC F Bot Nat := do
  let ret ← onBot fun b =>
    (b.world.values.head, { b with world := { b.world with values := b.world.values.tail } })
  if ← isNumber (-1) then
    let bound := (← toNumber (-1)).toUnsigned
    if bound = 0 then throw (.signal "Floating point exception".toList)
    else do pushNumber (.ofNat (ret % bound + 1).toNat); pure 1
  else do pushNumber (.ofNat (ret + 1).toNat); pure 1

def resolve : LuaC F Bot Nat := do
  let caller ← luaToString (-2)
  let pattern ← luaToString (-1)
  match caller, pattern with
  | some caller, some pattern => do
    pushString (cstr (← ask fun b => b.userList.resolve caller pattern))
    pure 1
  | _, _ => do pushNil; pure 1

end
end Natives

open Natives in
/-- What a function does. -/
def CFunction.body [NumberText] [Platform] {F : Type} : CFunction → LuaC F Bot Nat
  | say => Natives.say
  | emote => Natives.emote
  | pm => Natives.pm
  | kick => modAction .userKick
  | disable => modAction .userDisable
  | ban => modAction .userBan
  | unban => modAction .userUnban
  | mute => modAction .userMute
  | unmute => modAction .userUnmute
  | quoteAdd => Natives.quoteAdd
  | quoteGetRandomID => Natives.quoteGetRandomID
  | quoteGetIDByPattern => Natives.quoteGetIDByPattern
  | quoteGetByID => Natives.quoteGetByID
  | quoteRemove => Natives.quoteRemove
  | quoteGetAuthor => Natives.quoteGetAuthor
  | getAccessLevel => Natives.getAccessLevel
  | setAccessLevel => Natives.setAccessLevel
  | getUserEntry => Natives.getUserEntry
  | protect => Natives.protect
  | getDescription => Natives.getDescription
  | setDescription => Natives.setDescription
  | getWarnings => Natives.getWarnings
  | setWarnings => Natives.setWarnings
  | rand => Natives.rand
  | resolve => Natives.resolve

namespace Natives

open Effect LuaC LuaStack

variable {H : Type}

/-! ### The lists of functions -/

/-- Placed under the core `MeepBot` table. -/
def botFuncs : List (Str × CFunction) := [
  ("Say".toList, .say),
  ("Emote".toList, .emote),
  ("PM".toList, .pm),
  ("Kick".toList, .kick),
  ("Disable".toList, .disable),
  ("Ban".toList, .ban),
  ("Unban".toList, .unban),
  ("Mute".toList, .mute),
  ("Unmute".toList, .unmute)]

/-- Placed under the `MeepBot.Util` table. -/
def utilFuncs : List (Str × CFunction) := [
  ("Rand".toList, .rand),
  ("Resolve".toList, .resolve)]

/-- Placed under the `MeepBot.Quotes` table. -/
def quoteFuncs : List (Str × CFunction) := [
  ("Add".toList, .quoteAdd),
  ("Remove".toList, .quoteRemove),
  ("GetByID".toList, .quoteGetByID),
  ("GetRandomID".toList, .quoteGetRandomID),
  ("GetIDByPattern".toList, .quoteGetIDByPattern),
  ("GetAuthor".toList, .quoteGetAuthor)]

/-- Placed under the `MeepBot.Users` table. -/
def userFuncs : List (Str × CFunction) := [
  ("GetUserEntry".toList, .getUserEntry),
  ("Protect".toList, .protect),
  ("GetAccessLevel".toList, .getAccessLevel),
  ("SetAccessLevel".toList, .setAccessLevel),
  ("GetDescription".toList, .getDescription),
  ("SetDescription".toList, .setDescription),
  ("GetWarnings".toList, .getWarnings),
  ("SetWarnings".toList, .setWarnings)]

/-- `LuaPacketTypes` -/
def luaPacketTypes : List (Str × LuaValue) := [
  ("TYPE_CHAT".toList, .typeOf .roomMessage),
  ("TYPE_PM".toList, .typeOf .userPM),
  ("TYPE_MOD_CHAT".toList, .typeOf .modChat)]

/-- `LuaAccessTypes` -/
def luaAccessTypes : List (Str × LuaValue) := [
  ("LEVEL_BANNED".toList, .level .banned),
  ("LEVEL_USER".toList, .level .user),
  ("LEVEL_OP".toList, .level .op),
  ("LEVEL_MOD".toList, .level .mod),
  ("LEVEL_ADMIN".toList, .level .admin)]

/-! ### Registration -/

def meepBot : Str := "MeepBot".toList

/-- `SetKeyNil` -/
def setKeyNil (key : Str) (idx : Int) : LuaC CFunction H Unit := do
  pushString key
  pushNil
  LuaC.setTable idx

/-- The first part of `RegisterTable`: `MeepBot` is there, and does not have the table yet. -/
def expectFree (name : Str) : LuaC CFunction H Unit := do
  assert ((← getTop) = 0)
  getGlobal meepBot
  assert (← isTable (-1))
  getField (-1) name
  assert (← isNil (-1))
  -- leaves one value, not two less
  pop (-2)

/-- The second part: the table is made under a global name. -/
def makeGlobal (name : Str) : Option (List (Str × CFunction)) → LuaC CFunction H Unit
  | none => do
    pushString name
    newTable
    LuaC.setTable globalsIndex
  | some reg => do
    luaLRegister name reg
    -- leaves nothing
    pop (-1)
    assert ((← getTop) = 0)

/-- The third part: `MeepBot` gets the table, and the global name is free again. -/
def moveGlobal (name : Str) : LuaC CFunction H Unit := do
  getGlobal meepBot
  pushString name
  getGlobal name
  LuaC.setTable (-3)
  pop (-1)
  setKeyNil name globalsIndex
  assert ((← getTop) = 0)

def registerTable (name : Str) (reg : Option (List (Str × CFunction))) :
    LuaC CFunction H Unit := do
  expectFree name
  makeGlobal name reg
  moveGlobal name

/-- `RegisterGlobalEnum` -/
def registerGlobalEnum : List (Str × LuaValue) → LuaC CFunction H Unit
  | [] => pure ()
  | (name, value) :: rest => do
    LuaC.push value
    setGlobal name
    registerGlobalEnum rest

/-- The subtables of `MeepBot`; the last one is for the scripts to fill. -/
def subtables : List (Str × Option (List (Str × CFunction))) := [
  ("Users".toList, some userFuncs),
  ("Utils".toList, some utilFuncs),
  ("Quotes".toList, some quoteFuncs),
  ("Commands".toList, none)]

def registerTables : List (Str × Option (List (Str × CFunction))) → LuaC CFunction H Unit
  | [] => pure ()
  | (name, reg) :: rest => do
    registerTable name reg
    registerTables rest

/-- The first part of `Register`: a global `MeepBot` that is there already is removed. -/
def removeMeepBot : LuaC CFunction H Unit := do
  getGlobal meepBot
  let bIsNil ← isNil (-1)
  pop (-1)
  if bIsNil then pure () else setKeyNil meepBot globalsIndex

/-- `MeepBot_LuaBindings::Register` -/
def register : LuaC CFunction H Unit := do
  removeMeepBot
  luaLRegister meepBot botFuncs
  pop (-1)
  registerTables subtables
  registerGlobalEnum luaPacketTypes
  registerGlobalEnum luaAccessTypes

end Natives
end MeepBot
