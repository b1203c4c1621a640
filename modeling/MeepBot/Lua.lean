import Mathlib.Data.List.AList
import MeepBot.LuaNumber
import MeepBot.UserDB
import MeepBot.ChatPacket

/-!
# The state of the scripts

The values the scripts pass around, and the tables of the global `MeepBot` that the scripts
fill while they are loaded. Handlers are values of a type of their own, so that the tables
and the dispatcher can be studied for any set of handlers.
-/

namespace MeepBot

/-- A value; tables, functions and the like are told apart by their identity alone. -/
inductive LuaValue where
  | nil
  | boolean (b : Bool)
  | number (x : LuaNumber)
  | string (s : Str)
  | object (identity : Nat)
  deriving DecidableEq

namespace LuaValue

/-- Everything but `nil` and `false` counts as true. -/
def truthy : LuaValue → Bool
  | nil => false
  | boolean b => b
  | _ => true

/-- A global `LEVEL_` constant. -/
def level (l : AccessLevel) : LuaValue := number (LuaNumber.ofNat l.value)

/-- The `type` that stands for a message code, such as `TYPE_CHAT` and `TYPE_PM`. -/
def typeOf (code : MessageCode) : LuaValue := number (LuaNumber.ofNat code.value.toNat)

/-- `TYPE_PM` -/
def typePM : LuaValue := typeOf .userPM

end LuaValue

namespace LuaNumber

@[simp] theorem lt_ofNat (a b : Nat) : lt (ofNat a) (ofNat b) = decide (a < b) := by
  simp [lt, ofNat]

@[simp] theorem le_ofNat (a b : Nat) : le (ofNat a) (ofNat b) = decide (a ≤ b) := by
  rw [Bool.eq_iff_iff]
  simp [le, lt, ofNat]

end LuaNumber

/-- The tables a script registers its commands in; `H` is the type of the handlers. -/
structure Registry (H : Type) where
  accessLevel : AList fun _ : Str => LuaValue
  help : AList fun _ : Str => Str
  commands : AList fun _ : Str => H

namespace Registry

variable {H : Type}

/-- The tables before any script has run. -/
def empty : Registry H := ⟨∅, ∅, ∅⟩

/-- `Register`: the level and the help text are replaced, a handler that is there is not. -/
def register (reg : Registry H) (cmd : Str) (level : LuaValue) (help : Str) (func : Option H) :
    Registry H :=
  { accessLevel := reg.accessLevel.insert cmd level
    help := reg.help.insert cmd help
    commands := match reg.commands.lookup cmd, func with
      | none, some func => reg.commands.insert cmd func
      | _, _ => reg.commands }

/-- `MeepBot.Commands[cmd] = func` -/
def assign (reg : Registry H) (cmd : Str) (func : H) : Registry H :=
  { reg with commands := reg.commands.insert cmd func }

end Registry

/-- The handlers of the shipped scripts, under the names they are installed by. -/
inductive Command where
  | eightBall
  | protect | unprotect | setmask
  | describe | setdesc | admindesc
  | roll | rollx
  | enablebot | disablebot
  | fling
  | geico
  | help
  | kick | disable | ban | unban | mute | unmute
  | position
  | addquote | removequote | quote
  | say
  | warn | unwarn | checkwarnings
  deriving DecidableEq

/-- An open `lua_State`. -/
structure Lua where
  /-- `MeepBot.IsEnabled` -/
  isEnabled : Bool
  /-- Whether `MeepBot.Respond` is a function. -/
  responds : Bool
  registry : Registry Command

end MeepBot
