import MeepBot.Scripts.Commands

/-!
# The shipped scripts

What each script registers and installs, in the order they are loaded, and the tables this
leaves behind. `ModAction` registers a command as it is written in the source of the bot,
with a capital, while its handler is installed in lower case.
-/

namespace MeepBot
namespace Scripts

open LuaValue (level)

/-- The statements of a script that fill the tables, in order. -/
abbrev Script := List (Registry Command → Registry Command)

/-- `Register( cmd, level, help )`, and `MeepBot.Commands[cmd] = func` further down. -/
def installs (cmd : String) (l : AccessLevel) (help : String) (func : Command)
    (reg : Registry Command) : Registry Command :=
  (reg.register cmd.toList (level l) help.toList none).assign cmd.toList func

def util : Script := [fun reg =>
  { reg with help := reg.help.insert "me".toList "you're beyond my help, I'm afraid".toList }]

def eightBallScript : Script := [installs "8ball" .op "Ask a question, get an answer" .eightBall]

def adminActions : Script :=
  [installs "protect" .admin "prevents moderators from changing a user's rank." .protect,
   installs "unprotect" .admin "unprotects a user's rank, allowing mods to change it." .unprotect,
   installs "setmask" .admin "masks a user's rank with the given string." .setmask]

def describeScript : Script :=
  [installs "describe" .op "displays a user's personal description." .describe,
   installs "setdesc" .op "sets your personal description." .setdesc,
   installs "admindesc" .admin "overrides a user's personal description." .admindesc]

def dice : Script :=
  [installs "roll" .op
     "rolls one or more dice with the given number of sides, e.g. '2d8' rolls two 8-sided dice."
     .roll,
   installs "rollx" .op
     "rolls one die with up to 4294967295 sides, if you really need that sort of thing."
     .rollx]

def enableDisable : Script :=
  [installs "enablebot" .mod "Enables all operator commands." .enablebot,
   installs "disablebot" .mod "Disables all operator commands." .disablebot]

def flingScript : Script := [installs "fling" .op "flings a random object at username." .fling]

def geicoScript : Script :=
  [installs "geico" .op "saves you money on your car insurance. Maybe." .geico]

def helpScript : Script := [installs "help" .user "Helps us help you help us all." .help]

/-- `MeepBot.Commands[cmd] = ModAction( func, help, … )` -/
def modActionScript (cmd func help : String) (handler : Command) (reg : Registry Command) :
    Registry Command :=
  (reg.register func.toList (level .mod) help.toList none).assign cmd.toList handler

def modActions : Script :=
  [modActionScript "kick" "Kick" "kicks a mildly unruly user." .kick,
   modActionScript "disable" "Disable" "disables a somewhat unruly user." .disable,
   modActionScript "ban" "Ban" "bans a very unruly user." .ban,
   modActionScript "unban" "Unban" "unbans a previously unruly user." .unban,
   modActionScript "mute" "Mute" "mutes a user." .mute,
   modActionScript "unmute" "Unmute" "unmuts a user." .unmute]

def positionScript : Script :=
  [installs "position" .user "displays the access level of a user." .position]

def quotesScript : Script :=
  [installs "quote" .user "displays a quote. If no ID/pattern is given, a random quote is selected."
     .quote,
   installs "addquote" .op "adds a quote to the quotes database." .addquote,
   installs "removequote" .mod "removes a quote from the database by ID." .removequote]

def sayScript : Script := [installs "say" .mod "makes MeepBot say something." .say]

def warningsScript : Script :=
  [installs "warn" .mod "gives a user a warning. At 3 warnings, the user loses bot privileges."
     .warn,
   installs "unwarn" .admin "removes all warnings from a user." .unwarn,
   installs "checkwarnings" .user "checks how many warnings you have or a user has." .checkwarnings]

/-- The scripts in alphabetical order, as they are run. -/
def scripts : List Script :=
  [util, eightBallScript, adminActions, describeScript, dice, enableDisable, flingScript,
   geicoScript, helpScript, modActions, positionScript, quotesScript, sayScript, warningsScript]

/-- The tables after all scripts have run. -/
def shipped : Registry Command := scripts.flatten.foldl (fun reg f => f reg) .empty

/-- The state of the scripts after all of them have run. -/
def loaded : Lua := { isEnabled := true, responds := true, registry := shipped }

/-! ### The tables -/

/-- The level a handler is meant for, where its script registers it under a name by which
the dispatcher finds it. -/
def levelFor : Command → Option AccessLevel
  | .kick | .disable | .ban | .unban | .mute | .unmute => none
  | .help | .position | .quote | .checkwarnings => some .user
  | .eightBall | .describe | .setdesc | .roll | .rollx | .fling | .geico | .addquote => some .op
  | .enablebot | .disablebot | .removequote | .say | .warn => some .mod
  | .protect | .unprotect | .setmask | .admindesc | .unwarn => some .admin

/-- The dispatcher finds a handler under one name, and with it the level it is meant for. -/
theorem level_of_lookup {cmd : Str} {c : Command} (found : shipped.commands.lookup cmd = some c) :
    shipped.accessLevel.lookup cmd = (levelFor c).map level := by
  have entries : ∀ e ∈ shipped.commands.entries,
      shipped.accessLevel.lookup e.1 = (levelFor e.2).map level := by decide +kernel
  exact entries ⟨cmd, c⟩ (AList.mem_lookup_iff.mp found)

/-- Every command the dispatcher lets through is one with a level. -/
theorem command_of_request {caller line : Str} {c : Command} {l : LuaValue} {params : Str}
    (asked : request shipped caller line = .command c l params) :
    ∃ rank, levelFor c = some rank ∧ l = level rank := by
  unfold request at asked
  split at asked
  · cases asked
  · split at asked
    next => cases asked
    next cmd rest _ =>
      split at asked
      next => cases asked
      next found =>
        simp only at asked
        split at asked
        next truthy =>
          cases asked
          rw [level_of_lookup found] at truthy ⊢
          cases meant : levelFor c with
          -- nil is false, and such a command is reported to lack a level
          | none => rw [meant] at truthy; cases truthy
          | some rank => exact ⟨rank, rfl, rfl⟩
        next => cases asked

/-- Who may use a command with a level has that level, and is a moderator at least or finds
the bot enabled. -/
theorem allowed_level_iff {b : Bot} {user : Str} {rank : AccessLevel} :
    Allowed b user (level rank) ↔ rank ≤ UserDB.getAccessLevel b.users user ∧
      (.mod ≤ UserDB.getAccessLevel b.users user ∨ b.lua.any Lua.isEnabled = true) := by
  unfold Allowed level
  constructor
  · rintro ⟨x, same, high, le⟩
    cases same
    rw [LuaNumber.le_ofNat, decide_eq_true_eq] at le
    refine ⟨le, ?_⟩
    by_cases low : UserDB.getAccessLevel b.users user < .mod
    · exact .inr (by simpa using fun out => high ⟨low, out⟩)
    · exact .inl (not_lt.mp low)
  · rintro ⟨le, high⟩
    refine ⟨_, rfl, ?_, by rw [LuaNumber.le_ofNat, decide_eq_true_eq]; exact le⟩
    rintro ⟨low, out⟩
    rcases high with high | enabled
    · exact absurd low (not_lt.mpr high)
    · rw [out] at enabled
      cases enabled

end Scripts
end MeepBot
