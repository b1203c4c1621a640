import MeepBot.LuaBindings

/-!
# 00 Util.lua

The dispatcher of the scripts and the helpers every handler uses. The dispatcher is written
for any tables and any way to call a handler.
-/

namespace MeepBot
namespace Scripts

open Effect LuaBindings

/-- `MeepBot.IsEnabled`; no script runs while the state is closed. -/
def isEnabled : LuaM Bool := query fun b => b.lua.any Lua.isEnabled

def setEnabled (value : Bool) : LuaM Unit :=
  change fun b => { b with lua := b.lua.map fun l => { l with isEnabled := value } }

def sayOrPM (type : LuaValue) (caller response : Option Str) : LuaM Unit := do
  let enabled ← isEnabled
  if !enabled then pure ()
  else if type = .typePM then pm caller response
  else say response

/-- While the bot is enabled and logged in, an answer with a text is one packet more. -/
theorem message_sayOrPM {b : Bot} (enabled : b.lua.any Lua.isEnabled = true)
    (loggedIn : b.loggedIn = true) (type : LuaValue) (caller : Str) {text : Str}
    (nonempty : text ≠ []) :
    ∃ w, (sayOrPM type (some caller) (some text) b).2.written = b.written ++ [w] ∧
      w.packet.sMessage = text := by
  have length : ¬text.length = 0 := by simpa using nonempty
  simp only [sayOrPM, isEnabled, query_bind, enabled, Bool.not_true, Bool.false_eq_true, if_false]
  split
  · simp [LuaBindings.pm, Bot.pm, loggedIn, length, Bot.write, ChatPacket.message]
  · simp [LuaBindings.say, Bot.say, loggedIn, length, Bot.write]

/-- `line:find("^!(%a+)%s*(.*)$")`: the letters, and what follows them and the white space. -/
def splitCommand : Str → Option (Str × Str)
  | '!' :: t =>
    let cmd := t.takeWhile Char.isAlpha
    if cmd = [] then none else some (cmd, (t.dropWhile Char.isAlpha).dropWhile isSpace)
  | _ => none

def hasAccess (user : Str) : LuaValue → LuaM Bool
  | .number level => do
    let ulevel ← getAccessLevel user
    let enabled ← isEnabled
    if ulevel < .mod ∧ enabled = false then pure false
    else pure (LuaNumber.le level (.ofNat ulevel.value))
  | _ => pure false

/-- `MeepBot.Respond`. The name it tests for an empty parameter is misspelt, so the handler
gets the parameter as it stands in the line. -/
def respond {H : Type} (reg : Registry H)
    (call : H → LuaValue → Str → Option Str → LuaM Unit) (type : LuaValue) (caller : Str) :
    Option Str → LuaM Unit
  | none => pure ()
  | some line =>
    if caller = "MeepBot".toList then pure ()
    else if line.take 1 = ['!'] then
      match splitCommand line with
      | none => LuaM.error "attempt to index local 'cmd' (a nil value)"
      | some (cmd, params) =>
        let cmd := toLower cmd
        let level := (reg.accessLevel.lookup cmd).getD .nil
        match reg.commands.lookup cmd with
        | none => pure ()
        | some command =>
          if !level.truthy then
            sayOrPM type (some caller) (some (cmd ++ " lacks an access level!".toList))
          else do
            let allowed ← hasAccess caller level
            if allowed then call command type caller (some params) else pure ()
    else pure ()

/-! ### The dispatcher in one step -/

/-- Whether a user passes `HasAccess` for a level. -/
def Allowed (b : Bot) (user : Str) (level : LuaValue) : Prop :=
  ∃ x, level = .number x ∧
    ¬(UserDB.getAccessLevel b.users user < .mod ∧ b.lua.any Lua.isEnabled = false) ∧
    LuaNumber.le x (.ofNat (UserDB.getAccessLevel b.users user).value) = true

instance (b : Bot) (user : Str) (level : LuaValue) : Decidable (Allowed b user level) :=
  match level with
  | .number x => decidable_of_iff
      (¬(UserDB.getAccessLevel b.users user < .mod ∧ b.lua.any Lua.isEnabled = false) ∧
        LuaNumber.le x (.ofNat (UserDB.getAccessLevel b.users user).value) = true)
      ⟨fun h => ⟨x, rfl, h⟩, fun ⟨_, same, h⟩ => by cases same; exact h⟩
  | .nil | .boolean _ | .string _ | .object _ => isFalse (by rintro ⟨_, same, _⟩; cases same)

theorem hasAccess_eq (user : Str) (level : LuaValue) (b : Bot) :
    hasAccess user level b = (.ok (decide (Allowed b user level)), b) := by
  cases level with
  | number x =>
    simp only [hasAccess, getAccessLevel, isEnabled, query_bind]
    by_cases low : UserDB.getAccessLevel b.users user < .mod ∧ b.lua.any Lua.isEnabled = false
    · have denied : ¬Allowed b user (.number x) := fun ⟨_, _, high, _⟩ => high low
      rw [if_pos low, decide_eq_false denied]
      rfl
    · have same : Allowed b user (.number x) ↔
          LuaNumber.le x (.ofNat (UserDB.getAccessLevel b.users user).value) = true :=
        ⟨fun ⟨_, h, _, le⟩ => by cases h; exact le, fun le => ⟨x, rfl, low, le⟩⟩
      rw [if_neg low, pure_apply]
      simp only [same, Bool.decide_eq_true]
  -- a level that is no number is never reached
  | nil | boolean _ | string _ | object _ =>
    rw [decide_eq_false (by rintro ⟨_, same, _⟩; cases same)]
    rfl

/-- What a line asks of the dispatcher. -/
inductive Request (H : Type) where
  /-- no command, or one that is not installed -/
  | ignored
  /-- an exclamation mark without a name behind it -/
  | nameless
  /-- an installed command without a level -/
  | unlevelled (cmd : Str)
  | command (handler : H) (level : LuaValue) (params : Str)
  deriving DecidableEq

/-- The request of a line by `caller`. -/
def request {H : Type} (reg : Registry H) (caller line : Str) : Request H :=
  if caller = "MeepBot".toList ∨ line.take 1 ≠ ['!'] then .ignored
  else match splitCommand line with
    | none => .nameless
    | some (cmd, params) =>
      match reg.commands.lookup (toLower cmd) with
      | none => .ignored
      | some handler =>
        let level := (reg.accessLevel.lookup (toLower cmd)).getD .nil
        if level.truthy then .command handler level params else .unlevelled (toLower cmd)

/-- A line with the mark of a command is looked at, unless it is the bot's own. -/
theorem not_skipped {caller : Str} (other : caller ≠ "MeepBot".toList) (line : Str) :
    ¬(caller = "MeepBot".toList ∨ ('!' :: line).take 1 ≠ ['!']) := by
  rintro (own | unmarked)
  · exact other own
  · exact unmarked rfl

/-- The dispatcher acts on the request alone. -/
theorem respond_eq {H : Type} (reg : Registry H)
    (call : H → LuaValue → Str → Option Str → LuaM Unit) (type : LuaValue) (caller line : Str)
    (b : Bot) : respond reg call type caller (some line) b =
      match request reg caller line with
      | .ignored => (.ok (), b)
      | .nameless =>
        (.error (.error "attempt to index local 'cmd' (a nil value)".toList), b)
      | .unlevelled cmd =>
        sayOrPM type (some caller) (some (cmd ++ " lacks an access level!".toList)) b
      | .command handler level params =>
        if Allowed b caller level then call handler type caller (some params) b
        else (.ok (), b) := by
  by_cases own : caller = "MeepBot".toList
  · simp only [respond, request, own, true_or, if_true]
    rfl
  · by_cases mark : line.take 1 = ['!']
    · simp only [respond, request, own, mark, false_or, ne_eq,
        not_true, if_false]
      rcases splitCommand line with _ | ⟨cmd, params⟩
      · rfl
      · simp only
        cases reg.commands.lookup (toLower cmd) with
        | none => rfl
        | some handler =>
          simp only
          cases ((reg.accessLevel.lookup (toLower cmd)).getD .nil).truthy with
          | false => rfl
          | true =>
            simp only [Bool.not_true, Bool.false_eq_true, if_false, if_true]
            rw [bind_ok (hasAccess_eq _ _ b)]
            by_cases allowed : Allowed b caller ((reg.accessLevel.lookup (toLower cmd)).getD .nil)
            · rw [if_pos allowed, decide_eq_true allowed, if_pos rfl]
            · rw [if_neg allowed, decide_eq_false allowed, if_neg Bool.false_ne_true]
              rfl
    · simp only [respond, request, own, mark, false_or, ne_eq,
        not_false_eq_true, if_true]
      rfl

end Scripts
end MeepBot
