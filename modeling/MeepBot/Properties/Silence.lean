import MeepBot.Library.Run
import MeepBot.Effects

/-!
# The disabled bot

While the bot is disabled, an ordinary user gets nothing from it.

* `disabled_silent`: a message from below a moderator leaves the bot exactly as it is.
-/

namespace MeepBot
namespace Properties

open Scripts Effect

/-- The shipped scripts are open and the bot is disabled. -/
def Disabled (b : Bot) : Prop :=
  ∃ l, b.lua = some l ∧ l.registry = shipped ∧ l.responds = true ∧ l.isEnabled = false

theorem shipped_of_disabled {b : Bot} (disabled : Disabled b) : b.Shipped := by
  obtain ⟨l, scripts, registry, responds, -⟩ := disabled
  intro l' same
  rw [scripts] at same
  cases same
  exact ⟨registry, responds⟩

theorem disabled_of_lua {b c : Bot} (same : c.lua = b.lua) (disabled : Disabled b) :
    Disabled c := by
  obtain ⟨l, scripts, rest⟩ := disabled
  exact ⟨l, same.trans scripts, rest⟩

theorem any_isEnabled_of_disabled {b : Bot} (disabled : Disabled b) :
    b.lua.any Lua.isEnabled = false := by
  obtain ⟨l, scripts, -, -, off⟩ := disabled
  rw [scripts]
  exact off

/-- The string neither carries a reload out nor enables the bot. -/
def Leaves [Platform] (b : Bot) (data : Str) : Prop :=
  (∀ type caller, b.asks data = .reload type caller → ¬b.MayReload caller) ∧
  ∀ type caller params, b.asks data ≠ .command type caller .enablebot params

variable [Platform]

/-- Every handler but `enablebot` leaves the bot disabled. -/
theorem run_disabled {b : Bot} (disabled : Disabled b) {c : Command} (other : c ≠ .enablebot)
    (type : LuaValue) (caller params : Str) : Disabled (run c type caller (some params) b).2 := by
  refine run_stores (fun _ _ same kept => disabled_of_lua same.lua kept) c type caller params ?_ b
    disabled
  refine sets_of_changes (fun _ _ _ => id) (fun _ _ => id) (fun value switches b => ?_)
    fun _ _ _ => id
  rintro ⟨l, scripts, registry, responds, -⟩
  -- of the two handlers that set the flag, the other one is left
  have off : value = false := by
    cases c with
    | enablebot => exact absurd rfl other
    | disablebot => exact switches
    | _ => cases switches
  exact ⟨{ l with isEnabled := value }, by rw [scripts]; rfl, registry, responds, off⟩

theorem receive_disabled {b : Bot} (disabled : Disabled b) {data : Str} (leaves : Leaves b data) :
    Disabled (b.receive data) := by
  have does := Bot.receive_does (shipped_of_disabled disabled) data
  cases asked : b.asks data with
  | nothing =>
    rw [asked] at does
    exact disabled_of_lua does.lua disabled
  | join user msg | part user =>
    rw [asked] at does
    rw [show b.receive data = _ from does]
    exact disabled_of_lua rfl disabled
  | reload type caller =>
    rw [asked] at does
    rw [show b.receive data = _ from does, Bot.doReload, Bot.doReloadUnder,
      if_neg (leaves.1 type caller asked)]
    exact disabled
  | command type caller c params =>
    rw [asked] at does
    have other : c ≠ .enablebot := by
      rintro rfl
      exact leaves.2 type caller params asked
    exact disabled_of_lua does.lua (run_disabled disabled other _ caller params)

/-- The dispatcher does nothing for a caller below a moderator. -/
theorem respond_disabled {b : Bot} (disabled : Disabled b) {caller : Str}
    (low : UserDB.getAccessLevel b.users caller < .mod) (type : LuaValue) (line : Str) :
    (Scripts.respond shipped run type caller (some line) b).2 = b ∧
      ∀ name,
        (Scripts.respond shipped run type caller (some line) b).1 ≠ .error (.signal name) := by
  have off := any_isEnabled_of_disabled disabled
  rw [respond_eq]
  cases asked : request shipped caller line with
  | ignored => exact ⟨rfl, fun name => by simp⟩
  | nameless => exact ⟨rfl, fun name => by simp⟩
  | unlevelled cmd =>
    simp only [sayOrPM, isEnabled, query_bind, off, Bool.not_false, if_true, pure_apply]
    exact ⟨trivial, fun name => by simp⟩
  | command c level params =>
    obtain ⟨rank, -, rfl⟩ := command_of_request asked
    -- with the flag off the dispatcher asks for a moderator, whatever the level of the handler
    have denied : ¬Allowed b caller (LuaValue.level rank) := by
      rw [allowed_level_iff]
      rintro ⟨-, high | on⟩
      · exact absurd low (not_lt.mpr high)
      · rw [off] at on
        cases on
    simp only [if_neg denied]
    exact ⟨trivial, fun name => by simp⟩

/-- In every run from a disabled bot that carries out no reload and has no `enablebot` by a
moderator: a message from below a moderator, `!reload` apart, leaves the bot as it is. So no
packet is written, the tables stay as they are, and the bot stays disabled. -/
theorem disabled_silent (b : Bot) (disabled : Disabled b) (before : List Str)
    (along : Run.Along Bot.receive Leaves before b) (data : Str) (p : ChatPacket)
    (type : MessageCode)
    (parsed : ChatPacket.fromString (cstr data) = some p) (code : p.iCode = type.value)
    (message : type = .roomMessage ∨ type = .userPM)
    (low : UserDB.getAccessLevel (Run.run Bot.receive before b).users (cstr p.sUsername) < .mod)
    (line : cstr p.sMessage ≠ "!reload".toList) :
    (Run.run Bot.receive before b).receive data = Run.run Bot.receive before b ∧
      Disabled (Run.run Bot.receive before b) := by
  have reached : Disabled (Run.run Bot.receive before b) :=
    Run.invariant Bot.receive Disabled Leaves
      (fun _ _ disabled leaves => receive_disabled disabled leaves) before b disabled along
  refine ⟨?_, reached⟩
  generalize Run.run Bot.receive before b = c at low reached ⊢
  obtain ⟨l, scripts, registry, responds, -⟩ := id reached
  have quiet : (c.respond type (cstr p.sUsername) (cstr p.sMessage)).2 = c := by
    obtain ⟨same, alive⟩ := respond_disabled reached low (.typeOf type) (cstr p.sMessage)
    rw [Bot.respond, Bot.respondUnder, if_neg line, scripts]
    simp only [responds, if_true, Bot.callRespondUnder, registry, Bot.respond_line]
    split
    next found => rw [found] at same; exact same
    next found => rw [found] at same; exact same
    next name _ found => rw [found] at alive; exact absurd rfl (alive name)
  rw [Bot.receive]
  split
  · rfl
  · rw [Bot.handlePacket_accepted c parsed, Bot.dispatch, Bot.dispatchUnder, code,
      MessageCode.ofCode_value]
    rcases message with rfl | rfl
    · exact quiet
    · exact quiet

omit [Platform]

/-- An operator's roll of dice. -/
theorem disabled_silent_roll : ∃ b : Bot, b.loggedIn = true ∧
    UserDB.getAccessLevel b.users "bob".toList = .op ∧
    @Bot.receive lp64 b "3`bob`!roll 1d6`0`0`0".toList = b := by
  let _ := lp64
  refine ⟨{ Bot.initial ⟨[⟨"bob".toList, none, .op, false, 0, none⟩], by decide⟩ .empty .calm with
    loggedIn := true, lua := some { loaded with isEnabled := false } }, rfl, rfl, ?_⟩
  exact (disabled_silent _ ⟨_, rfl, rfl, rfl, rfl⟩ [] trivial _
    ⟨3, "bob".toList, "!roll 1d6".toList, 0, 0, 0⟩ .roomMessage (by decide) rfl (.inl rfl)
    (by decide) (by decide)).1

end Properties
end MeepBot
