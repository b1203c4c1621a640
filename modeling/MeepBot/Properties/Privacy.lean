import MeepBot.Scripts.Commands

/-!
# Privacy

What a caller below a moderator learns from `checkwarnings`.

* `warnings_private`: the answer is the same in all states with the same row for the caller, and
  goes to nobody else.
-/

namespace MeepBot
namespace Properties

open Effect Scripts UserDB

/-- Two bots with the same row for a user, and the same two flags. Every other row, and the list
of users, may differ. -/
structure Alike (user : Str) (b c : Bot) : Prop where
  row : rowOf b.users user = rowOf c.users user
  enabled : b.lua.any Lua.isEnabled = c.lua.any Lua.isEnabled
  loggedIn : b.loggedIn = c.loggedIn

/-- What somebody below a moderator is told about the own warnings. -/
def ownReport (caller : Str) (warnings : Int) : Str :=
  if warnings < 0 then "User ".toList ++ caller ++ " not found!".toList
  else caller ++ " has ".toList ++ decimalInt warnings ++ "/".toList ++
    decimalInt maxWarnings ++ " warnings.".toList

/-- The argument and the type of the message are replaced, so neither of them matters; and "me"
is resolved to the caller in every list. -/
theorem checkwarnings_low {b : Bot} {caller : Str} (low : getAccessLevel b.users caller < .mod)
    (type : LuaValue) (params : Option Str) :
    checkwarnings type caller params b =
      sayOrPM .typePM (some caller)
        (some (ownReport caller (getWarnings b.users caller))) b := by
  have me : b.userList.resolve caller "me".toList = caller :=
    if_pos ((UserList.isMe_iff _).mpr (by decide))
  simp only [checkwarnings, LuaBindings.getAccessLevel, query_bind, if_pos low, tellWarnings,
    LuaBindings.resolveParams, me, LuaBindings.getWarnings, ownReport]

/-- A private answer: nothing while the bot is disabled or logged out, or else one packet. -/
theorem written_sayOrPM (caller text : Str) (b : Bot) :
    (sayOrPM .typePM (some caller) (some text) b).2.written.map Written.packet =
      b.written.map Written.packet ++
        if b.lua.any Lua.isEnabled = true ∧ b.loggedIn = true ∧ text ≠ [] then
          [.message .userPM caller text] else [] := by
  simp only [sayOrPM, isEnabled, query_bind]
  cases b.lua.any Lua.isEnabled with
  | false => simp
  | true =>
    cases loggedIn : b.loggedIn with
    | false => simp [LuaBindings.pm, Bot.pm, loggedIn]
    | true =>
      by_cases empty : text = []
      · simp [LuaBindings.pm, Bot.pm, empty]
      · simp [LuaBindings.pm, Bot.pm, loggedIn, empty, Bot.write]

/-- For every two bots that only differ in what is not the caller's, every type of message and
every argument, in either of them: a caller below a moderator makes both write the same packets
behind those written before, and all of them are private messages to the caller. -/
theorem warnings_private (b c : Bot) (caller : Str) (alike : Alike caller b c)
    (low : getAccessLevel b.users caller < .mod) (type type' : LuaValue)
    (params params' : Option Str) :
    ∃ packets : List ChatPacket,
      (checkwarnings type caller params b).2.written.map Written.packet =
        b.written.map Written.packet ++ packets ∧
      (checkwarnings type' caller params' c).2.written.map Written.packet =
        c.written.map Written.packet ++ packets ∧
      ∀ p ∈ packets, ∃ msg, p = .message .userPM caller msg := by
  -- level and warnings are read from the caller's own row
  have entry : getUserEntry b.users caller = getUserEntry c.users caller := by
    rw [getUserEntry, getUserEntry, alike.row]
  have level : getAccessLevel b.users caller = getAccessLevel c.users caller := by
    rw [getAccessLevel, getAccessLevel, entry]
  have warnings : getWarnings b.users caller = getWarnings c.users caller := by
    rw [getWarnings, getWarnings, entry]
  rw [checkwarnings_low low, checkwarnings_low (level ▸ low), written_sayOrPM, written_sayOrPM,
    ← warnings, ← alike.enabled, ← alike.loggedIn]
  refine ⟨_, rfl, rfl, fun p member => ?_⟩
  split at member
  · exact ⟨_, List.mem_singleton.mp member⟩
  · cases member

/-- An operator asks about somebody else, who has been warned in one state and is not known in
the other. -/
theorem warnings_private_op : ∃ (packets : List ChatPacket) (b c : Bot),
    getWarnings b.users "Mia".toList = 2 ∧ getWarnings c.users "Mia".toList = -1 ∧
    (checkwarnings .typePM "bob".toList (some "Mia".toList) b).2.written.map Written.packet =
      packets ∧
    (checkwarnings .typePM "bob".toList (some "Mia".toList) c).2.written.map Written.packet =
      packets := by
  let warned : UserTable :=
    ⟨[newRow "bob".toList .op, ⟨"Mia".toList, none, .op, false, 2, none⟩], by decide⟩
  let b : Bot := { Bot.initial warned .empty .calm with
    loggedIn := true, lua := some ⟨true, true, .empty⟩ }
  let c : Bot := { b with users := ⟨[newRow "bob".toList .op], by decide⟩ }
  obtain ⟨packets, first, second, -⟩ := warnings_private b c "bob".toList ⟨by decide, rfl, rfl⟩
    (by decide) .typePM .typePM (some "Mia".toList) (some "Mia".toList)
  exact ⟨packets, b, c, by decide, by decide, first, second⟩

end Properties
end MeepBot
