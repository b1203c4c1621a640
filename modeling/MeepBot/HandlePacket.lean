import MeepBot.PacketUtil
import MeepBot.Scripts.Shipped

/-!
# HandlePacket

The switch over the code of a packet, and below it the way a chat line takes: `!reload`, the
replies where the scripts are broken, and `Respond` of the scripts. What a signal of the processor
does on the way depends on `exit_lock`, so each function has a form for any value of the lock, and
its own name for the lock that is down.
-/

namespace MeepBot
namespace Bot

/-! ### Scripts -/

/-- A signal of the processor: the instruction that has raised it is run again after `clean_exit`,
which exits at once where the lock is up. -/
def fault (exitLock : Nat) (b : Bot) (signal : Str) : Bot :=
  if 0 < exitLock then { b with halted := true } else b.crash signal

/-- `ReloadLua`: whether it succeeds, with the error text where it does not. Where the
directory cannot be read there is no error text, and the null pointer read in its place ends
the process; this is the result `none`. -/
def reloadLuaUnder (exitLock : Nat) (b : Bot) : Option (Except Str Unit) × Bot :=
  let outcome := b.world.reloads.head.1
  -- `CloseLua` comes first, so that a failure leaves the bot without scripts
  let b := { b with lua := none, world := { b.world with reloads := b.world.reloads.tail } }
  match outcome with
  | .ran => (some (.ok ()), { b with lua := some Scripts.loaded })
  | .failed err => (some (.error err), b)
  | .unreadable => (none, b.fault exitLock "Segmentation fault".toList)

def reloadLua (b : Bot) : Option (Except Str Unit) × Bot := b.reloadLuaUnder 0

/-- Reply in private to a private message, and in the room to any other. -/
def reply (b : Bot) (type : MessageCode) (caller text : Str) : Bot :=
  if type = .userPM then b.pm caller text else b.say text

/-- Whether `DoReload` goes ahead for a caller. -/
def MayReload (b : Bot) (caller : Str) : Prop :=
  .admin ≤ UserDB.getAccessLevel b.users caller ∨
    StringUtil.compareNoCase caller "Fire_Adept".toList 0 = 0

instance (b : Bot) (caller : Str) : Decidable (b.MayReload caller) :=
  inferInstanceAs (Decidable (_ ∨ _))

/-- The last line of a reload. The error text is told in private only. -/
def reloadReply (type : MessageCode) (usec : Nat) : Except Str Unit → Str
  | .ok () =>
    StringUtil.format ("...done. (took ".toList ++ decimal usec ++ " usec)".toList)
  | .error err =>
    "...failed :(".toList ++ if type = .userPM then " (".toList ++ cstr err ++ ")".toList else []

def doReloadUnder (exitLock : Nat) (b : Bot) (type : MessageCode) (caller : Str) : Bool × Bot :=
  if b.MayReload caller then
    let b := b.reply type caller "Reloading Lua scripts...".toList
    -- the time is taken around the reload, after the announcement
    let usec := b.world.reloads.head.2
    match b.reloadLuaUnder exitLock with
    | (some ret, b) => (ret.isOk, b.reply type caller (reloadReply type usec ret))
    | (none, b) => (false, b)
  else (false, b)

def doReload (b : Bot) (type : MessageCode) (caller : Str) : Bool × Bot :=
  b.doReloadUnder 0 type caller

section
variable [Platform]

/-- The scripts' `Respond`, called in protected mode. -/
def callRespondUnder (exitLock : Nat) (b : Bot) (l : Lua) (type : MessageCode) (user line : Str) :
    Bool × Bot :=
  match Scripts.respond l.registry Scripts.run (.typeOf type) user
    (if line.length = 0 then none else some line) b with
  | (.ok (), b) => (true, b)
  -- `lua_pcall` reports the error, and what was done before it stays done
  | (.error (.error _), b) => (false, b)
  | (.error (.signal name), b) => (false, b.fault exitLock name)

def callRespond (b : Bot) (l : Lua) (type : MessageCode) (user line : Str) : Bool × Bot :=
  b.callRespondUnder 0 l type user line

/-- `MeepBot_LuaBindings::Respond` -/
def respondUnder (exitLock : Nat) (b : Bot) (type : MessageCode) (user line : Str) : Bool × Bot :=
  -- in front of the test for scripts, so that a broken bot can be repaired
  if line = "!reload".toList then b.doReloadUnder exitLock type user
  else match b.lua with
    | none =>
      -- a reply to oneself would be a feedback loop
      if line.take 1 = ['!'] ∧ user ≠ "MeepBot".toList then
        (false, b.say "The Lua broke :( Please fix it and !reload".toList)
      else (false, b)
    | some l =>
      if l.responds then b.callRespondUnder exitLock l type user line
      else
        (false, { b.say "Ph'nglui mglw'nafh Cthulhu R'lyeh wgah'nagl fh'tagn! I'a! I'a!".toList with
          lua := none })

def respond (b : Bot) (type : MessageCode) (user line : Str) : Bool × Bot :=
  b.respondUnder 0 type user line

end

/-! ### The switch -/

/-- `DEFAULT_ACCESS_LEVEL` -/
def defaultAccessLevel : AccessLevel := .op

def adminRanks : Str := "AC".toList

def modRanks : Str := "cbf!".toList

/-- The rank of a user by the character behind the first bar of the message, or by the first
character of a message without a bar. -/
def rankOf (msg : Str) : AccessLevel :=
  -- `npos + 1` is 0, and the position is cut to an `unsigned`
  let pos := match StringUtil.findFirstOf msg '|' (some 0) with
    | some bar => (bar + 1) % 2 ^ 32
    | none => 0
  let mark := msg.getD pos '\x00'
  -- the loop over the moderators' marks runs last, and would win
  let level := if mark ∈ adminRanks then .admin else defaultAccessLevel
  if mark ∈ modRanks then .mod else level

/-- What is said once the user list is complete. -/
def greeting (numUsers : Nat) : Str :=
  match numUsers with
  | 1 => "... :(".toList
  | 2 => "Greetings, Mortal.".toList
  | _ => "Greetings, Mortals.".toList

/-- A user who is in the room: greetings for the blank name, a new row for any other. -/
def join (b : Bot) (user msg : Str) : Bot :=
  -- the entry that ends the list sent at the login has no name
  if user = blank then b.say (greeting b.userList.getNumUsers)
  else
    { b with
      userList := b.userList.add user
      users := UserDB.addUser b.users (cstr user) (rankOf msg) }

/-- A user who is not in the room any more. -/
def part (b : Bot) (user : Str) : Bot :=
  { b with
    loggedIn := b.loggedIn && decide (user ≠ "MeepBot".toList)
    userList := b.userList.remove user }

variable [Platform]

/-- The switch of `HandlePacket`. -/
def dispatchUnder (exitLock : Nat) (b : Bot) (packet : ChatPacket) : Bot :=
  let user := packet.sUsername
  let msg := packet.sMessage
  match MessageCode.ofCode packet.iCode with
  | some .userList | some .userJoin => b.join user msg
  | some .userPart | some .userKick | some .userDisable | some .userBan | some .idleKick =>
    b.part user
  -- unlike what is said about it, the answer to a mute is sent without asking for the login
  | some .userMute =>
    if user = "MeepBot".toList then
      (b.write (.message .userUnmute blank "MeepBot".toList)).2.say
        "Muting MeepBot is mean :(".toList
    else b
  | some .roomMessage => (b.respondUnder exitLock .roomMessage (cstr user) (cstr msg)).2
  | some .userPM => (b.respondUnder exitLock .userPM (cstr user) (cstr msg)).2
  | some .clientIdle =>
    if user = "MeepBot".toList then (b.write (.ofCode .clientBack)).2 else b
  -- ignored, or only printed
  | _ => b

def dispatch (b : Bot) (packet : ChatPacket) : Bot := b.dispatchUnder 0 packet

def handlePacketUnder (exitLock : Nat) (b : Bot) (data : Str) : Bot :=
  b.dispatchUnder exitLock (ChatPacket.ofString (cstr data))

def handlePacket (b : Bot) (data : Str) : Bot := b.handlePacketUnder 0 data

/-- The next packet of a bot whose process is still there. -/
def receive (b : Bot) (data : Str) : Bot := if b.halted then b else b.handlePacket data

/-! ### The lock that is down -/

omit [Platform] in
theorem fault_zero (b : Bot) (signal : Str) : b.fault 0 signal = b.crash signal := rfl

omit [Platform] in
theorem reloadLuaUnder_zero (b : Bot) : b.reloadLuaUnder 0 = b.reloadLua := rfl

theorem callRespondUnder_zero (b : Bot) (l : Lua) (type : MessageCode) (user line : Str) :
    b.callRespondUnder 0 l type user line = b.callRespond l type user line := rfl

theorem handlePacketUnder_zero (b : Bot) (data : Str) :
    b.handlePacketUnder 0 data = b.handlePacket data := rfl

/-! ### Packets -/

/-- A rejected string does nothing. -/
theorem handlePacket_rejected (b : Bot) {data : Str}
    (rejected : ChatPacket.fromString (cstr data) = none) : b.handlePacket data = b := by
  rw [handlePacket, handlePacketUnder, ChatPacket.ofString, rejected]
  rfl

theorem handlePacket_accepted (b : Bot) {data : Str} {p : ChatPacket}
    (accepted : ChatPacket.fromString (cstr data) = some p) :
    b.handlePacket data = b.dispatch p := by
  rw [handlePacket, handlePacketUnder, ChatPacket.ofString, accepted]
  rfl

/-- A user with a name gets into the list, and into the table unless there already. -/
theorem dispatch_join (b : Bot) {p : ChatPacket}
    (code : p.iCode = MessageCode.userList.value ∨ p.iCode = MessageCode.userJoin.value)
    (named : p.sUsername ≠ blank) :
    b.dispatch p = { b with
      userList := b.userList.add p.sUsername
      users := UserDB.addUser b.users (cstr p.sUsername) (rankOf p.sMessage) } := by
  rcases code with code | code <;>
    simp only [dispatch, dispatchUnder, code, MessageCode.ofCode_value, join, if_neg named]

/-! ### What the switch comes to -/

/-- A user is in the room. -/
def joining : List MessageCode := [.userList, .userJoin]

/-- A user is not in the room any more. -/
def removing : List MessageCode := [.userPart, .userKick, .userDisable, .userBan, .idleKick]

/-- A line for the scripts. -/
def chatting : List MessageCode := [.roomMessage, .userPM]

/-- The effect of a packet, by the groups of codes that share one. -/
inductive Dispatched (b : Bot) (p : ChatPacket) : Bot → Prop where
  | join (code : p.Bears joining) : Dispatched b p (b.join p.sUsername p.sMessage)
  | part (code : p.Bears removing) : Dispatched b p (b.part p.sUsername)
  | muted (code : p.iCode = MessageCode.userMute.value) (own : p.sUsername = "MeepBot".toList) :
      Dispatched b p ((b.write (.message .userUnmute blank "MeepBot".toList)).2.say
        "Muting MeepBot is mean :(".toList)
  | idle (code : p.iCode = MessageCode.clientIdle.value) (own : p.sUsername = "MeepBot".toList) :
      Dispatched b p (b.write (.ofCode .clientBack)).2
  | chat {type : MessageCode} (code : p.iCode = type.value) (line : type ∈ chatting) :
      Dispatched b p (b.respond type (cstr p.sUsername) (cstr p.sMessage)).2
  | ignored (stays : ¬p.Bears removing) : Dispatched b p b

theorem dispatch_cases (b : Bot) (p : ChatPacket) : Dispatched b p (b.dispatch p) := by
  unfold dispatch dispatchUnder
  cases found : MessageCode.ofCode p.iCode with
  | none =>
    apply Dispatched.ignored
    rintro ⟨m, -, value⟩
    rw [value, MessageCode.ofCode_value] at found
    cases found
  | some m =>
    have code := MessageCode.value_of_ofCode found
    have bears := ChatPacket.bears_iff code
    cases m with
    | userList | userJoin => exact .join ((bears _).mpr (by decide))
    | userPart | userKick | userDisable | userBan | idleKick =>
      exact .part ((bears _).mpr (by decide))
    | userMute =>
      by_cases own : p.sUsername = "MeepBot".toList
      · simp only [if_pos own]
        exact .muted code own
      · simp only [if_neg own]
        exact .ignored ((bears _).not.mpr (by decide))
    | clientIdle =>
      by_cases own : p.sUsername = "MeepBot".toList
      · simp only [if_pos own]
        exact .idle code own
      · simp only [if_neg own]
        exact .ignored ((bears _).not.mpr (by decide))
    | roomMessage | userPM => exact .chat code (by decide)
    | _ => exact .ignored ((bears _).not.mpr (by decide))

end Bot
end MeepBot
