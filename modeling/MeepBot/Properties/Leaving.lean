import MeepBot.Session
import MeepBot.Speech

/-!
# After leaving

Once the bot is logged out, nothing more is to be sent before the next login. Most paths ask
for the flag before they write; the ones that do not are told apart here.

* `silent_after_leaving_iff`: in which runs nothing is sent while logged out.
* `spoken_after_leaving`: a single read after which something is.
-/

namespace MeepBot
namespace Properties

open Scripts Effect

/-- Every packet was passed to the socket by a bot that was logged in, or is a login. -/
def Attended (username password : Str) (b : Bot) : Prop :=
  ∀ w ∈ b.written, w.loggedIn = true ∨ w.packet = .message .userJoin username password

/-- A string that makes a bot that is logged out pass a packet to `Write`. A moderator's handler
speaks first, and writes on although that send may have returned without success; in the shipped
tables none of these handlers has a level, and no chat line calls one. -/
def Blurts [Platform] (b : Bot) (data : Str) : Prop :=
  match ChatPacket.fromString (cstr data) with
  | none => False
  | some p =>
    match MessageCode.ofCode p.iCode with
    | some .userMute | some .clientIdle =>
      p.sUsername = "MeepBot".toList ∧ b.loggedIn = false
    | some .roomMessage | some .userPM =>
      CallsModerator b (cstr p.sUsername) (cstr p.sMessage) ∧
        ¬(b.loggedIn = true ∧ 0 < Socket.write b.world.sends.head)
    | _ => False

/-- The handlers of the moderators have no level in the shipped tables. -/
theorem not_callsModerator {b : Bot} (open_ : b.Shipped) (caller line : Str) :
    ¬CallsModerator b caller line := by
  rintro ⟨-, l, scripts, -, c, level, params, asked, -, moderates⟩
  rw [(open_ l scripts).1] at asked
  obtain ⟨rank, meant, -⟩ := command_of_request asked
  cases c <;> cases moderates <;> cases meant

variable {username password : Str}

/-! ### One write -/

theorem attended_write_iff {b : Bot} (attended : Attended username password b) (p : ChatPacket) :
    Attended username password (b.write p).2 ↔
      b.loggedIn = true ∨ p = .message .userJoin username password := by
  constructor
  · exact fun all => all _ (List.mem_append_right _ (List.mem_singleton_self _))
  · intro allowed w member
    rcases List.mem_append.mp member with old | new
    · exact attended w old
    · rw [List.mem_singleton.mp new]
      exact allowed

/-- Only a login has the code of a login. -/
theorem attended_write_other {b : Bot} (attended : Attended username password b)
    (code : MessageCode) (name msg : Str) (other : code ≠ .userJoin) :
    Attended username password (b.write (.message code name msg)).2 ↔ b.loggedIn = true := by
  rw [attended_write_iff attended]
  refine or_iff_left fun same => other ?_
  have value : code.value = MessageCode.userJoin.value := congrArg ChatPacket.iCode same
  have found := MessageCode.ofCode_value code
  rw [value, MessageCode.ofCode_value] at found
  exact (Option.some.inj found).symm

theorem attended_of_written {b c : Bot} (same : c.written = b.written)
    (attended : Attended username password b) : Attended username password c := by
  rw [Attended, same]
  exact attended

/-- What is said is said while logged in. -/
theorem vocal_attended : Vocal (Attended username password) := by
  -- each of the three asks for the flag first
  refine ⟨fun b str attended => ?_, fun b name msg attended => ?_, fun b attended => ?_, ?_⟩
  · unfold Bot.say
    split
    next => exact attended
    next loud =>
      refine (attended_write_iff attended _).mpr (.inl ?_)
      simp only [Bool.or_eq_true, not_or, Bool.not_eq_true', Bool.not_eq_false] at loud
      exact loud.1
  · unfold Bot.pm
    split
    next => exact attended
    next loud =>
      refine (attended_write_iff attended _).mpr (.inl ?_)
      simp only [Bool.or_eq_true, not_or, Bool.not_eq_true', Bool.not_eq_false] at loud
      exact loud.1
  · unfold Bot.logout
    split
    next loggedIn =>
      exact attended_of_written rfl ((attended_write_iff attended _).mpr (.inl loggedIn))
    next => exact attended_of_written rfl attended
  · exact fun b c attended _ same => attended_of_written same attended

/-- What is said later changes nothing about what was written before. -/
theorem attended_of_say {b : Bot} {str : Str} (attended : Attended username password (b.say str)) :
    Attended username password b := by
  intro w member
  apply attended w
  rcases b.written_say str with same | ⟨v, added⟩
  · rwa [same]
  · rw [added]
    exact List.mem_append_left _ member

/-- The login that is left after something has been said. -/
theorem loggedIn_say {b : Bot} {text : Str} (some : text ≠ []) :
    (b.say text).loggedIn = true ↔
      b.loggedIn = true ∧ 0 < Socket.write b.world.sends.head := by
  cases loggedIn : b.loggedIn with
  | false => simp [Bot.say_of_loggedOut loggedIn, loggedIn]
  | true => simp [Bot.say, Bot.write, loggedIn, some]

/-! ### The moderator's handlers -/

section
variable [Platform]

/-- They say something, and then write whatever came of that. -/
theorem run_moderates {c : Command} (moderates : Moderates c) (type : LuaValue)
    (caller params : Str) (b : Bot) : ∃ text target code, text ≠ [] ∧ code ≠ .userJoin ∧
      run c type caller (some params) b =
        (.ok (), ((b.say text).write (.message code blank target)).2) := by
  cases c with
  | kick | disable | mute => exact ⟨_, _, _, by simp, by decide, rfl⟩
  | ban | unban | unmute => exact ⟨_, _, _, by simp, by decide, rfl⟩
  | _ => cases moderates

theorem respond_moderator {b : Bot} {caller line : Str} (calls : CallsModerator b caller line)
    (type : MessageCode) : ∃ text target code, text ≠ [] ∧ code ≠ .userJoin ∧
      (b.respond type caller line).2 =
        ((b.say text).write (.message code blank target)).2 := by
  obtain ⟨chat, l, scripts, responds, c, level, params, asked, allowed, moderates⟩ := calls
  obtain ⟨text, target, code, some, other, ran⟩ :=
    run_moderates moderates (.typeOf type) caller params b
  refine ⟨text, target, code, some, other, ?_⟩
  have called : b.callRespond l type caller line =
      (true, ((b.say text).write (.message code blank target)).2) := by
    rw [Bot.callRespond, Bot.callRespondUnder, Bot.respond_line, respond_eq, asked]
    simp only [if_pos allowed, ran]
  rw [Bot.respond, Bot.respondUnder, if_neg chat, Option.mem_def.mp scripts]
  simp only [responds, if_true, Bot.callRespondUnder_zero, called]

theorem attended_respond_iff {b : Bot} (attended : Attended username password b)
    (type : MessageCode) (caller line : Str) :
    Attended username password (b.respond type caller line).2 ↔
      ¬(CallsModerator b caller line ∧
        ¬(b.loggedIn = true ∧ 0 < Socket.write b.world.sends.head)) := by
  by_cases calls : CallsModerator b caller line
  · -- the send of the text decides on the login that is left for the action
    obtain ⟨text, target, code, some, other, result⟩ := respond_moderator calls type
    have said := vocal_attended.say b text attended
    rw [result, attended_write_other said code _ _ other, loggedIn_say some]
    simp [calls]
  · exact iff_of_true (vocal_attended.respond b type caller line calls attended)
      fun both => calls both.1

/-! ### One string -/

theorem attended_handlePacket_iff {b : Bot} (attended : Attended username password b)
    (data : Str) : Attended username password (b.handlePacket data) ↔ ¬Blurts b data := by
  unfold Blurts
  cases parsed : ChatPacket.fromString (cstr data) with
  | none =>
    rw [Bot.handlePacket_rejected b parsed]
    exact iff_of_true attended not_false
  | some p =>
    rw [Bot.handlePacket_accepted b parsed]
    simp only
    unfold Bot.dispatch Bot.dispatchUnder
    cases MessageCode.ofCode p.iCode with
    | none => exact iff_of_true attended not_false
    | some m =>
      -- the codes whose branch speaks at most, and the two that write by themselves
      cases m with
      | userList | userJoin =>
        exact iff_of_true (vocal_attended.join b _ _ attended) not_false
      | userPart | userKick | userDisable | userBan | idleKick =>
        exact iff_of_true (attended_of_written rfl attended) not_false
      | userMute =>
        by_cases own : p.sUsername = "MeepBot".toList
        · simp only [own, if_true, true_and, Bool.not_eq_false]
          -- what is said behind the write takes nothing back
          rw [← attended_write_other attended .userUnmute blank "MeepBot".toList (by decide)]
          exact ⟨attended_of_say, vocal_attended.say _ _⟩
        · simp only [own, if_false, false_and, not_false_eq_true, iff_true]
          exact attended
      | clientIdle =>
        by_cases own : p.sUsername = "MeepBot".toList
        · simp only [own, if_true, true_and, Bool.not_eq_false]
          exact attended_write_other attended .clientBack blank blank (by decide)
        · simp only [own, if_false, false_and, not_false_eq_true, iff_true]
          exact attended
      | roomMessage => exact attended_respond_iff attended .roomMessage _ _
      | userPM => exact attended_respond_iff attended .userPM _ _
      | _ => exact iff_of_true attended not_false

end

/-! ### Runs -/

theorem attended_read {c : Client} (attended : Attended username password c.toBot)
    (o : RecvOutcome) : Attended username password (c.read o).2.toBot := by
  refine attended_of_written ?_ attended
  simp only [Client.read]
  split <;> rfl

theorem attended_leave {m : Machine} {c : Client} (attended : Attended username password c.toBot) :
    Attended username password (m.leave c).client.toBot :=
  attended_of_written rfl (vocal_attended.logout c.toBot attended)

variable [Platform]

/-- `Login` writes itself, and then as a bot that is logged in. -/
theorem attended_login {c : Client} (attended : Attended username password c.toBot)
    (o : RecvOutcome) :
    Attended username password (c.login username password o).2.toBot := by
  have joined := (attended_write_iff attended (.message .userJoin username password)).mpr (.inr rfl)
  unfold Client.login
  simp only
  split
  · have after := attended_read (c := ⟨_, c.readBuffer⟩) joined o
    split
    · split
      · -- a login that is granted asks for the list of users
        have entered :=
          attended_of_written (c := { Client.toBot _ with loggedIn := true }) rfl after
        exact (attended_write_iff entered _).mpr (.inl rfl)
      · exact after
    · exact after
  · exact joined

/-- The next string of a batch is no blurter. -/
def Heeds (m : Machine) (_ : Input) : Prop :=
  ¬m.client.halted = true → ∀ data rest, m.control = .batch (data :: rest) →
    ¬Blurts m.client.toBot data

theorem attended_step {m : Machine} (attended : Attended username password m.client.toBot)
    (i : Input) :
    Attended username password (Machine.step username password m i).client.toBot ↔ Heeds m i := by
  unfold Machine.step Heeds
  by_cases halted : m.client.halted = true
  · rw [if_pos halted]
    exact iff_of_true attended fun running => absurd halted running
  rw [if_neg halted]
  -- only the handling of a string can go wrong
  cases control : m.control with
  | idle => exact iff_of_true (attended_of_written rfl attended) (by simp)
  | joining => exact iff_of_true (attended_login attended i.recv) (by simp)
  | loop =>
    refine iff_of_true ?_ (by simp)
    have read := attended_read attended i.recv
    simp only
    split
    · split
      · exact attended_leave (attended_of_written rfl read)
      · exact read
    · exact attended_leave attended
  | batch rest =>
    cases rest with
    | nil => exact iff_of_true attended (by simp)
    | cons data rest =>
      apply (attended_handlePacket_iff attended data).trans
      simp [halted]

/-- In every run of `main`, whatever the reads are made of: no packet but a login is ever sent
while logged out if and only if no string of a batch makes the bot blurt one out. -/
theorem silent_after_leaving_iff (username password : Str) (users : UserTable)
    (quotes : QuotesTable) (world : World) (lua : Option Lua) (readBuffer : ReadBuffer)
    (inputs : List Input) :
    (∀ earlier, earlier <+: inputs → Attended username password (Machine.run username password
      earlier (Machine.booted users quotes world lua readBuffer)).client.toBot) ↔
      Run.Along (Machine.step username password) Heeds inputs
        (Machine.booted users quotes world lua readBuffer) := by
  have initial : Attended username password
      (Machine.booted users quotes world lua readBuffer).client.toBot := fun w none => by cases none
  exact Run.invariant_iff (Machine.step username password)
    (fun m => Attended username password m.client.toBot) Heeds (fun _ => True)
    (fun _ _ _ _ _ => trivial) (fun m i _ attended => attended_step attended i) inputs _ trivial
    initial

omit [Platform]

/-- The bot is told that it has left, and then that it has been muted. -/
def parting : List Input :=
  let connects (o : RecvOutcome) : Input := ⟨.connected 3, o⟩
  let grant := connects (.data "100`_`_`0`0`0\n".toList)
  [grant, grant, connects (.data "2`MeepBot`_`0`0`0\n10`MeepBot`_`0`0`0\n".toList), grant, grant]

/-- It objects to being muted where it is no more. -/
theorem spoken_after_leaving :
    ¬Attended "MeepBot".toList "secret".toList
      (@Machine.run lp64 "MeepBot".toList "secret".toList parting
        (.booted .empty .empty .calm none .zero)).client.toBot := by
  intro attended
  have objects : ∃ w ∈ (@Machine.run lp64 "MeepBot".toList "secret".toList parting
      (.booted .empty .empty .calm none .zero)).client.written,
      w.loggedIn = false ∧ w.packet = .message .userUnmute blank "MeepBot".toList := by
    decide +kernel
  obtain ⟨w, member, out, unmutes⟩ := objects
  rcases attended w member with logged | joins
  · rw [out] at logged
    cases logged
  · rw [unmutes] at joins
    revert joins
    decide

end Properties
end MeepBot
