import MeepBot.Speech

/-!
# Echoes

What the bot says in the room comes back to it under its own name. An answer to that would be
a feedback loop.

* `echo_silent_iff`: which messages of its own the bot answers after all.
* `echo_answered`: one it answers.
-/

namespace MeepBot
namespace Properties

open Scripts Effect

/-- The paths of `Respond` that are taken before anyone asks who is speaking: a reload, if the
row of the bot admits one, and scripts without a function to call. -/
def Answers (b : Bot) (line : Str) : Prop :=
  b.loggedIn = true ∧
    if line = "!reload".toList then .admin ≤ UserDB.getAccessLevel b.users "MeepBot".toList
    else ∃ l ∈ b.lua, l.responds = false

/-! ### Counting what is written -/

/-- Nothing that is written is taken back. -/
theorem vocal_longer (n : Nat) : Vocal fun b => n < b.written.length := by
  have grows {before after : List Written} (longer : n < before.length)
      (added : after = before ∨ ∃ w, after = before ++ [w]) : n < after.length := by
    rcases added with rfl | ⟨w, rfl⟩
    · exact longer
    · rw [List.length_append]
      exact Nat.lt_add_right _ longer
  refine ⟨fun b str longer => ?_, fun b name msg longer => ?_, fun b longer => ?_, ?_⟩
  · exact grows longer (Bot.written_say b str)
  · exact grows longer (Bot.written_pm b name msg)
  · exact grows longer (Bot.written_logout b)
  · intro b c longer _ same
    rw [same]
    exact longer

/-- Who is logged out speaks to nobody. -/
theorem vocal_silent (written : List Written) :
    Vocal fun b => b.loggedIn = false ∧ b.written = written := by
  refine ⟨fun b str silent => ?_, fun b name msg silent => ?_, fun b silent => ?_, ?_⟩
  · rw [Bot.say_of_loggedOut silent.1]
    exact silent
  · rw [Bot.pm_of_loggedOut silent.1]
    exact silent
  · simp only [Bot.logout, silent.1, Bool.false_eq_true, if_false]
    exact ⟨trivial, silent.2⟩
  · intro b c silent login same
    exact ⟨login.trans silent.1, same.trans silent.2⟩

/-! ### The bot's own messages -/

theorem mayReload_own (b : Bot) : b.MayReload "MeepBot".toList ↔
    .admin ≤ UserDB.getAccessLevel b.users "MeepBot".toList := by
  have other : StringUtil.compareNoCase "MeepBot".toList "Fire_Adept".toList 0 ≠ 0 := by decide
  rw [Bot.MayReload]
  exact or_iff_left other

theorem reply_written {b : Bot} (loggedIn : b.loggedIn = true) (type : MessageCode)
    (caller : Str) {text : Str} (some : text ≠ []) :
    (b.reply type caller text).written.length = b.written.length + 1 := by
  unfold Bot.reply
  split
  · simp [Bot.pm, loggedIn, some, Bot.write]
  · simp [Bot.say, loggedIn, some, Bot.write]

/-- A reload that goes ahead is announced. -/
theorem doReload_written_iff (b : Bot) (type : MessageCode) :
    (b.doReload type "MeepBot".toList).2.written = b.written ↔
      ¬(b.loggedIn = true ∧ .admin ≤ UserDB.getAccessLevel b.users "MeepBot".toList) := by
  by_cases may : b.MayReload "MeepBot".toList
  swap
  · -- refused without a word
    rw [Bot.doReload, Bot.doReloadUnder, if_neg may]
    exact iff_of_true rfl fun both => may ((mayReload_own b).mpr both.2)
  cases loggedIn : b.loggedIn with
  | false =>
    have silent := (vocal_silent b.written).doReload type "MeepBot".toList b ⟨loggedIn, rfl⟩
    exact iff_of_true silent.2 (by simp)
  | true =>
    -- the announcement is written already, and whatever follows only adds to it
    have announced : b.written.length <
        (b.reply type "MeepBot".toList "Reloading Lua scripts...".toList).written.length := by
      rw [reply_written loggedIn type _ (by decide)]
      exact Nat.lt_succ_self _
    have longer := (vocal_longer b.written.length).announced may announced
    refine iff_of_false (fun same => ?_) (not_not.mpr ⟨rfl, (mayReload_own b).mp may⟩)
    rw [same] at longer
    exact Nat.lt_irrefl _ longer

variable [Platform]

/-- The scripts, and the text where they cannot be opened, leave the bot's own name alone. -/
theorem respond_written_iff (b : Bot) (type : MessageCode) (line : Str) :
    (b.respond type "MeepBot".toList line).2.written = b.written ↔ ¬Answers b line := by
  unfold Answers Bot.respond Bot.respondUnder
  by_cases reload : line = "!reload".toList
  · rw [if_pos reload, if_pos reload]
    exact doReload_written_iff b type
  rw [if_neg reload, if_neg reload]
  -- the branches that do ask who is speaking write nothing
  cases scripts : b.lua with
  | none =>
    have own : ¬(line.take 1 = ['!'] ∧ "MeepBot".toList ≠ "MeepBot".toList) := fun h => h.2 rfl
    simp only [if_neg own]
    exact iff_of_true trivial fun answers => by simp at answers
  | some l =>
    cases responds : l.responds with
    | true =>
      have ignored : request l.registry "MeepBot".toList line = .ignored := by
        rw [request, if_pos (.inl rfl)]
      have quiet : b.callRespond l type "MeepBot".toList line = (true, b) := by
        rw [Bot.callRespond, Bot.callRespondUnder, Bot.respond_line, respond_eq, ignored]
      simp only [responds, if_true, Bot.callRespondUnder_zero, quiet]
      exact iff_of_true trivial fun answers => by simp [responds] at answers
    | false =>
      -- here the bot complains, whoever has spoken, if it is logged in
      cases loggedIn : b.loggedIn with
      | false =>
        simp only [responds, Bool.false_eq_true, if_false, Bot.say_of_loggedOut loggedIn]
        exact iff_of_true trivial fun answers => by simp at answers
      | true =>
        refine iff_of_false ?_ (not_not.mpr ⟨rfl, l, rfl, responds⟩)
        simp [Bot.say, Bot.write, loggedIn, responds]

/-- A message from the bot itself makes it write nothing, in whatever state, if and only if it
is logged in and the message is a reload its own row admits, or meets scripts without a
function to call. -/
theorem echo_silent_iff (b : Bot) (p : ChatPacket) (own : p.sUsername = "MeepBot".toList)
    (message : p.iCode = MessageCode.roomMessage.value ∨ p.iCode = MessageCode.userPM.value) :
    (b.dispatch p).written = b.written ↔ ¬Answers b (cstr p.sMessage) := by
  have name : cstr p.sUsername = "MeepBot".toList := by rw [own]; decide
  rcases message with code | code
  · simp only [Bot.dispatch, Bot.dispatchUnder, code, MessageCode.ofCode_value, name]
    exact respond_written_iff b .roomMessage _
  · simp only [Bot.dispatch, Bot.dispatchUnder, code, MessageCode.ofCode_value, name]
    exact respond_written_iff b .userPM _

omit [Platform]

/-- A bot that is listed as an administrator, and its scripts. -/
def administrator : Bot :=
  { Bot.initial ⟨[⟨"MeepBot".toList, none, .admin, false, 0, none⟩], by decide⟩ .empty .calm with
    loggedIn := true
    lua := some loaded }

/-- It does not answer its own `!roll`. -/
theorem echo_silent_roll :
    (@Bot.dispatch lp64 administrator ⟨3, "MeepBot".toList, "!roll".toList, 0, 0, 0⟩).written =
      administrator.written :=
  (@echo_silent_iff lp64 administrator ⟨3, "MeepBot".toList, "!roll".toList, 0, 0, 0⟩ rfl
    (.inl rfl)).mpr (by
      rintro ⟨-, answers⟩
      rw [if_neg (by decide)] at answers
      obtain ⟨l, ⟨⟩, responds⟩ := answers
      cases responds)

/-- It answers its own `!reload`, as it is made to say by `!say !reload`. -/
theorem echo_answered : ∃ (b : Bot) (p : ChatPacket), p.sUsername = "MeepBot".toList ∧
    p.iCode = MessageCode.roomMessage.value ∧ (@Bot.dispatch lp64 b p).written ≠ b.written := by
  refine ⟨administrator, ⟨3, "MeepBot".toList, "!reload".toList, 0, 0, 0⟩, rfl, rfl, ?_⟩
  have answers : Answers administrator "!reload".toList := ⟨rfl, by rw [if_pos rfl]; decide⟩
  exact fun same => (@respond_written_iff lp64 administrator .roomMessage "!reload".toList).mp same
    answers

end Properties
end MeepBot
