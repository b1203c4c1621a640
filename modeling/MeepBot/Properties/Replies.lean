import MeepBot.Utterances
import MeepBot.Properties.Changes

/-!
# Replies

Where the bot's words go, and what they leave behind.

* `memory_unmoved`: in every run, what becomes of the packets that are written changes neither the
  tables, the lists and the scripts nor what the bot tries to say.
* `reply_private`: a private message is answered in private.
-/

namespace MeepBot
namespace Properties

open Scripts Effect Output

variable [Platform]

/-! ### The connection leaves no trace -/

/-- Two bots that remember the same, whatever the sends of what they write return: every sequence
of strings leaves them with the same memory again, and makes both try to say the same things in the
same order. -/
theorem memory_unmoved (b c : Bot) (same : b.view = c.view) (datas : List Str) :
    ∃ (memory : View) (said : List Utterance),
      Run.run Bot.receive datas b = said.foldl (fun b u => b.utter u) (b.put memory) ∧
      Run.run Bot.receive datas c = said.foldl (fun c u => c.utter u) (c.put memory) := by
  obtain ⟨memory, said, -, works⟩ := Steps.run Bot.receive_steps datas b.view
  exact ⟨memory, said, works b rfl, works c same.symm⟩

omit [Platform] in
/-- A bot whose third packet fails, and one that was never logged in. -/
theorem memory_unmoved_failing : ∃ (b c : Bot) (memory : View) (said : List Utterance),
    b.loggedIn = true ∧ c.loggedIn = false ∧ b.world.sends.get 2 ≠ c.world.sends.get 2 ∧
    Run.run (@Bot.receive lp64) ["1`bob`Hi`0`0`0".toList, "3`bob`!describe`0`0`0".toList] b =
      said.foldl (fun b u => b.utter u) (b.put memory) ∧
    Run.run (@Bot.receive lp64) ["1`bob`Hi`0`0`0".toList, "3`bob`!describe`0`0`0".toList] c =
      said.foldl (fun c u => c.utter u) (c.put memory) := by
  let c : Bot := { Bot.initial .empty .empty .calm with lua := some loaded }
  let b : Bot := { c with
    loggedIn := true
    world := { c.world with sends := fun n => if n = 2 then ⟨-1, false⟩ else ⟨1, false⟩ } }
  obtain ⟨memory, said, first, second⟩ := @memory_unmoved lp64 b c rfl
    ["1`bob`Hi`0`0`0".toList, "3`bob`!describe`0`0`0".toList]
  exact ⟨b, c, memory, said, rfl, rfl, by decide, first, second⟩

/-! ### Private messages -/

/-- The attempt to tell a name something in private. -/
def Private (name : Str) (u : Utterance) : Prop := ∃ text, u = .pm name text

/-- What is written in between is told to one name in private. -/
def Whispers (name : Str) (b c : Bot) : Prop :=
  ∃ more, c.written = b.written ++ more ∧ ∀ w ∈ more, ∃ text, w.packet = .message .userPM name text

namespace Whispers

variable {name : Str} {b c d : Bot}

omit [Platform]

theorem refl (b : Bot) : Whispers name b b := ⟨[], by simp, by simp⟩

theorem trans (first : Whispers name b c) (second : Whispers name c d) : Whispers name b d := by
  obtain ⟨more, written, private_⟩ := first
  obtain ⟨more', written', private'⟩ := second
  refine ⟨more ++ more', by rw [written', written, List.append_assoc], fun w member => ?_⟩
  rcases List.mem_append.mp member with member | member
  · exact private_ w member
  · exact private' w member

theorem pm (b : Bot) (name text : Str) : Whispers name b (b.pm name text) := by
  unfold Bot.pm
  split
  · exact refl b
  · exact ⟨_, rfl, fun w member => ⟨text, by rw [List.mem_singleton.mp member]⟩⟩

theorem emits {said : List Utterance} (b : Bot) (privately : ∀ u ∈ said, Private name u) :
    Whispers name b (device.emits said b) := by
  induction said generalizing b with
  | nil => exact refl b
  | cons u said ih =>
    obtain ⟨text, rfl⟩ := privately u List.mem_cons_self
    exact (pm b name text).trans
      (ih (b.pm name text) fun u member => privately u (List.mem_cons_of_mem _ member))

end Whispers

omit [Platform] in
/-- A reload asked for in private, unless it ends the process. -/
theorem doReload_whispers (b : Bot) (caller : Str)
    (alive : (b.doReload .userPM caller).2.halted = false) :
    Whispers caller b (b.doReload .userPM caller).2 := by
  by_cases may : b.MayReload caller
  · rw [Bot.doReload, Bot.doReloadUnder, if_pos may] at alive ⊢
    have announced : Whispers caller b (b.reply .userPM caller "Reloading Lua scripts...".toList) :=
      Whispers.pm b caller _
    generalize b.reply .userPM caller "Reloading Lua scripts...".toList = told at alive announced ⊢
    simp only [Bot.reloadLuaUnder] at alive ⊢
    rcases outcome : told.world.reloads.head with ⟨_ | err | _, usec⟩
    · exact announced.trans (Whispers.pm { told with lua := _, world := _ } caller _)
    · exact announced.trans (Whispers.pm { told with lua := _, world := _ } caller _)
    · -- the farewell of the process is said aloud
      simp only [outcome] at alive
      cases alive
  · rw [Bot.doReload, Bot.doReloadUnder, if_neg may]
    exact Whispers.refl b

/-- A call of the scripts, with a handler that does not speak in the room. -/
theorem callRespond_whispers {b : Bot} {l : Lua} (registry : l.registry = shipped)
    {caller line : Str}
    (quiet : ∀ c level params, request shipped caller line = .command c level params →
      Allowed b caller level → ¬SpeaksAloud c)
    (alive : (b.callRespond l .userPM caller line).2.halted = false) :
    Whispers caller b (b.callRespond l .userPM caller line).2 := by
  have privately (text : Str) : Private caller (replyTo (.typeOf .userPM) caller text) :=
    ⟨text, if_pos rfl⟩
  have answered : Whispers caller b
      (Scripts.respond shipped Scripts.run (.typeOf .userPM) caller (some line) b).2 := by
    rw [respond_eq]
    cases asked : request shipped caller line with
    | ignored => exact Whispers.refl b
    | nameless => exact Whispers.refl b
    | unlevelled cmd =>
      obtain ⟨r, memory, said, own, works⟩ := @sayOrPM_talks (Private caller) (.typeOf .userPM)
        caller privately (cmd ++ " lacks an access level!".toList) b.view
      simp only [works b rfl]
      exact Whispers.emits _ own
    | command c level params =>
      by_cases allowed : Allowed b caller level
      · have silent := quiet c level params asked allowed
        obtain ⟨r, memory, said, own, works⟩ := @run_talks _ (Private caller) (.typeOf .userPM)
          caller c params privately (fun text => ⟨text, rfl⟩) (fun aloud => absurd aloud silent)
          (fun moderates => absurd (speaksAloud_of_moderates moderates) silent) b.view
        simp only [if_pos allowed, works b rfl]
        exact Whispers.emits _ own
      · simp only [if_neg allowed]
        exact Whispers.refl b
  unfold Bot.callRespond Bot.callRespondUnder at alive ⊢
  rw [Bot.respond_line, registry] at alive ⊢
  generalize Scripts.respond shipped Scripts.run (.typeOf .userPM) caller (some line) b = result
    at answered alive ⊢
  rcases result with ⟨(msg | name) | _, c⟩
  · exact answered
  · cases alive
  · exact answered

/-- The answer to a private message: unless it ends the process, or calls a handler that speaks in
the room, every packet written is a private message to the sender. -/
theorem reply_private (b : Bot) (open_ : b.Shipped) (loaded : b.lua ≠ none) (data : Str)
    (p : ChatPacket) (parsed : ChatPacket.fromString (cstr data) = some p)
    (code : p.iCode = MessageCode.value .userPM)
    (quiet : ∀ c params rank, Calls b data c (cstr p.sUsername) params rank → ¬SpeaksAloud c)
    (alive : (b.receive data).halted = false) :
    ∃ more, (b.receive data).written = b.written ++ more ∧
      ∀ w ∈ more, ∃ text, w.packet = .message .userPM (cstr p.sUsername) text := by
  obtain ⟨l, scripts⟩ := Option.ne_none_iff_exists'.mp loaded
  obtain ⟨registry, responds⟩ := open_ l scripts
  change Whispers (cstr p.sUsername) b (b.receive data)
  by_cases halted : b.halted = true
  · rw [Bot.receive, if_pos halted]
    exact Whispers.refl b
  rw [Bot.receive, if_neg halted, Bot.handlePacket_accepted b parsed, Bot.dispatch,
    Bot.dispatchUnder, code, MessageCode.ofCode_value] at alive ⊢
  simp only at alive ⊢
  by_cases reload : cstr p.sMessage = "!reload".toList
  · rw [Bot.respondUnder, if_pos reload] at alive ⊢
    exact doReload_whispers b _ alive
  · rw [Bot.respondUnder, if_neg reload, scripts] at alive ⊢
    simp only [responds, if_true] at alive ⊢
    refine callRespond_whispers registry (fun c level params asked allowed => ?_) alive
    obtain ⟨rank, -, rfl⟩ := command_of_request asked
    obtain ⟨level, enabled⟩ := allowed_level_iff.mp allowed
    exact quiet c params rank ⟨⟨p, .userPM, parsed, by decide, code, rfl, asked⟩, level, enabled⟩

omit [Platform] in
/-- An operator asks for the own warnings. -/
theorem reply_private_bob : ∃ b : Bot, b.loggedIn = true ∧
    ∃ more, (@Bot.receive lp64 b "5`bob`!checkwarnings`0`0`0".toList).written = b.written ++ more ∧
      ∀ w ∈ more, ∃ text, w.packet = .message .userPM "bob".toList text := by
  let b : Bot := { Bot.initial ⟨[UserDB.newRow "bob".toList .op], by decide⟩ .empty .calm with
    loggedIn := true, lua := some loaded }
  have parsed : @ChatPacket.fromString lp64 (cstr "5`bob`!checkwarnings`0`0`0".toList) =
      some ⟨5, "bob".toList, "!checkwarnings".toList, 0, 0, 0⟩ := by decide
  refine ⟨b, rfl, @reply_private lp64 b ?_ (by simp [b]) _ _ parsed rfl ?_ (by decide +kernel)⟩
  · rintro l ⟨⟩
    exact ⟨rfl, rfl⟩
  · rintro c params rank ⟨⟨p, type, parsed', -, -, -, asked⟩, -, -⟩ aloud
    obtain rfl := Option.some_inj.mp (parsed.symm.trans parsed')
    have meant : request shipped "bob".toList (cstr "!checkwarnings".toList) =
      .command .checkwarnings (LuaValue.level .user) [] := by decide +kernel
    obtain ⟨rfl, -, -⟩ := Request.command.inj (meant.symm.trans asked)
    exact aloud

end Properties
end MeepBot
