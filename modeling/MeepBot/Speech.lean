import MeepBot.Effects

/-!
# What speaking preserves

`Say`, `PM` and `Logout` are all that most packets lead to, and they ask first whether the bot
is logged in. A property of the output that these three keep is kept by every packet that does
not pass a packet to `Write` by itself.
-/

namespace MeepBot

open Scripts Effect

/-- A property of the login flag and of what has been written, kept by speaking. -/
structure Vocal (P : Bot → Prop) : Prop where
  say : ∀ b str, P b → P (b.say str)
  pm : ∀ b name msg, P b → P (b.pm name msg)
  logout : ∀ b, P b → P b.logout
  output : ∀ b c : Bot, P b → c.loggedIn = b.loggedIn → c.written = b.written → P c

/-- A line for which the scripts call such a handler. -/
def CallsModerator (b : Bot) (caller line : Str) : Prop :=
  line ≠ "!reload".toList ∧ ∃ l ∈ b.lua, l.responds = true ∧ ∃ c level params,
    request l.registry caller line = .command c level params ∧ Allowed b caller level ∧ Moderates c

/-! ### What is added -/

namespace Bot

theorem written_say (b : Bot) (str : Str) :
    (b.say str).written = b.written ∨ ∃ w, (b.say str).written = b.written ++ [w] := by
  unfold say
  split
  · exact .inl rfl
  · exact .inr ⟨_, rfl⟩

theorem written_pm (b : Bot) (name msg : Str) :
    (b.pm name msg).written = b.written ∨ ∃ w, (b.pm name msg).written = b.written ++ [w] := by
  unfold pm
  split
  · exact .inl rfl
  · exact .inr ⟨_, rfl⟩

theorem written_logout (b : Bot) :
    b.logout.written = b.written ∨ ∃ w, b.logout.written = b.written ++ [w] := by
  unfold logout
  split
  · exact .inr ⟨_, rfl⟩
  · exact .inl rfl

end Bot

/-! ### What is said -/

namespace Vocal

variable {P : Bot → Prop}

theorem reply (vocal : Vocal P) (type : MessageCode) (caller text : Str) (b : Bot) (kept : P b) :
    P (b.reply type caller text) := by
  unfold Bot.reply
  split
  · exact vocal.pm b caller text kept
  · exact vocal.say b text kept

theorem crash (vocal : Vocal P) (signal : Str) (b : Bot) (kept : P b) : P (b.crash signal) :=
  vocal.output _ _ (vocal.logout _ (vocal.say b _ kept)) rfl rfl

theorem reloadLua (vocal : Vocal P) (b : Bot) (kept : P b) : P b.reloadLua.2 := by
  unfold Bot.reloadLua Bot.reloadLuaUnder
  cases b.world.reloads.head.1 with
  | ran => exact vocal.output b _ kept rfl rfl
  | failed err => exact vocal.output b _ kept rfl rfl
  -- the null pointer in place of the error text ends the process
  | unreadable => exact vocal.crash _ _ (vocal.output b _ kept rfl rfl)

/-- A reload that goes ahead, from its announcement on. -/
theorem announced (vocal : Vocal P) {type : MessageCode} {caller : Str} {b : Bot}
    (may : b.MayReload caller)
    (told : P (b.reply type caller "Reloading Lua scripts...".toList)) :
    P (b.doReload type caller).2 := by
  have loaded := vocal.reloadLua _ told
  rw [Bot.doReload, Bot.doReloadUnder, if_pos may]
  simp only [Bot.reloadLuaUnder_zero]
  rcases result : (b.reply type caller "Reloading Lua scripts...".toList).reloadLua with
    ⟨_ | ret, c⟩
  · rw [result] at loaded
    exact loaded
  · rw [result] at loaded
    exact vocal.reply type caller _ c loaded

theorem doReload (vocal : Vocal P) (type : MessageCode) (caller : Str) (b : Bot) (kept : P b) :
    P (b.doReload type caller).2 := by
  by_cases may : b.MayReload caller
  · exact vocal.announced may (vocal.reply type caller _ b kept)
  · rw [Bot.doReload, Bot.doReloadUnder, if_neg may]
    exact kept

/-! ### Handlers -/

theorem closed (vocal : Vocal P) (caller : Str) : Closed TextClass.all caller P :=
  closed_all vocal.say (fun b str => vocal.pm b caller str)
    fun b _ kept => vocal.output b _ kept rfl rfl

/-- The changes of the stores write nothing, the moderator's handlers apart. -/
theorem sets (vocal : Vocal P) (caller : Str) {c : Command} (other : ¬Moderates c) :
    Sets TextClass.all caller P c :=
  sets_of_changes (fun _ b _ kept => vocal.output b _ kept rfl rfl)
    (fun b _ kept => vocal.output b _ kept rfl rfl)
    (fun _ _ b kept => vocal.output b _ kept rfl rfl) fun moderates => absurd moderates other

variable [Platform]

theorem run (vocal : Vocal P) {c : Command} (other : ¬Moderates c) (type : LuaValue)
    (caller params : Str) (b : Bot) (kept : P b) : P (run c type caller (some params) b).2 := by
  have keeps : Keeps P (Scripts.run c type caller (some params)) fun _ => True :=
    run_keeps (vocal.closed caller) trivial c (vocal.sets caller other) (fun _ _ _ => trivial) type
      trivial
  exact keeps.state kept

/-- The dispatcher of any scripts, on a line for which no moderator's handler is called. -/
theorem callRespond (vocal : Vocal P) (b : Bot) (l : Lua) (type : MessageCode) (caller line : Str)
    (others : ∀ c level params, request l.registry caller line = .command c level params →
      Allowed b caller level → ¬Moderates c) (kept : P b) :
    P (b.callRespond l type caller line).2 := by
  have called : P (respond l.registry Scripts.run (.typeOf type) caller (some line) b).2 := by
    rw [respond_eq]
    cases asked : request l.registry caller line with
    | ignored => exact kept
    | nameless => exact kept
    | unlevelled cmd =>
      have keeps : Keeps P (sayOrPM (.typeOf type) (some caller)
          (some (cmd ++ " lacks an access level!".toList))) fun _ => True :=
        sayOrPM_keeps (vocal.closed caller) _ (Nat.le_refl _) trivial
      exact keeps.state kept
    | command c level params =>
      by_cases allowed : Allowed b caller level
      · simp only [if_pos allowed]
        exact vocal.run (others c level params asked allowed) _ caller params b kept
      · simp only [if_neg allowed]
        exact kept
  unfold Bot.callRespond Bot.callRespondUnder
  rw [Bot.respond_line]
  -- an error of the scripts is caught, a signal ends the process
  rcases result : respond l.registry Scripts.run (.typeOf type) caller (some line) b with
    ⟨(msg | name) | _, c⟩
  · rw [result] at called
    exact called
  · rw [result] at called
    exact vocal.crash name c called
  · rw [result] at called
    exact called

/-- A chat line that calls no moderator's handler. -/
theorem respond (vocal : Vocal P) (b : Bot) (type : MessageCode) (caller line : Str)
    (others : ¬CallsModerator b caller line) (kept : P b) :
    P (b.respond type caller line).2 := by
  unfold Bot.respond Bot.respondUnder
  split
  next => exact vocal.doReload type caller b kept
  next chat =>
    split
    next =>
      split
      · exact vocal.say b _ kept
      · exact kept
    next l scripts =>
      split
      next responds =>
        refine vocal.callRespond b l type caller line (fun c level params asked allowed => ?_) kept
        intro moderates
        exact others ⟨chat, l, scripts, responds, c, level, params, asked, allowed, moderates⟩
      -- without a `Respond` the state is closed
      next => exact vocal.output _ _ (vocal.say b _ kept) rfl rfl

omit [Platform] in
theorem join (vocal : Vocal P) (b : Bot) (user msg : Str) (kept : P b) : P (b.join user msg) := by
  unfold Bot.join
  split
  · exact vocal.say b _ kept
  · exact vocal.output b _ kept rfl rfl

end Vocal
end MeepBot
