import MeepBot.Library.Output
import MeepBot.Effects

/-!
# What the bot says

What the bot remembers, its tables, its lists and its scripts, never depends on the connection:
whatever becomes of the packets it writes, and whether it is logged in, a received string leads
to the same stores and to the same attempts to say something.
-/

namespace MeepBot

open Scripts Effect LuaBindings Output

/-- What the bot remembers: all but the connection and what was written to it. -/
structure View where
  userList : UserList
  users : UserTable
  quotes : QuotesTable
  lua : Option Lua
  halted : Bool
  values : Stream' UInt32
  picks : Stream' Nat
  reloads : Stream' (ScriptsOutcome × Nat)

/-- An attempt to say something, or the end of the session. -/
inductive Utterance where
  | say (text : Str)
  | pm (name text : Str)
  | write (packet : ChatPacket)
  | logout
  | lost

namespace Bot

def view (b : Bot) : View :=
  ⟨b.userList, b.users, b.quotes, b.lua, b.halted, b.world.values, b.world.picks, b.world.reloads⟩

def put (v : View) (b : Bot) : Bot :=
  { b with
    userList := v.userList, users := v.users, quotes := v.quotes, lua := v.lua, halted := v.halted
    world := { b.world with values := v.values, picks := v.picks, reloads := v.reloads } }

def utter : Utterance → Bot → Bot
  | .say text, b => b.say text
  | .pm name text, b => b.pm name text
  | .write packet, b => (b.write packet).2
  | .logout, b => b.logout
  | .lost, b => { b with loggedIn := false }

theorem put_utter (v : View) (u : Utterance) (b : Bot) : (b.utter u).put v = (b.put v).utter u := by
  cases u with
  | say text =>
    have same : (b.put v).loggedIn = b.loggedIn := rfl
    simp only [utter, say, same]
    split <;> rfl
  | pm name text =>
    have same : (b.put v).loggedIn = b.loggedIn := rfl
    simp only [utter, pm, same]
    split <;> rfl
  | write packet => rfl
  | logout =>
    have same : (b.put v).loggedIn = b.loggedIn := rfl
    simp only [utter, logout, same]
    split <;> rfl
  | lost => rfl

end Bot

/-- The bot as a device that talks. -/
def device : Device Bot View Utterance where
  view := Bot.view
  put := Bot.put
  emit u b := b.utter u
  view_put _ _ := rfl
  put_put _ _ _ := rfl
  put_view _ := rfl
  put_emit := Bot.put_utter

/-! ### The functions the handlers call -/

/-- The way a reply takes. -/
def replyTo (type : LuaValue) (caller text : Str) : Utterance :=
  if type = .typePM then .pm caller text else .say text

section
variable {U : Utterance → Prop} {type : LuaValue} {caller : Str}

theorem say_talks (aloud : ∀ text, U (.say text)) (text : Str) :
    Talks device U (say (some text)) := Talks.change (Steps.emit (aloud text))

theorem sayOrPM_talks (reply : ∀ text, U (replyTo type caller text)) (text : Str) :
    Talks device U (sayOrPM type (some caller) (some text)) := by
  refine Talks.bind (Talks.query (fun v => v.lua.any Lua.isEnabled) fun _ => rfl) fun enabled => ?_
  refine Talks.ite (fun _ => Talks.returns ()) fun _ => ?_
  have way := reply text
  by_cases pm : type = .typePM
  · rw [replyTo, if_pos pm] at way
    rw [if_pos pm]
    exact Talks.change (Steps.emit way)
  · rw [replyTo, if_neg pm] at way
    rw [if_neg pm]
    exact Talks.change (Steps.emit way)

theorem resolve_talks (pattern : Str) : Talks device U (resolve caller pattern) :=
  Talks.query (fun v => v.userList.resolve caller pattern) fun _ => rfl

theorem resolveParams_talks (params : Option Str) :
    Talks device U (resolveParams caller params) := by
  cases params with
  | none => exact Talks.returns none
  | some pattern =>
    exact Talks.query (fun v => some (v.userList.resolve caller pattern)) fun _ => rfl

theorem getAccessLevel_talks (name : Str) : Talks device U (getAccessLevel name) :=
  Talks.query (fun v => UserDB.getAccessLevel v.users name) fun _ => rfl

theorem getUserEntry_talks (name : Str) : Talks device U (getUserEntry name) :=
  Talks.query (fun v => UserDB.getUserEntry v.users name) fun _ => rfl

theorem getWarnings_talks (name : Str) : Talks device U (getWarnings name) :=
  Talks.query (fun v => UserDB.getWarnings v.users name) fun _ => rfl

theorem setUsers_talks (f : UserTable → Bool × UserTable) : Talks device U (setUsers f) :=
  Talks.act (fun v => ((f v.users).1, { v with users := (f v.users).2 })) fun _ => rfl

theorem setWarnings_talks (name : Str) (warnings : Int) :
    Talks device U (setWarnings name warnings) :=
  Talks.ite (fun _ => Talks.returns false) fun _ => setUsers_talks _

theorem setEnabled_talks (value : Bool) : Talks device U (setEnabled value) :=
  Talks.change (Steps.change
    (fun v => { v with lua := v.lua.map fun l => { l with isEnabled := value } }) fun _ => rfl)

theorem need_talks {α : Type} (msg : String) (value : Option α) :
    Talks device U (LuaM.need msg value) := by
  cases value with
  | none => exact Talks.fails _
  | some a => exact Talks.returns a

theorem rand_talks [Platform] (bound : LuaNumber) : Talks device U (rand bound) := by
  refine Talks.bind (Talks.act (fun v => (v.values.head, { v with values := v.values.tail }))
    fun _ => rfl) fun ret => ?_
  exact Talks.ite (fun _ => Talks.fails _) fun _ => Talks.returns _

theorem pick_talks : Talks device U pick :=
  Talks.act (fun v => (v.picks.head, { v with picks := v.picks.tail })) fun _ => rfl

theorem onNumber_talks {α : Type} {f : LuaNumber → LuaM α} (talks : ∀ x, Talks device U (f x))
    (missing : α) (id : LuaValue) : Talks device U (onNumber f missing id) := by
  unfold onNumber
  split
  · exact talks _
  · exact Talks.returns missing

/-! ### Handlers -/

theorem eightBall_talks [Platform] (reply : ∀ text, U (replyTo type caller text))
    (params : Option Str) : Talks device U (eightBall type caller params) := by
  refine Talks.ite (fun _ => ?_) fun _ => sayOrPM_talks reply _
  refine Talks.bind (rand_talks _) fun idx => Talks.bind ?_ fun answer => sayOrPM_talks reply _
  exact Talks.bind (need_talks _ _) fun text => Talks.returns _

theorem setProtection_talks (reply : ∀ text, U (replyTo type caller text)) (bProtect : Bool)
    (usage done : String) (params : Str) :
    Talks device U (setProtection bProtect usage done type caller (some params)) :=
  Talks.bind (resolve_talks _) fun _ => Talks.bind (setUsers_talks _) fun _ => sayOrPM_talks reply _

theorem describe_talks (reply : ∀ text, U (replyTo type caller text)) (params : Str) :
    Talks device U (describe type caller (some params)) := by
  refine Talks.bind (resolveParams_talks _) fun target => ?_
  cases target with
  | none => exact Talks.bind (Talks.returns none) fun _ => Talks.fails _
  | some target =>
    refine Talks.bind (getUserEntry_talks target) fun entry => ?_
    cases entry with
    | none => exact Talks.fails _
    | some entry => exact sayOrPM_talks reply _

theorem setdesc_talks (reply : ∀ text, U (replyTo type caller text)) (params : Str) :
    Talks device U (setdesc type caller (some params)) :=
  Talks.ite (fun _ => sayOrPM_talks reply _) fun _ =>
    Talks.bind (setUsers_talks _) fun _ => sayOrPM_talks reply _

theorem doRolls_talks [Platform] (sides : LuaNumber) (n : Nat) :
    Talks device U (doRolls sides n) := by
  induction n with
  | zero => exact Talks.returns []
  | succ n ih =>
    exact Talks.bind (rand_talks sides) fun roll => Talks.bind ih fun rolls => Talks.returns _

theorem roll_talks [Platform] (reply : ∀ text, U (replyTo type caller text)) (params : Option Str) :
    Talks device U (roll type caller params) := by
  unfold roll
  simp only
  split
  · exact sayOrPM_talks reply _
  · exact sayOrPM_talks reply _
  · refine Talks.ite (fun _ => sayOrPM_talks reply _) fun _ => ?_
    refine Talks.ite (fun _ => sayOrPM_talks reply _) fun _ => ?_
    exact Talks.bind (doRolls_talks _ _) fun rolls => sayOrPM_talks reply _

theorem rollx_talks [Platform] (reply : ∀ text, U (replyTo type caller text)) (params : Str) :
    Talks device U (rollx type caller (some params)) := by
  simp only [rollx]
  split
  · exact sayOrPM_talks reply _
  · refine Talks.ite (fun _ => sayOrPM_talks reply _) fun _ => ?_
    exact Talks.bind (rand_talks _) fun result => sayOrPM_talks reply _

theorem fling_talks [Platform] (params : Option Str) :
    Talks device U (fling type caller params) := by
  rw [fling, if_pos (by rintro ⟨⟩)]
  exact Talks.returns ()

theorem help_talks (reply : ∀ text, U (replyTo type caller text)) (params : Str) :
    Talks device U (help type caller (some params)) := by
  refine Talks.bind (getAccessLevel_talks _) fun level => ?_
  refine Talks.ite (fun _ => Talks.returns ()) fun _ => ?_
  refine Talks.bind (Talks.query
    (fun v => v.lua.bind fun l => l.registry.help.lookup (clean params)) fun _ => rfl)
    fun found => ?_
  exact sayOrPM_talks reply _

theorem modAction_talks (aloud : ∀ text, U (.say text)) (acts : ∀ packet, U (.write packet))
    (witticism : Str → Str) (code : MessageCode) (params : Str) :
    Talks device U (modAction witticism code type caller (some params)) :=
  Talks.bind (resolve_talks _) fun _ => Talks.bind (say_talks aloud _) fun _ =>
    Talks.change (Steps.emit (acts _))

theorem position_talks (reply : ∀ text, U (replyTo type caller text)) (params : Str) :
    Talks device U (position type caller (some params)) := by
  refine Talks.bind (getAccessLevel_talks _) fun level => ?_
  refine Talks.ite (fun _ => Talks.returns ()) fun _ => ?_
  refine Talks.bind (resolve_talks _) fun target => ?_
  refine Talks.bind (getUserEntry_talks _) fun entry => ?_
  cases entry with
  | some entry => exact sayOrPM_talks reply _
  | none =>
    -- without a type and a text, nothing is said
    refine Talks.bind (Talks.query (fun v => v.lua.any Lua.isEnabled) fun _ => rfl) fun _ => ?_
    refine Talks.ite (fun _ => Talks.returns ()) fun _ => ?_
    exact Talks.ite (fun _ => Talks.returns ()) fun _ => Talks.returns ()

theorem addquote_talks (reply : ∀ text, U (replyTo type caller text)) (params : Str) :
    Talks device U (addquote type caller (some params)) := by
  refine Talks.bind (Talks.act (fun v => ((QuotesDB.addQuote v.quotes caller params).1,
    { v with quotes := (QuotesDB.addQuote v.quotes caller params).2 })) fun _ => rfl)
    fun added => ?_
  exact sayOrPM_talks reply _

theorem removequote_talks [Platform] (reply : ∀ text, U (replyTo type caller text))
    (params : Option Str) : Talks device U (removequote type caller params) := by
  unfold removequote
  split
  · exact sayOrPM_talks reply _
  · refine Talks.bind (onNumber_talks (fun x => Talks.query
      (fun v => QuotesDB.getQuoteAuthor v.quotes x.toInt) fun _ => rfl) _ _) fun author => ?_
    cases author with
    | none => exact sayOrPM_talks reply _
    | some author =>
      refine Talks.bind (onNumber_talks (fun x => Talks.act
        (fun v => ((QuotesDB.removeQuote v.quotes x.toInt).1,
          { v with quotes := (QuotesDB.removeQuote v.quotes x.toInt).2 })) fun _ => rfl) _ _)
        fun removed => ?_
      refine Talks.ite (fun _ => ?_) fun _ => sayOrPM_talks reply _
      exact Talks.bind (need_talks _ _) fun number => sayOrPM_talks reply _

theorem getQuote_talks [Platform] (id : LuaValue) :
    Talks device U (onNumber quoteGetByID none id) :=
  onNumber_talks (fun x => Talks.query
    (fun v => QuotesDB.getQuoteByID v.quotes x.toInt) fun _ => rfl) _ _

theorem quoteToShow_talks [Platform] (params : Option Str) :
    Talks device U (quoteToShow caller params) := by
  have random : Talks device U quoteGetRandomID :=
    Talks.bind pick_talks fun i => Talks.query
      (fun v => positive (QuotesDB.getRandomID v.quotes i)) fun _ => rfl
  have pattern (p : Str) : Talks device U (quoteGetIDByPattern p) :=
    Talks.bind pick_talks fun i => Talks.query
      (fun v => positive (QuotesDB.getIDByPattern v.quotes p i)) fun _ => rfl
  cases params with
  | none => exact Talks.bind random fun idx => Talks.returns _
  | some params =>
    simp only [quoteToShow]
    split
    · refine Talks.bind (getQuote_talks _) fun found => ?_
      split
      · exact Talks.returns _
      · exact Talks.bind (pattern _) fun idx => Talks.returns _
    · refine Talks.bind (Talks.returns none) fun found => ?_
      split
      · exact Talks.returns _
      · exact Talks.bind (pattern _) fun idx => Talks.returns _

theorem quote_talks [Platform] (reply : ∀ text, U (replyTo type caller text))
    (params : Option Str) : Talks device U (quote type caller params) := by
  refine Talks.bind (getAccessLevel_talks _) fun level => ?_
  refine Talks.ite (fun _ => Talks.returns ()) fun _ => ?_
  refine Talks.bind (quoteToShow_talks params) fun id => ?_
  cases id with
  | none => exact sayOrPM_talks reply _
  | some id =>
    refine Talks.bind (getQuote_talks _) fun found => ?_
    exact Talks.bind (need_talks _ _) fun text => sayOrPM_talks reply _

theorem warn_talks (reply : ∀ text, U (replyTo type caller text)) (params : Str) :
    Talks device U (warn type caller (some params)) := by
  refine Talks.bind (resolve_talks _) fun target => ?_
  refine Talks.bind (getUserEntry_talks _) fun entry => ?_
  cases entry with
  | none => exact sayOrPM_talks reply _
  | some entry =>
    refine Talks.ite (fun _ => sayOrPM_talks reply _) fun _ => ?_
    refine Talks.bind (getWarnings_talks _) fun warnings => ?_
    refine Talks.ite (fun _ => sayOrPM_talks reply _) fun _ => ?_
    refine Talks.bind (setWarnings_talks _ _) fun _ => ?_
    refine Talks.ite (fun _ => ?_) fun _ => sayOrPM_talks reply _
    refine Talks.bind ?_ fun _ => sayOrPM_talks reply _
    exact Talks.bind (setUsers_talks _) fun _ => Talks.bind (setUsers_talks _) fun _ =>
      Talks.bind (setUsers_talks _) fun _ => Talks.returns ()

theorem unwarn_talks (reply : ∀ text, U (replyTo type caller text)) (params : Str) :
    Talks device U (unwarn type caller (some params)) := by
  refine Talks.bind (resolve_talks _) fun target => ?_
  refine Talks.bind (getUserEntry_talks _) fun entry => ?_
  cases entry with
  | none => exact sayOrPM_talks reply _
  | some entry =>
    exact Talks.bind (setWarnings_talks _ _) fun _ => sayOrPM_talks reply _

theorem tellWarnings_talks (reply : ∀ text, U (replyTo type caller text)) (params : Option Str) :
    Talks device U (tellWarnings type caller params) := by
  refine Talks.bind (resolveParams_talks _) fun target => ?_
  cases target with
  | none => exact Talks.fails _
  | some target => exact Talks.bind (getWarnings_talks _) fun warnings => sayOrPM_talks reply _

end

/-- The handlers that speak in the room whatever the type of the message. -/
def SpeaksAloud : Command → Prop
  | .enablebot | .disablebot | .say => True
  | .kick | .disable | .ban | .unban | .mute | .unmute => True
  | _ => False

theorem speaksAloud_of_moderates {c : Command} (moderates : Moderates c) : SpeaksAloud c := by
  cases c with
  | kick | disable | ban | unban | mute | unmute => trivial
  | _ => cases moderates

/-- Every handler talks. Those that do not speak in the room reply to their caller, or tell the
caller something in private. -/
theorem run_talks [Platform] {U : Utterance → Prop} {type : LuaValue} {caller : Str} (c : Command)
    (params : Str) (reply : ∀ text, U (replyTo type caller text))
    (privately : ∀ text, U (.pm caller text)) (aloud : SpeaksAloud c → ∀ text, U (.say text))
    (acts : Moderates c → ∀ packet, U (.write packet)) :
    Talks device U (run c type caller (some params)) := by
  cases c with
  | eightBall => exact eightBall_talks reply _
  | protect => exact setProtection_talks reply true "Usage: !protect [username]" _ params
  | unprotect => exact setProtection_talks reply false "Usage: !unProtect [username]" _ params
  | setmask | admindesc => exact sayOrPM_talks reply _
  | describe => exact describe_talks reply params
  | setdesc => exact setdesc_talks reply params
  | roll => exact roll_talks reply (some params)
  | rollx => exact rollx_talks reply params
  | enablebot => exact Talks.bind (setEnabled_talks true) fun _ => say_talks (aloud trivial) _
  | disablebot => exact Talks.bind (setEnabled_talks false) fun _ => say_talks (aloud trivial) _
  | fling => exact fling_talks _
  | geico => exact Talks.fails _
  | help => exact help_talks reply params
  | kick | disable | ban | unban | mute | unmute =>
    exact @modAction_talks U type caller (aloud trivial) (acts trivial) _ _ params
  | position => exact position_talks reply params
  | addquote => exact addquote_talks reply params
  | removequote => exact removequote_talks reply _
  | quote => exact quote_talks reply _
  | say => exact Talks.ite (fun _ => Talks.returns ()) fun _ => say_talks (aloud trivial) _
  | warn => exact warn_talks reply params
  | unwarn => exact unwarn_talks reply params
  | checkwarnings =>
    refine Talks.bind (getAccessLevel_talks _) fun level => ?_
    refine Talks.ite (fun _ => tellWarnings_talks (fun text => ?_) _) fun _ =>
      tellWarnings_talks reply _
    rw [replyTo, if_pos rfl]
    exact privately text

/-! ### Strings -/

/-- Whatever is said. -/
abbrev anything : Utterance → Prop := fun _ => True

namespace Bot

theorem emit_steps {U : Utterance → Prop} {u : Utterance} (ok : U u) :
    Steps device U fun b => b.utter u := Steps.emit ok

theorem crash_steps (signal : Str) : Steps device anything fun b => b.crash signal := by
  have halts : Steps device anything fun b => { b with halted := true } :=
    Steps.change (fun v => { v with halted := true }) fun _ => rfl
  exact halts.comp ((emit_steps (u := .logout) trivial).comp (emit_steps (u := .say _) trivial))

theorem reply_steps (type : MessageCode) (caller text : Str) :
    Steps device anything fun b => b.reply type caller text := by
  by_cases pm : type = .userPM
  · simp only [reply, if_pos pm]
    exact emit_steps (u := .pm caller text) trivial
  · simp only [reply, if_neg pm]
    exact emit_steps (u := .say text) trivial

/-- The view decides who may reload. -/
theorem mayReload_iff {b c : Bot} (users : b.users = c.users) (caller : Str) :
    b.MayReload caller ↔ c.MayReload caller := by
  rw [MayReload, MayReload, users]

/-- What follows the announcement of a reload. -/
theorem reloaded_steps (type : MessageCode) (caller : Str) : Steps device anything fun b =>
    (match b.reloadLua with
      | (some ret, c) =>
        (ret.isOk, c.reply type caller (reloadReply type b.world.reloads.head.2 ret))
      | (none, c) => (false, c)).2 := by
  have taken (lua : Option Lua) : Steps device anything fun b =>
      { b with lua := lua, world := { b.world with reloads := b.world.reloads.tail } } :=
    Steps.change (fun v => { v with lua := lua, reloads := v.reloads.tail }) fun _ => rfl
  refine Steps.choose fun v => ?_
  rcases outcome : v.reloads.head with ⟨_ | err | _, usec⟩
  · refine ⟨_, (reply_steps type caller (reloadReply type usec (.ok ()))).comp
      (taken (some loaded)), fun b view => ?_⟩
    have here : b.world.reloads.head = (.ran, usec) := by rw [← outcome, ← view]; rfl
    simp only [reloadLua, reloadLuaUnder, here]
  · refine ⟨_, (reply_steps type caller (reloadReply type usec (.error err))).comp (taken none),
      fun b view => ?_⟩
    have here : b.world.reloads.head = (.failed err, usec) := by rw [← outcome, ← view]; rfl
    simp only [reloadLua, reloadLuaUnder, here]
  · refine ⟨_, (crash_steps "Segmentation fault".toList).comp (taken none), fun b view => ?_⟩
    have here : b.world.reloads.head = (.unreadable, usec) := by rw [← outcome, ← view]; rfl
    simp only [reloadLua, reloadLuaUnder, fault_zero, here]

theorem doReload_steps (type : MessageCode) (caller : Str) :
    Steps device anything fun b => (b.doReload type caller).2 := by
  have announced := reply_steps type caller "Reloading Lua scripts...".toList
  refine Steps.choose fun v => ?_
  by_cases may : ∃ b : Bot, b.view = v ∧ b.MayReload caller
  · obtain ⟨c, same, may⟩ := may
    refine ⟨_, (reloaded_steps type caller).comp announced, fun b view => ?_⟩
    have users : b.users = c.users := congrArg View.users (view.trans same.symm)
    exact congrArg Prod.snd (if_pos ((mayReload_iff users caller).mpr may))
  · refine ⟨_, Steps.id, fun b view => ?_⟩
    rw [doReload, doReloadUnder, if_neg fun here => may ⟨b, view, here⟩]

variable [Platform]

/-- The dispatcher of the scripts. -/
theorem respond_talks (reg : Registry Command) (type : LuaValue) (caller line : Str) :
    Talks device anything (Scripts.respond reg Scripts.run type caller (some line)) := by
  refine Talks.choose fun v => ?_
  cases asked : request reg caller line with
  | ignored =>
    exact ⟨_, Talks.returns (), fun b _ => by rw [respond_eq, asked]; rfl⟩
  | nameless =>
    exact ⟨_, Talks.fails _, fun b _ => by rw [respond_eq, asked]; rfl⟩
  | unlevelled cmd =>
    exact ⟨_, sayOrPM_talks (fun _ => trivial) _, fun b _ => by rw [respond_eq, asked]⟩
  | command c level params =>
    by_cases allowed : ∃ b : Bot, b.view = v ∧ Allowed b caller level
    · obtain ⟨c', same, allowed⟩ := allowed
      refine ⟨Scripts.run c type caller (some params), run_talks c params (fun _ => trivial)
        (fun _ => trivial) (fun _ _ => trivial) fun _ _ => trivial, fun b view => ?_⟩
      have users : b.users = c'.users := congrArg View.users (view.trans same.symm)
      have lua : b.lua = c'.lua := congrArg View.lua (view.trans same.symm)
      have here : Allowed b caller level := by
        rw [Allowed, users, lua]
        exact allowed
      rw [respond_eq, asked]
      simp only [if_pos here]
    · refine ⟨_, Talks.returns (), fun b view => ?_⟩
      rw [respond_eq, asked]
      simp only [if_neg fun here => allowed ⟨b, view, here⟩]
      rfl

theorem callRespond_steps (l : Lua) (type : MessageCode) (user line : Str) :
    Steps device anything fun b => (b.callRespond l type user line).2 := by
  have caught (r : Except Abort Unit) : Steps device anything fun b => match r with
      | .error (.signal name) => b.crash name
      | _ => b := by
    rcases r with (_ | name) | _
    · exact Steps.id
    · exact crash_steps name
    · exact Steps.id
  refine Steps.choose fun v => ⟨_, Steps.behind (respond_talks l.registry (.typeOf type) user line)
    caught, fun b _ => ?_⟩
  unfold callRespond callRespondUnder
  rw [respond_line]
  rcases Scripts.respond l.registry Scripts.run (.typeOf type) user (some line) b with
    ⟨(_ | _) | _, c⟩ <;> rfl

/-- A chat line, whatever the scripts are. -/
theorem respond_steps (type : MessageCode) (user line : Str) :
    Steps device anything fun b => (b.respond type user line).2 := by
  by_cases reload : line = "!reload".toList
  · simp only [Bot.respond, Bot.respondUnder, if_pos reload]
    exact doReload_steps type user
  · simp only [Bot.respond, Bot.respondUnder, if_neg reload]
    have said (text : Str) : Steps device anything fun b => b.say text :=
      emit_steps (u := .say text) trivial
    refine Steps.choose fun v => ?_
    rcases scripts : v.lua with _ | l
    · by_cases broken : line.take 1 = ['!'] ∧ user ≠ "MeepBot".toList
      · refine ⟨_, said "The Lua broke :( Please fix it and !reload".toList, fun b view => ?_⟩
        have none : b.lua = none := (congrArg View.lua view).trans scripts
        simp only [none, if_pos broken]
      · refine ⟨_, Steps.id, fun b view => ?_⟩
        have none : b.lua = none := (congrArg View.lua view).trans scripts
        simp only [none, if_neg broken]
    · by_cases responds : l.responds = true
      · refine ⟨_, callRespond_steps l type user line, fun b view => ?_⟩
        have open_ : b.lua = some l := (congrArg View.lua view).trans scripts
        simp only [open_, if_pos responds, callRespondUnder_zero]
      · have closed : Steps device anything fun b : Bot => { b with lua := none } :=
          Steps.change (fun v => { v with lua := none }) fun _ => rfl
        let madness := "Ph'nglui mglw'nafh Cthulhu R'lyeh wgah'nagl fh'tagn! I'a! I'a!".toList
        refine ⟨_, closed.comp (said madness), fun b view => ?_⟩
        have open_ : b.lua = some l := (congrArg View.lua view).trans scripts
        simp only [open_, if_neg responds]
        rfl

/-- A packet that reaches the switch. -/
theorem dispatch_steps (p : ChatPacket) : Steps device anything fun b => b.dispatch p := by
  have written (packet : ChatPacket) : Steps device anything fun b => (b.write packet).2 :=
    emit_steps (u := .write packet) trivial
  have said (text : Str) : Steps device anything fun b => b.say text :=
    emit_steps (u := .say text) trivial
  have joins : Steps device anything fun b => b.join p.sUsername p.sMessage := by
    by_cases anonymous : p.sUsername = blank
    · simp only [join, if_pos anonymous]
      refine Steps.choose fun v => ⟨_, said (greeting v.userList.getNumUsers), fun b view => ?_⟩
      rw [← view]
      rfl
    · simp only [join, if_neg anonymous]
      exact Steps.change (fun v => { v with
        userList := v.userList.add p.sUsername
        users := UserDB.addUser v.users (cstr p.sUsername) (rankOf p.sMessage) }) fun _ => rfl
  have parts : Steps device anything fun b => b.part p.sUsername := by
    have removed : Steps device anything fun b =>
        { b with userList := b.userList.remove p.sUsername } :=
      Steps.change (fun v => { v with userList := v.userList.remove p.sUsername }) fun _ => rfl
    by_cases own : p.sUsername = "MeepBot".toList
    · -- the bot is told that it has left
      refine Steps.choose fun v => ⟨_, removed.comp (emit_steps (u := .lost) trivial),
        fun b _ => ?_⟩
      simp [part, own, utter]
    · refine Steps.choose fun v => ⟨_, removed, fun b _ => ?_⟩
      simp only [part, decide_eq_true own, Bool.and_true]
  unfold dispatch dispatchUnder
  cases MessageCode.ofCode p.iCode with
  | none => exact Steps.id
  | some m =>
    cases m with
    | userList | userJoin => exact joins
    | userPart | userKick | userDisable | userBan | idleKick => exact parts
    | userMute =>
      by_cases own : p.sUsername = "MeepBot".toList
      · simp only [if_pos own]
        exact (said _).comp (written _)
      · simp only [if_neg own]
        exact Steps.id
    | clientIdle =>
      by_cases own : p.sUsername = "MeepBot".toList
      · simp only [if_pos own]
        exact written _
      · simp only [if_neg own]
        exact Steps.id
    | roomMessage | userPM => exact respond_steps _ _ _
    | _ => exact Steps.id

/-- Every received string is a step of the device. -/
theorem receive_steps (data : Str) : Steps device anything fun b => b.receive data := by
  refine Steps.choose fun v => ?_
  cases halted : v.halted with
  | true =>
    refine ⟨_, Steps.id, fun b view => ?_⟩
    have here : b.halted = true := (congrArg View.halted view).trans halted
    rw [receive, if_pos here]
  | false =>
    refine ⟨fun b => b.handlePacket data, ?_, fun b view => ?_⟩
    · cases parsed : ChatPacket.fromString (cstr data) with
      | none =>
        simp only [handlePacket_rejected _ parsed]
        exact Steps.id
      | some p =>
        simp only [handlePacket_accepted _ parsed]
        exact dispatch_steps p
    · have here : b.halted = false := (congrArg View.halted view).trans halted
      rw [receive, here, if_neg Bool.false_ne_true]

omit [Platform] in
/-- Nothing that is said logs a bot in. -/
theorem loggedOut_utter {b : Bot} (out : b.loggedIn = false) (u : Utterance) :
    (b.utter u).loggedIn = false := by
  cases u with
  | say text => rw [utter, say_of_loggedOut out, out]
  | pm name text => rw [utter, pm_of_loggedOut out, out]
  | write packet => simp [utter, write, out]
  | logout => rfl
  | lost => rfl

omit [Platform] in
theorem loggedOut_emits {b : Bot} (out : b.loggedIn = false) (said : List Utterance) :
    (device.emits said b).loggedIn = false := by
  induction said generalizing b with
  | nil => exact out
  | cons u said ih => exact ih (loggedOut_utter out u)

omit [Platform] in
theorem loggedOut_steps {f : Bot → Bot} (steps : Steps device anything f) {b : Bot}
    (out : b.loggedIn = false) : (f b).loggedIn = false := by
  obtain ⟨memory, said, -, works⟩ := steps b.view
  have still : (b.put memory).loggedIn = false := out
  rw [works b rfl]
  exact loggedOut_emits still said

end Bot
end MeepBot
