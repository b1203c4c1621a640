import MeepBot.Session
import MeepBot.Utterances

/-!
# The process

`main` with its signal handlers: it opens the scripts, and goes on connecting until `clean_exit`
has raised the lock. A signal arrives between two steps, of `main` or of a call of `clean_exit`,
which takes one for each of its statements: another signal may interrupt it in front of a send.
Waiting for a connection and waiting for data are steps of their own, so that a signal may arrive
after the test in front of them. A string is handled in one step, and so are a login and a reload;
what is written there is taken to return, as everywhere: a send on a broken pipe, which raises
`SIGPIPE` inside the call, is not among the steps.

Signals raised by the processor while a string is handled come to the same handler.
-/

namespace MeepBot
namespace Bot

/-! ### Signals of the processor -/

/-- The lock takes nothing away but the farewell in front of a sudden end. -/
inductive Spared (exitLock : Nat) : Bot → Bot → Prop where
  | same (b : Bot) : Spared exitLock b b
  | silent (b : Bot) (signal : Str) (locked : 0 < exitLock) :
    Spared exitLock (b.crash signal) { b with halted := true }

namespace Spared

variable {exitLock : Nat}

theorem fault (b : Bot) (signal : Str) :
    Spared exitLock (b.crash signal) (b.fault exitLock signal) := by
  unfold Bot.fault
  split
  next locked => exact .silent b signal locked
  next => exact .same _

/-- `ReloadLua` has the same result, and replies go on where it is one. -/
theorem reloadLua (b : Bot) :
    Spared exitLock b.reloadLua.2 (b.reloadLuaUnder exitLock).2 ∧
      (b.reloadLuaUnder exitLock).1 = b.reloadLua.1 ∧
      (b.reloadLua.1 ≠ none → b.reloadLuaUnder exitLock = b.reloadLua) := by
  unfold Bot.reloadLua Bot.reloadLuaUnder
  cases b.world.reloads.head.1 with
  | ran => exact ⟨.same _, rfl, fun _ => rfl⟩
  | failed err => exact ⟨.same _, rfl, fun _ => rfl⟩
  | unreadable => exact ⟨fault _ _, rfl, fun result => absurd rfl result⟩

theorem doReload (b : Bot) (type : MessageCode) (caller : Str) :
    Spared exitLock (b.doReload type caller).2 (b.doReloadUnder exitLock type caller).2 := by
  unfold Bot.doReload Bot.doReloadUnder
  by_cases may : b.MayReload caller
  · rw [if_pos may, if_pos may]
    generalize b.reply type caller "Reloading Lua scripts...".toList = told
    obtain ⟨spared, result, whole⟩ := @reloadLua exitLock told
    simp only [reloadLuaUnder_zero]
    rcases loaded : told.reloadLua with ⟨_ | ret, c⟩
    · rw [loaded] at spared result
      rcases under : told.reloadLuaUnder exitLock with ⟨r, d⟩
      rw [under] at spared result
      cases result
      exact spared
    · rw [loaded] at whole
      rw [whole (Option.some_ne_none ret)]
      exact .same _
  · rw [if_neg may, if_neg may]
    exact .same b

variable [Platform]

theorem callRespond (b : Bot) (l : Lua) (type : MessageCode) (user line : Str) :
    Spared exitLock (b.callRespond l type user line).2
      (b.callRespondUnder exitLock l type user line).2 := by
  unfold Bot.callRespond Bot.callRespondUnder
  rcases Scripts.respond l.registry Scripts.run (.typeOf type) user
    (if line.length = 0 then none else some line) b with ⟨(msg | name) | _, c⟩
  · exact .same c
  · exact fault c name
  · exact .same c

theorem respond (b : Bot) (type : MessageCode) (user line : Str) :
    Spared exitLock (b.respond type user line).2 (b.respondUnder exitLock type user line).2 := by
  unfold Bot.respond Bot.respondUnder
  by_cases reload : line = "!reload".toList
  · rw [if_pos reload, if_pos reload]
    exact doReload b type user
  · rw [if_neg reload, if_neg reload]
    cases b.lua with
    | none => exact .same _
    | some l =>
      by_cases responds : l.responds = true
      · simp only [if_pos responds]
        exact callRespond b l type user line
      · simp only [if_neg responds]
        exact .same _

theorem handlePacket (b : Bot) (data : Str) :
    Spared exitLock (b.handlePacket data) (b.handlePacketUnder exitLock data) := by
  unfold Bot.handlePacket Bot.handlePacketUnder Bot.dispatchUnder
  cases MessageCode.ofCode (ChatPacket.ofString (cstr data)).iCode with
  | none => exact .same _
  | some m =>
    cases m with
    | roomMessage | userPM => exact respond b _ _ _
    | _ => exact .same _

end Spared

/-! ### The view -/

theorem view_logout (b : Bot) : b.logout.view = b.view := device.view_emit .logout b

theorem view_say (b : Bot) (str : Str) : (b.say str).view = b.view := device.view_emit (.say str) b

theorem view_reply (b : Bot) (type : MessageCode) (caller text : Str) :
    (b.reply type caller text).view = b.view := by
  unfold reply
  split
  · exact device.view_emit (.pm caller text) b
  · exact view_say b text

theorem view_emote (b : Bot) (str : Str) : (b.emote str).view = b.view := by
  unfold emote
  split <;> rfl

theorem Spared.view {exitLock : Nat} {b c : Bot} (spared : Spared exitLock b c) :
    c.view = b.view := by
  cases spared with
  | same => rfl
  | silent c signal locked =>
    have said := view_logout (c.say (StringUtil.format
      ("Aaaahh! ".toList ++ signal ++ "! Every man for himself!".toList)))
    rw [view_say] at said
    exact (congrArg (fun v : View => { v with halted := true }) said).symm

end Bot

namespace Client

theorem view_read (c : Client) (o : RecvOutcome) : (c.read o).2.toBot.view = c.toBot.view := by
  unfold read
  simp only
  split <;> rfl

theorem loggedOut_read (c : Client) (out : c.loggedIn = false) (o : RecvOutcome) :
    (c.read o).2.loggedIn = false := by
  unfold read
  simp only
  split
  · rfl
  · exact out

/-- A login writes at most. -/
theorem view_login [Platform] (c : Client) (name pwd : Str) (o : RecvOutcome) :
    (c.login name pwd o).2.toBot.view = c.toBot.view := by
  unfold login
  simp only
  split
  · split
    · split
      · exact view_read _ o
      · exact view_read _ o
    · exact view_read _ o
  · rfl

end Client

/-! ### The signals sent to the process -/

/-- The signals `clean_exit` is installed for. -/
inductive ExitSignal where
  | abrt | fpe | ill | int | pipe | segv | term
  deriving DecidableEq

/-- The array `main` goes through. -/
def signals : List ExitSignal := [.abrt, .fpe, .ill, .int, .pipe, .segv, .term]

/-- `strsignal` -/
def ExitSignal.text : ExitSignal → Str
  | abrt => "Aborted".toList
  | fpe => "Floating point exception".toList
  | ill => "Illegal instruction".toList
  | int => "Interrupt".toList
  | pipe => "Broken pipe".toList
  | segv => "Segmentation fault".toList
  | term => "Terminated".toList

/-- What `clean_exit` makes the bot say the first time: on purpose, or by accident. -/
def Bot.greet (b : Bot) (signum : ExitSignal) : Bot :=
  if signum = .int then b.emote "is pulled into the inky shadows...".toList
  else b.say (StringUtil.format
    ("Aaaahh! ".toList ++ signum.text ++ "! Every man for himself!".toList))

theorem Bot.view_greet (b : Bot) (signum : ExitSignal) : (b.greet signum).view = b.view := by
  unfold Bot.greet
  split
  · exact Bot.view_emote b _
  · exact Bot.view_say b _

theorem Bot.greet_of_loggedOut {b : Bot} (out : b.loggedIn = false) (signum : ExitSignal) :
    b.greet signum = b := by
  unfold Bot.greet
  split
  · rw [Bot.emote, out]
    rfl
  · exact Bot.say_of_loggedOut out _

/-- What a call of `clean_exit` does next. -/
inductive ExitStep where
  /-- test the lock -/
  | testing
  /-- say what has happened -/
  | greeting
  /-- log out -/
  | leaving
  /-- count the lock up -/
  | locking
  deriving DecidableEq

/-- A call of `clean_exit` that has not returned. -/
structure ExitCall where
  signum : ExitSignal
  next : ExitStep
  deriving DecidableEq

/-- Where `main` is, by what it does next. -/
inductive Stage where
  /-- open the scripts -/
  | opening
  /-- test the lock -/
  | head
  /-- sleep and connect -/
  | waiting
  /-- log in -/
  | joining
  /-- test the login flag, in `MainLoop` -/
  | loop
  /-- wait for data -/
  | reading
  /-- handle the strings of a read -/
  | batch (rest : List Str)
  deriving DecidableEq

/-- What the loop of `main` records of its rounds: the seconds it has asked `sleep` for before it
connected, and the end of a `MainLoop`. A signal that is handled cuts the sleep short, and nothing
is done about the rest. -/
inductive Round where
  | dialled (asked : Nat)
  | left
  deriving DecidableEq

structure Process where
  stage : Stage
  client : Client
  waitLength : Nat
  exitLock : Nat
  /-- The calls of `clean_exit` that have not returned, the last one in front: each has interrupted
  what is behind it, and the first one `main`. -/
  calls : List ExitCall
  /-- The exit status, once the process has ended, as a shell tells it. -/
  status : Option Nat
  /-- The rounds so far, a record that nothing reads. -/
  log : List Round

/-- What happens next: the program goes on, or a signal arrives. -/
inductive Event where
  | proceed (i : Input)
  | exit (signum : ExitSignal)
  | hangup

namespace Process

/-- `main`, with the bot it finds in `BOT`. -/
def start (c : Client) : Process := ⟨.opening, c, 1, 0, [], none, []⟩

/-- `main` on the tables of the database. -/
def booted (users : UserTable) (quotes : QuotesTable) (world : World) (readBuffer : ReadBuffer) :
    Process := start ⟨Bot.initial users quotes world, readBuffer⟩

/-- A signal is blocked while it is handled. -/
def Blocks (p : Process) (signum : ExitSignal) : Prop := signum ∈ p.calls.map ExitCall.signum

instance (p : Process) (signum : ExitSignal) : Decidable (p.Blocks signum) :=
  inferInstanceAs (Decidable (_ ∈ _))

/-- What a call leaves of the process: a signal of the processor has ended it, or it goes on. -/
def carryOn (p : Process) (b : Bot) : Process :=
  { p with
    client := { p.client with toBot := b }
    exitLock := if b.halted then max p.exitLock 1 else p.exitLock
    status := if b.halted then some 1 else p.status }

/-- A signal to exit interrupts what is going on. One that is blocked stays pending, and arrives
with an event of its own. -/
def interrupt (p : Process) (signum : ExitSignal) : Process :=
  if p.Blocks signum then p else { p with calls := ⟨signum, .testing⟩ :: p.calls }

/-- The next statement of a call of `clean_exit`. -/
def cleanExit (p : Process) (call : ExitCall) (behind : List ExitCall) : Process :=
  match call.next with
  | .testing =>
    if 0 < p.exitLock then { p with status := some 1 }
    else { p with calls := { call with next := .greeting } :: behind }
  | .greeting =>
    { p with
      client := { p.client with toBot := p.client.toBot.greet call.signum }
      calls := { call with next := .leaving } :: behind }
  | .leaving =>
    { p with
      client := { p.client with toBot := p.client.toBot.logout }
      calls := { call with next := .locking } :: behind }
  | .locking => { p with exitLock := p.exitLock + 1, calls := behind }

/-- The handler of `SIGHUP`. -/
def reloadScripts (p : Process) : Process :=
  if p.Blocks .segv then
    -- a null pointer that is read now ends the process at once, and not by `exit`
    let b := (p.client.toBot.doReloadUnder 1 .roomMessage "Fire_Adept".toList).2
    { p with
      client := { p.client with toBot := b }
      status := if b.halted then some 139 else p.status }
  else p.carryOn (p.client.toBot.doReloadUnder p.exitLock .roomMessage "Fire_Adept".toList).2

/-- What follows `MainLoop`. -/
def leave (p : Process) (c : Client) : Process :=
  { p with
    stage := .head
    client := { c with toBot := c.toBot.logout.disconnect }
    waitLength := 1
    log := p.log ++ [.left] }

variable [Platform]

/-- The next step of `main`. -/
def proceed (username password : Str) (p : Process) (i : Input) : Process :=
  match p.stage with
  | .opening =>
    -- a state of Lua that a signal has opened already is left behind
    match p.client.toBot.reloadLuaUnder p.exitLock with
    | (some (.ok ()), b) => { p.carryOn b with stage := .head }
    | (some (.error _), b) => { p.carryOn b with status := some 1 }
    | (none, b) => p.carryOn b
  | .head =>
    if p.exitLock < 1 then { p with stage := .waiting }
    else
      { p with client := { p.client with toBot := p.client.toBot.logout }, status := some 0 }
  | .waiting =>
    let asked := if p.waitLength ≠ 1 then p.waitLength else 0
    let (ok, b) := p.client.toBot.connect i.connect
    { p with
      stage := if ok then .joining else .head
      client := { p.client with toBot := b }
      waitLength := min (p.waitLength * 2) 1800
      log := p.log ++ [.dialled asked] }
  | .joining =>
    let (ok, c) := p.client.login username password i.recv
    { p with stage := if ok then .loop else .head, client := c }
  | .loop => if p.client.loggedIn then { p with stage := .reading } else p.leave p.client
  | .reading =>
    let (len, c) := p.client.read i.recv
    if len ≤ 0 then p.leave { c with loggedIn := false }
    else { p with stage := .batch (PacketUtil.frames c.readBuffer.text), client := c }
  | .batch [] => { p with stage := .loop }
  | .batch (data :: rest) =>
    { p.carryOn (p.client.toBot.handlePacketUnder p.exitLock data) with stage := .batch rest }

/-- The next step of the call of `clean_exit` that runs, and of `main` where none does. -/
def goOn (username password : Str) (p : Process) (i : Input) : Process :=
  match p.calls with
  | [] => p.proceed username password i
  | call :: behind => p.cleanExit call behind

def step (username password : Str) (p : Process) (e : Event) : Process :=
  if p.status ≠ none then p
  else match e with
    | .proceed i => p.goOn username password i
    | .exit signum => p.interrupt signum
    | .hangup => p.reloadScripts

/-- The process after the events. -/
def run (username password : Str) (events : List Event) (p : Process) : Process :=
  Run.run (step username password) events p

variable {username password : Str}

theorem run_append (first second : List Event) (p : Process) :
    run username password (first ++ second) p =
      run username password second (run username password first p) :=
  Run.run_append _ first second p

/-- Nothing happens to a process that has ended. -/
theorem step_of_ended {p : Process} (ended : p.status ≠ none) (e : Event) :
    step username password p e = p := if_pos ended

theorem running_of_step {p : Process} {e : Event}
    (running : (step username password p e).status = none) : p.status = none := by
  by_contra ended
  rw [step_of_ended ended] at running
  exact ended running

theorem step_of_running {p : Process} (running : p.status = none) (e : Event) :
    step username password p e = match e with
      | .proceed i => p.goOn username password i
      | .exit signum => p.interrupt signum
      | .hangup => p.reloadScripts := if_neg (not_not.mpr running)

/-- Without a call of `clean_exit` the program's own step is one of `main`. -/
theorem step_of_idle {p : Process} (running : p.status = none) (idle : p.calls = []) (i : Input) :
    step username password p (.proceed i) = p.proceed username password i := by
  rw [step_of_running running]
  simp only [goOn, idle]

/-- `main` is interrupted by signals only. -/
theorem calls_proceed (username password : Str) (p : Process) (i : Input) :
    (p.proceed username password i).calls = p.calls := by
  unfold proceed
  cases p.stage with
  | opening =>
    simp only
    rcases p.client.toBot.reloadLuaUnder p.exitLock with ⟨_ | err | _, b⟩ <;> rfl
  | head | loop | reading =>
    simp only
    split <;> rfl
  | batch rest => cases rest <;> rfl
  | _ => rfl

omit [Platform] in
theorem carryOn_running {p : Process} {b : Bot} (running : (p.carryOn b).status = none) :
    p.status = none ∧ b.halted = false := by
  simp only [carryOn] at running
  split at running
  next => cases running
  next alive => exact ⟨running, Bool.not_eq_true _ ▸ alive⟩

/-! ### What a step does to the bot -/

/-- What the program's own step does to the bot, and to the lock and the status. -/
inductive Turns (p q : Process) : Prop where
  /-- the scripts have been opened, -/
  | opened {b : Bot} (place : p.stage = .opening)
    (under : p.client.toBot.reloadLuaUnder p.exitLock = (some (.ok ()), b))
    (next : q = { p.carryOn b with stage := .head })
  /-- or a script has failed, -/
  | unopened {b : Bot} {err : Str} (place : p.stage = .opening)
    (under : p.client.toBot.reloadLuaUnder p.exitLock = (some (.error err), b))
    (next : q = { p.carryOn b with status := some 1 })
  /-- or their directory cannot be read -/
  | crashed {b : Bot} (place : p.stage = .opening)
    (under : p.client.toBot.reloadLuaUnder p.exitLock = (none, b)) (next : q = p.carryOn b)
  /-- a string is handled -/
  | handled {data : Str} {rest : List Str} (place : p.stage = .batch (data :: rest))
    (next : q = { p.carryOn (p.client.toBot.handlePacketUnder p.exitLock data) with
      stage := .batch rest })
  /-- `main` returns -/
  | returned (place : p.stage = .head) (locked : 0 < p.exitLock)
    (next : q = { p with
      client := { p.client with toBot := p.client.toBot.logout }
      status := some 0 })
  /-- the bot connects, logs in, reads or leaves: no string is handled, nothing is forgotten -/
  | aside (opens : p.stage ≠ .opening) (handles : ∀ data rest, p.stage ≠ .batch (data :: rest))
    (view : q.client.toBot.view = p.client.toBot.view) (lock : q.exitLock = p.exitLock)
    (status : q.status = p.status)
    (out : p.stage ≠ .joining → p.client.loggedIn = false → q.client.loggedIn = false)

theorem proceed_turns (username password : Str) (p : Process) (i : Input) :
    Turns p (p.proceed username password i) := by
  -- what is the case in the stages in which the bot keeps its memory
  have aside {stage : Stage} {q : Process} (place : p.stage = stage) (opens : stage ≠ .opening)
      (handles : ∀ data rest, stage ≠ .batch (data :: rest))
      (view : q.client.toBot.view = p.client.toBot.view) (lock : q.exitLock = p.exitLock)
      (status : q.status = p.status)
      (out : stage ≠ .joining → p.client.loggedIn = false → q.client.loggedIn = false) :
      Turns p q := by
    subst place
    exact .aside opens handles view lock status out
  have read := p.client.view_read i.recv
  unfold proceed
  cases stage : p.stage with
  | opening =>
    simp only
    rcases under : p.client.toBot.reloadLuaUnder p.exitLock with ⟨_ | err | _, b⟩
    · exact .crashed stage under rfl
    · exact .unopened stage under rfl
    · exact .opened stage under rfl
  | head =>
    simp only
    split
    next => exact aside stage nofun nofun rfl rfl rfl fun _ out => out
    next locked => exact .returned stage (by omega) (by rw [stage])
  | waiting => exact aside stage nofun nofun rfl rfl rfl fun _ out => out
  | joining =>
    exact aside stage nofun nofun (p.client.view_login username password i.recv) rfl rfl
      fun other => absurd rfl other
  | loop =>
    simp only
    split
    · exact aside stage nofun nofun rfl rfl rfl fun _ out => out
    · exact aside stage nofun nofun (Bot.view_logout _) rfl rfl fun _ _ => rfl
  | reading =>
    simp only
    split
    · exact aside stage nofun nofun ((Bot.view_logout _).trans read) rfl rfl fun _ _ => rfl
    · exact aside stage nofun nofun read rfl rfl fun _ out => p.client.loggedOut_read out i.recv
  | batch rest =>
    cases rest with
    | nil => exact aside stage nofun nofun rfl rfl rfl fun _ out => out
    | cons data rest => exact .handled stage rfl

/-! ### What the handlers do -/

omit [Platform] in
/-- A call of `clean_exit` writes at most, and `main` stays where it is. -/
theorem cleanExit_stays (p : Process) (call : ExitCall) (behind : List ExitCall) :
    (p.cleanExit call behind).client.toBot.view = p.client.toBot.view ∧
      (p.cleanExit call behind).stage = p.stage ∧
      (p.cleanExit call behind).waitLength = p.waitLength ∧
      (p.cleanExit call behind).log = p.log := by
  unfold cleanExit
  cases call.next with
  | testing =>
    simp only
    split <;> exact ⟨rfl, rfl, rfl, rfl⟩
  | greeting => exact ⟨Bot.view_greet _ _, rfl, rfl, rfl⟩
  | leaving => exact ⟨Bot.view_logout _, rfl, rfl, rfl⟩
  | locking => exact ⟨rfl, rfl, rfl, rfl⟩

omit [Platform] in
/-- A signal to exit changes nothing but the calls, and leaves one at least. -/
theorem interrupt_eq (p : Process) (signum : ExitSignal) :
    ∃ calls, p.interrupt signum = { p with calls := calls } ∧ calls ≠ [] := by
  unfold interrupt
  split
  next blocked =>
    refine ⟨p.calls, rfl, fun idle => ?_⟩
    rw [Blocks, idle] at blocked
    cases blocked
  next => exact ⟨_, rfl, List.cons_ne_nil _ _⟩

/-- What a reload by signal leaves of the process. -/
structure Reloads (p q : Process) : Prop where
  bot : ∃ exitLock, Bot.Spared exitLock
    (p.client.toBot.doReload .roomMessage "Fire_Adept".toList).2 q.client.toBot
  /-- Where it has not raised a signal of the processor, the process goes on as before; -/
  alive : q.client.halted = false → q.status = p.status ∧ q.exitLock = p.exitLock
  /-- where it has, the process has ended: by `exit`, or by that signal where it was blocked. -/
  dead : q.client.halted = true → q.status = some 1 ∨ q.status = some 139 ∧ q.Blocks .segv
  lock : p.exitLock ≤ q.exitLock
  calls : q.calls = p.calls
  stage : q.stage = p.stage
  waitLength : q.waitLength = p.waitLength
  log : q.log = p.log

omit [Platform] in
theorem reloadScripts_reloads (p : Process) : Reloads p p.reloadScripts := by
  unfold reloadScripts
  split
  next blocked =>
    exact ⟨⟨1, Bot.Spared.doReload ..⟩, fun alive => ⟨if_neg (Bool.eq_false_iff.mp alive), rfl⟩,
      fun dead => .inr ⟨if_pos dead, blocked⟩, Nat.le_refl _, rfl, rfl, rfl, rfl⟩
  next =>
    refine ⟨⟨p.exitLock, Bot.Spared.doReload ..⟩, fun alive => ?_,
      fun dead => .inl (if_pos dead), ?_, rfl, rfl, rfl, rfl⟩
    · exact ⟨if_neg (Bool.eq_false_iff.mp alive), if_neg (Bool.eq_false_iff.mp alive)⟩
    · simp only [carryOn]
      split
      · exact Nat.le_max_left _ _
      · exact Nat.le_refl _

/-! ### Without signals it is the machine -/

/-- The stage the machine is in. -/
def stageOf : Control → Stage
  | .idle => .head
  | .joining => .joining
  | .loop => .loop
  | .batch rest => .batch rest

/-- The process is where the machine is, and no signal is being handled. -/
structure Plays (m : Machine) (p : Process) : Prop where
  place : p.stage = stageOf m.control
  client : p.client = m.client
  waitLength : p.waitLength = m.waitLength
  status : p.status = if m.client.halted then some 1 else none
  lock : m.client.halted = false → p.exitLock = 0
  idle : p.calls = []

/-- A step of the machine that is one of the process, -/
theorem plays_one {m : Machine} {p : Process} {i : Input} (running : p.status = none)
    (idle : p.calls = []) (plays : Plays m (p.proceed username password i)) :
    ∃ events, (∀ e ∈ events, e = .proceed i) ∧ Plays m (run username password events p) := by
  refine ⟨[.proceed i], by simp, ?_⟩
  rw [run, Run.run_cons, step_of_idle running idle]
  exact plays

/-- or two, where the first one only tests a condition. -/
theorem plays_two {m : Machine} {p : Process} {i : Input} (running : p.status = none)
    (idle : p.calls = []) {stage : Stage}
    (tests : p.proceed username password i = { p with stage := stage })
    (plays : Plays m ({ p with stage := stage }.proceed username password i)) :
    ∃ events, (∀ e ∈ events, e = .proceed i) ∧ Plays m (run username password events p) := by
  obtain ⟨events, all, plays⟩ := plays_one (p := { p with stage := stage }) running idle plays
  refine ⟨.proceed i :: events, by simpa using all, ?_⟩
  rw [run, Run.run_cons, step_of_idle running idle, tests]
  exact plays

/-- Every step of the machine is one of the process, or two. -/
theorem step_plays {m : Machine} {p : Process} (plays : Plays m p) (i : Input) :
    ∃ events, (∀ e ∈ events, e = .proceed i) ∧
      Plays (m.step username password i) (run username password events p) := by
  obtain ⟨place, client, waitLength, status, lock, idle⟩ := plays
  rw [Machine.step]
  split
  next halted =>
    exact ⟨[], by simp, place, client, waitLength, status, lock, idle⟩
  next alive =>
    have unlocked := lock (Bool.not_eq_true _ ▸ alive)
    have running : p.status = none := by rw [status, if_neg alive]
    have going {c : Client} (same : c.halted = m.client.halted) :
        p.status = if c.halted then some 1 else none := by rw [same, status]
    cases control : m.control with
    | idle =>
      rw [control] at place
      -- the lock is tested first
      have tests : p.proceed username password i = { p with stage := .waiting } := by
        simp only [proceed, place, stageOf]
        exact if_pos (by rw [unlocked]; exact Nat.one_pos)
      refine plays_two running idle tests ⟨?_, ?_, ?_, going rfl, fun _ => unlocked, idle⟩
      · simp only [proceed, client]
        split <;> rfl
      · simp only [proceed, client]
      · simp only [proceed, waitLength]
    | joining =>
      rw [control] at place
      have same : (m.client.login username password i.recv).2.halted = m.client.halted :=
        congrArg View.halted (m.client.view_login username password i.recv)
      have still := (calls_proceed username password p i).trans idle
      refine plays_one running idle ⟨?_, ?_, ?_, ?_, ?_, still⟩
      · simp only [proceed, place, stageOf, client]
        split <;> rfl
      · simp only [proceed, place, stageOf, client]
      · simp only [proceed, place, stageOf, waitLength]
      · simp only [proceed, place, stageOf]
        exact going same
      · simp only [proceed, place, stageOf]
        exact fun _ => unlocked
    | loop =>
      rw [control] at place
      have away {c : Client} (same : c.halted = m.client.halted) :
          (c.toBot.logout.disconnect).halted = m.client.halted := by
        rw [← same]
        exact congrArg View.halted (Bot.view_logout c.toBot)
      by_cases loggedIn : m.client.loggedIn = true
      · -- the login flag is tested first
        have tests : p.proceed username password i = { p with stage := .reading } := by
          simp only [proceed, place, stageOf, client, if_pos loggedIn]
        have same := congrArg View.halted (m.client.view_read i.recv)
        refine plays_two running idle tests ?_
        simp only [if_pos loggedIn, proceed, client]
        split
        · exact ⟨rfl, rfl, rfl, going (away same), fun _ => unlocked, idle⟩
        · exact ⟨rfl, rfl, waitLength, going same, fun _ => unlocked, idle⟩
      · refine plays_one running idle ?_
        simp only [proceed, place, stageOf, client, if_neg loggedIn]
        exact ⟨rfl, rfl, rfl, going (away rfl), fun _ => unlocked, idle⟩
    | batch rest =>
      rw [control] at place
      cases rest with
      | nil =>
        refine plays_one running idle ?_
        simp only [proceed, place, stageOf]
        exact ⟨rfl, client, waitLength, status, fun _ => unlocked, idle⟩
      | cons data rest =>
        refine plays_one running idle ?_
        simp only [proceed, place, stageOf, carryOn, client, unlocked, Bot.handlePacketUnder_zero]
        refine ⟨rfl, rfl, waitLength, ?_, fun lives => ?_, idle⟩
        · split
          · rfl
          · rw [running]
        · exact if_neg (Bool.not_eq_true _ ▸ lives)

/-- Every run of the machine is a run of the process to which no signal is sent. -/
theorem run_plays {m : Machine} {p : Process} (plays : Plays m p) (inputs : List Input) :
    ∃ events, (∀ e ∈ events, ∃ i ∈ inputs, e = .proceed i) ∧
      Plays (m.run username password inputs) (run username password events p) := by
  induction inputs generalizing m p with
  | nil => exact ⟨[], by simp, plays⟩
  | cons i inputs ih =>
    obtain ⟨first, here, next⟩ := step_plays plays i
    obtain ⟨second, later, last⟩ := ih next
    refine ⟨first ++ second, fun e member => ?_, ?_⟩
    · rcases List.mem_append.mp member with member | member
      · exact ⟨i, List.mem_cons_self, here e member⟩
      · obtain ⟨j, among, rfl⟩ := later e member
        exact ⟨j, List.mem_cons_of_mem i among, rfl⟩
    · rw [run_append]
      exact last

end Process
end MeepBot
