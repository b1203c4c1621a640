import MeepBot.Process
import MeepBot.Properties.Privilege

/-!
# The lifetime of the process

What the bot remembers is decided by the strings it is given, and by nothing else that happens to
the process.

* `lifetime_heard`: over every order of steps, signals between them, connections and reads, the
  memory is the one of a bot that is handed the strings one after the other, with a `!reload` for
  each loading of the scripts.
* `lifetime_levels`: so a level stays what it is, or sinks to that of the banned, whatever happens.
-/

namespace MeepBot
namespace Properties

open Scripts Effect Output

/-! ### Loading by a signal -/

/-- A packet in which `Fire_Adept` asks for a reload. -/
def reloadLine : Str := "3`Fire_Adept`!reload`0`0`0".toList

/-- What loading makes of the memory. -/
def View.load (v : View) : View :=
  match v.reloads.head.1 with
  | .ran => { v with lua := some loaded, reloads := v.reloads.tail }
  | .failed _ => { v with lua := none, reloads := v.reloads.tail }
  | .unreadable => { v with lua := none, reloads := v.reloads.tail, halted := true }

theorem view_reloadLua (b : Bot) : b.reloadLua.2.view = View.load b.view := by
  have outcome : b.view.reloads = b.world.reloads := rfl
  unfold Bot.reloadLua Bot.reloadLuaUnder View.load
  rw [outcome]
  cases b.world.reloads.head.1 with
  | ran => rfl
  | failed err => rfl
  | unreadable =>
    -- the farewell does not touch it
    have spared := (@Bot.Spared.silent 1
      { b with lua := none, world := { b.world with reloads := b.world.reloads.tail } }
      "Segmentation fault".toList Nat.one_pos).view
    exact spared.symm

/-- The lines in front of it and behind it leave no trace. -/
theorem view_doReload {b : Bot} {caller : Str} (may : b.MayReload caller) (type : MessageCode) :
    (b.doReload type caller).2.view = View.load b.view := by
  rw [Bot.doReload, Bot.doReloadUnder, if_pos may,
    ← Bot.view_reply b type caller "Reloading Lua scripts...".toList, ← view_reloadLua]
  rcases loaded : (b.reply type caller "Reloading Lua scripts...".toList).reloadLua with
    ⟨_ | ret, c⟩
  · simp only [Bot.reloadLuaUnder_zero, loaded]
  · simp only [Bot.reloadLuaUnder_zero, loaded]
    exact Bot.view_reply c type caller _

theorem mayReload_owner (b : Bot) : b.MayReload "Fire_Adept".toList := .inr (by decide)

variable [Platform]

theorem receive_reloadLine {b : Bot} (running : b.halted = false) :
    (b.receive reloadLine).view = View.load b.view := by
  have parsed : ChatPacket.fromString (cstr reloadLine) =
      some (ChatPacket.message .roomMessage "Fire_Adept".toList "!reload".toList) := by
    rw [ChatPacket.fromString_eq]
    rfl
  rw [Bot.receive, running, if_neg Bool.false_ne_true, Bot.handlePacket_accepted b parsed]
  exact view_doReload (mayReload_owner b) .roomMessage

/-! ### The strings a process is given -/

/-- What the bot is given in the next step: a string of a read, or a loading of the scripts. -/
def hears (p : Process) : Event → List Str
  | .proceed _ =>
    match p.calls with
    | [] =>
      match p.stage with
      | .opening => [reloadLine]
      | .batch (data :: _) => [data]
      | _ => []
    | _ :: _ => []
  | .exit _ => []
  | .hangup => [reloadLine]

/-- What it is given over the events, as long as the process is there. -/
def heard (username password : Str) : List Event → Process → List Str
  | [], _ => []
  | e :: events, p =>
    (if p.status = none then hears p e else []) ++
      heard username password events (p.step username password e)

/-- A step of `main` hands the bot the string in front of it. -/
theorem view_proceed (username password : Str) {p : Process} (idle : p.calls = [])
    (alive : p.client.halted = false) (i : Input) :
    (p.proceed username password i).client.toBot.view =
      (Run.run Bot.receive (hears p (.proceed i)) p.client.toBot).view := by
  -- loading the scripts, whatever comes of it, with the memory of loading without the lock
  have opens {r : Option (Except Str Unit)} {c : Bot} (place : p.stage = .opening)
      (under : p.client.toBot.reloadLuaUnder p.exitLock = (r, c)) :
      c.view = (Run.run Bot.receive (hears p (.proceed i)) p.client.toBot).view := by
    have reloads : (Run.run Bot.receive [reloadLine] p.client.toBot).view =
        View.load p.client.toBot.view := receive_reloadLine alive
    have spared := (@Bot.Spared.reloadLua p.exitLock p.client.toBot).1.view
    rw [under, view_reloadLua, ← reloads] at spared
    simpa only [hears, idle, place] using spared
  cases p.proceed_turns username password i with
  | opened place under next => rw [next]; exact opens place under
  | unopened place under next => rw [next]; exact opens place under
  | crashed place under next => rw [next]; exact opens place under
  | @handled data rest place next =>
    have given : Run.run Bot.receive (hears p (.proceed i)) p.client.toBot =
        p.client.toBot.handlePacket data := by
      simp only [hears, idle, place]
      rw [Run.run_cons, Run.run_nil, Bot.receive, alive, if_neg Bool.false_ne_true]
    rw [next, given]
    exact (Bot.Spared.handlePacket p.client.toBot data).view
  | returned place locked next =>
    simp only [next, hears, idle, place]
    exact Bot.view_logout _
  | aside opens handles view =>
    -- the stages in which it hears something are excluded
    have silent : hears p (.proceed i) = [] := by simp only [hears, idle]
    rw [silent]
    exact view

/-- One step hands the bot the strings of its event. -/
theorem view_step (username password : Str) {p : Process} (running : p.status = none)
    (alive : p.client.halted = false) (e : Event) :
    (p.step username password e).client.toBot.view =
      (Run.run Bot.receive (hears p e) p.client.toBot).view := by
  rw [Process.step_of_running running]
  cases e with
  | exit signum =>
    obtain ⟨calls, interrupted, -⟩ := p.interrupt_eq signum
    simp only [interrupted]
    rfl
  | hangup =>
    obtain ⟨exitLock, spared⟩ := p.reloadScripts_reloads.bot
    have reloads : (Run.run Bot.receive [reloadLine] p.client.toBot).view =
        View.load p.client.toBot.view := receive_reloadLine alive
    rw [hears, reloads]
    exact spared.view.trans (view_doReload (mayReload_owner _) _)
  | proceed i =>
    cases idle : p.calls with
    | nil =>
      simp only [Process.goOn, idle]
      exact view_proceed username password idle alive i
    | cons call behind =>
      simp only [Process.goOn, hears, idle]
      exact (p.cleanExit_stays call behind).1

/-- A process that is still there has not been ended by a signal of the processor. -/
theorem alive_proceed (username password : Str) {p : Process} (alive : p.client.halted = false)
    (i : Input) (running : (p.proceed username password i).status = none) :
    (p.proceed username password i).client.halted = false := by
  cases p.proceed_turns username password i with
  | opened place under next =>
    rw [next] at running ⊢
    exact (Process.carryOn_running (p := p) running).2
  | unopened place under next =>
    rw [next] at running
    cases running
  | crashed place under next =>
    rw [next] at running ⊢
    exact (Process.carryOn_running running).2
  | handled place next =>
    rw [next] at running ⊢
    exact (Process.carryOn_running (p := p) running).2
  | returned place locked next =>
    rw [next] at running
    cases running
  | aside opens handles view => exact (congrArg View.halted view).trans alive

theorem alive_step (username password : Str) {p : Process}
    (alive : p.status = none → p.client.halted = false) (e : Event)
    (running : (p.step username password e).status = none) :
    (p.step username password e).client.halted = false := by
  have started := Process.running_of_step running
  rw [Process.step_of_running started] at running ⊢
  cases e with
  | exit signum =>
    obtain ⟨calls, interrupted, -⟩ := p.interrupt_eq signum
    simp only [interrupted]
    exact alive started
  | hangup =>
    by_contra dead
    have ended := p.reloadScripts_reloads.dead (Bool.not_eq_false _ ▸ dead)
    simp only at running
    rw [running] at ended
    simp at ended
  | proceed i =>
    cases idle : p.calls with
    | nil =>
      simp only [Process.goOn, idle] at running ⊢
      exact alive_proceed username password (alive started) i running
    | cons call behind =>
      simp only [Process.goOn, idle]
      exact (congrArg View.halted (p.cleanExit_stays call behind).1).trans (alive started)

theorem alive_run (username password : Str) (events : List Event) {p : Process}
    (alive : p.status = none → p.client.halted = false) :
    (p.run username password events).status = none →
      (p.run username password events).client.halted = false :=
  Run.invariant_of_inputs (Process.step username password)
    (fun p => p.status = none → p.client.halted = false) (fun _ => True)
    (fun _ e alive _ => alive_step username password alive e) events (fun _ _ => trivial) p alive

/-- The same of a list of events, from any process that is still there or has ended. -/
theorem view_run (username password : Str) (events : List Event) {p : Process}
    (alive : p.status = none → p.client.halted = false) :
    (p.run username password events).client.toBot.view =
      (Run.run Bot.receive (heard username password events p) p.client.toBot).view := by
  induction events generalizing p with
  | nil => rfl
  | cons e events ih =>
    have rest := ih (alive_step username password alive e)
    rw [Process.run, Run.run_cons, ← Process.run, rest, heard, Run.run_append]
    -- the strings that follow are given to bots with one view
    refine Steps.view_eq (Steps.run Bot.receive_steps _) ?_
    by_cases running : p.status = none
    · rw [if_pos running]
      exact view_step username password running (alive running) e
    · rw [if_neg running, Process.step_of_ended running]
      rfl

/-- Over every order of steps, signals, connections and reads, the process remembers what a bot
remembers that is handed the strings one after the other, with a `!reload` of its owner for each
loading of the scripts. -/
theorem lifetime_heard (username password : Str) (users : UserTable) (quotes : QuotesTable)
    (world : World) (readBuffer : ReadBuffer) (events : List Event) :
    (Process.run username password events
        (.booted users quotes world readBuffer)).client.toBot.view =
      (Run.run Bot.receive
        (heard username password events (.booted users quotes world readBuffer))
        (Bot.initial users quotes world)).view :=
  view_run username password events fun _ => rfl

omit [Platform] in
theorem shipped_of_view {b c : Bot} (same : b.view = c.view) (open_ : c.Shipped) : b.Shipped := by
  have lua : b.lua = c.lua := congrArg View.lua same
  rw [Bot.Shipped, lua]
  exact open_

/-- Between any two moments of its life, the process keeps every row of the table with its level,
or with the level of the banned. -/
theorem lifetime_levels (username password : Str) (users : UserTable) (quotes : QuotesTable)
    (world : World) (readBuffer : ReadBuffer) (earlier later : List Event) {name : Str}
    {r : UserRow} (row : UserDB.rowOf (Process.run username password earlier
      (.booted users quotes world readBuffer)).client.users name = some r) :
    ∃ r', UserDB.rowOf (Process.run username password (earlier ++ later)
        (.booted users quotes world readBuffer)).client.users name = some r' ∧
      (r'.accessLevel = r.accessLevel ∨ r'.accessLevel = .banned) := by
  let b := Bot.initial users quotes world
  obtain ⟨p, reached⟩ : ∃ p, Process.run username password earlier
    (.booted users quotes world readBuffer) = p := ⟨_, rfl⟩
  have before : p.client.toBot.view = (Run.run Bot.receive (heard username password earlier
      (.booted users quotes world readBuffer)) b).view := by
    rw [← reached]
    exact lifetime_heard username password users quotes world readBuffer earlier
  have open_ : p.client.Shipped := by
    refine shipped_of_view before ?_
    -- the scripts are not open in the beginning, and every string keeps them the shipped ones
    exact Run.invariant_of_inputs Bot.receive Bot.Shipped (fun _ => True)
      (fun _ data open_ _ => Bot.receive_shipped open_ data) _ (fun _ _ => trivial) b nofun
  have alive : p.status = none → p.client.halted = false := by
    rw [← reached]
    exact alive_run username password earlier fun _ => rfl
  rw [Process.run_append, reached]
  rw [reached] at row
  obtain ⟨r', after, level⟩ := row_run open_ (heard username password later p) row
  refine ⟨r', ?_, level⟩
  have table := congrArg View.users (view_run username password later alive)
  exact (congrArg (UserDB.rowOf · name) table).trans after

omit [Platform] in
/-- An interrupt and a reload by signal, behind the loading of the scripts. -/
theorem lifetime_levels_bob : ∃ r', UserDB.rowOf (@Process.run lp64 "MeepBot".toList "secret".toList
      ([.proceed ⟨.lookupFailed, .error⟩] ++ [.exit .int, .hangup])
      (.booted (UserDB.addUser .empty "bob".toList .mod) .empty .calm .zero)).client.users
        "BOB".toList = some r' ∧
    (r'.accessLevel = .mod ∨ r'.accessLevel = .banned) :=
  @lifetime_levels lp64 "MeepBot".toList "secret".toList _ _ _ _ [.proceed ⟨.lookupFailed, .error⟩]
    [.exit .int, .hangup] "BOB".toList (UserDB.newRow "bob".toList .mod) (by decide)

end Properties
end MeepBot
