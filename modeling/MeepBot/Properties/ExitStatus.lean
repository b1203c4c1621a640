import MeepBot.Properties.Lifetime

/-!
# The exit status

The lock of `clean_exit` decides how the process ends. A signal that comes while an earlier one is
being handled finds the lock as that one has left it, which may still be down.

* `exit_status`: what the status of the process says about the signals it has been sent.
-/

namespace MeepBot
namespace Properties

open Process

/-- The call of `clean_exit` that runs finds the lock up. -/
def Doomed (p : Process) : Prop :=
  0 < p.exitLock ∧ ∃ call behind, p.calls = call :: behind ∧ call.next = .testing

/-- How things stand with a process that `n` signals to exit have reached, `k` of them during a call
of `clean_exit`. -/
inductive Standing (n k : Nat) (p : Process) : Prop where
  /-- it goes on: each signal has counted the lock up, or is being handled -/
  | running (status : p.status = none) (count : p.exitLock + p.calls.length = n)
    (few : n = 0 ∧ k = 0 ∨ n = k + 1 ∨ n = k + 2 ∧ Doomed p) (alive : p.client.halted = false)
  /-- `main` has returned behind its loop, and the bot is logged out -/
  | returned (status : p.status = some 0) (once : n = k + 1) (lock : p.exitLock = n)
    (idle : p.calls = []) (stage : p.stage = .head) (out : p.client.loggedIn = false)
  /-- the scripts could not be opened in the beginning -/
  | unopened (status : p.status = some 1) (stage : p.stage = .opening) (few : n ≤ k + 1)
    (closed : p.client.lua = none)
  /-- a signal of the processor has ended it -/
  | killed (status : p.status = some 1 ∨ p.status = some 139 ∧ p.Blocks .segv) (few : n ≤ k + 2)
    (dead : p.client.halted = true)
  /-- a call of `clean_exit` has found the lock up -/
  | interrupted (status : p.status = some 1) (twice : 2 ≤ n) (few : n = k + 1 ∨ n = k + 2)

/-- The signals to exit among some that reach a process while it is there. -/
def delivers (p : Process) : Event → Nat
  | .exit signum => if p.status = none ∧ ¬p.Blocks signum then 1 else 0
  | _ => 0

/-- Those among them that reach it during a call of `clean_exit`. -/
def nests (p : Process) (e : Event) : Nat := if p.calls = [] then 0 else delivers p e

/-- What the events of a run add up to. -/
def total [Platform] (username password : Str) (count : Process → Event → Nat) :
    List Event → Process → Nat
  | [], _ => 0
  | e :: events, p =>
    count p e + total username password count events (p.step username password e)

theorem delivers_of_ended {p : Process} (ended : p.status ≠ none) (e : Event) :
    delivers p e = 0 := by
  cases e with
  | exit signum => exact if_neg fun reaches => ended reaches.1
  | _ => rfl

theorem loggedIn_logout (b : Bot) : b.logout.loggedIn = false := rfl

/-- A failure to load leaves no scripts. -/
theorem lua_of_failed {exitLock : Nat} {b c : Bot} {err : Str}
    (failed : b.reloadLuaUnder exitLock = (some (.error err), c)) : c.lua = none := by
  unfold Bot.reloadLuaUnder at failed
  cases outcome : b.world.reloads.head.1 <;> simp only [outcome] at failed <;> cases failed
  rfl

namespace Standing

variable {n k : Nat} {p : Process}

/-- A process that is there stands in one way only. -/
theorem of_running (standing : Standing n k p) (running : p.status = none) :
    p.exitLock + p.calls.length = n ∧
      (n = 0 ∧ k = 0 ∨ n = k + 1 ∨ n = k + 2 ∧ Doomed p) ∧ p.client.halted = false := by
  cases standing with
  | running status count few alive => exact ⟨count, few, alive⟩
  | returned status => cases status ▸ running
  | unopened status => cases status ▸ running
  | killed status => rcases status with status | ⟨status, -⟩ <;> cases status ▸ running
  | interrupted status => cases status ▸ running

/-- Where no call of `clean_exit` runs, none is about to end the process. -/
theorem of_idle (standing : Standing n k p) (running : p.status = none) (idle : p.calls = []) :
    p.exitLock = n ∧ (n = 0 ∧ k = 0 ∨ n = k + 1) := by
  obtain ⟨count, few, -⟩ := standing.of_running running
  rw [idle] at count
  refine ⟨count, ?_⟩
  rcases few with none | one | ⟨-, -, call, behind, calls, -⟩
  · exact .inl none
  · exact .inr one
  · cases idle.symm.trans calls

/-- What a call leaves of `main`. -/
theorem carryOn (standing : Standing n k p) (running : p.status = none) (idle : p.calls = [])
    (b : Bot) (stage : Stage) : Standing n k { p.carryOn b with stage := stage } := by
  obtain ⟨lock, few⟩ := standing.of_idle running idle
  by_cases dead : b.halted = true
  · exact .killed (.inl (if_pos dead)) (by omega) dead
  · refine .running ((if_neg dead).trans running) ?_ (few.imp_right .inl)
      (Bool.not_eq_true _ ▸ dead)
    simp only [Process.carryOn, if_neg dead, idle]
    exact lock

/-- A reload by signal. -/
theorem reloadScripts (standing : Standing n k p) (running : p.status = none) :
    Standing n k p.reloadScripts := by
  obtain ⟨count, few, -⟩ := standing.of_running running
  have reloads := p.reloadScripts_reloads
  cases dead : p.reloadScripts.client.halted with
  | true => exact .killed (reloads.dead dead) (by omega) dead
  | false =>
    obtain ⟨status, lock⟩ := reloads.alive dead
    refine .running (status.trans running) (by rw [lock, reloads.calls, count]) ?_ dead
    rw [Doomed, lock, reloads.calls]
    exact few

/-- A signal to exit is counted where it starts a call. -/
theorem interrupt (standing : Standing n k p) (running : p.status = none) (signum : ExitSignal) :
    Standing (n + delivers p (.exit signum)) (k + nests p (.exit signum)) (p.interrupt signum) := by
  obtain ⟨count, few, alive⟩ := standing.of_running running
  by_cases blocked : p.Blocks signum
  · -- it stays pending, and is counted when it arrives
    have none : delivers p (.exit signum) = 0 := if_neg fun reaches => reaches.2 blocked
    rw [Process.interrupt, if_pos blocked, nests, none, ite_self]
    exact standing
  have one : delivers p (.exit signum) = 1 := if_pos ⟨running, blocked⟩
  rw [Process.interrupt, if_neg blocked, nests, one]
  refine .running running (by simp only [List.length_cons]; omega) ?_ alive
  have doomed (up : 0 < p.exitLock) :
      Doomed { p with calls := ⟨signum, .testing⟩ :: p.calls } := ⟨up, _, _, rfl, rfl⟩
  by_cases idle : p.calls = []
  · -- the second one that does not come during a call is about to end the process
    rw [if_pos idle]
    obtain ⟨lock, none | first⟩ := standing.of_idle running idle
    · exact .inr (.inl (by omega))
    · exact .inr (.inr ⟨by omega, doomed (by omega)⟩)
  · -- the others are counted on both sides
    rw [if_neg idle]
    rcases few with ⟨none, -⟩ | one | ⟨two, up, -⟩
    · exact absurd (List.eq_nil_of_length_eq_zero (by omega)) idle
    · exact .inr (.inl (by omega))
    · exact .inr (.inr ⟨by omega, doomed up⟩)

/-- The statements of `clean_exit`: the test ends the process where the lock is up. -/
theorem cleanExit (standing : Standing n k p) (running : p.status = none) {call : ExitCall}
    {behind : List ExitCall} (calls : p.calls = call :: behind) :
    Standing n k (p.cleanExit call behind) := by
  obtain ⟨count, few, alive⟩ := standing.of_running running
  rw [calls, List.length_cons] at count
  have kept := (congrArg View.halted (p.cleanExit_stays call behind).1).trans alive
  -- every other statement is one of a call that has found the lock down
  have goes (past : ¬Doomed p) : n = 0 ∧ k = 0 ∨ n = k + 1 := by
    rcases few with none | one | ⟨-, doomed⟩
    · exact .inl none
    · exact .inr one
    · exact absurd doomed past
  have past (later : call.next ≠ .testing) : ¬Doomed p := by
    rintro ⟨-, first, rest, same, testing⟩
    rw [calls] at same
    cases same
    exact later testing
  unfold Process.cleanExit at kept ⊢
  cases next : call.next with
  | testing =>
    simp only
    split
    next up => exact .interrupted rfl (by omega) (by omega)
    next down =>
      have few := goes fun doomed => down doomed.1
      exact .running running count (few.imp_right .inl) alive
  | greeting =>
    have few := goes (past (by rw [next]; decide))
    simp only [next] at kept
    exact .running running count (few.imp_right .inl) kept
  | leaving =>
    have few := goes (past (by rw [next]; decide))
    simp only [next] at kept
    exact .running running count (few.imp_right .inl) kept
  | locking =>
    -- the call returns, and the lock stands for its signal from now on
    have few := goes (past (by rw [next]; decide))
    exact .running running (by simp only; omega) (few.imp_right .inl) alive

variable [Platform] (username password : Str)

theorem proceed (standing : Standing n k p) (running : p.status = none) (idle : p.calls = [])
    (i : Input) : Standing n k (p.proceed username password i) := by
  obtain ⟨lock, few⟩ := standing.of_idle running idle
  obtain ⟨-, -, alive⟩ := standing.of_running running
  have calls := (calls_proceed username password p i).trans idle
  cases p.proceed_turns username password i with
  | opened place under next =>
    rw [next]
    exact standing.carryOn running idle _ .head
  | unopened place under next =>
    rw [next]
    exact .unopened rfl place (by omega) (lua_of_failed under)
  | crashed place under next =>
    rw [next]
    exact standing.carryOn running idle _ p.stage
  | handled place next =>
    rw [next]
    exact standing.carryOn running idle _ _
  | returned place locked next =>
    rw [next]
    exact .returned rfl (by omega) lock idle place (loggedIn_logout _)
  | aside opens handles view same status =>
    refine .running (status.trans running) ?_ (few.imp_right .inl)
      ((congrArg View.halted view).trans alive)
    rw [same, calls, lock]
    rfl

theorem step (standing : Standing n k p) (e : Event) :
    Standing (n + delivers p e) (k + nests p e) (p.step username password e) := by
  by_cases running : p.status = none
  · rw [step_of_running running]
    cases e with
    | exit signum => exact standing.interrupt running signum
    | hangup =>
      have none : delivers p .hangup = 0 := rfl
      rw [nests, none, ite_self]
      exact standing.reloadScripts running
    | proceed i =>
      have none : delivers p (.proceed i) = 0 := rfl
      rw [nests, none, ite_self]
      simp only [goOn]
      split
      next idle => exact standing.proceed username password running idle i
      next calls => exact standing.cleanExit running calls
  · rw [step_of_ended running, nests, delivers_of_ended running, ite_self]
    exact standing

end Standing

section
variable [Platform] (username password : Str)

/-- In every run, the status tells how many signals to exit have reached the process, not counting
those that have come during a call of `clean_exit`: one where it has returned 0, and one or two
where a call has found the lock up, after two signals at least. It ends in two other ways only: the
scripts cannot be opened, or the processor has raised a signal. -/
theorem exit_status (users : UserTable) (quotes : QuotesTable) (world : World)
    (readBuffer : ReadBuffer) (events : List Event) :
    Standing (total username password delivers events (.booted users quotes world readBuffer))
      (total username password nests events (.booted users quotes world readBuffer))
      (Process.run username password events (.booted users quotes world readBuffer)) := by
  -- from any standing, so that the induction goes on behind the first event
  suffices all : ∀ n k p, Standing n k p →
      Standing (n + total username password delivers events p)
        (k + total username password nests events p) (p.run username password events) by
    have initial : Standing 0 0 (.booted users quotes world readBuffer) :=
      .running rfl rfl (.inl ⟨rfl, rfl⟩) rfl
    simpa only [Nat.zero_add] using all 0 0 _ initial
  induction events with
  | nil => exact fun n k p standing => standing
  | cons e events ih =>
    intro n k p standing
    have next := ih _ _ _ (standing.step username password e)
    rw [Nat.add_assoc, Nat.add_assoc] at next
    exact next

omit [Platform] in
/-- A second signal that comes before the first has counted the lock up does not end the process:
both say goodbye, and `main` returns. -/
example :
    let i : Event := .proceed ⟨.lookupFailed, .error⟩
    let events := [i, .exit .int, i, .exit .term] ++ List.replicate 8 i
    let p := @Process.run lp64 "MeepBot".toList "secret".toList events
      (.booted .empty .empty .calm .zero)
    p.status = some 0 ∧ p.exitLock = 2 := by decide +kernel

end

end Properties
end MeepBot
