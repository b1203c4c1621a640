import MeepBot.Properties.ExitStatus

/-!
# Waiting and ending

How long the loop of `main` waits, and what a signal to exit puts an end to.

* `waits_paced`: how long the process means to sleep before each connection.
* `exit_shuts_down`: after a signal to exit the bot leaves, and the process soon ends.
-/

namespace MeepBot
namespace Properties

open Process

/-! ### The steps of the program -/

/-- The moves between the stages, other than to connect and to leave a session. -/
inductive Moves (p q : Process) : Prop where
  | opened (source : p.stage = .opening)
    (target : q.stage = .head ∨ q.stage = .opening ∧ q.status ≠ none)
  | tested (source : p.stage = .head) (target : q.stage = .waiting) (unlocked : p.exitLock = 0)
  | returned (source : p.stage = .head) (target : q.stage = .head) (ended : q.status ≠ none)
  | joined (source : p.stage = .joining) (target : q.stage = .loop ∨ q.stage = .head)
  | listens (source : p.stage = .loop) (target : q.stage = .reading) (on : p.client.loggedIn = true)
  | received (source : p.stage = .reading) (rest : List Str) (target : q.stage = .batch rest)
    (few : rest.length ≤ bufferSize + 1)
  | handled (data : Str) (rest : List Str) (source : p.stage = .batch (data :: rest))
    (target : q.stage = .batch rest)
  | emptied (source : p.stage = .batch []) (target : q.stage = .loop)

/-- What a step of the program does to the stage, the waits and the record. -/
inductive Advances (p q : Process) : Prop where
  /-- a connection is tried -/
  | dial (source : p.stage = .waiting) (target : q.stage = .joining ∨ q.stage = .head)
    (log : q.log = p.log ++ [.dialled (if p.waitLength ≠ 1 then p.waitLength else 0)])
    (waitLength : q.waitLength = min (p.waitLength * 2) 1800)
  /-- a session is over -/
  | leave (source : p.stage = .loop ∨ p.stage = .reading) (target : q.stage = .head)
    (log : q.log = p.log ++ [.left]) (waitLength : q.waitLength = 1)
  /-- neither -/
  | quiet (move : Moves p q) (log : q.log = p.log) (waitLength : q.waitLength = p.waitLength)

/-- A read fills the buffer at most, and each of its strings takes a byte. -/
theorem frames_length (buffer : ReadBuffer) :
    (PacketUtil.frames buffer.text).length ≤ bufferSize + 1 := by
  have short : buffer.text.length ≤ bufferSize := by
    rw [← buffer.size]
    exact (List.takeWhile_prefix _).length_le
  rcases PacketUtil.frames_cases buffer.text with ⟨-, one⟩ | ⟨l, -, -, one⟩ | ⟨-, many⟩
  · rw [one]
    exact Nat.le_add_left 1 _
  · rw [one]
    exact Nat.le_add_left 1 _
  · rw [many]
    exact (Pieces.length_le_count '\n' buffer.text).trans
      (Nat.succ_le_succ (List.count_le_length.trans short))

/-- Where the directory cannot be read, the processor has raised a signal. -/
theorem halted_of_fault {exitLock : Nat} {b c : Bot}
    (faulty : b.reloadLuaUnder exitLock = (none, c)) : c.halted = true := by
  unfold Bot.reloadLuaUnder at faulty
  cases outcome : b.world.reloads.head.1 <;> simp only [outcome] at faulty <;> cases faulty
  unfold Bot.fault
  split <;> rfl

section
variable [Platform] (username password : Str)

theorem proceed_advances (p : Process) (i : Input) :
    Advances p (p.proceed username password i) := by
  unfold Process.proceed
  cases stage : p.stage with
  | opening =>
    simp only
    rcases under : p.client.toBot.reloadLuaUnder p.exitLock with ⟨_ | err | _, b⟩
    · -- the stage stays, but nothing follows it
      have ended : (p.carryOn b).status ≠ none := fun running =>
        absurd (halted_of_fault under) (Bool.eq_false_iff.mp (carryOn_running running).2)
      exact .quiet (.opened stage (.inr ⟨stage, ended⟩)) rfl rfl
    · exact .quiet (.opened stage (.inr ⟨stage, Option.some_ne_none 1⟩)) rfl rfl
    · exact .quiet (.opened stage (.inl rfl)) rfl rfl
  | head =>
    simp only
    split
    next unlocked => exact .quiet (.tested stage rfl (Nat.lt_one_iff.mp unlocked)) rfl rfl
    next => exact .quiet (.returned stage rfl (Option.some_ne_none 0)) rfl rfl
  | waiting =>
    refine .dial stage ?_ rfl rfl
    simp only
    split
    · exact .inl rfl
    · exact .inr rfl
  | joining =>
    refine .quiet (.joined stage ?_) rfl rfl
    simp only
    split
    · exact .inl rfl
    · exact .inr rfl
  | loop =>
    simp only
    split
    next on => exact .quiet (.listens stage rfl on) rfl rfl
    next => exact .leave (.inl stage) rfl rfl rfl
  | reading =>
    simp only
    split
    next => exact .leave (.inr stage) rfl rfl rfl
    next => exact .quiet (.received stage _ rfl (frames_length _)) rfl rfl
  | batch rest =>
    cases rest with
    | nil => exact .quiet (.emptied stage rfl) rfl rfl
    | cons data rest => exact .quiet (.handled data rest stage rfl) rfl rfl

/-- Whatever happens, `main` takes a step of its own, or it stays where it is. -/
theorem step_advances (p : Process) (e : Event) :
    p.calls = [] ∧ Advances p (p.step username password e) ∨
      (p.step username password e).stage = p.stage ∧
        (p.step username password e).log = p.log ∧
        (p.step username password e).waitLength = p.waitLength := by
  by_cases running : p.status = none
  swap
  · rw [step_of_ended running]
    exact .inr ⟨rfl, rfl, rfl⟩
  rw [step_of_running running]
  cases e with
  | proceed i =>
    simp only [goOn]
    split
    next idle => exact .inl ⟨idle, proceed_advances username password p i⟩
    next call behind _ =>
      obtain ⟨-, stage, waitLength, log⟩ := p.cleanExit_stays call behind
      exact .inr ⟨stage, log, waitLength⟩
  | exit signum =>
    obtain ⟨calls, interrupted, -⟩ := p.interrupt_eq signum
    refine .inr ?_
    simp only [interrupted, and_self]
  | hangup =>
    have reloads := p.reloadScripts_reloads
    exact .inr ⟨reloads.stage, reloads.log, reloads.waitLength⟩

end

/-! ### How long it waits -/

/-- The connections that have been tried since the last session. -/
def tries (log : List Round) : Nat :=
  log.foldl (fun n r => match r with
    | .dialled _ => n + 1
    | .left => 0) 0

/-- The pause in front of a connection, after some others have been tried. -/
def pause (tried : Nat) : Nat := if tried = 0 then 0 else min (2 ^ tried) 1800

/-- The next wait is the power of two, up to half an hour, and so were all before it. -/
structure Paced (p : Process) : Prop where
  next : p.waitLength = min (2 ^ tries p.log) 1800
  past : ∀ before asked after, p.log = before ++ .dialled asked :: after →
    asked = pause (tries before)

theorem tries_append (log : List Round) (r : Round) : tries (log ++ [r]) =
    match r with
    | .dialled _ => tries log + 1
    | .left => 0 := by
  rw [tries, List.foldl_append]
  rfl

/-- What is found in a record with one more entry was there before, or is that entry. -/
theorem split_append {log before after : List Round} {r s : Round}
    (split : log ++ [r] = before ++ s :: after) :
    (∃ rest, log = before ++ s :: rest) ∨ before = log ∧ s = r := by
  rcases List.eq_nil_or_concat after with rfl | ⟨rest, last, rfl⟩
  · obtain ⟨rfl, same⟩ := List.append_inj' split rfl
    exact .inr ⟨rfl, (List.cons.inj same).1.symm⟩
  · rw [List.concat_eq_append, ← List.cons_append, ← List.append_assoc] at split
    exact .inl ⟨rest, (List.append_inj' split rfl).1⟩

namespace Paced

variable {p q : Process}

theorem of_same (paced : Paced p) (log : q.log = p.log) (waitLength : q.waitLength = p.waitLength) :
    Paced q :=
  ⟨by rw [log, waitLength, paced.next], by rw [log]; exact paced.past⟩

/-- The pause that is asked for is the one the wait stands for. -/
theorem asked (paced : Paced p) :
    (if p.waitLength ≠ 1 then p.waitLength else 0) = pause (tries p.log) := by
  rw [pause, paced.next]
  by_cases fresh : tries p.log = 0
  · -- a wait of one second is the one that is not taken
    rw [fresh]
    rfl
  · have long : 2 ≤ 2 ^ tries p.log := Nat.le_self_pow fresh 2
    rw [if_neg fresh, if_pos (by omega)]

theorem advance (paced : Paced p) (advances : Advances p q) : Paced q := by
  cases advances with
  | quiet move log waitLength => exact paced.of_same log waitLength
  | leave source target log waitLength =>
    refine ⟨?_, fun before asked after split => ?_⟩
    · rw [waitLength, log, tries_append]
      rfl
    · rw [log] at split
      rcases split_append split with ⟨rest, old⟩ | ⟨-, new⟩
      · exact paced.past before asked rest old
      · cases new
  | dial source target log waitLength =>
    rw [paced.asked] at log
    refine ⟨?_, fun before asked after split => ?_⟩
    · rw [waitLength, log, tries_append, paced.next]
      -- doubling what is cut off at the bound is cut off there again
      simp only [Nat.pow_succ]
      omega
    · rw [log] at split
      rcases split_append split with ⟨rest, old⟩ | ⟨rfl, new⟩
      · exact paced.past before asked rest old
      · exact Round.dialled.inj new

variable [Platform] (username password : Str)

theorem step (paced : Paced p) (e : Event) : Paced (p.step username password e) := by
  rcases step_advances username password p e with ⟨-, advances⟩ | ⟨-, log, waitLength⟩
  · exact paced.advance advances
  · exact paced.of_same log waitLength

end Paced

/-- In every run, the process has asked `sleep` before each connection for as many seconds as the
number of connections tried since the last session says: for none before the first one, and then for
twice as many as before, up to half an hour. -/
theorem waits_paced [Platform] (username password : Str) (users : UserTable) (quotes : QuotesTable)
    (world : World) (readBuffer : ReadBuffer) (events : List Event) :
    Paced (Process.run username password events (.booted users quotes world readBuffer)) := by
  refine Run.invariant_of_inputs (Process.step username password) Paced (fun _ => True)
    (fun _ e paced _ => paced.step username password e) events (fun _ _ => trivial) _ ⟨rfl, ?_⟩
  intro before asked after split
  cases before <;> cases split

/-! ### What a signal to exit puts an end to -/

/-- The connections that have been tried. -/
def dials (log : List Round) : Nat := log.countP fun r => decide (r ≠ .left)

/-- The connection that is tried before the lock is tested again. -/
def pending : Stage → Nat
  | .waiting => 1
  | _ => 0

/-- The steps the program takes by itself. -/
def proceeds : List Event → Nat
  | [] => 0
  | .proceed _ :: events => proceeds events + 1
  | _ :: events => proceeds events

/-- The steps that are left to a process that is logged out and finds the lock up, where it is not
about to connect. -/
def remaining : Stage → Nat
  | .opening | .loop => 2
  | .head => 1
  | .waiting | .joining => 0
  | .reading => bufferSize + 5
  | .batch rest => rest.length + 3

/-- The batch in hand comes from one read. -/
def Brief (p : Process) : Prop := remaining p.stage ≤ bufferSize + 5

/-- The statements of a call of `clean_exit` that are left, the test of a lock that is up apart,
which ends the process. -/
def statements (exitLock : Nat) : ExitStep → Nat
  | .testing => if 0 < exitLock then 0 else 4
  | .greeting => 3
  | .leaving => 2
  | .locking => 1

/-- The statements left to the calls of `clean_exit`, with those of the calls that may still come
while the lock is down: one for each signal that is not blocked. -/
def owed (p : Process) : Nat :=
  (p.calls.map fun call => statements p.exitLock call.next).sum +
    if 0 < p.exitLock then 0 else 4 * (signals.length - p.calls.length)

/-- What holds of the calls of `clean_exit` in every state. -/
structure Orderly (p : Process) : Prop where
  /-- a signal is blocked while it is handled -/
  blocked : (p.calls.map ExitCall.signum).Nodup
  /-- the lock is counted up after the logout -/
  out : ∀ call ∈ p.calls, call.next = .locking → p.client.loggedIn = false
  /-- and a call that goes on under it has been interrupted by the one that has logged out -/
  locked : 0 < p.exitLock → p.calls = [] ∨ Doomed p ∨ p.client.loggedIn = false

/-- The process finds the lock up when it tests it again, and will not log in before. -/
structure Closing (p : Process) : Prop where
  orderly : Orderly p
  alive : p.client.halted = false
  away : p.stage ≠ .waiting ∧ p.stage ≠ .joining
  closes : p.calls ≠ [] ∨ 0 < p.exitLock ∧ p.client.loggedIn = false

theorem Advances.pending_le {p q : Process} (advances : Advances p q) (locked : 0 < p.exitLock) :
    dials q.log + pending q.stage ≤ dials p.log + pending p.stage := by
  have added (r : Round) : dials (p.log ++ [r]) = dials p.log + dials [r] := List.countP_append
  cases advances with
  | dial source target log waitLength =>
    rw [log, added, source]
    rcases target with target | target <;> rw [target] <;> exact Nat.le_refl _
  | leave source target log waitLength =>
    rw [log, added, target]
    exact Nat.le_add_right _ _
  | quiet move log waitLength =>
    rw [log]
    have none : pending q.stage = 0 := by
      cases move with
      | opened source target =>
        rcases target with target | ⟨target, -⟩ <;> rw [target] <;> rfl
      | tested source target unlocked => omega
      | joined source target => rcases target with target | target <;> rw [target] <;> rfl
      | returned source target ended => rw [target]; rfl
      | listens source target on => rw [target]; rfl
      | received source rest target few => rw [target]; rfl
      | handled data rest source target => rw [target]; rfl
      | emptied source target => rw [target]; rfl
    omega

/-- Each step takes one away, and keeps the process from connecting. -/
theorem Advances.remaining_lt {p q : Process} (advances : Advances p q) (locked : 0 < p.exitLock)
    (out : p.client.loggedIn = false) (away : p.stage ≠ .waiting ∧ p.stage ≠ .joining)
    (running : q.status = none) :
    remaining q.stage < remaining p.stage ∧ q.stage ≠ .waiting ∧ q.stage ≠ .joining := by
  obtain ⟨waits, joins⟩ := away
  cases advances with
  | dial source => exact absurd source waits
  | leave source target log waitLength =>
    rw [target]
    rcases source with source | source <;> rw [source] <;> simp [remaining]
  | quiet move log waitLength =>
    cases move with
    | opened source target =>
      rcases target with target | ⟨-, ended⟩
      · rw [source, target]
        simp [remaining]
      · exact absurd running ended
    -- the lock is up, so the loop is not entered again
    | tested source target unlocked => omega
    | returned source target ended => exact absurd running ended
    | joined source target => exact absurd source joins
    -- it is logged out, and does not wait for data again
    | listens source target on => cases out.symm.trans on
    | received source rest target few =>
      rw [source, target]
      simp only [remaining]
      exact ⟨by omega, nofun, nofun⟩
    | handled data rest source target =>
      rw [source, target]
      simp [remaining]
    | emptied source target =>
      rw [source, target]
      simp [remaining]

/-- No stage has more left than the wait for data. -/
theorem Advances.brief {p q : Process} (advances : Advances p q) (brief : Brief p) : Brief q := by
  have small {stage : Stage} (target : q.stage = stage)
      (few : remaining stage ≤ bufferSize + 5) : Brief q := by
    rw [Brief, target]
    exact few
  cases advances with
  | dial source target => rcases target with target | target <;> exact small target (by decide)
  | leave source target => exact small target (by decide)
  | quiet move log waitLength =>
    cases move with
    | opened source target =>
      rcases target with target | ⟨target, -⟩ <;> exact small target (by decide)
    | tested source target unlocked => exact small target (by decide)
    | returned source target ended => exact small target (by decide)
    | joined source target => rcases target with target | target <;> exact small target (by decide)
    | listens source target on => exact small target (Nat.le_refl _)
    | received source rest target few =>
      refine small target ?_
      simp only [remaining]
      omega
    | handled data rest source target =>
      rw [Brief, source] at brief
      simp only [remaining, List.length_cons] at brief
      refine small target ?_
      simp only [remaining]
      omega
    | emptied source target => exact small target (by decide)

/-! ### The calls of `clean_exit` -/

/-- A call that the process goes on from does not log the bot in. -/
theorem out_spared {exitLock : Nat} {b c : Bot} (spared : Bot.Spared exitLock b c)
    (alive : c.halted = false) (out : b.loggedIn = false) : c.loggedIn = false := by
  cases spared with
  | same => exact out
  | silent b signal locked => cases alive

/-- Every signal is one of the array. -/
theorem length_calls_le {calls : List ExitCall} (blocked : (calls.map ExitCall.signum).Nodup) :
    calls.length ≤ signals.length := by
  have among : calls.map ExitCall.signum ⊆ signals := fun signum _ => by
    cases signum <;> decide
  have few := (List.subperm_of_subset blocked among).length_le
  rwa [List.length_map] at few

theorem statements_le (exitLock : Nat) (next : ExitStep) : statements exitLock next ≤ 4 := by
  cases next with
  | testing =>
    rw [statements]
    split <;> decide
  | _ => simp [statements]

theorem sum_statements_le (exitLock : Nat) (calls : List ExitCall) :
    (calls.map fun call => statements exitLock call.next).sum ≤ 4 * calls.length := by
  induction calls with
  | nil => exact Nat.le_refl 0
  | cons call calls ih =>
    have first := statements_le exitLock call.next
    rw [List.map_cons, List.sum_cons, List.length_cons]
    omega

/-- A lock that goes up takes nothing but tests away. -/
theorem sum_statements_locked (exitLock : Nat) (calls : List ExitCall) :
    (calls.map fun call => statements (exitLock + 1) call.next).sum ≤
      (calls.map fun call => statements exitLock call.next).sum := by
  refine List.sum_le_sum fun call _ => ?_
  cases call.next with
  | testing => exact Nat.zero_le _
  | _ => exact Nat.le_refl _

/-- A statement of `clean_exit` that does not end the process is one less to come. -/
theorem owed_cleanExit {p : Process} {call : ExitCall} {behind : List ExitCall}
    (calls : p.calls = call :: behind) (goes : (p.cleanExit call behind).status = none) :
    owed (p.cleanExit call behind) < owed p := by
  have before : owed p = statements p.exitLock call.next +
      (behind.map fun c => statements p.exitLock c.next).sum +
        if 0 < p.exitLock then 0 else 4 * (signals.length - (behind.length + 1)) := by
    rw [owed, calls]
    rfl
  rw [before]
  unfold Process.cleanExit at goes ⊢
  cases next : call.next with
  | testing =>
    simp only [next] at goes ⊢
    split at goes
    next => cases goes
    next down =>
      rw [if_neg down]
      simp only [owed, List.map_cons, List.sum_cons, List.length_cons, statements, if_neg down]
      omega
  | greeting | leaving =>
    simp only [owed, List.map_cons, List.sum_cons, List.length_cons, statements]
    omega
  | locking =>
    -- the tests of the calls behind it will end the process now
    have fewer := sum_statements_locked p.exitLock behind
    have one : statements p.exitLock .locking = 1 := rfl
    simp only [owed, one, if_pos (Nat.succ_pos p.exitLock)]
    omega

namespace Orderly

variable {p : Process}

/-- Each signal of the array takes four statements at most. -/
theorem owed_le (orderly : Orderly p) : owed p ≤ 4 * signals.length := by
  have few := length_calls_le orderly.blocked
  have sum := sum_statements_le p.exitLock p.calls
  rw [owed]
  split <;> omega

/-- Nothing is asked of a process without calls. -/
theorem of_idle (idle : p.calls = []) : Orderly p where
  blocked := by rw [idle]; exact List.nodup_nil
  out call among := by rw [idle] at among; cases among
  locked _ := .inl idle

/-- A signal to exit. -/
theorem interrupt (orderly : Orderly p) (signum : ExitSignal) :
    Orderly (p.interrupt signum) ∧ owed (p.interrupt signum) ≤ owed p := by
  unfold Process.interrupt
  split
  next => exact ⟨orderly, Nat.le_refl _⟩
  next free =>
    have blocked : ((⟨signum, .testing⟩ :: p.calls).map ExitCall.signum).Nodup :=
      List.nodup_cons.mpr ⟨free, orderly.blocked⟩
    refine ⟨⟨blocked, fun call among next => ?_, fun up => .inr (.inl ⟨up, _, _, rfl, rfl⟩)⟩, ?_⟩
    · rcases List.mem_cons.mp among with rfl | among
      · cases next
      · exact orderly.out call among next
    · have few := length_calls_le blocked
      simp only [List.length_cons] at few
      simp only [owed, List.map_cons, List.sum_cons, List.length_cons, statements]
      split <;> omega

/-- A statement of `clean_exit`. -/
theorem cleanExit (orderly : Orderly p) {call : ExitCall} {behind : List ExitCall}
    (calls : p.calls = call :: behind) : Orderly (p.cleanExit call behind) := by
  obtain ⟨blocked, out, locked⟩ := orderly
  have same := blocked
  rw [calls] at same out
  -- the calls behind it are those of before
  have others : ∀ c ∈ behind, c.next = .locking → p.client.loggedIn = false :=
    fun c among => out c (List.mem_cons_of_mem _ among)
  have noted {next : ExitStep} (early : next ≠ .locking) :
      ∀ c ∈ { call with next := next } :: behind, c.next = .locking →
        p.client.loggedIn = false := fun c among last => by
    rcases List.mem_cons.mp among with rfl | among
    · exact absurd last early
    · exact others c among last
  unfold Process.cleanExit
  cases next : call.next with
  | testing =>
    simp only
    split
    next => exact ⟨blocked, by rw [calls]; exact out, locked⟩
    next down => exact ⟨same, noted (by decide), fun up => absurd up down⟩
  | greeting =>
    have quiet (off : p.client.loggedIn = false) :
        (p.client.toBot.greet call.signum).loggedIn = false := by
      rw [Bot.greet_of_loggedOut off]
      exact off
    refine ⟨same, fun c among last => quiet (noted (by decide) c among last), fun up => .inr ?_⟩
    -- it has passed the test of the lock, so another call has counted it up
    rcases locked up with idle | ⟨-, first, rest, found, test⟩ | off
    · cases calls.symm.trans idle
    · rw [calls] at found
      cases found
      cases next.symm.trans test
    · exact .inr (quiet off)
  -- from here on every call finds the bot logged out
  | leaving => exact ⟨same, fun _ _ _ => rfl, fun _ => .inr (.inr rfl)⟩
  | locking =>
    have off := out call List.mem_cons_self next
    exact ⟨(List.nodup_cons.mp same).2, others, fun _ => .inr (.inr off)⟩

/-- A reload by signal, where it does not end the process. -/
theorem reloadScripts (orderly : Orderly p) (alive : p.reloadScripts.client.halted = false) :
    Orderly p.reloadScripts ∧ owed p.reloadScripts = owed p ∧
      (p.client.loggedIn = false → p.reloadScripts.client.loggedIn = false) := by
  obtain ⟨blocked, out, locked⟩ := orderly
  have reloads := p.reloadScripts_reloads
  obtain ⟨-, lock⟩ := reloads.alive alive
  -- it does not log the bot in
  have still (off : p.client.loggedIn = false) : p.reloadScripts.client.loggedIn = false := by
    obtain ⟨exitLock, spared⟩ := reloads.bot
    exact out_spared spared alive (Bot.loggedOut_steps (Bot.doReload_steps _ _) off)
  refine ⟨⟨?_, ?_, ?_⟩, ?_, still⟩
  · rw [reloads.calls]
    exact blocked
  · rw [reloads.calls]
    exact fun call among last => still (out call among last)
  · rw [lock, reloads.calls, Doomed, lock, reloads.calls]
    exact fun up => (locked up).imp_right fun either => either.imp_right still
  · rw [owed, owed, lock, reloads.calls]

end Orderly

/-- A call that returns has counted the lock up. -/
theorem cleanExit_calls {p : Process} {call : ExitCall} {behind : List ExitCall}
    (calls : p.calls = call :: behind) : (p.cleanExit call behind).calls ≠ [] ∨
      call.next = .locking ∧
        p.cleanExit call behind = { p with exitLock := p.exitLock + 1, calls := behind } := by
  have some : p.calls ≠ [] := by
    rw [calls]
    exact List.cons_ne_nil _ _
  unfold Process.cleanExit
  cases next : call.next with
  | testing =>
    simp only
    split
    · exact .inl some
    · exact .inl (List.cons_ne_nil _ _)
  | greeting | leaving => exact .inl (List.cons_ne_nil _ _)
  | locking => exact .inr ⟨rfl, rfl⟩

/-- The lock is up, or a call of `clean_exit` will count it up before `main` goes on. -/
def Shut (p : Process) : Prop := 0 < p.exitLock ∨ p.calls ≠ []

/-! ### The run behind a signal -/

section
variable [Platform] (username password : Str)

theorem brief_step {p : Process} (brief : Brief p) (e : Event) :
    Brief (p.step username password e) := by
  rcases step_advances username password p e with ⟨-, advances⟩ | ⟨stage, -⟩
  · exact advances.brief brief
  · rw [Brief, stage]
    exact brief

/-- `main` does not lower the lock. -/
theorem locked_proceed {p : Process} (locked : 0 < p.exitLock) (i : Input) :
    0 < (p.proceed username password i).exitLock := by
  have kept (b : Bot) : 0 < (p.carryOn b).exitLock := by
    simp only [carryOn]
    split
    · exact Nat.lt_of_lt_of_le Nat.one_pos (Nat.le_max_right _ _)
    · exact locked
  cases p.proceed_turns username password i with
  | opened place under next => rw [next]; exact kept _
  | unopened place under next => rw [next]; exact kept _
  | crashed place under next => rw [next]; exact kept _
  | handled place next => rw [next]; exact kept _
  | returned place up next => rw [next]; exact locked
  | aside opens handles view lock => rw [lock]; exact locked

theorem shut_step {p : Process} (shut : Shut p) (e : Event) :
    Shut (p.step username password e) := by
  by_cases running : p.status = none
  swap
  · rw [step_of_ended running]
    exact shut
  rw [step_of_running running]
  cases e with
  | exit signum =>
    obtain ⟨calls, interrupted, some⟩ := p.interrupt_eq signum
    simp only [interrupted]
    exact .inr some
  | hangup =>
    have reloads := p.reloadScripts_reloads
    refine shut.imp (fun locked => Nat.lt_of_lt_of_le locked reloads.lock) fun some => ?_
    simp only [reloads.calls]
    exact some
  | proceed i =>
    simp only [goOn]
    split
    next idle =>
      rcases shut with locked | some
      · exact .inl (locked_proceed username password locked i)
      · exact absurd idle some
    next calls =>
      rcases cleanExit_calls calls with some | ⟨-, returned⟩
      · exact .inr some
      · rw [returned]
        exact .inl (Nat.succ_pos _)

/-- So the only connection that is tried is the one in hand. -/
theorem dials_run {p : Process} (shut : Shut p) (events : List Event) :
    dials (p.run username password events).log ≤ dials p.log + pending p.stage := by
  have kept : Shut (p.run username password events) ∧
      dials (p.run username password events).log + pending (p.run username password events).stage ≤
        dials p.log + pending p.stage := by
    refine Run.invariant_of_inputs (Process.step username password)
      (fun q => Shut q ∧ dials q.log + pending q.stage ≤ dials p.log + pending p.stage)
      (fun _ => True) (fun q e ⟨shut, few⟩ _ => ⟨shut_step username password shut e, ?_⟩)
      events (fun _ _ => trivial) p ⟨shut, Nat.le_refl _⟩
    rcases step_advances username password q e with ⟨idle, advances⟩ | ⟨stage, log, -⟩
    · rcases shut with locked | some
      · exact (advances.pending_le locked).trans few
      · exact absurd idle some
    · rw [stage, log]
      exact few
  exact (Nat.le_add_right _ _).trans kept.2

omit [Platform] in
theorem loggedIn_reloaded {exitLock : Nat} {b c : Bot} {ret : Except Str Unit}
    (reloaded : b.reloadLuaUnder exitLock = (some ret, c)) : c.loggedIn = b.loggedIn := by
  unfold Bot.reloadLuaUnder at reloaded
  cases outcome : b.world.reloads.head.1 <;> simp only [outcome] at reloaded <;> cases reloaded
  · rfl
  · rfl

/-- Nothing logs the bot in but a login. -/
theorem out_proceed {p : Process} (alive : p.client.halted = false)
    (out : p.client.loggedIn = false) (joins : p.stage ≠ .joining) (i : Input)
    (running : (p.proceed username password i).status = none) :
    (p.proceed username password i).client.loggedIn = false := by
  cases p.proceed_turns username password i with
  | opened place under next =>
    rw [next]
    exact (loggedIn_reloaded under).trans out
  | unopened place under next =>
    rw [next]
    exact (loggedIn_reloaded under).trans out
  | crashed place under next =>
    rw [next] at running
    exact absurd (halted_of_fault under) (Bool.eq_false_iff.mp (carryOn_running running).2)
  | @handled data rest place next =>
    rw [next] at running ⊢
    -- what the string does without the lock, it does with it
    refine out_spared (Bot.Spared.handlePacket p.client.toBot data)
      (carryOn_running (p := p) running).2 ?_
    have given := Bot.loggedOut_steps (Bot.receive_steps data) out
    simpa only [Bot.receive, alive, if_neg Bool.false_ne_true] using given
  | returned place locked next =>
    rw [next]
    exact loggedIn_logout _
  | aside opens handles view lock status still => exact still joins out

/-- Every state a life of the process comes to is in order. -/
theorem orderly_step {p : Process} (alive : p.status = none → p.client.halted = false)
    (orderly : p.status = none → Orderly p) (e : Event)
    (running : (p.step username password e).status = none) :
    Orderly (p.step username password e) := by
  have started := running_of_step running
  have still := alive_step username password alive e running
  rw [step_of_running started] at running still ⊢
  cases e with
  | exit signum => exact ((orderly started).interrupt signum).1
  | hangup => exact ((orderly started).reloadScripts still).1
  | proceed i =>
    simp only [goOn] at running ⊢
    split at running
    next idle => exact .of_idle ((calls_proceed username password p i).trans idle)
    next calls => exact (orderly started).cleanExit calls

/-- Every event leaves a process that is closing so, with one step less where it is the program's
own. -/
theorem closing_step {p : Process} (closing : Closing p) (e : Event)
    (running : (p.step username password e).status = none) :
    Closing (p.step username password e) ∧
      remaining (p.step username password e).stage + owed (p.step username password e) +
        proceeds [e] ≤ remaining p.stage + owed p := by
  obtain ⟨orderly, alive, away, closes⟩ := closing
  have started := running_of_step running
  have next := orderly_step username password (fun _ => alive) (fun _ => orderly) e running
  have still := alive_step username password (fun _ => alive) e running
  rw [step_of_running started] at running next still ⊢
  cases e with
  | exit signum =>
    -- what the call may take has been counted already
    obtain ⟨-, fewer⟩ := orderly.interrupt signum
    obtain ⟨calls, interrupted, some⟩ := p.interrupt_eq signum
    simp only [interrupted] at next still fewer ⊢
    exact ⟨⟨next, still, away, .inl some⟩, Nat.add_le_add_left fewer _⟩
  | hangup =>
    have reloads := p.reloadScripts_reloads
    obtain ⟨-, same, out⟩ := orderly.reloadScripts still
    simp only [reloads.stage, same]
    refine ⟨⟨next, still, reloads.stage ▸ away, ?_⟩, Nat.le_refl _⟩
    rw [reloads.calls]
    exact closes.imp_right fun ⟨locked, off⟩ => ⟨Nat.lt_of_lt_of_le locked reloads.lock, out off⟩
  | proceed i =>
    simp only [goOn] at running next still ⊢
    split at running
    next idle =>
      -- `main` takes one of its own steps, with the lock up and no call left
      simp only [idle] at next still ⊢
      obtain some | ⟨locked, off⟩ := closes
      · exact absurd idle some
      have up := locked_proceed username password locked i
      have calls := (calls_proceed username password p i).trans idle
      obtain ⟨less, further⟩ := (proceed_advances username password p i).remaining_lt locked off
        away running
      have none {q : Process} (calls : q.calls = []) (up : 0 < q.exitLock) : owed q = 0 := by
        rw [owed, calls, if_pos up]
        rfl
      rw [none calls up, none idle locked]
      exact ⟨⟨next, still, further, .inr ⟨up, out_proceed username password alive off away.2 i
        running⟩⟩, less⟩
    next call behind calls =>
      -- or a call of `clean_exit` takes one of its statements
      simp only [calls] at next still ⊢
      obtain ⟨-, stage, -⟩ := p.cleanExit_stays call behind
      have less := owed_cleanExit calls running
      refine ⟨⟨next, still, by rw [stage]; exact away, ?_⟩, ?_⟩
      · rcases cleanExit_calls calls with some | ⟨last, returned⟩
        · exact .inl some
        · -- the logout stands in front of the last statement
          have off := orderly.out call (by rw [calls]; exact List.mem_cons_self) last
          rw [returned]
          exact .inr ⟨Nat.succ_pos _, off⟩
      · rw [stage]
        exact Nat.add_le_add_left less _

theorem run_of_ended {p : Process} (ended : p.status ≠ none) (events : List Event) :
    p.run username password events = p :=
  Run.invariant_of_inputs (Process.step username password) (· = p) (fun _ => True)
    (fun q e same _ => by rw [same, step_of_ended ended]) events (fun _ _ => trivial) p rfl

theorem running_of_run {events : List Event} {p : Process}
    (running : (p.run username password events).status = none) : p.status = none := by
  by_contra ended
  rw [run_of_ended username password ended] at running
  exact ended running

/-- So it ends before it has taken more steps than are left. -/
theorem closing_run {p : Process} (closing : Closing p) (events : List Event)
    (running : (p.run username password events).status = none) :
    Closing (p.run username password events) ∧
      remaining (p.run username password events).stage + proceeds events ≤
        remaining p.stage + owed p := by
  induction events generalizing p with
  | nil => exact ⟨closing, Nat.le_add_right _ _⟩
  | cons e events ih =>
    obtain ⟨next, less⟩ :=
      closing_step username password closing e (running_of_run username password running)
    obtain ⟨last, bounded⟩ := ih next running
    refine ⟨last, ?_⟩
    have split : proceeds (e :: events) = proceeds events + proceeds [e] := by
      cases e <;> rfl
    change remaining ((p.step username password e).run username password events).stage + _ ≤ _
    omega

omit [Platform] in
theorem remaining_pos {stage : Stage} (away : stage ≠ .waiting ∧ stage ≠ .joining) :
    0 < remaining stage := by
  cases stage with
  | waiting => exact absurd rfl away.1
  | joining => exact absurd rfl away.2
  | _ => exact Nat.succ_pos _

/-- A state that some life of the process comes to. -/
def Lives (p : Process) : Prop :=
  ∃ users quotes world readBuffer events,
    Process.run username password events (.booted users quotes world readBuffer) = p

/-- What holds in every such state. -/
theorem lives_invariants {p : Process} (lives : Lives username password p)
    (running : p.status = none) : p.client.halted = false ∧ Brief p ∧ Orderly p := by
  obtain ⟨users, quotes, world, readBuffer, events, arrives⟩ := lives
  have kept := Run.invariant_of_inputs (Process.step username password)
    (fun p => (p.status = none → p.client.halted = false) ∧ Brief p ∧ (p.status = none → Orderly p))
    (fun _ => True) (fun _ e ⟨alive, brief, orderly⟩ _ =>
      ⟨alive_step username password alive e, brief_step username password brief e,
        orderly_step username password alive orderly e⟩) events (fun _ _ => trivial)
    (.booted users quotes world readBuffer)
    ⟨fun _ => rfl, Nat.le_add_left 2 (bufferSize + 3), fun _ => .of_idle rfl⟩
  change _ = p at arrives
  rw [← Process.run, arrives] at kept
  exact ⟨kept.1 running, kept.2.1, kept.2.2 running⟩

/-- After a signal to exit the process tries one more connection at most, and only if the signal
has come between the test of the lock and the connection. If it has come neither there nor in front
of a login, the bot is logged out for good when `main` goes on, and the process ends within a number
of steps that depends on the size of the buffer alone, whatever is received and whatever other
signals come: each of them takes the four statements of its handler at most. -/
theorem exit_shuts_down {p : Process} (lives : Lives username password p) (signum : ExitSignal)
    (later : List Event) :
    dials (p.run username password (.exit signum :: later)).log ≤ dials p.log + pending p.stage ∧
      (p.stage ≠ .waiting → p.stage ≠ .joining →
        (p.run username password (.exit signum :: later)).status = none →
          ((p.run username password (.exit signum :: later)).calls = [] →
            (p.run username password (.exit signum :: later)).client.loggedIn = false) ∧
          proceeds later < bufferSize + 5 + 4 * signals.length) := by
  have after : p.run username password (.exit signum :: later) =
      (p.step username password (.exit signum)).run username password later := rfl
  by_cases running : p.status = none
  swap
  · rw [after, step_of_ended running, run_of_ended username password running]
    exact ⟨Nat.le_add_right _ _, fun _ _ still => absurd still running⟩
  obtain ⟨alive, brief, orderly⟩ := lives_invariants username password lives running
  obtain ⟨called, -⟩ := orderly.interrupt signum
  obtain ⟨calls, interrupted, some⟩ := p.interrupt_eq signum
  rw [after, step_of_running running]
  simp only [interrupted] at called ⊢
  constructor
  · exact dials_run username password (p := { p with calls := calls }) (.inr some) later
  · intro waits joins still
    have closing : Closing { p with calls := calls } :=
      ⟨called, alive, ⟨waits, joins⟩, .inl some⟩
    obtain ⟨last, bounded⟩ := closing_run username password closing later still
    have positive := remaining_pos last.away
    have few := called.owed_le
    rw [Brief] at brief
    simp only at bounded
    refine ⟨fun idle => ?_, by omega⟩
    rcases last.closes with busy | ⟨-, off⟩
    · exact absurd idle busy
    · exact off

omit [Platform] in
/-- An interrupt of a bot that waits for data, and the four statements of the handler. -/
theorem exit_shuts_down_reading : ∃ p : Process, ∃ i : Input,
    @Lives lp64 "MeepBot".toList "secret".toList p ∧ p.stage = .reading ∧
    p.client.loggedIn = true ∧
    (@Process.run lp64 "MeepBot".toList "secret".toList
      (.exit .int :: List.replicate 4 (.proceed i)) p).client.loggedIn = false := by
  let i : Input := ⟨.connected 3, .data "100`_`_`0`0`0\n".toList⟩
  let p := @Process.run lp64 "MeepBot".toList "secret".toList (List.replicate 5 (.proceed i))
    (.booted .empty .empty .calm .zero)
  have lives : @Lives lp64 "MeepBot".toList "secret".toList p := ⟨_, _, _, _, _, rfl⟩
  have stage : p.stage = .reading := by decide +kernel
  obtain ⟨-, ends⟩ := @exit_shuts_down lp64 "MeepBot".toList "secret".toList p lives .int
    (List.replicate 4 (.proceed i))
  obtain ⟨out, -⟩ := ends (by rw [stage]; decide) (by rw [stage]; decide) (by decide +kernel)
  exact ⟨p, i, lives, stage, by decide +kernel, out (by decide +kernel)⟩

end

end Properties
end MeepBot
