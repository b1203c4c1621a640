import MeepBot.Effects
import MeepBot.Session

/-!
# Descriptors

The loop of `main` obtains a descriptor in every round. A watched machine remembers what became
of the last one.

* `descriptors_iff`: in which runs no descriptor is left behind.
* `descriptor_leaked`: two connections that fail.
-/

namespace MeepBot
namespace Properties

/-- The machine, with a record about its descriptors that nothing reads. -/
structure Watched where
  machine : Machine
  /-- The last descriptor obtained from `socket`, and whether it was connected. -/
  last : Option (Nat × Bool)
  /-- Whether some round was given up, by `continue`, with a descriptor in hand. -/
  gaveUp : Bool

namespace Watched

def start (m : Machine) : Watched := ⟨m, none, false⟩

def socket (w : Watched) : Socket := w.machine.client.socket

variable [Platform]

def step (username password : Str) (w : Watched) (i : Input) : Watched :=
  let next := w.machine.step username password i
  if w.machine.client.halted then { w with machine := next }
  else match w.machine.control, i.connect with
  | .idle, .connectFailed d => ⟨next, some (d, false), true⟩
  | .idle, .connected d => ⟨next, some (d, true), w.gaveUp⟩
  -- a login that fails leaves the connection open
  | .joining, _ => { w with machine := next, gaveUp := w.gaveUp || decide (next.control = .idle) }
  | _, _ => { w with machine := next }

def run (username password : Str) (inputs : List Input) (w : Watched) : Watched :=
  Run.run (step username password) inputs w

theorem machine_step (username password : Str) (w : Watched) (i : Input) :
    (step username password w i).machine = w.machine.step username password i := by
  unfold step
  split
  · rfl
  · split <;> rfl

/-- Watching changes nothing. -/
theorem machine_run (username password : Str) (inputs : List Input) (w : Watched) :
    (run username password inputs w).machine = w.machine.run username password inputs := by
  induction inputs generalizing w with
  | nil => rfl
  | cons i inputs ih => rw [run, Run.run_cons, ← run, ih, machine_step, Machine.run_cons]

end Watched

/-- No descriptor is left behind, and `IsOpen` tells of the last one obtained. -/
structure Tidy (socket : Socket) (last : Option (Nat × Bool)) : Prop where
  once : socket.opened.length ≤ 1
  open_ : socket.isOpen = true → ∃ d, last = some (d, true) ∧ (d : Int) ∈ socket.opened

/-- No connection fails on a descriptor that counts as open, and none is obtained after a round
that was given up with one in hand. -/
def Careful (w : Watched) (i : Input) : Prop :=
  ¬w.machine.client.halted = true → w.machine.control = .idle →
    match i.connect with
    | .lookupFailed | .socketFailed => True
    | .connectFailed d => w.gaveUp = false ∧ d = 0
    | .connected _ => w.gaveUp = false

/-- Between two rounds there is no descriptor, unless one was given up. In a round there is the
one that has been connected. -/
def Consistent (w : Watched) : Prop :=
  if w.machine.control = .idle then
    if w.gaveUp then w.socket.opened.length = 1 else w.socket = .initial
  else w.gaveUp = false ∧ ∃ d : Nat, w.last = some (d, true) ∧ w.socket = ⟨d, [(d : Int)]⟩

/-! ### Sockets -/

theorem tidy_initial (last : Option (Nat × Bool)) : Tidy .initial last :=
  ⟨Nat.zero_le _, by rintro ⟨⟩⟩

theorem tidy_connected (d : Nat) : Tidy ⟨d, [(d : Int)]⟩ (some (d, true)) :=
  ⟨Nat.le_refl _, fun _ => ⟨d, rfl, List.mem_singleton_self _⟩⟩

/-- A connection that fails leaves an open descriptor behind, unless it is standard input's. -/
theorem tidy_connectFailed_iff (d : Nat) : Tidy ⟨d, [(d : Int)]⟩ (some (d, false)) ↔ d = 0 := by
  constructor
  · intro tidy
    by_contra positive
    obtain ⟨e, same, -⟩ := tidy.open_ (by simpa [Socket.isOpen] using Nat.pos_of_ne_zero positive)
    cases same
  · rintro rfl
    exact ⟨Nat.le_refl _, by rintro ⟨⟩⟩

theorem tidy_socketFailed {socket : Socket} {last : Option (Nat × Bool)}
    (tidy : Tidy socket last) : Tidy { socket with iSocket := -1 } last :=
  ⟨tidy.once, by rintro ⟨⟩⟩

theorem not_tidy_second {socket : Socket} (one : socket.opened.length = 1) (d : Int)
    (last : Option (Nat × Bool)) : ¬Tidy ⟨d, socket.opened ++ [d]⟩ last := by
  intro tidy
  have two := tidy.once
  rw [List.length_append, one, List.length_singleton] at two
  exact absurd two (by decide)

/-- `Logout` and `Disconnect` close the descriptor of the round. -/
theorem leave_socket (m : Machine) {c : Client} {d : Int} (socket : c.socket = ⟨d, [d]⟩) :
    (m.leave c).client.socket = .initial := by
  have same : (m.leave c).client.socket = c.toBot.logout.socket.close := rfl
  rw [same, (Bot.SameStores.logout c.toBot).socket, socket, Socket.close]
  simp [Socket.initial]

/-! ### One step -/

variable [Platform] (username password : Str)

/-- Connecting: the socket, where the loop goes on, and the record. -/
theorem step_idle {w : Watched} (i : Input) (running : ¬w.machine.client.halted = true)
    (idle : w.machine.control = .idle) :
    (w.step username password i).socket = (w.socket.openHost i.connect).2 ∧
      (w.step username password i).machine.control =
        (if (w.socket.openHost i.connect).1 then .joining else .idle) ∧
      ((w.step username password i).last, (w.step username password i).gaveUp) =
        match i.connect with
        | .connectFailed d => (some (d, false), true)
        | .connected d => (some (d, true), w.gaveUp)
        | _ => (w.last, w.gaveUp) := by
  rw [Watched.socket, Watched.machine_step]
  simp only [Machine.step, if_neg running, idle]
  refine ⟨rfl, rfl, ?_⟩
  simp only [Watched.step, if_neg running, idle]
  cases i.connect <;> rfl

/-- A round that begins is tidy if it is careful, and then keeps the record consistent. -/
theorem decided_idle {w : Watched} (i : Input) (running : ¬w.machine.client.halted = true)
    (idle : w.machine.control = .idle) (consistent : Consistent w) (tidy : Tidy w.socket w.last) :
    (Tidy (w.step username password i).socket (w.step username password i).last ↔ Careful w i) ∧
      (Careful w i → Consistent (w.step username password i)) := by
  obtain ⟨socket, control, record⟩ := step_idle username password i running idle
  obtain ⟨last, gaveUp⟩ := Prod.mk.inj record
  rw [Consistent, if_pos idle] at consistent
  have careful : Careful w i ↔ match i.connect with
      | .lookupFailed | .socketFailed => True
      | .connectFailed d => w.gaveUp = false ∧ d = 0
      | .connected _ => w.gaveUp = false := ⟨fun h => h running idle, fun h _ _ => h⟩
  rw [careful, Consistent, socket, control, last, gaveUp]
  clear careful socket control record last gaveUp
  cases i.connect with
  | lookupFailed => exact ⟨iff_of_true tidy trivial, fun _ => consistent⟩
  | socketFailed =>
    refine ⟨iff_of_true (tidy_socketFailed tidy) trivial, fun _ => ?_⟩
    simp only [Socket.openHost, Bool.false_eq_true, if_false, if_true]
    split at consistent
    next given => rwa [if_pos given]
    next fresh => rw [if_neg fresh, consistent]; rfl
  | connectFailed d =>
    cases given : w.gaveUp with
    | true =>
      rw [given] at consistent
      exact ⟨iff_of_false (not_tidy_second consistent _ _) (by simp), by simp⟩
    | false =>
      rw [given, if_neg Bool.false_ne_true] at consistent
      rw [consistent]
      refine ⟨(tidy_connectFailed_iff d).trans (by simp), fun _ => ?_⟩
      simp [Socket.openHost, Socket.initial]
  | connected d =>
    cases given : w.gaveUp with
    | true =>
      rw [given] at consistent
      exact ⟨iff_of_false (not_tidy_second consistent _ _) (by simp), by simp⟩
    | false =>
      rw [given, if_neg Bool.false_ne_true] at consistent
      rw [consistent]
      refine ⟨iff_of_true (tidy_connected d) rfl, fun _ => ?_⟩
      simp [Socket.openHost, Socket.initial]

omit [Platform] in
/-- Where a step can lead that obtains no descriptor: on in the round, out of it with the
descriptor closed, or out of it without. -/
theorem kept_of_socket {w : Watched} {d : Nat} (last : w.last = some (d, true))
    (ends : w.machine.control ≠ .idle ∧ w.gaveUp = false ∧ w.socket = ⟨d, [(d : Int)]⟩ ∨
      w.machine.control = .idle ∧ w.gaveUp = false ∧ w.socket = .initial ∨
      w.machine.control = .idle ∧ w.gaveUp = true ∧ w.socket = ⟨d, [(d : Int)]⟩) :
    Tidy w.socket w.last ∧ Consistent w := by
  rw [Consistent]
  rcases ends with ⟨busy, kept, socket⟩ | ⟨idle, kept, socket⟩ | ⟨idle, given, socket⟩
  · rw [if_neg busy, socket, last]
    exact ⟨tidy_connected d, kept, d, rfl, rfl⟩
  · rw [if_pos idle, kept, socket]
    exact ⟨tidy_initial _, rfl⟩
  · rw [if_pos idle, given, socket, last]
    exact ⟨tidy_connected d, rfl⟩

theorem kept_busy {w : Watched} (i : Input) (busy : w.machine.control ≠ .idle)
    (consistent : Consistent w) :
    Tidy (w.step username password i).socket (w.step username password i).last ∧
      Consistent (w.step username password i) := by
  rw [Consistent, if_neg busy] at consistent
  obtain ⟨kept, d, last, socket⟩ := consistent
  -- no descriptor is obtained in a round, so the record of the last one stays
  refine kept_of_socket (d := d) ?_ ?_
  · rw [← last]
    unfold Watched.step
    split
    · rfl
    · cases control : w.machine.control with
      | idle => exact absurd control busy
      | _ => rfl
  rw [Watched.socket, Watched.machine_step]
  unfold Machine.step Watched.step
  by_cases halted : w.machine.client.halted = true
  · simp only [if_pos halted]
    exact .inl ⟨busy, kept, socket⟩
  simp only [if_neg halted]
  cases control : w.machine.control with
  | idle => exact absurd control busy
  | joining =>
    have same := (w.machine.client.login_stores username password i.recv).socket.trans socket
    simp only [kept, Bool.false_or, Machine.step, if_neg halted, control]
    cases (w.machine.client.login username password i.recv).1 with
    | true => exact .inl ⟨by decide, rfl, same⟩
    -- back to the head of the loop, with the connection still open
    | false => exact .inr (.inr ⟨rfl, rfl, same⟩)
  | loop =>
    have same := (w.machine.client.read_stores i.recv).socket.trans socket
    simp only
    split
    · split
      · exact .inr (.inl ⟨rfl, kept, leave_socket _ same⟩)
      · exact .inl ⟨by simp, kept, same⟩
    · exact .inr (.inl ⟨rfl, kept, leave_socket _ socket⟩)
  | batch rest =>
    cases rest with
    | nil => exact .inl ⟨by simp, kept, socket⟩
    | cons data rest =>
      exact .inl ⟨by simp, kept, (Bot.handlePacket_socket _ data).trans socket⟩

theorem decided_step {w : Watched} (i : Input) (consistent : Consistent w)
    (tidy : Tidy w.socket w.last) :
    (Tidy (w.step username password i).socket (w.step username password i).last ↔ Careful w i) ∧
      (Careful w i → Consistent (w.step username password i)) := by
  by_cases idle : w.machine.control = .idle
  · by_cases halted : w.machine.client.halted = true
    · have stopped : w.step username password i = w := by
        rw [Watched.step, if_pos halted, Machine.step, if_pos halted]
      rw [stopped]
      exact ⟨iff_of_true tidy fun running => absurd halted running, fun _ => consistent⟩
    · exact decided_idle username password i halted idle consistent tidy
  · obtain ⟨kept, after⟩ := kept_busy username password i idle consistent
    exact ⟨iff_of_true kept fun _ now => absurd now idle, fun _ => after⟩

/-- In every run of `main`, whatever happens to its connections, logins and sessions: at most
one descriptor is open at any time, and `IsOpen` tells of the last one, connected and not
closed, if and only if every step is careful. -/
theorem descriptors_iff (username password : Str) (users : UserTable) (quotes : QuotesTable)
    (world : World) (lua : Option Lua) (readBuffer : ReadBuffer) (inputs : List Input) :
    (∀ earlier, earlier <+: inputs →
      let w := Watched.run username password earlier
        (.start (.booted users quotes world lua readBuffer))
      Tidy w.socket w.last) ↔
      Run.Along (Watched.step username password) Careful inputs
        (.start (.booted users quotes world lua readBuffer)) :=
  Run.invariant_iff (Watched.step username password) (fun w => Tidy w.socket w.last) Careful
    Consistent
    (fun _ i consistent tidy next => (decided_step username password i consistent tidy).2
      ((decided_step username password i consistent tidy).1.mp next))
    (fun _ i consistent tidy => (decided_step username password i consistent tidy).1) inputs
    (.start (.booted users quotes world lua readBuffer)) rfl (tidy_initial none)

omit [Platform]

/-- Two rounds that do not get through to the host leave two descriptors open. -/
theorem descriptor_leaked :
    let w := @Watched.run lp64 "MeepBot".toList "secret".toList
      [⟨.connectFailed 3, .error⟩, ⟨.connectFailed 4, .error⟩]
      (.start (.booted .empty .empty .calm none .zero))
    w.socket.opened = [3, 4] ∧ ¬Tidy w.socket w.last := by
  have two : (@Watched.run lp64 "MeepBot".toList "secret".toList
      [⟨.connectFailed 3, .error⟩, ⟨.connectFailed 4, .error⟩]
      (.start (.booted .empty .empty .calm none .zero))).socket.opened = [3, 4] := by decide +kernel
  refine ⟨two, fun tidy => ?_⟩
  have once := tidy.once
  rw [two] at once
  exact absurd once (by decide)

end Properties
end MeepBot
