import MeepBot.Library.Run
import MeepBot.HandlePacket

/-!
# Sessions

`MainLoop` on the outcomes of its reads, and `main` as a machine that takes one step for
each connection, login, read and packet. The loop of `main` only ends with the process.
-/

namespace MeepBot
namespace Bot

variable [Platform]

/-- The strings of the buffer, in order, given to `HandlePacket`: the packets that reach the
switch, and the bot. -/
def handleAll : List Str → Bot → List ChatPacket × Bot
  | [], b => ([], b)
  | data :: rest, b =>
    -- the rest of the batch is handled also after a packet that has logged the bot out
    if b.halted then ([], b)
    else
      let (packets, b) := handleAll rest (b.handlePacket data)
      ((ChatPacket.fromString (cstr data)).toList ++ packets, b)

theorem handleAll_of_halted {b : Bot} (halted : b.halted = true) (datas : List Str) :
    b.handleAll datas = ([], b) := by
  cases datas <;> simp [handleAll, halted]

theorem handleAll_cons {b : Bot} (running : ¬b.halted = true) (data : Str) (rest : List Str) :
    b.handleAll (data :: rest) =
      ((ChatPacket.fromString (cstr data)).toList ++ ((b.handlePacket data).handleAll rest).1,
        ((b.handlePacket data).handleAll rest).2) := by
  simp [handleAll, running]

end Bot

/-- `MainLoop`, up to the point where it waits for more than the given reads. -/
def Client.mainLoop [Platform] : List RecvOutcome → Client → List ChatPacket × Client
  | [], c => ([], c)
  | o :: rest, c =>
    if !c.loggedIn || c.halted then ([], c)
    else
      let (len, c) := c.read o
      -- nothing of an earlier read is kept for the next one
      if len ≤ 0 then ([], { c with loggedIn := false })
      else
        let (packets, b) := Bot.handleAll (PacketUtil.frames c.readBuffer.text) c.toBot
        let (more, c) := mainLoop rest { c with toBot := b }
        (packets ++ more, c)

namespace Client

variable [Platform]

theorem mainLoop_of_stopped {c : Client} (stopped : c.loggedIn = true → c.halted = true)
    (reads : List RecvOutcome) : c.mainLoop reads = ([], c) := by
  cases reads with
  | nil => rfl
  | cons o reads =>
    rw [mainLoop, if_pos]
    by_cases loggedIn : c.loggedIn = true
    · simp [stopped loggedIn]
    · simp [loggedIn]

theorem mainLoop_of_closed {c : Client} (loggedIn : c.loggedIn = true) (running : ¬c.halted = true)
    {o : RecvOutcome} (closed : (c.read o).1 ≤ 0) (reads : List RecvOutcome) :
    c.mainLoop (o :: reads) = ([], { (c.read o).2 with loggedIn := false }) := by
  simp [mainLoop, loggedIn, running, closed]

/-- A read with data: its batch, then the other reads. -/
theorem mainLoop_of_data {c d : Client} (loggedIn : c.loggedIn = true) (running : ¬c.halted = true)
    {o : RecvOutcome} (data : ¬(c.read o).1 ≤ 0)
    (handled : d = { (c.read o).2 with
      toBot := ((c.read o).2.handleAll (PacketUtil.frames (c.read o).2.readBuffer.text)).2 })
    (reads : List RecvOutcome) :
    c.mainLoop (o :: reads) =
      (((c.read o).2.handleAll (PacketUtil.frames (c.read o).2.readBuffer.text)).1 ++
        (d.mainLoop reads).1, (d.mainLoop reads).2) := by
  simp [mainLoop, loggedIn, running, data, handled]

end Client

/-- Where `main` is. -/
inductive Control where
  /-- about to connect -/
  | idle
  /-- connected, about to log in -/
  | joining
  /-- in `MainLoop`, about to read -/
  | loop
  /-- in `MainLoop`, with strings of the last read still to be handled -/
  | batch (rest : List Str)
  deriving DecidableEq

structure Machine where
  control : Control
  client : Client
  waitLength : Nat
  /-- The packets received in this session, a record that nothing reads. -/
  session : List ChatPacket

/-- What the next call of the operating system does. -/
structure Input where
  connect : ConnectOutcome
  recv : RecvOutcome

namespace Machine

/-- `main` with the scripts open, before the first connection. -/
def start (c : Client) : Machine := ⟨.idle, c, 1, []⟩

/-- `main` on the tables of the database, with whatever state of the scripts it has opened. -/
def booted (users : UserTable) (quotes : QuotesTable) (world : World) (lua : Option Lua)
    (readBuffer : ReadBuffer) : Machine :=
  start ⟨{ Bot.initial users quotes world with lua := lua }, readBuffer⟩

/-- Whether the machine is between a login and the end of its `MainLoop`. -/
def InSession (m : Machine) : Prop := m.control = .loop ∨ ∃ rest, m.control = .batch rest

/-- What follows `MainLoop`. -/
def leave (m : Machine) (c : Client) : Machine :=
  { m with
    control := .idle
    client := { c with toBot := c.toBot.logout.disconnect }
    waitLength := 1 }

variable [Platform]

def step (username password : Str) (m : Machine) (i : Input) : Machine :=
  if m.client.halted then m
  else match m.control with
    | .idle =>
      let (ok, b) := m.client.toBot.connect i.connect
      { m with
        -- `continue` where the connection fails
        control := if ok then .joining else .idle
        client := { m.client with toBot := b }
        waitLength := min (m.waitLength * 2) 1800 }
    | .joining =>
      -- `continue` where the login fails, without closing the socket
      let (ok, c) := m.client.login username password i.recv
      { m with control := if ok then .loop else .idle, client := c, session := [] }
    | .loop =>
      if m.client.loggedIn then
        let (len, c) := m.client.read i.recv
        if len ≤ 0 then m.leave { c with loggedIn := false }
        else { m with control := .batch (PacketUtil.frames c.readBuffer.text), client := c }
      else m.leave m.client
    | .batch [] => { m with control := .loop }
    | .batch (data :: rest) =>
      { m with
        control := .batch rest
        client := { m.client with toBot := m.client.toBot.handlePacket data }
        session := m.session ++ (ChatPacket.fromString (cstr data)).toList }

/-- The state after the inputs. -/
def run (username password : Str) (inputs : List Input) (m : Machine) : Machine :=
  Run.run (step username password) inputs m

variable {username password : Str}

@[simp] theorem run_nil (m : Machine) : run username password [] m = m := rfl

@[simp] theorem run_cons (i : Input) (inputs : List Input) (m : Machine) :
    run username password (i :: inputs) m =
      run username password inputs (step username password m i) := rfl

theorem run_append (first second : List Input) (m : Machine) :
    run username password (first ++ second) m =
      run username password second (run username password first m) :=
  Run.run_append _ first second m

/-! ### The machine runs `MainLoop` -/

/-- The steps through a batch are `handleAll`, which ends in the loop unless it ends the
process. -/
theorem run_batch (username password : Str) (m : Machine) (rest : List Str)
    (batch : m.control = .batch rest) (i : Input) :
    ∃ inputs, (run username password inputs m).session =
        m.session ++ (m.client.handleAll rest).1 ∧
      (run username password inputs m).client =
        { m.client with toBot := (m.client.handleAll rest).2 } ∧
      ((run username password inputs m).control = .loop ∨
        (m.client.handleAll rest).2.halted = true) := by
  by_cases halted : m.client.halted = true
  · rw [Bot.handleAll_of_halted halted]
    exact ⟨[], by simp, rfl, .inr halted⟩
  · -- one step for each string; the process can end at any of them
    induction rest generalizing m with
    | nil => exact ⟨[i], by simp [step, batch, halted, Bot.handleAll]⟩
    | cons data rest ih =>
      have next : step username password m i =
          { m with
            control := .batch rest
            client := { m.client with toBot := m.client.handlePacket data }
            session := m.session ++ (ChatPacket.fromString (cstr data)).toList } := by
        simp [step, batch, halted]
      rw [Bot.handleAll_cons halted]
      by_cases ended : (m.client.handlePacket data).halted = true
      · rw [Bot.handleAll_of_halted ended]
        exact ⟨[i], by simp [next], by simp [next], .inr ended⟩
      · obtain ⟨inputs, session, client, ends⟩ := ih (step username password m i) (by rw [next])
          (by rw [next]; exact ended)
        rw [next] at session client ends
        refine ⟨i :: inputs, ?_, ?_, ?_⟩
        · rw [run_cons, next, session, List.append_assoc]
        · rw [run_cons, next, client]
        · rw [run_cons, next]
          exact ends

/-- `MainLoop` on some reads is a run of the machine: the session has its packets, and the
client is the one it ends with, or the one after the logout that follows. -/
theorem run_mainLoop (m : Machine) (loop : m.control = .loop) (reads : List RecvOutcome)
    (connect : ConnectOutcome) :
    ∃ inputs, (run username password inputs m).session =
        m.session ++ (m.client.mainLoop reads).1 ∧
      ((run username password inputs m).client = (m.client.mainLoop reads).2 ∨
        (run username password inputs m).client =
          (m.leave (m.client.mainLoop reads).2).client) := by
  induction reads generalizing m with
  | nil => exact ⟨[], by simp [Client.mainLoop], .inl rfl⟩
  | cons o reads ih =>
    by_cases stopped : m.client.loggedIn = true → m.client.halted = true
    · rw [Client.mainLoop_of_stopped stopped]
      exact ⟨[], by simp, .inl rfl⟩
    · push Not at stopped
      obtain ⟨loggedIn, running⟩ := stopped
      by_cases closed : (m.client.read o).1 ≤ 0
      · rw [Client.mainLoop_of_closed loggedIn running closed]
        refine ⟨[⟨connect, o⟩], ?_, .inr ?_⟩
        · simp [step, loop, loggedIn, running, closed, leave]
        · simp [step, loop, loggedIn, running, closed, leave]
      · have next : step username password m ⟨connect, o⟩ =
            { m with
              control := .batch (PacketUtil.frames (m.client.read o).2.readBuffer.text)
              client := (m.client.read o).2 } := by
          simp [step, loop, loggedIn, running, closed]
        -- the steps of this batch, and from where they end those of the other reads
        obtain ⟨first, session, client, ends⟩ :=
          run_batch username password (step username password m ⟨connect, o⟩) _ (by rw [next])
            ⟨connect, o⟩
        obtain ⟨after, reached⟩ : ∃ after,
            run username password (⟨connect, o⟩ :: first) m = after := ⟨_, rfl⟩
        rw [← run_cons, reached, next] at session client ends
        rw [Client.mainLoop_of_data loggedIn running closed client]
        have rest : ∃ second, (run username password second after).session =
            after.session ++ (after.client.mainLoop reads).1 ∧
            ((run username password second after).client = (after.client.mainLoop reads).2 ∨
              (run username password second after).client =
                (after.leave (after.client.mainLoop reads).2).client) := by
          rcases ends with inLoop | halted
          · exact ih after inLoop
          · rw [Client.mainLoop_of_stopped fun _ => by rw [client]; exact halted]
            exact ⟨[], by simp, .inl rfl⟩
        obtain ⟨second, more, ending⟩ := rest
        refine ⟨⟨connect, o⟩ :: first ++ second, ?_, ?_⟩
        · rw [run_append, reached, more, session, List.append_assoc]
        · rw [run_append, reached]
          exact ending

end Machine
end MeepBot
