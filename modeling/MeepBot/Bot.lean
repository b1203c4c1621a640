import Mathlib.Data.Stream.Defs
import MeepBot.Lua
import MeepBot.Socket
import MeepBot.UserList
import MeepBot.QuotesDB

/-!
# The bot

`MeepBot` with its databases, the state of the scripts and the socket; its read buffer is kept
apart, since only `Read` and its callers use it. What the bot does not determine itself (the
outcomes of `send`, the generator's values, the random order of a query, the outcome of
loading the scripts) is read from streams, so that a run is a function of them. Every packet
passed to the socket is recorded.
-/

namespace MeepBot

/-- `BUFFER_SIZE` -/
def bufferSize : Nat := 4096

/-- `m_sReadBuffer` -/
structure ReadBuffer where
  bytes : Str
  size : bytes.length = bufferSize

namespace ReadBuffer

/-- `memset( m_sReadBuffer, 0, BUFFER_SIZE )` -/
def zero : ReadBuffer := ⟨List.replicate bufferSize '\x00', List.length_replicate⟩

/-- Overwrite the start of the buffer. -/
def fill (buffer : ReadBuffer) (received : { received : Str // received.length ≤ bufferSize }) :
    ReadBuffer :=
  ⟨received.1 ++ buffer.bytes.drop received.1.length, by
    have fits := received.2
    rw [List.length_append, List.length_drop, buffer.size]
    omega⟩

/-- `m_sReadBuffer[index] = '\0'`; an index outside the buffer leaves it as it is. -/
def terminate (buffer : ReadBuffer) (index : Int) : ReadBuffer :=
  if 0 ≤ index then ⟨buffer.bytes.set index.toNat '\x00', by rw [List.length_set, buffer.size]⟩
  else buffer

/-- The buffer as a C string. Where no terminator is left, it ends with the buffer. -/
def text (buffer : ReadBuffer) : Str := cstr buffer.bytes

end ReadBuffer

/-- How loading the scripts ends: all have run, one has failed with an error text, or their
directory cannot be read. -/
inductive ScriptsOutcome where
  | ran
  | failed (err : Str)
  | unreadable

/-- What is decided outside the bot. -/
structure World where
  sends : Stream' SendOutcome
  /-- `ISAAC::GetValue` -/
  values : Stream' UInt32
  /-- The choices of `ORDER BY RANDOM()`. -/
  picks : Stream' Nat
  /-- Loading the scripts, and the microseconds it takes. -/
  reloads : Stream' (ScriptsOutcome × Nat)

/-- Every send and every reload succeeds, and every choice is the first. -/
def World.calm : World where
  sends := Stream'.const ⟨1, false⟩
  values := Stream'.const 0
  picks := Stream'.const 0
  reloads := Stream'.const (.ran, 0)

/-- A packet passed to the socket: the login flag at that time, and what `send` did. -/
structure Written where
  loggedIn : Bool
  packet : ChatPacket
  outcome : SendOutcome

/-- `MeepBot` without its read buffer. -/
structure Bot where
  loggedIn : Bool
  socket : Socket
  userList : UserList
  users : UserTable
  quotes : QuotesTable
  /-- `L`; nothing where it is `NULL`. -/
  lua : Option Lua
  /-- Whether a signal has ended the process. -/
  halted : Bool
  written : List Written
  world : World

namespace Bot

/-- `MeepBot()`, on the tables of the database. -/
def initial (users : UserTable) (quotes : QuotesTable) (world : World) : Bot where
  loggedIn := false
  socket := .initial
  userList := .empty
  users := users
  quotes := quotes
  lua := none
  halted := false
  written := []
  world := world

/-! ### Input and output -/

/-- `Write`: the value returned, and the bot, where the send returns. -/
def write (b : Bot) (packet : ChatPacket) : Int × Bot :=
  let outcome := b.world.sends.head
  let ret := Socket.write outcome
  (ret,
    { b with
      -- `if( ret <= 0 )`: an error, and also a send that would block, logs the bot out
      loggedIn := b.loggedIn && decide (0 < ret)
      written := b.written ++ [⟨b.loggedIn, packet, outcome⟩]
      world := { b.world with sends := b.world.sends.tail } })

/-- The colour of the chat bot's messages. -/
def red : UInt8 := 92
def green : UInt8 := 0
def blue : UInt8 := 168

def say (b : Bot) (str : Str) : Bot :=
  if !b.loggedIn || str.length = 0 then b
  else (b.write ⟨MessageCode.roomMessage.value, blank, str, red, green, blue⟩).2

def emote (b : Bot) (str : Str) : Bot :=
  if !b.loggedIn || str.length = 0 then b else (b.write (.message .roomAction blank str)).2

def pm (b : Bot) (name msg : Str) : Bot :=
  if !b.loggedIn || msg.length = 0 then b else (b.write (.message .userPM name msg)).2

def logout (b : Bot) : Bot :=
  let b := if b.loggedIn then (b.write (.message .userPart blank blank)).2 else b
  -- whatever became of the farewell
  { b with loggedIn := false }

def connect (b : Bot) (o : ConnectOutcome) : Bool × Bot :=
  let (ok, socket) := b.socket.openHost o
  (ok, { b with socket := socket })

def disconnect (b : Bot) : Bot := { b with socket := b.socket.close }

/-! ### Signals -/

/-- A signal of the processor: `clean_exit` says goodbye, and the instruction that is then
run again ends the process. -/
def crash (b : Bot) (signal : Str) : Bot :=
  let str := StringUtil.format ("Aaaahh! ".toList ++ signal ++ "! Every man for himself!".toList)
  { (b.say str).logout with halted := true }

/-! ### What output leaves alone -/

/-- Two states that differ in the wire, the login flag and the outside world at most. -/
structure SameStores (b c : Bot) : Prop where
  socket : c.socket = b.socket
  userList : c.userList = b.userList
  users : c.users = b.users
  quotes : c.quotes = b.quotes
  lua : c.lua = b.lua

namespace SameStores

theorem refl (b : Bot) : SameStores b b := ⟨rfl, rfl, rfl, rfl, rfl⟩

theorem trans {b c d : Bot} (first : SameStores b c) (second : SameStores c d) :
    SameStores b d :=
  ⟨second.socket.trans first.socket, second.userList.trans first.userList,
    second.users.trans first.users, second.quotes.trans first.quotes, second.lua.trans first.lua⟩

theorem write (b : Bot) (p : ChatPacket) : SameStores b (b.write p).2 :=
  ⟨rfl, rfl, rfl, rfl, rfl⟩

theorem say (b : Bot) (str : Str) : SameStores b (b.say str) := by
  unfold Bot.say
  split
  · exact refl b
  · exact write b _

theorem pm (b : Bot) (name msg : Str) : SameStores b (b.pm name msg) := by
  unfold Bot.pm
  split
  · exact refl b
  · exact write b _

theorem logout (b : Bot) : SameStores b b.logout := by
  unfold Bot.logout
  split
  · exact ⟨rfl, rfl, rfl, rfl, rfl⟩
  · exact ⟨rfl, rfl, rfl, rfl, rfl⟩

theorem crash (b : Bot) (signal : Str) : SameStores b (b.crash signal) := by
  obtain ⟨h1, h2, h3, h4, h5⟩ := (say b _).trans (logout (b.say (StringUtil.format
    ("Aaaahh! ".toList ++ signal ++ "! Every man for himself!".toList))))
  exact ⟨h1, h2, h3, h4, h5⟩

end SameStores

/-- Only a bot that is logged in speaks. -/
theorem say_of_loggedOut {b : Bot} (out : b.loggedIn = false) (str : Str) : b.say str = b := by
  simp [say, out]

theorem pm_of_loggedOut {b : Bot} (out : b.loggedIn = false) (name msg : Str) :
    b.pm name msg = b := by
  simp [pm, out]

end Bot

/-! ### The read buffer -/

/-- `MeepBot` with `m_sReadBuffer`. -/
structure Client extends Bot where
  readBuffer : ReadBuffer

namespace Client

/-- `Read`: the value returned, and the client. -/
def read (c : Client) (o : RecvOutcome) : Int × Client :=
  let (ret, received) := Socket.read bufferSize o
  let c := { c with readBuffer := c.readBuffer.fill received }
  let c := if ret < 0 then { c with loggedIn := false } else c
  (ret, { c with readBuffer := c.readBuffer.terminate ret })

def login [Platform] (c : Client) (name pwd : Str) (o : RecvOutcome) : Bool × Client :=
  let (sent, b) := c.toBot.write (.message .userJoin name pwd)
  let c : Client := { c with toBot := b }
  if 0 < sent then
    let (len, c) := c.read o
    if len ≠ 0 then
      if (ChatPacket.ofString c.readBuffer.text).iCode = MessageCode.accessGranted.value then
        (true, { c with toBot := ({ c.toBot with loggedIn := true }.write (.ofCode .userList)).2 })
      else (false, c)
    else (false, c)
  else (false, c)

theorem read_stores (c : Client) (o : RecvOutcome) :
    Bot.SameStores c.toBot (c.read o).2.toBot := by
  simp only [read]
  split
  · exact ⟨rfl, rfl, rfl, rfl, rfl⟩
  · exact ⟨rfl, rfl, rfl, rfl, rfl⟩

theorem login_stores [Platform] (c : Client) (name pwd : Str) (o : RecvOutcome) :
    Bot.SameStores c.toBot (c.login name pwd o).2.toBot := by
  have sent := Bot.SameStores.write c.toBot (.message .userJoin name pwd)
  have read := sent.trans (read_stores ⟨_, c.readBuffer⟩ o)
  unfold login
  simp only
  split
  · split
    · split
      · obtain ⟨h1, h2, h3, h4, h5⟩ := read
        exact ⟨h1, h2, h3, h4, h5⟩
      · exact read
    · exact read
  · exact sent

/-- A read that fails leaves the buffer as it is. -/
theorem read_failed (c : Client) {o : RecvOutcome}
    (failed : ∀ bytes, o = .data bytes → bytes = []) :
    c.read o = (-1, { c with loggedIn := false }) := by
  have none : Socket.read bufferSize o = (-1, ⟨[], Nat.zero_le _⟩) := by
    cases o with
    | error => rfl
    | closed => rfl
    | data bytes =>
      obtain rfl := failed bytes rfl
      rfl
  simp [read, none, ReadBuffer.fill, ReadBuffer.terminate]

/-- A read that succeeds leaves its bytes in the buffer, as far as they fit. -/
theorem read_data (c : Client) {bytes : Str} (nonempty : bytes ≠ []) (free : '\x00' ∉ bytes) :
    ∃ buffer : ReadBuffer, buffer.text = bytes.take bufferSize ∧
      c.read (.data bytes) =
        (((bytes.take bufferSize).length : Int), { c with readBuffer := buffer }) := by
  have some : bytes.take bufferSize ≠ [] := by simpa [bufferSize] using nonempty
  refine ⟨(c.readBuffer.fill ⟨bytes.take bufferSize, List.length_take_le _ _⟩).terminate
    (bytes.take bufferSize).length, ?_, ?_⟩
  · have taken : '\x00' ∉ bytes.take bufferSize := fun member => free (List.mem_of_mem_take member)
    rw [ReadBuffer.text, ReadBuffer.terminate, if_pos (Int.natCast_nonneg _)]
    simp only [ReadBuffer.fill, Int.toNat_natCast]
    rcases rest : c.readBuffer.bytes.drop (bytes.take bufferSize).length with _ | ⟨x, xs⟩
    · rw [List.append_nil, List.set_eq_of_length_le (le_refl _), cstr_eq_self _ taken]
    · rw [List.set_append_right _ _ (le_refl _), Nat.sub_self, List.set_cons_zero,
        cstr_append_zero _ _ taken]
  · have received : Socket.read bufferSize (.data bytes) =
        (((bytes.take bufferSize).length : Int),
          ⟨bytes.take bufferSize, List.length_take_le _ _⟩) := by
      simp only [Socket.read, if_neg some]
    have positive : ¬((bytes.take bufferSize).length : Int) < 0 := not_lt.mpr (Int.natCast_nonneg _)
    simp only [read, received, if_neg positive]

end Client
end MeepBot
