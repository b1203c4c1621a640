import MeepBot.Text

/-!
# Socket

The socket operations, given what the operating system does: the outcomes of the lookup and
`connect`, of `recv` and of `send` are inputs.
-/

namespace MeepBot

/-- What the host lookup, `socket` and `connect` do; `socket` yields the descriptor. -/
inductive ConnectOutcome where
  | lookupFailed
  | socketFailed
  | connectFailed (descriptor : Nat)
  | connected (descriptor : Nat)
  deriving DecidableEq

/-- What `recv` does; the bytes are those the peer has sent and no read has taken yet. -/
inductive RecvOutcome where
  | error
  | closed
  | data (bytes : Str)
  deriving DecidableEq

/-- What `send` returns, and whether `errno` says to try again. A send on a broken pipe is none of
these: it raises `SIGPIPE` first, and never returns where `clean_exit` sends on that pipe too. -/
structure SendOutcome where
  iSent : Int
  again : Bool
  deriving DecidableEq

structure Socket where
  iSocket : Int
  /-- The descriptors obtained from `socket` and not closed. -/
  opened : List Int
  deriving DecidableEq

namespace Socket

/-- `Socket()` -/
def initial : Socket := ⟨-1, []⟩

/-- `OpenHost`. The descriptor is kept where the connection fails. -/
def openHost (s : Socket) : ConnectOutcome → Bool × Socket
  | .lookupFailed => (false, s)
  | .socketFailed => (false, { s with iSocket := -1 })
  | .connectFailed d => (false, ⟨d, s.opened ++ [(d : Int)]⟩)
  | .connected d => (true, ⟨d, s.opened ++ [(d : Int)]⟩)

def close (s : Socket) : Socket := ⟨-1, s.opened.filter fun d => decide (d ≠ s.iSocket)⟩

def isOpen (s : Socket) : Bool := decide (0 < s.iSocket)

/-- `Read`, waiting: the value returned, and the bytes put into the buffer of size `len`. -/
def read (len : Nat) : RecvOutcome → Int × { received : Str // received.length ≤ len }
  | .data bytes =>
    if bytes.take len = [] then (-1, ⟨[], Nat.zero_le _⟩)
    else ((bytes.take len).length, ⟨bytes.take len, List.length_take_le len bytes⟩)
  | _ => (-1, ⟨[], Nat.zero_le _⟩)

/-- `Write`: the value returned. -/
def write (o : SendOutcome) : Int := if o.iSent ≤ 0 then if o.again then 0 else -1 else o.iSent

end Socket
end MeepBot
