import MeepBot.Session

/-!
# The read buffer

Which elements of its buffer `Read` writes, over a whole run of `main`.

* `reads_inside_iff`: all of them exist, and a terminator is right behind what was received, if
  and only if every `recv` of the run yields some bytes and leaves room for one more.
-/

namespace MeepBot
namespace Properties

/-! ### The writes of one read -/

/-- What a `Read` writes, in order: the bytes that `recv` puts into the buffer from its start,
and the terminator at the index that `Socket::Read` returns. -/
def readWrites (o : RecvOutcome) : List (Int × Char) :=
  let (ret, received) := Socket.read bufferSize o
  received.1.zipIdx.map (fun (c, i) => ((i : Int), c)) ++ [(ret, '\x00')]

/-- One write to the elements of a buffer; an index that no element has changes none. -/
def writeAt (bytes : Str) (w : Int × Char) : Str :=
  if 0 ≤ w.1 then bytes.set w.1.toNat w.2 else bytes

/-- Bytes written one after the other take the place of as many. -/
theorem foldl_writeAt (received bytes : Str) (start : Nat)
    (fits : start + received.length ≤ bytes.length) :
    ((received.zipIdx start).map fun (c, i) => ((i : Int), c)).foldl writeAt bytes =
      bytes.take start ++ received ++ bytes.drop (start + received.length) := by
  induction received generalizing start bytes with
  | nil => simp
  | cons c received ih =>
    rw [List.length_cons] at fits
    have first : writeAt bytes ((start : Int), c) = bytes.set start c := if_pos (by simp)
    have room : start < bytes.length := by omega
    rw [List.zipIdx_cons, List.map_cons, List.foldl_cons, first,
      ih (bytes.set start c) (start + 1) (by rw [List.length_set]; omega)]
    -- the byte just written is the last of those in front of the others
    have front : (bytes.set start c).take (start + 1) = bytes.take start ++ [c] := by
      rw [List.take_add_one, List.take_set, List.getElem?_set_self room]
      simp [List.set_eq_of_length_le]
    have behind : (bytes.set start c).drop (start + 1 + received.length) =
        bytes.drop (start + (received.length + 1)) := by
      rw [List.drop_set_of_lt (by omega)]
      congr 1
      omega
    rw [front, behind, List.length_cons, List.append_assoc _ [c], List.singleton_append]

/-- The model's `Read` makes these writes. -/
theorem read_buffer (c : Client) (o : RecvOutcome) :
    (c.read o).2.readBuffer.bytes = (readWrites o).foldl writeAt c.readBuffer.bytes := by
  rcases outcome : Socket.read bufferSize o with ⟨ret, received, fits⟩
  have filled := foldl_writeAt received c.readBuffer.bytes 0 (by rw [c.readBuffer.size]; omega)
  rw [List.take_zero, List.nil_append, Nat.zero_add] at filled
  have written : (readWrites o).foldl writeAt c.readBuffer.bytes =
      writeAt (received ++ c.readBuffer.bytes.drop received.length) (ret, '\x00') := by
    simp only [readWrites, outcome, List.foldl_append, filled, List.foldl_cons, List.foldl_nil]
  have read : (c.read o).2.readBuffer =
      (c.readBuffer.fill ⟨received, fits⟩).terminate ret := by
    simp only [Client.read, outcome]
    split <;> rfl
  rw [written, read, ReadBuffer.terminate, writeAt]
  split <;> rfl

/-- `recv` yields some bytes, and leaves room for one more. -/
def LeavesRoom : RecvOutcome → Prop
  | .data bytes => bytes ≠ [] ∧ bytes.length < bufferSize
  | _ => False

theorem socket_read_of_room {bytes : Str} (room : LeavesRoom (.data bytes)) :
    Socket.read bufferSize (.data bytes) = ((bytes.length : Int), ⟨bytes, room.2.le⟩) := by
  have whole : bytes.take bufferSize = bytes := List.take_of_length_le room.2.le
  simp only [Socket.read, whole, if_neg room.1]

theorem readWrites_inside_iff (o : RecvOutcome) :
    (∀ w ∈ readWrites o, 0 ≤ w.1 ∧ w.1 < bufferSize) ↔ LeavesRoom o := by
  have last : ((Socket.read bufferSize o).1, '\x00') ∈ readWrites o :=
    List.mem_append_right _ (List.mem_singleton_self _)
  constructor
  · -- the index of the terminator alone tells a failed read and a full buffer
    intro inside
    obtain ⟨low, high⟩ := inside _ last
    cases o with
    | error => exact absurd low (by decide)
    | closed => exact absurd low (by decide)
    | data bytes =>
      by_cases empty : bytes.take bufferSize = []
      · simp [Socket.read, empty] at low
      · simp only [Socket.read, if_neg empty, List.length_take] at high
        refine ⟨?_, by omega⟩
        rintro rfl
        exact empty List.take_nil
  · intro room w member
    cases o with
    | error => cases room
    | closed => cases room
    | data bytes =>
      have short := room.2
      simp only [readWrites, socket_read_of_room room, List.mem_append, List.mem_map,
        List.mem_singleton] at member
      rcases member with ⟨⟨c, i⟩, inside, rfl⟩ | rfl
      · have index := List.snd_lt_of_mem_zipIdx inside
        simp only at index ⊢
        omega
      · simp only
        omega

/-- Where there is room, the buffer holds what was received, and then a terminator. -/
theorem terminated_of_room {o : RecvOutcome} (room : LeavesRoom o) (buffer : ReadBuffer) :
    (Socket.read bufferSize o).2.1 ++ ['\x00'] <+: (readWrites o).foldl writeAt buffer.bytes := by
  cases o with
  | error => cases room
  | closed => cases room
  | data bytes =>
    have fits : 0 + bytes.length ≤ buffer.bytes.length := by
      rw [buffer.size, Nat.zero_add]
      exact room.2.le
    have filled := foldl_writeAt bytes buffer.bytes 0 fits
    rw [List.take_zero, List.nil_append, Nat.zero_add] at filled
    simp only [readWrites, socket_read_of_room room, List.foldl_append, filled, List.foldl_cons,
      List.foldl_nil]
    rw [writeAt, if_pos (Int.natCast_nonneg _), Int.toNat_natCast,
      List.set_append_right _ _ (le_refl _), Nat.sub_self]
    -- an element is left behind the bytes
    rcases rest : buffer.bytes.drop bytes.length with _ | ⟨x, xs⟩
    · have length := congrArg List.length rest
      rw [List.length_drop, buffer.size, List.length_nil] at length
      have := room.2
      omega
    · rw [List.set_cons_zero]
      exact ⟨xs, by simp⟩

/-! ### The reads of a run -/

/-- The next step calls `Read`: once the request of a login is written, or in `MainLoop`. -/
def Reads (username password : Str) (m : Machine) : Prop :=
  ¬m.client.halted = true ∧
    (m.control = .joining ∧ 0 < (m.client.toBot.write (.message .userJoin username password)).1 ∨
      m.control = .loop ∧ m.client.loggedIn = true)

variable [Platform]

/-- A step that reads makes the writes of its read, and no others. -/
theorem step_readBuffer {username password : Str} {m : Machine}
    (reads : Reads username password m) (i : Input) :
    (m.step username password i).client.readBuffer.bytes =
      (readWrites i.recv).foldl writeAt m.client.readBuffer.bytes := by
  obtain ⟨running, ⟨joining, sent⟩ | ⟨loop, loggedIn⟩⟩ := reads
  · have after := read_buffer
      { m.client with toBot := (m.client.toBot.write (.message .userJoin username password)).2 }
      i.recv
    simp only [Machine.step, if_neg running, joining, Client.login, if_pos sent]
    rw [← after]
    split
    · split <;> rfl
    · rfl
  · simp only [Machine.step, if_neg running, loop, if_pos loggedIn]
    rw [← read_buffer]
    split
    · rfl
    · rfl

/-- Every element that the read of a step writes is one of the buffer, and after a read that
succeeds the buffer holds a terminator right behind what was received. -/
structure ReadInside (username password : Str) (m : Machine) (i : Input) : Prop where
  inside : ∀ w ∈ readWrites i.recv, 0 ≤ w.1 ∧ w.1 < bufferSize
  terminated : 0 < (Socket.read bufferSize i.recv).1 →
    (Socket.read bufferSize i.recv).2.1 ++ ['\x00'] <+:
      (m.step username password i).client.readBuffer.bytes

theorem readInside_iff {username password : Str} {m : Machine} (reads : Reads username password m)
    (i : Input) : ReadInside username password m i ↔ LeavesRoom i.recv := by
  constructor
  · exact fun read => (readWrites_inside_iff i.recv).mp read.inside
  · intro room
    refine ⟨(readWrites_inside_iff i.recv).mpr room, fun _ => ?_⟩
    rw [step_readBuffer reads]
    exact terminated_of_room room m.client.readBuffer

/-- Along every run of `main`, whatever `recv` does: all reads stay inside the buffer if and
only if each of them leaves room in it. -/
theorem reads_inside_iff (username password : Str) (c : Client) (inputs : List Input) :
    Run.Along (Machine.step username password)
        (fun m i => Reads username password m → ReadInside username password m i) inputs
        (Machine.start c) ↔
      Run.Along (Machine.step username password)
        (fun m i => Reads username password m → LeavesRoom i.recv) inputs (Machine.start c) :=
  Run.along_congr (fun _ i _ => forall_congr' fun reads => readInside_iff reads i) _

omit [Platform]

/-- The first read fails, and the terminator is written in front of the buffer. -/
theorem reads_outside : ¬Run.Along (@Machine.step lp64 "MeepBot".toList "secret".toList)
    (fun m i => Reads "MeepBot".toList "secret".toList m →
      @ReadInside lp64 "MeepBot".toList "secret".toList m i)
    [⟨.connected 3, .error⟩, ⟨.connected 3, .error⟩]
    (Machine.start ⟨Bot.initial .empty .empty .calm, .zero⟩) := by
  let _ := lp64
  rintro ⟨-, login, -⟩
  have reads : Reads "MeepBot".toList "secret".toList (Machine.step "MeepBot".toList
      "secret".toList (Machine.start ⟨Bot.initial .empty .empty .calm, .zero⟩)
      ⟨.connected 3, .error⟩) := ⟨by decide, .inl ⟨by decide, by decide⟩⟩
  exact (readInside_iff reads _).mp (login reads)

end Properties
end MeepBot
