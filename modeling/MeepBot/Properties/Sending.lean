import MeepBot.Bot
import MeepBot.Library.Run

/-!
# Sending

What reaches the socket of the packets passed to `Write`.

* `toString_complete_iff`: `ToString` prints the whole packet, whatever a failed `snprintf` does,
  unless its line is too long to be counted, or its four numbers are all as long as they can be.
* `stream_whole_iff`: the stream is made of whole packets as long as no send that succeeds
  takes less than it is given.
-/

namespace MeepBot
namespace Properties

/-! ### Printing -/

/-- The whole line of a packet: the numbers in decimal, the texts as they are. -/
def fullText (p : ChatPacket) : Str :=
  [delim].intercalate [decimal p.iCode.toNat, p.sUsername, p.sMessage, decimal p.r.toNat,
    decimal p.g.toNat, decimal p.b.toNat] ++ ['\n']

/-- The line can be counted, and 20 bytes are enough for the numbers, the delimiters, the newline
and the terminator. -/
def HasRoom (p : ChatPacket) : Prop :=
  (fullText p).length < 2 ^ 31 ∧
    ¬(10000 ≤ p.iCode.toNat ∧ 100 ≤ p.r.toNat ∧ 100 ≤ p.g.toNat ∧ 100 ≤ p.b.toNat)

theorem text_eq_fullText {p : ChatPacket} (username : '\x00' ∉ p.sUsername)
    (message : '\x00' ∉ p.sMessage) : p.text = fullText p := by
  rw [ChatPacket.text, ChatPacket.fields, cstr_eq_self _ username, cstr_eq_self _ message]
  rfl

/-- How long a code can get, and when it is as long as that. -/
theorem length_code (x : UInt16) : (decimal x.toNat).length ≤ 5 ∧
    ((decimal x.toNat).length ≤ 4 ↔ x.toNat < 10000) := by
  have bound := x.toNat_lt
  refine ⟨(Nat.length_toDigits_le_iff (by decide) (by decide)).mpr (by omega), ?_⟩
  exact Nat.length_toDigits_le_iff (by decide) (by decide)

theorem length_colour (x : UInt8) : (decimal x.toNat).length ≤ 3 ∧
    ((decimal x.toNat).length ≤ 2 ↔ x.toNat < 100) := by
  have bound := x.toNat_lt
  refine ⟨(Nat.length_toDigits_le_iff (by decide) (by decide)).mpr (by omega), ?_⟩
  exact Nat.length_toDigits_le_iff (by decide) (by decide)

/-- A buffer that is 20 bytes longer than the texts has room for the line unless the numbers have
14 digits. -/
theorem length_text_le_iff {p : ChatPacket} (username : '\x00' ∉ p.sUsername)
    (message : '\x00' ∉ p.sMessage) :
    p.text.length ≤ p.sUsername.length + p.sMessage.length + 19 ↔
      ¬(10000 ≤ p.iCode.toNat ∧ 100 ≤ p.r.toNat ∧ 100 ≤ p.g.toNat ∧ 100 ≤ p.b.toNat) := by
  obtain ⟨code, longCode⟩ := length_code p.iCode
  obtain ⟨r, longR⟩ := length_colour p.r
  obtain ⟨g, longG⟩ := length_colour p.g
  obtain ⟨b, longB⟩ := length_colour p.b
  -- five delimiters, the newline and the terminator leave 13 bytes for the digits of four numbers
  rw [ChatPacket.text_length, cstr_eq_self _ username, cstr_eq_self _ message]
  omega

/-- `ToString` returns the whole line, for whatever code, colours and texts and on every platform,
if and only if the line has less than 2^31 bytes and its numbers have less than 14 digits. -/
theorem toString_complete_iff (p : ChatPacket) (username : '\x00' ∉ p.sUsername)
    (message : '\x00' ∉ p.sMessage) :
    (∀ platform : Platform, @ChatPacket.toString platform p = fullText p) ↔ HasRoom p := by
  have whole := text_eq_fullText username message
  rw [HasRoom, ← whole, ← length_text_le_iff username message]
  constructor
  · intro complete
    have counted : p.text.length < 2 ^ 31 := by
      by_contra uncounted
      have lost := ChatPacket.toString_leavingNothing lp64 (not_lt.mp uncounted)
      rw [complete] at lost
      have length := congrArg List.length lost
      simp [ChatPacket.text] at length
    refine ⟨counted, ?_⟩
    have printed := complete lp64
    rwa [@ChatPacket.toString_of_counted lp64 p username message counted,
      List.take_eq_self_iff] at printed
  · rintro ⟨counted, room⟩ platform
    rw [ChatPacket.toString_of_counted username message counted, List.take_of_length_le room]

/-- A message of the protocol in full colour. -/
theorem toString_complete_white : @ChatPacket.toString lp64 ⟨3, ['a'], ['b'], 255, 255, 255⟩ =
    "3`a`b`255`255`255\n".toList :=
  (toString_complete_iff ⟨3, ['a'], ['b'], 255, 255, 255⟩ (by decide) (by decide)).mpr
    ⟨by decide, by decide⟩ lp64

/-- With five digits for the code and three for every colour, the newline is lost. -/
theorem toString_truncated : ∃ p : ChatPacket, '\x00' ∉ p.sUsername ∧ '\x00' ∉ p.sMessage ∧
    ∀ platform : Platform, @ChatPacket.toString platform p ≠ fullText p := by
  refine ⟨⟨10000, ['a'], ['b'], 100, 100, 100⟩, by decide, by decide, fun platform same => ?_⟩
  rw [ChatPacket.toString_of_counted (by decide) (by decide) (by decide)] at same
  revert same
  decide

/-! ### The stream -/


/-- The records of a sequence of packets passed to `Write`. -/
def sent (b : Bot) (packets : List ChatPacket) : List Written :=
  (Run.run (fun b p => (b.write p).2) packets b).written.drop b.written.length

theorem written_run (b : Bot) (packets : List ChatPacket) :
    (Run.run (fun b p => (b.write p).2) packets b).written = b.written ++ sent b packets := by
  -- a run of writes only adds records
  have grows : b.written <+: (Run.run (fun b p => (b.write p).2) packets b).written := by
    refine Run.invariant _ (fun c : Bot => b.written <+: c.written) (fun _ _ => True)
      (fun c p kept _ => kept.trans (List.prefix_append _ _)) packets b (List.prefix_refl _) ?_
    induction packets generalizing b with
    | nil => trivial
    | cons p packets ih => exact ⟨trivial, ih _⟩
  obtain ⟨rest, whole⟩ := grows
  rw [sent, ← whole, List.drop_left]

theorem sent_cons (b : Bot) (p : ChatPacket) (packets : List ChatPacket) :
    sent b (p :: packets) = ⟨b.loggedIn, p, b.world.sends.head⟩ :: sent (b.write p).2 packets := by
  have first : (b.write p).2.written = b.written ++ [⟨b.loggedIn, p, b.world.sends.head⟩] := rfl
  have rest := written_run (b.write p).2 packets
  rw [sent, Run.run_cons, rest, first, List.append_assoc, List.drop_left, List.singleton_append]

theorem sent_append (b : Bot) (first second : List ChatPacket) :
    sent b (first ++ second) =
      sent b first ++ sent (Run.run (fun b p => (b.write p).2) first b) second := by
  induction first generalizing b with
  | nil => simp [sent]
  | cons p first ih =>
    rw [List.cons_append, sent_cons, sent_cons, ih, List.cons_append, Run.run_cons]

theorem sent_take (b : Bot) (packets : List ChatPacket) (k : Nat) :
    sent b (packets.take k) = (sent b packets).take k := by
  induction packets generalizing b k with
  | nil => simp [sent]
  | cons p packets ih =>
    cases k with
    | zero => simp [sent]
    | succ k => rw [List.take_succ_cons, sent_cons, sent_cons, ih, List.take_succ_cons]

section
variable [Platform]

/-- The bytes of a write that the socket has taken. -/
def taken (w : Written) : Str := w.packet.toString.take w.outcome.iSent.toNat

/-- The value `Write` has returned for a record is positive. -/
def Succeeded (w : Written) : Prop := 0 < Socket.write w.outcome

instance (w : Written) : Decidable (Succeeded w) := inferInstanceAs (Decidable (_ < _))

/-- If every write has succeeded, the stream is made of whole packets. -/
def WholePackets (ws : List Written) : Prop :=
  (∀ w ∈ ws, Succeeded w) →
    (ws.map taken).flatten = (ws.map fun w => w.packet.toString).flatten

instance (ws : List Written) : Decidable (WholePackets ws) := inferInstanceAs (Decidable (_ → _))

/-- A write that succeeds is taken whole exactly when the count is the length of the line. -/
theorem taken_eq_iff {w : Written} (accepts : w.outcome.iSent ≤ w.packet.toString.length)
    (succeeded : Succeeded w) :
    taken w = w.packet.toString ↔ w.outcome.iSent = w.packet.toString.length := by
  have positive : 0 < w.outcome.iSent := by
    by_contra failed
    rw [Succeeded, Socket.write, if_pos (not_lt.mp failed)] at succeeded
    split at succeeded
    · exact absurd succeeded (by decide)
    · exact absurd succeeded (by decide)
  rw [taken, List.take_eq_self_iff]
  omega

/-- For every sequence of packets passed to `Write`, and every behaviour of a `send` that takes
no more than it is given: after each of them, as long as all have succeeded, the bytes taken are
the packets' lines if and only if no send before the first failure falls short. -/
theorem stream_whole_iff (b : Bot) (packets : List ChatPacket)
    (accepts : ∀ w ∈ sent b packets, w.outcome.iSent ≤ w.packet.toString.length) :
    (∀ earlier, earlier <+: packets → WholePackets (sent b earlier)) ↔
      ∀ w ∈ (sent b packets).takeWhile fun w => decide (Succeeded w),
        w.outcome.iSent = w.packet.toString.length := by
  have succeeded {w : Written}
      (among : w ∈ (sent b packets).takeWhile fun w => decide (Succeeded w)) : Succeeded w := by
    simpa using List.mem_takeWhile_imp among
  constructor
  · intro whole w among
    -- the packets up to the first failure
    have run := List.prefix_iff_eq_take.mp
      (List.takeWhile_prefix (l := sent b packets) fun w => decide (Succeeded w))
    rw [← sent_take] at run
    have glued := whole _ (List.take_prefix _ packets) (by rw [← run]; exact fun _ => succeeded)
    rw [← run] at glued
    -- no send takes more than its line, so equal streams have equal parts
    have each := Pieces.eq_of_flatten_eq _ (fun v _ => by
      rw [taken, List.length_take]
      exact Nat.min_le_right _ _) glued
    exact (taken_eq_iff (accepts w ((List.takeWhile_prefix _).subset among))
      (succeeded among)).mp (each w among)
  · rintro full earlier ⟨later, rfl⟩ succeed
    rw [sent_append] at full accepts
    -- all of these have succeeded, and so stand in front of the first failure
    rw [List.takeWhile_append_of_pos (by simpa using succeed)] at full
    congr 1
    apply List.map_congr_left
    intro w among
    exact (taken_eq_iff (accepts w (List.mem_append_left _ among)) (succeed w among)).mpr
      (full w (List.mem_append_left _ among))

end

/-- A bot whose sends all take up to `n` bytes. -/
def sender (n : Int) : Bot :=
  .initial .empty .empty { World.calm with sends := Stream'.const ⟨n, false⟩ }

/-- Two packets of twelve bytes each, by sends that take twelve. -/
theorem stream_whole_twelve :
    @WholePackets lp64 (sent (sender 12) [.ofCode .userList, .ofCode .userJoin]) :=
  (@stream_whole_iff lp64 (sender 12) [.ofCode .userList, .ofCode .userJoin] (by decide)).mpr
    (by decide) _ (List.prefix_refl _)

/-- A send that takes three bytes of twelve has succeeded, and the line is cut. -/
theorem stream_cut : ∃ (b : Bot) (packets : List ChatPacket), ∀ platform : Platform,
    (∀ w ∈ sent b packets, w.outcome.iSent ≤ (@ChatPacket.toString platform w.packet).length) ∧
      ¬@WholePackets platform (sent b packets) := by
  refine ⟨sender 3, [.ofCode .userList], fun platform => ?_⟩
  have line : (ChatPacket.ofCode .userList).toString = "0`_`_`0`0`0\n".toList :=
    (ChatPacket.toString_of_counted (by decide) (by decide) (by decide)).trans (by decide)
  have one : sent (sender 3) [.ofCode .userList] = [⟨false, .ofCode .userList, ⟨3, false⟩⟩] := rfl
  rw [one]
  constructor
  · intro w member
    rw [List.mem_singleton.mp member, line]
    decide
  · intro whole
    have cut := whole (by decide)
    simp only [List.map_cons, List.map_nil, taken, line] at cut
    revert cut
    decide

end Properties
end MeepBot
