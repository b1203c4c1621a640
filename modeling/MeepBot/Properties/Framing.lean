import MeepBot.Session

/-!
# Framing

What the receive path makes of a stream of printed packets.

* `roundTrip_iff`: whole packets, in any grouping into reads, are given back on every platform if
  and only if no packet's line is so long that `snprintf` cannot count it.
-/

namespace MeepBot
namespace Properties

open PacketUtil

/-! ### Whole packets in every read -/

/-- A packet with a code of the protocol and texts that can be fields. -/
structure Sendable (p : ChatPacket) : Prop where
  code : ∃ c : MessageCode, p.iCode = c.value
  username : ChatPacket.Field p.sUsername
  message : ChatPacket.Field p.sMessage

/-- A packet's text without its newline. -/
def lineOf (p : ChatPacket) : Str := [delim].intercalate p.fields

/-- The length of the line fits an `int`, so that `snprintf` does not fail. -/
def Counted (p : ChatPacket) : Prop := (lineOf p).length + 1 < 2 ^ 31

instance (p : ChatPacket) : Decidable (Counted p) := inferInstanceAs (Decidable (_ < _))

theorem counted_iff {p : ChatPacket} : Counted p ↔ p.text.length < 2 ^ 31 := by
  rw [Counted, ChatPacket.text, List.length_append, List.length_singleton, lineOf]

theorem newline_lineOf {p : ChatPacket} (sendable : Sendable p) : '\n' ∉ lineOf p := by
  intro member
  rcases ChatPacket.mem_line member with same | ⟨f, among, inside⟩
  · exact absurd same (by decide)
  · exact (ChatPacket.field_of_mem_fields sendable.username sendable.message f among).newline_free
      inside

theorem lineOf_ne_nil (p : ChatPacket) : lineOf p ≠ [] := by
  intro empty
  have length := congrArg List.length empty
  simp [lineOf, ChatPacket.fields, List.intercalate] at length

theorem fromString_lineOf [Platform] {p : ChatPacket} (sendable : Sendable p) :
    ChatPacket.fromString (lineOf p) = some p ∧
      ChatPacket.fromString (lineOf p ++ ['\n']) = some p :=
  ChatPacket.fromString_line p sendable.username.token sendable.message.token

section
variable [Platform]

/-- The texts of some packets, one after the other. -/
def transmit (group : List ChatPacket) : Str := (group.map ChatPacket.toString).flatten

theorem toString_of_sendable {p : ChatPacket} (sendable : Sendable p) (counted : Counted p) :
    p.toString = lineOf p ++ ['\n'] := by
  obtain ⟨c, code⟩ := sendable.code
  exact ChatPacket.toString_eq_text sendable.username.zero_free sendable.message.zero_free
    ⟨by rw [code]; exact c.value_lt, counted_iff.mp counted⟩

theorem transmit_cons (p : ChatPacket) (group : List ChatPacket) :
    transmit (p :: group) = p.toString ++ transmit group := rfl

/-- The pieces of printed packets. -/
theorem pieces_transmit (group : List ChatPacket) (sendable : ∀ p ∈ group, Sendable p)
    (counted : ∀ p ∈ group, Counted p) : pieces '\n' (transmit group) = group.map lineOf := by
  induction group with
  | nil => exact Pieces.nil '\n'
  | cons p group ih =>
    have first := sendable p (by simp)
    rw [transmit_cons, toString_of_sendable first (counted p (by simp)), List.append_assoc,
      List.singleton_append, Pieces.run_cons '\n' _ _ (newline_lineOf first) (lineOf_ne_nil p),
      ih (fun q h => sendable q (by simp [h])) fun q h => counted q (by simp [h])]
    rfl

/-- One read of whole packets whose lines are counted. -/
theorem receive_transmit (group : List ChatPacket) (nonempty : group ≠ [])
    (sendable : ∀ p ∈ group, Sendable p) (counted : ∀ p ∈ group, Counted p) :
    receive (transmit group) = group.map some := by
  have split := pieces_transmit group sendable counted
  have parsed : (group.map lineOf).map ChatPacket.fromString = group.map some := by
    rw [List.map_map]
    exact List.map_congr_left fun p h => (fromString_lineOf (sendable p h)).1
  rw [receive]
  rcases frames_cases (transmit group) with ⟨empty, -⟩ | ⟨l, whole, free, one⟩ | ⟨-, many⟩
  · rw [empty, Pieces.nil] at split
    exact absurd (List.map_eq_nil_iff.mp split.symm) nonempty
  · -- a single line is taken with its newline
    rw [whole, Pieces.append_self] at split
    have line : l ≠ [] := by
      rintro rfl
      exact nonempty (List.map_eq_nil_iff.mp split.symm)
    rw [Pieces.of_not_mem '\n' l free line] at split
    obtain ⟨p, rfl, same⟩ := List.map_eq_singleton_iff.mp split.symm
    rw [one, whole, ← same, List.map_singleton, List.map_singleton,
      (fromString_lineOf (sendable p (by simp))).2]
  · rw [many, split, parsed]

end

/-! ### A line that cannot be counted -/

/-- A platform on which a line that cannot be counted is not sent at all. -/
@[reducible] def silent : Platform := lp64.leavingNothing

/-- Such a packet is not in the stream at all, where a failed `snprintf` leaves nothing. -/
theorem transmit_silent (group : List ChatPacket) :
    @transmit silent group = @transmit silent (group.filter Counted) := by
  induction group with
  | nil => rfl
  | cons p group ih =>
    rw [@transmit_cons silent, ih, List.filter_cons]
    by_cases counted : Counted p
    · rw [if_pos (decide_eq_true counted), @transmit_cons silent]
    · have lost := ChatPacket.toString_leavingNothing lp64 (not_lt.mp (counted_iff.not.mp counted))
      rw [if_neg (by simpa using counted), lost, List.nil_append]

/-- What a read yields there: the packets that are in it, or one string that is rejected. -/
theorem receive_silent (group : List ChatPacket) (sendable : ∀ p ∈ group, Sendable p) :
    (group.filter Counted = [] ∧ @receive silent (@transmit silent group) = [none]) ∨
      @receive silent (@transmit silent group) = (group.filter Counted).map some := by
  rw [transmit_silent]
  by_cases empty : group.filter Counted = []
  · left
    rw [empty]
    exact ⟨rfl, rfl⟩
  · right
    apply @receive_transmit silent _ empty
    · exact fun p member => sendable p (List.mem_of_mem_filter member)
    · exact fun p member => by simpa using List.of_mem_filter member

/-- A read never yields more strings than packets were put in. -/
theorem length_receive_le (group : List ChatPacket) (nonempty : group ≠ [])
    (sendable : ∀ p ∈ group, Sendable p) :
    (@receive silent (@transmit silent group)).length ≤ group.length := by
  rcases receive_silent group sendable with ⟨-, rejected⟩ | kept
  · rw [rejected]
    exact List.length_pos_of_ne_nil nonempty
  · rw [kept, List.length_map]
    exact List.length_filter_le _ _

/-- A read that yields its packets has counted all of them. -/
theorem counted_of_receive {group : List ChatPacket} (sendable : ∀ p ∈ group, Sendable p)
    (same : @receive silent (@transmit silent group) = group.map some) :
    ∀ p ∈ group, Counted p := by
  rcases receive_silent group sendable with ⟨-, rejected⟩ | kept
  · rw [rejected] at same
    obtain ⟨p, -, none⟩ := List.map_eq_singleton_iff.mp same.symm
    cases none
  · rw [kept] at same
    have length := congrArg List.length same
    rw [List.length_map, List.length_map] at length
    exact fun p member => by simpa using List.length_filter_eq_length_iff.mp length p member

/-- Whole packets, grouped into reads in any way, are given back in order with all their
fields, on every platform, if and only if every packet's line has less than 2^31 bytes with its
newline. -/
theorem roundTrip_iff (groups : List (List ChatPacket)) (nonempty : ∀ group ∈ groups, group ≠ [])
    (sendable : ∀ group ∈ groups, ∀ p ∈ group, Sendable p) :
    (∀ platform : Platform, (groups.map fun group =>
      @receive platform (@transmit platform group)).flatten = groups.flatten.map some) ↔
      ∀ group ∈ groups, ∀ p ∈ group, Counted p := by
  rw [List.map_flatten]
  constructor
  · intro same group among
    -- no read yields more than was put in, so each of them yields its own packets
    have each := Pieces.eq_of_flatten_eq groups (fun g h => by
      rw [List.length_map]; exact length_receive_le g (nonempty g h) (sendable g h))
      (same silent)
    exact counted_of_receive (sendable group among) (each group among)
  · intro counted platform
    congr 1
    exact List.map_congr_left fun group h =>
      receive_transmit group (nonempty group h) (sendable group h) (counted group h)

/-- Two packets in one read. -/
theorem roundTrip_iff_two :
    ([[(⟨3, ['a'], ['b'], 1, 2, 3⟩ : ChatPacket), ⟨2, ['c'], ['_'], 0, 0, 0⟩]].map fun group =>
      @receive lp64 (@transmit lp64 group)).flatten =
      [some ⟨3, ['a'], ['b'], 1, 2, 3⟩, some ⟨2, ['c'], ['_'], 0, 0, 0⟩] := by
  refine (roundTrip_iff _ (by simp) fun group h p member => ?_).mpr
    (fun group h p member => ?_) lp64
  · rw [List.mem_singleton] at h
    subst h
    simp only [List.mem_cons, List.not_mem_nil, or_false] at member
    rcases member with rfl | rfl
    · exact ⟨⟨.roomMessage, rfl⟩, ⟨by decide, by decide, by decide, by decide⟩,
        ⟨by decide, by decide, by decide, by decide⟩⟩
    · exact ⟨⟨.userPart, rfl⟩, ⟨by decide, by decide, by decide, by decide⟩,
        ⟨by decide, by decide, by decide, by decide⟩⟩
  · rw [List.mem_singleton] at h
    subst h
    simp only [List.mem_cons, List.not_mem_nil, or_false] at member
    rcases member with rfl | rfl <;> decide

/-- A message of letters. -/
def letters (n : Nat) : ChatPacket := ⟨3, ['a'], List.replicate n 'a', 0, 0, 0⟩

theorem sendable_letters {n : Nat} (some : n ≠ 0) : Sendable (letters n) := by
  have letter : ChatPacket.Field ['a'] := ⟨by decide, by decide, by decide, by decide⟩
  refine ⟨⟨.roomMessage, rfl⟩, letter, ?_⟩
  constructor
  · exact fun empty => some ((List.replicate_eq_nil_iff 'a').mp empty)
  · exact fun h => absurd (List.eq_of_mem_replicate h) (by decide)
  · exact fun h => absurd (List.eq_of_mem_replicate h) (by decide)
  · exact fun h => absurd (List.eq_of_mem_replicate h) (by decide)

/-- A buffer of one byte only holds the terminator. -/
theorem toString_letters [Platform] {n : Nat} (wraps : (1 + n + 20) % 2 ^ 32 = 1) :
    (letters n).toString = [] := by
  have size : (letters n).iLen = 1 := by
    rw [ChatPacket.iLen, letters, List.length_replicate]
    exact wraps
  have room := length_snprintf_le (letters n).iLen (letters n).text
  rw [size] at room
  exact List.length_eq_zero_iff.mp (by rw [ChatPacket.toString, size]; omega)

/-- A message of 4294967276 bytes is lost, whatever the platform is. -/
theorem roundTrip_fails : ∃ p : ChatPacket, Sendable p ∧
    ∀ platform : Platform, @receive platform (@transmit platform [p]) ≠ [some p] := by
  refine ⟨letters (2 ^ 32 - 20), sendable_letters (by decide), fun platform => ?_⟩
  have printed : transmit [letters (2 ^ 32 - 20)] = [] := by
    rw [transmit_cons, toString_letters (by decide)]
    rfl
  rw [printed]
  intro same
  cases same

end Properties
end MeepBot
