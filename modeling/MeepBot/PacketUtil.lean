import MeepBot.ChatPacket

/-!
# PacketUtil

How a received buffer is cut into packets. A buffer whose first newline is its last byte is
taken whole, newline included; any other buffer is split at its newlines. The two ways agree
except on a line that ends in a delimiter, where the newline becomes a field.
-/

namespace MeepBot
namespace PacketUtil

/-- `in.length() - 1 != in.find_first_of( "\n" )`; for an empty string both sides are `npos`. -/
def needsSplit (s : Str) : Bool :=
  decide ((if s.length = 0 then none else some (s.length - 1)) ≠
    StringUtil.findFirstOf s '\n' (some 0))

def split (s : Str) (add : List Str) : List Str := StringUtil.split s add '\n'

/-- The strings `MainLoop` hands to `HandlePacket` for a buffer. -/
def frames (buffer : Str) : List Str := if needsSplit buffer then split buffer [] else [buffer]

/-- The packets `MainLoop` makes of a buffer; nothing for a string that is rejected. -/
def receive [Platform] (buffer : Str) : List (Option ChatPacket) :=
  (frames buffer).map ChatPacket.fromString

theorem needsSplit_nil : needsSplit [] = false := by decide

/-- A line with its newline is taken whole. -/
theorem needsSplit_line (l : Str) (line : '\n' ∉ l) : needsSplit (l ++ ['\n']) = false := by
  have index : (l ++ ['\n']).findIdx? (fun c => decide (c = '\n')) = some l.length := by
    have absent : l.findIdx? (fun c => decide (c = '\n')) = none := by
      rw [List.findIdx?_eq_none_iff]
      rintro c member
      rw [decide_eq_false_iff_not]
      rintro rfl
      exact line member
    rw [List.findIdx?_append, absent]
    simp
  simp [needsSplit, StringUtil.findFirstOf, StringUtil.findFrom, index]

/-- Taken whole are the empty buffer and one line with its newline. -/
theorem needsSplit_eq_false_iff {s : Str} :
    needsSplit s = false ↔ s = [] ∨ ∃ l, s = l ++ ['\n'] ∧ '\n' ∉ l := by
  constructor
  · intro whole
    by_cases empty : s = []
    · exact .inl empty
    right
    rw [needsSplit, decide_eq_false_iff_not, not_not, if_neg (by simpa using empty)] at whole
    simp only [StringUtil.findFirstOf, StringUtil.findFrom, List.drop_zero,
      eq_comm (a := some _), Option.map_eq_some_iff] at whole
    -- the first newline is at `i`, and `i` is the last position
    obtain ⟨i, hi, last⟩ := whole
    rw [List.findIdx?_eq_some_iff_getElem] at hi
    obtain ⟨short, atNewline, before⟩ := hi
    simp only [decide_eq_true_eq] at atNewline before
    refine ⟨s.take i, ?_, ?_⟩
    · have : s.length = i + 1 := by omega
      rw [← atNewline, List.take_append_getElem, ← this, List.take_length]
    · intro member
      obtain ⟨j, hj, same⟩ := List.mem_take_iff_getElem.mp member
      exact before j (by omega) same
  · rintro (rfl | ⟨l, rfl, line⟩)
    · exact needsSplit_nil
    · exact needsSplit_line l line

/-- Everything else is split. -/
theorem frames_cases (s : Str) :
    (s = [] ∧ frames s = [[]]) ∨
    (∃ l, s = l ++ ['\n'] ∧ '\n' ∉ l ∧ frames s = [s]) ∨
    ((¬∃ l, s = l ++ ['\n'] ∧ '\n' ∉ l) ∧ frames s = pieces '\n' s) := by
  by_cases whole : needsSplit s = true
  · right; right
    refine ⟨fun line => ?_, ?_⟩
    · rw [needsSplit_eq_false_iff.mpr (.inr line)] at whole
      cases whole
    · rw [frames, if_pos whole, split, StringUtil.split_eq, List.nil_append]
  · have taken : frames s = [s] := if_neg whole
    rcases needsSplit_eq_false_iff.mp (Bool.not_eq_true _ ▸ whole) with rfl | ⟨l, line, free⟩
    · exact .inl ⟨rfl, taken⟩
    · exact .inr (.inl ⟨l, line, free, taken⟩)

/-- A frame is a part of the buffer. -/
theorem isInfix_of_mem_frames {s frame : Str} (member : frame ∈ frames s) : frame <:+: s := by
  rcases frames_cases s with ⟨rfl, one⟩ | ⟨l, rfl, -, one⟩ | ⟨-, many⟩
  · rw [one, List.mem_singleton] at member
    exact member ▸ List.infix_refl _
  · rw [one, List.mem_singleton] at member
    exact member ▸ List.infix_refl _
  · rw [many] at member
    exact Pieces.isInfix '\n' s frame member

/-- A line of five or six fields that ends in a delimiter. -/
def Dangling (l : Str) : Prop :=
  (∃ u, l = u ++ [delim]) ∧ ((pieces delim l).length = 5 ∨ (pieces delim l).length = 6)

/-- With any other line the newline makes no difference. -/
theorem fromString_newline [Platform] (l : Str) (closed : ¬Dangling l) :
    ChatPacket.fromString (l ++ ['\n']) = ChatPacket.fromString l := by
  rcases List.eq_nil_or_concat' l with rfl | ⟨u, c, rfl⟩
  · rfl
  · by_cases atDelim : c = delim
    · -- the newline is a field of its own, so five fields become six and six become seven
      subst atDelim
      have long := Pieces.append_free_of_boundary delim (u ++ [delim]) ['\n'] (by decide) (by simp)
        (.inr ⟨u, rfl⟩)
      have count : ¬((pieces delim (u ++ [delim])).length = 5 ∨
          (pieces delim (u ++ [delim])).length = 6) := fun h => closed ⟨⟨u, rfl⟩, h⟩
      rw [not_or] at count
      rw [ChatPacket.fromString_eq, ChatPacket.fromString_eq, long,
        ChatPacket.ofFields_none_of_length count.2,
        ChatPacket.ofFields_none_of_length (by simpa using count.1)]
    · exact ChatPacket.fromString_newline u c atDelim

/-- Without a dangling line, both ways of taking a buffer find the well-formed packets among
its pieces. -/
theorem receive_eq_pieces [Platform] (s : Str)
    (closed : ∀ l, s = l ++ ['\n'] → '\n' ∉ l → ¬Dangling l) :
    (frames s).filterMap ChatPacket.fromString =
      (pieces '\n' s).filterMap ChatPacket.fromString := by
  rcases frames_cases s with ⟨rfl, one⟩ | ⟨l, rfl, free, one⟩ | ⟨-, many⟩
  · rw [one]; rfl
  · rw [one, Pieces.append_self]
    by_cases empty : l = []
    · subst empty; rfl
    · rw [Pieces.of_not_mem '\n' l free empty, List.filterMap_cons, List.filterMap_cons,
        fromString_newline l (closed l rfl free)]
  · rw [many]

/-- What is accepted from a frame of a buffer has fields without newline, made of bytes of
the buffer. -/
theorem frame_fields [Platform] {s frame : Str} {p : ChatPacket} (member : frame ∈ frames s)
    (accepted : ChatPacket.fromString frame = some p) (field : Str)
    (which : field = p.sUsername ∨ field = p.sMessage) :
    ChatPacket.CameFrom s field ∧ '\n' ∉ field := by
  have whole : ChatPacket.CameFrom frame field := by
    rcases which with rfl | rfl
    · exact ChatPacket.username_cameFrom accepted
    · exact ChatPacket.message_cameFrom accepted
  rcases frames_cases s with ⟨rfl, one⟩ | ⟨l, rfl, free, one⟩ | ⟨-, many⟩
  · rw [one, List.mem_singleton] at member
    subst member
    cases accepted
  · -- the newline at the end is behind the two texts
    rw [one, List.mem_singleton] at member
    subst member
    have inLine : ChatPacket.CameFrom l field := by
      rcases which with rfl | rfl
      · exact (ChatPacket.cameFrom_line accepted).1
      · exact (ChatPacket.cameFrom_line accepted).2
    exact ⟨whole, fun newline => free (inLine.chars _ newline)⟩
  · rw [many] at member
    obtain ⟨-, free, sub⟩ := Pieces.spec '\n' s frame member
    exact ⟨⟨whole.nonempty, whole.free, fun c h => sub c (whole.chars c h)⟩,
      fun newline => free (whole.chars _ newline)⟩

end PacketUtil
end MeepBot
