import MeepBot.Properties.Framing

/-!
# Splitting and re-encoding

What the fields of a string are, and what becomes of a packet that is made of them when it is
printed and decoded again.

* `split_exact`: the loop of `Split` ends, and appends the maximal runs between delimiters.
* `reencode_iff`: what was decoded comes back, whatever a failed `snprintf` does, if and only if
  the packet's line is not too long to be counted.
-/

namespace MeepBot
namespace Properties

/-! ### Splitting -/

section
open StringUtil

/-- For every string, every delimiter and every list to append to: the loop ends after two turns
more than the string has bytes, at the latest; what it appends are the maximal runs and nothing
else, none of them empty or with a delimiter; and a string that goes on behind a delimiter is
split like its two parts, one after the other. -/
theorem split_exact (s : Str) (add : List Str) (d : Char) :
    (∀ turns, s.length + 2 ≤ turns → splitLoop turns s d (some 0) add = some (split s add d)) ∧
      (∃ runs, split s add d = add ++ runs ∧ Pieces.MaximalRuns d s runs ∧
        (∀ others, Pieces.MaximalRuns d s others → others = runs) ∧
        ∀ run ∈ runs, run ≠ [] ∧ d ∉ run) ∧
      ∀ v, split (s ++ d :: v) add d = split v (split s add d) d := by
  refine ⟨fun turns enough => ?_, ⟨pieces d s, split_eq s add d, ?_, ?_, ?_⟩, fun v => ?_⟩
  · rw [split_eq]
    exact splitLoop_pieces s d turns 0 add enough
  · exact Pieces.maximalRuns_iff.mpr rfl
  · exact fun others maximal => (Pieces.maximalRuns_iff.mp maximal).symm
  · intro run member
    obtain ⟨nonempty, free, -⟩ := Pieces.spec d s run member
    exact ⟨nonempty, free⟩
  · rw [split_eq, split_eq, split_eq, Pieces.append_cons, List.append_assoc]

end

/-! ### Re-encoding -/

/-- The texts of a decoded packet can be decoded again. -/
theorem token_of_cameFrom {s field : Str} (clean : '\x00' ∉ s)
    (cameFrom : ChatPacket.CameFrom s field) : ChatPacket.Token field :=
  ⟨cameFrom.nonempty, cameFrom.free, fun member => clean (cameFrom.chars _ member)⟩

/-- For every string that is accepted, whatever its texts, code and colours are: the packet
survives being printed, whatever is left of a line that `snprintf` fails to print, if and only if
the line has less than 2^31 bytes. -/
theorem reencode_iff [platform : Platform] (s : Str) (p : ChatPacket) (clean : '\x00' ∉ s)
    (accepted : ChatPacket.fromString s = some p) :
    (∀ left, @ChatPacket.fromString (platform.leaving left)
      (@ChatPacket.toString (platform.leaving left) p) = some p) ↔ p.text.length < 2 ^ 31 := by
  have username := token_of_cameFrom clean (ChatPacket.username_cameFrom accepted)
  have message := token_of_cameFrom clean (ChatPacket.message_cameFrom accepted)
  constructor
  · intro same
    by_contra uncounted
    -- what is printed may be nothing, which is no packet
    have lost := ChatPacket.toString_leavingNothing platform (not_lt.mp uncounted)
    have read := same fun _ _ => []
    rw [lost] at read
    cases read
  · intro counted left
    obtain ⟨line, text⟩ := @ChatPacket.fromString_line (platform.leaving left) p username message
    -- the newline may be missing, but is part of no field
    rcases @ChatPacket.toString_of_fits (platform.leaving left) p username.zero_free
      message.zero_free counted with whole | cut
    · rw [whole, text]
    · rw [cut, line]

/-- A code of five digits and colours of three leave no room for the newline. -/
theorem reencode_iff_long : @ChatPacket.fromString lp64.leavingNothing
    (@ChatPacket.toString lp64.leavingNothing
      ⟨65535, "bob".toList, "a\nb".toList, 255, 255, 255⟩) =
      some ⟨65535, "bob".toList, "a\nb".toList, 255, 255, 255⟩ :=
  (@reencode_iff lp64 "-1`bob`a\nb`255`-1`767".toList _ (by decide) (by decide)).mpr (by decide)
    fun _ _ => []

/-- A message of 4294967276 bytes is accepted, and printed as an empty string, whatever is left of
a line that cannot be printed. -/
theorem reencode_fails : ∃ (s : Str) (p : ChatPacket), '\x00' ∉ s ∧
    ∀ platform : Platform, @ChatPacket.fromString platform s = some p ∧
      @ChatPacket.fromString platform (@ChatPacket.toString platform p) ≠ some p := by
  have sendable : Sendable (letters (2 ^ 32 - 20)) := sendable_letters (by decide)
  refine ⟨lineOf (letters (2 ^ 32 - 20)), letters (2 ^ 32 - 20), ?_, fun platform =>
    ⟨(fromString_lineOf sendable).1, ?_⟩⟩
  · intro member
    have fields := ChatPacket.field_of_mem_fields sendable.username sendable.message
    rcases ChatPacket.mem_line member with same | ⟨f, among, inside⟩
    · exact absurd same (by decide)
    · exact (fields f among).zero_free inside
  · rw [toString_letters (by decide)]
    intro same
    cases same

end Properties
end MeepBot
