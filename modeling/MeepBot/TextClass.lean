import Mathlib.Algebra.Group.Nat.Defs
import MeepBot.Text

/-!
# Classes of texts

What the scripts say is put together from literals, numbers and texts they have been given.
A class of texts, with a bound on the length, that is closed under these steps holds of what
they say. Two classes matter: all texts, and the texts that can stand in a field of a line.
-/

namespace MeepBot

/-- A byte without a meaning on the wire. -/
def Inert (c : Char) : Prop := c ≠ delim ∧ c ≠ '\n' ∧ c ≠ '\x00'

instance (c : Char) : Decidable (Inert c) := inferInstanceAs (Decidable (_ ∧ _))

def Plain (s : Str) : Prop := ∀ c ∈ s, Inert c

instance (s : Str) : Decidable (Plain s) := List.decidableBAll _ s

/-- Whether a text is plain and no longer than `n`. -/
def shortPlain : Nat → Str → Bool
  | _, [] => true
  | 0, _ :: _ => false
  | n + 1, c :: s => decide (Inert c) && shortPlain n s

theorem shortPlain_spec {n : Nat} {s : Str} (short : shortPlain n s = true) :
    Plain s ∧ s.length ≤ n := by
  induction s generalizing n with
  | nil => exact ⟨by simp [Plain], Nat.zero_le n⟩
  | cons c s ih =>
    cases n with
    | zero => cases short
    | succ n =>
      simp only [shortPlain, Bool.and_eq_true, decide_eq_true_eq] at short
      obtain ⟨plain, length⟩ := ih short.2
      refine ⟨?_, by simpa using length⟩
      intro x member
      rcases List.mem_cons.mp member with rfl | later
      · exact short.1
      · exact plain x later

/-- `holds n s` says that `s` is in the class and no longer than `n`. -/
structure TextClass where
  holds : Nat → Str → Prop
  mono : ∀ {m n : Nat} {s : Str}, holds m s → m ≤ n → holds n s
  append : ∀ {m n : Nat} {s t : Str}, holds m s → holds n t → holds (m + n) (s ++ t)
  plain : ∀ {s : Str}, Plain s → holds s.length s
  part : ∀ {n : Nat} {s t : Str}, holds n s → t.Sublist s → holds n t
  lower : ∀ {n : Nat} {s : Str}, holds n s → holds n (toLower s)
  size : ∀ {n : Nat} {s : Str}, holds n s → 0 < n → holds n (decimal s.length)

theorem plain_append {s t : Str} (hs : Plain s) (ht : Plain t) : Plain (s ++ t) := by
  intro c member
  rcases List.mem_append.mp member with h | h
  · exact hs c h
  · exact ht c h

theorem inert_of_isDigit {c : Char} (digit : c.isDigit) : Inert c := by
  refine ⟨?_, ?_, ?_⟩ <;> rintro rfl <;> revert digit <;> decide

theorem plain_decimal (n : Nat) : Plain (decimal n) :=
  fun _ member => inert_of_isDigit (isDigit_of_mem_decimal member)

theorem plain_decimalInt (v : Int) : Plain (decimalInt v) := by
  unfold decimalInt
  split
  · exact plain_append (s := ['-']) (by decide) (plain_decimal _)
  · exact plain_decimal _

theorem length_decimal {n k : Nat} (positive : 0 < k) (small : n < 10 ^ k) :
    (decimal n).length ≤ k := (Nat.length_toDigits_le_iff (by decide) positive).mpr small

theorem length_decimalInt {v : Int} {k : Nat} (positive : 0 < k) (small : v.natAbs < 10 ^ k) :
    (decimalInt v).length ≤ k + 1 := by
  have digits := length_decimal positive small
  unfold decimalInt
  split
  · simpa using digits
  · omega

/-- Lower case keeps inert bytes inert: no byte with a meaning is a letter. -/
theorem inert_toLower {c : Char} (inert : Inert c) : Inert c.toLower := by
  have code := toNat_toLower c
  -- what becomes a byte below the small letters was that byte before
  have same (d : Char) (other : d.val.toNat < 97) (lower : c.toLower = d) : c = d := by
    rw [lower] at code
    refine Char.ext (UInt32.toNat_inj.mp ?_)
    split at code <;> omega
  exact ⟨fun lower => inert.1 (same _ (by decide) lower),
    fun lower => inert.2.1 (same _ (by decide) lower),
    fun lower => inert.2.2 (same _ (by decide) lower)⟩

theorem plain_toLower {s : Str} (hs : Plain s) : Plain (toLower s) := by
  intro c member
  obtain ⟨d, hd, rfl⟩ := List.mem_map.mp member
  exact inert_toLower (hs d hd)

namespace TextClass

/-- Every text. -/
def all : TextClass where
  holds _ _ := True
  mono _ _ := trivial
  append _ _ := trivial
  plain _ := trivial
  part _ _ := trivial
  lower _ := trivial
  size _ _ := trivial

/-- The texts that can stand in a field. -/
def wire : TextClass where
  holds n s := Plain s ∧ s.length ≤ n
  mono h le := ⟨h.1, h.2.trans le⟩
  append hs ht := ⟨plain_append hs.1 ht.1, by
    rw [List.length_append]; exact Nat.add_le_add hs.2 ht.2⟩
  plain h := ⟨h, Nat.le_refl _⟩
  part h sub := ⟨fun c member => h.1 c (sub.subset member), sub.length_le.trans h.2⟩
  lower h := ⟨plain_toLower h.1, by simpa [toLower] using h.2⟩
  size h positive := ⟨plain_decimal _, length_decimal positive
    (Nat.lt_of_le_of_lt h.2 (Nat.lt_pow_self (by decide)))⟩

variable (T : TextClass)

/-- A text of the source. The characters are taken from the literal by unification, since
computing them from its bytes is slow. -/
theorem literal {chars : Str} (short : shortPlain 100 chars = true) :
    T.holds 100 (String.ofList chars).toList := by
  obtain ⟨plain, length⟩ := shortPlain_spec short
  rw [String.toList_ofList]
  exact T.mono (T.plain plain) length

theorem appendLiteral {n : Nat} {s chars : Str} (ok : T.holds n s)
    (short : shortPlain 100 chars = true) : T.holds (n + 100) (s ++ (String.ofList chars).toList) :=
  T.append ok (T.literal short)

theorem literalAppend {n : Nat} {s chars : Str} (short : shortPlain 100 chars = true)
    (ok : T.holds n s) : T.holds (100 + n) ((String.ofList chars).toList ++ s) :=
  T.append (T.literal short) ok

theorem nat {n : Nat} (small : n < 10 ^ 20) : T.holds 20 (decimal n) :=
  T.mono (T.plain (plain_decimal n)) (length_decimal (by decide) small)

theorem int {v : Int} (small : v.natAbs < 10 ^ 20) : T.holds 21 (decimalInt v) :=
  T.mono (T.plain (plain_decimalInt v)) (length_decimalInt (by decide) small)

end TextClass
end MeepBot
