import MeepBot.LuaNumber
import Mathlib.Data.UInt

/-!
# What the language leaves to the platform

`atoi` of a numeral outside `int`, and the conversion of a double to an integer type it does
not fit, have no defined value, and nothing is said of the buffer of a `snprintf` that fails. They
are what the platform makes of them; every result holds for all platforms, and `lp64` is the usual
one.
-/

namespace MeepBot

class Platform where
  /-- `atoi` of a numeral with a value outside `int`. -/
  atoiOverflow : Int → Int32
  /-- A double that is not in the range of `unsigned`, converted to it. -/
  unsignedOutOfRange : LuaNumber → UInt32
  /-- A double that is not in the range of `int`, converted to it. -/
  intOutOfRange : LuaNumber → Int32
  /-- A double that is not in the range of `long`, converted to it. -/
  longOutOfRange : LuaNumber → Int64
  /-- What `snprintf` leaves in a buffer of some size where it fails to print a text. -/
  snprintfFailed : Nat → Str → Str

/-- 64-bit Linux: `atoi` is `strtol` cut to 32 bits, conversions go through 64-bit registers. -/
@[reducible] def lp64 : Platform where
  atoiOverflow v := Int32.ofInt (max (-2 ^ 63) (min v (2 ^ 63 - 1)))
  unsignedOutOfRange
    | .finite q =>
      let t := LuaNumber.truncate q
      if -2 ^ 63 ≤ t ∧ t < 2 ^ 63 then UInt32.ofInt t else 0
    | _ => 0
  intOutOfRange _ := Int32.minValue
  longOutOfRange _ := Int64.minValue
  snprintfFailed _ text := text

namespace Platform

/-- The platform, with other leavings of a `snprintf` that fails. -/
@[reducible] def leaving (platform : Platform) (left : Nat → Str → Str) : Platform :=
  { platform with snprintfFailed := left }

/-- The platform, with a `snprintf` that leaves nothing where it fails. -/
@[reducible] def leavingNothing (platform : Platform) : Platform := platform.leaving fun _ _ => []

end Platform

variable [Platform]

/-- `atoi`: white space, an optional sign, and the digits up to the first other byte. -/
def atoi (s : Str) : Int :=
  let (negative, t) := splitSign (s.dropWhile isSpace)
  let n : Int := Nat.ofDigitChars 10 (t.takeWhile Char.isDigit) 0
  let v := if negative then -n else n
  if -2 ^ 31 ≤ v ∧ v < 2 ^ 31 then v else (Platform.atoiOverflow v).toInt

/-- `snprintf` of a text: what stands in front of the terminator. It counts in an `int`, and fails
(`EOVERFLOW`) at a text that is longer than the greatest one, whatever the size is. A buffer of
size 0 is not written at all, and is read here as the empty string. -/
def snprintf (size : Nat) (text : Str) : Str :=
  (if text.length < 2 ^ 31 then text else Platform.snprintfFailed size text).take (size - 1)

/-- A text that an `int` can count is printed as far as there is room. -/
theorem snprintf_of_lt (size : Nat) {text : Str} (counted : text.length < 2 ^ 31) :
    snprintf size text = text.take (size - 1) := by
  rw [snprintf, if_pos counted]

/-- What stands in a buffer has room for its terminator, also behind a failure. -/
theorem length_snprintf_le (size : Nat) (text : Str) : (snprintf size text).length ≤ size - 1 :=
  List.length_take_le _ _

namespace LuaNumber

/-- The value of a double in an integer type from `lo` to `hi`, where it has one. -/
def inRange (lo hi : Int) : LuaNumber → Option Int
  | finite q => if lo ≤ truncate q ∧ truncate q ≤ hi then some (truncate q) else none
  | _ => none

/-- `unsigned( x )`. -/
def toUnsigned (x : LuaNumber) : UInt32 :=
  match x.inRange 0 (2 ^ 32 - 1) with
  | some t => UInt32.ofInt t
  | none => Platform.unsignedOutOfRange x

/-- `int( x )`. -/
def toInt (x : LuaNumber) : Int :=
  (x.inRange (-2 ^ 31) (2 ^ 31 - 1)).getD (Platform.intOutOfRange x).toInt

/-- `string.format( "%d", x )`, which prints the number as a `long`. -/
def formatD (x : LuaNumber) : Str :=
  decimalInt ((x.inRange (-2 ^ 63) (2 ^ 63 - 1)).getD (Platform.longOutOfRange x).toInt)

end LuaNumber

/-- A text made of digits, as a decimal numeral. -/
structure Numeral (text : Str) (value : Nat) : Prop where
  nonempty : text ≠ []
  digits : ∀ c ∈ text, c.isDigit = true
  value_eq : Nat.ofDigitChars 10 text 0 = value

/-- A numeral is read as its value, whatever stands behind it. -/
theorem atoi_numeral {text : Str} {n : Nat} (numeral : Numeral text n) (small : n < 2 ^ 31)
    (tail : Str) (stops : ∀ c ∈ tail.head?, c.isDigit = false) : atoi (text ++ tail) = n := by
  obtain ⟨c, cs, shape⟩ := List.exists_cons_of_ne_nil numeral.nonempty
  have first : c.isDigit := numeral.digits c (by simp [shape])
  have noSpace : (text ++ tail).dropWhile isSpace = text ++ tail := by
    rw [shape, List.cons_append, List.dropWhile_cons_of_neg]
    simp [not_isSpace_of_isDigit first]
  have noSign : splitSign (text ++ tail) = (false, text ++ tail) := by
    rw [shape, List.cons_append, splitSign_digit c _ first]
  obtain ⟨run, -⟩ := run_append_stop Char.isDigit numeral.digits stops
  simp only [atoi, noSpace, noSign, run, numeral.value_eq]
  simp only [Bool.false_eq_true, if_false]
  rw [if_pos (by omega)]

omit [Platform] in
theorem numeral_decimal (n : Nat) : Numeral (decimal n) n where
  nonempty := decimal_ne_nil n
  digits _ := isDigit_of_mem_decimal
  value_eq := Nat.ofDigitChars_ten_toDigits

omit [Platform] in
/-- A numeral of a number that is a double is read as that number. -/
theorem tonumber_numeral {text : Str} {n : Nat} (numeral : Numeral text n) (small : n < 2 ^ 53) :
    LuaNumber.tonumber text = some (LuaNumber.ofNat n) := by
  rw [LuaNumber.tonumber_digits_eq numeral.digits numeral.nonempty, numeral.value_eq,
    LuaNumber.round_natCast_small small]

omit [Platform] in
/-- A numeral has a value in an integer type exactly when the number it stands for has one,
as long as the type is not wider than a double's whole numbers. -/
theorem inRange_numeral {text : Str} {n : Nat} (numeral : Numeral text n) (lo hi : Int)
    (low : lo ≤ 0) (narrow : hi < 2 ^ 53) :
    ∃ x, LuaNumber.tonumber text = some x ∧
      x.inRange lo hi = if (n : Int) ≤ hi then some (n : Int) else none := by
  refine ⟨_, by rw [LuaNumber.tonumber_digits_eq numeral.digits numeral.nonempty, numeral.value_eq],
    ?_⟩
  by_cases small : n < 2 ^ 53
  · rw [LuaNumber.round_natCast_small small, LuaNumber.ofNat, LuaNumber.inRange,
      LuaNumber.truncate_natCast]
    exact if_congr (and_iff_right (by omega)) rfl rfl
  · -- what is rounded stays above all whole numbers that have fewer bits
    rw [if_neg (by omega)]
    rcases LuaNumber.round_natCast_ge (n := n) (by omega) with infinite | ⟨q, rounded, large⟩
    · rw [infinite]
      rfl
    · have bits : 53 ≤ Nat.log2 n := (Nat.le_log2 (by omega)).mpr (by omega)
      have above : (2 : ℚ) ^ 53 ≤ q := (pow_le_pow_right₀ (by norm_num) bits).trans large
      have whole : (2 : Int) ^ 53 ≤ LuaNumber.truncate q := by
        rw [LuaNumber.truncate_eq_floor (by linarith)]
        exact Int.le_floor.mpr (by exact_mod_cast above)
      rw [rounded, LuaNumber.inRange, if_neg (by omega)]

/-- A printed number is read back, also in front of the newline of its packet. -/
theorem atoi_decimal (n : Nat) (small : n < 2 ^ 31) (tail : Str)
    (stops : ∀ c ∈ tail.head?, c.isDigit = false) : atoi (decimal n ++ tail) = n :=
  atoi_numeral (numeral_decimal n) small tail stops

/-- The newline of a packet behind a numeral does not change its value. -/
theorem atoi_newline (s : Str) : atoi (s ++ ['\n']) = atoi s := by
  have digits (t : Str) : (t ++ ['\n']).takeWhile Char.isDigit = t.takeWhile Char.isDigit :=
    takeWhile_append_stop _ _ _ (by simp)
  have sign (t : Str) (nonempty : t ≠ []) :
      splitSign (t ++ ['\n']) = ((splitSign t).1, (splitSign t).2 ++ ['\n']) := by
    obtain ⟨c, u, rfl⟩ := List.exists_cons_of_ne_nil nonempty
    by_cases minus : c = '-'
    · subst minus; rfl
    · by_cases plus : c = '+'
      · subst plus; rfl
      · simp [splitSign, minus, plus]
  by_cases blank : s.dropWhile isSpace = []
  · have blank' : (s ++ ['\n']).dropWhile isSpace = [] := by
      rw [List.dropWhile_append, blank]
      decide
    simp only [atoi, blank, blank']
  · have shifted : (s ++ ['\n']).dropWhile isSpace = s.dropWhile isSpace ++ ['\n'] := by
      rw [List.dropWhile_append, if_neg (by simpa using blank)]
    simp only [atoi, shifted, sign _ blank, digits]

end MeepBot
