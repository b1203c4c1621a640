import Mathlib.Algebra.Order.Field.Power
import Mathlib.Data.Rat.Floor
import Mathlib.Tactic.Positivity
import MeepBot.Text

/-!
# Numbers of the scripting language

A number is a double: a finite one is the rational it denotes. `tonumber` reads a text as
`strtod` does and rounds to the nearest double, ties to even.
-/

namespace MeepBot

inductive LuaNumber where
  | finite (q : ℚ)
  | inf (negative : Bool)
  | nan
  deriving DecidableEq

namespace LuaNumber

/-- A whole number small enough to be a double. -/
def ofNat (n : Nat) : LuaNumber := finite n

/-- The comparison `a < b`; no comparison with nan holds. -/
def lt : LuaNumber → LuaNumber → Bool
  | finite p, finite q => decide (p < q)
  | finite _, inf negative => !negative
  | inf negative, finite _ => negative
  | inf a, inf b => a && !b
  | _, _ => false

/-- The comparison `a <= b`. -/
def le : LuaNumber → LuaNumber → Bool
  | nan, _ => false
  | _, nan => false
  | a, b => !lt b a

/-- The comparison `a == 0`. -/
def isZero : LuaNumber → Bool
  | finite q => decide (q = 0)
  | _ => false

def roundHalfEven (q : ℚ) : Int :=
  let below := ⌊q⌋
  let rest := q - below
  if rest < 1 / 2 then below
  else if 1 / 2 < rest then below + 1
  else if below % 2 = 0 then below else below + 1

/-- The largest `e` with `2 ^ e ≤ q`, for a positive `q`. -/
def exponentOf (q : ℚ) : Int :=
  let e := (Nat.log2 q.num.natAbs : Int) - Nat.log2 q.den
  if (2 : ℚ) ^ e ≤ q then e else e - 1

/-- The double nearest to `q`: 53 significant bits, exponents from -1022 to 1023. -/
def round (q : ℚ) : LuaNumber :=
  if q = 0 then finite 0
  else
    let ulp : ℚ := (2 : ℚ) ^ (max (exponentOf |q|) (-1022) - 52)
    let magnitude : ℚ := roundHalfEven (|q| / ulp) * ulp
    if (2 : ℚ) ^ (1024 : Int) ≤ magnitude then inf (decide (q < 0))
    else finite (if q < 0 then -magnitude else magnitude)

def negate : LuaNumber → LuaNumber
  | finite q => finite (-q)
  | inf negative => inf (!negative)
  | nan => nan

/-- An exponent part after `mark`, and the text behind it; a mark without digits is not one. -/
def exponentPart (mark : Char) (s : Str) : Int × Str :=
  match s with
  | [] => (0, [])
  | c :: t =>
    let (negative, t) := splitSign t
    let digits := t.takeWhile Char.isDigit
    if c.toLower = mark ∧ digits ≠ [] then
      let e : Int := Nat.ofDigitChars 10 digits 0
      (if negative then -e else e, t.dropWhile Char.isDigit)
    else (0, s)

def isHexDigit (c : Char) : Bool :=
  c.isDigit || (decide ('a' ≤ c.toLower) && decide (c.toLower ≤ 'f'))

def hexValue (digits : Str) : Nat :=
  digits.foldl (fun n c =>
    16 * n + if c.isDigit then c.toNat - '0'.toNat else c.toLower.toNat - 'a'.toNat + 10) 0

/-- Digits with an optional point, in one base: the value without exponent, and the rest. -/
def mantissa (isDigit : Char → Bool) (value : Str → Nat) (base : ℚ) (s : Str) :
    Option (ℚ × Str) :=
  let whole := s.takeWhile isDigit
  let rest := s.dropWhile isDigit
  let (fraction, rest) := match rest with
    | '.' :: t => (t.takeWhile isDigit, t.dropWhile isDigit)
    | t => ([], t)
  if whole = [] ∧ fraction = [] then none
  else some (value (whole ++ fraction) / base ^ fraction.length, rest)

def strtodDecimal (s : Str) : Option (LuaNumber × Str) :=
  (mantissa Char.isDigit (Nat.ofDigitChars 10 · 0) 10 s).map fun (m, rest) =>
    let (e, rest) := exponentPart 'e' rest
    (round (m * (10 : ℚ) ^ e), rest)

def strtodHex (s : Str) : Option (LuaNumber × Str) :=
  match s with
  | '0' :: x :: t =>
    if x.toLower = 'x' then
      (mantissa isHexDigit hexValue 16 t).map fun (m, rest) =>
        let (e, rest) := exponentPart 'p' rest
        (round (m * (2 : ℚ) ^ e), rest)
    else none
  | _ => none

/-- The text behind `word`, if `s` starts with it in some letter case. -/
def afterWord (word s : Str) : Option Str :=
  if toLower (s.take word.length) = word then some (s.drop word.length) else none

/-- A nan may carry a parenthesised run of letters, digits and underscores. -/
def afterPayload (s : Str) : Str :=
  match s with
  | '(' :: t =>
    match t.dropWhile fun c => c.isAlphanum || c = '_' with
    | ')' :: u => u
    | _ => s
  | _ => s

/-- `strtod`: the number at the start of the text, and the text behind it. -/
def strtod (s : Str) : Option (LuaNumber × Str) :=
  let (negative, t) := splitSign (s.dropWhile isSpace)
  let unsigned := strtodHex t
    <|> strtodDecimal t
    <|> (afterWord "infinity".toList t).map (inf false, ·)
    <|> (afterWord "inf".toList t).map (inf false, ·)
    <|> (afterWord "nan".toList t).map (nan, afterPayload ·)
  unsigned.map fun (x, rest) => (if negative then negate x else x, rest)

/-- `tonumber` of a string: the whole text, up to trailing white space, is a number. -/
def tonumber (s : Str) : Option LuaNumber :=
  match strtod s with
  | some (x, rest) => if rest.dropWhile isSpace = [] then some x else none
  | none => none

/-- The number without its fraction, towards zero. -/
def truncate (q : ℚ) : Int := q.num.tdiv q.den

/-- Of a number that is not negative, the fraction is cut off downwards. -/
theorem truncate_eq_floor {q : ℚ} (nonneg : 0 ≤ q) : truncate q = ⌊q⌋ := by
  rw [truncate, Int.tdiv_eq_ediv_of_nonneg (Rat.num_nonneg.mpr nonneg), Rat.floor_def']

@[simp] theorem truncate_intCast (i : Int) : truncate i = i := by simp [truncate]

@[simp] theorem truncate_natCast (n : Nat) : truncate n = n := by simp [truncate]

/-! ### Comparisons with a whole number -/

@[simp] theorem lt_ofNat_finite {n : Nat} {q : ℚ} :
    lt (ofNat n) (finite q) = true ↔ (n : ℚ) < q := decide_eq_true_iff

@[simp] theorem le_ofNat_finite {n : Nat} {q : ℚ} :
    le (ofNat n) (finite q) = true ↔ (n : ℚ) ≤ q := by
  simp only [le, lt, ofNat, Bool.not_eq_true', decide_eq_false_iff_not, not_lt]

/-- What is above some whole number, or not below it, is at least one if that is. -/
theorem le_one_of_le {n : Nat} (positive : 1 ≤ n) {x : LuaNumber} (above : le (ofNat n) x = true) :
    le (ofNat 1) x = true := by
  rcases x with q | negative | _
  · rw [le_ofNat_finite] at above ⊢
    exact le_trans (by exact_mod_cast positive) above
  · exact above
  · exact above

theorem le_of_lt {n : Nat} {x : LuaNumber} (above : lt (ofNat n) x = true) :
    le (ofNat n) x = true := by
  rcases x with q | negative | _
  · exact le_ofNat_finite.mpr (lt_ofNat_finite.mp above).le
  · cases negative with
    | true => cases above
    | false => rfl
  · cases above

/-! ### Numerals without sign, point and exponent -/

theorem exponentOf_natCast {n : Nat} (positive : 0 < n) : exponentOf n = Nat.log2 n := by
  have below : (2 : ℚ) ^ (Nat.log2 n : Int) ≤ n := by
    rw [zpow_natCast]
    exact_mod_cast Nat.log2_self_le positive.ne'
  have one : Nat.log2 1 = 0 := by decide
  simp only [exponentOf, Rat.num_natCast, Int.natAbs_natCast, Rat.den_natCast, one, Nat.cast_zero,
    sub_zero, below, if_true]

theorem floor_le_roundHalfEven (q : ℚ) : ⌊q⌋ ≤ roundHalfEven q := by
  simp only [roundHalfEven]
  split_ifs <;> omega

theorem roundHalfEven_natCast (n : Nat) : roundHalfEven n = n := by
  simp [roundHalfEven]

/-- The unit in the last place of a whole number. -/
theorem ulp_natCast {n : Nat} (positive : 0 < n) :
    max (exponentOf n) (-1022) - 52 = (Nat.log2 n : Int) - 52 := by
  rw [exponentOf_natCast positive]
  omega

/-- A whole number of 53 bits is a double. -/
theorem round_natCast_small {n : Nat} (small : n < 2 ^ 53) : round n = ofNat n := by
  rcases Nat.eq_zero_or_pos n with rfl | positive
  · simp [round, ofNat]
  · have nonneg : (0 : ℚ) < n := by exact_mod_cast positive
    have bits : Nat.log2 n ≤ 52 := Nat.le_of_lt_succ ((Nat.log2_lt positive.ne').mpr small)
    -- in units of the last place the number is whole, so that rounding keeps it
    have unit : (2 : ℚ) ^ ((Nat.log2 n : Int) - 52) * 2 ^ (52 - Nat.log2 n) = 1 := by
      rw [← zpow_natCast, ← zpow_add₀ (by norm_num), Nat.cast_sub bits]
      norm_num
    have units : (n : ℚ) / 2 ^ ((Nat.log2 n : Int) - 52) = (n * 2 ^ (52 - Nat.log2 n) : Nat) := by
      rw [div_eq_iff (by positivity)]
      push_cast
      rw [mul_assoc, mul_comm _ ((2 : ℚ) ^ ((Nat.log2 n : Int) - 52)), unit, mul_one]
    have magnitude : (roundHalfEven ((n : ℚ) / 2 ^ ((Nat.log2 n : Int) - 52)) : ℚ) *
        2 ^ ((Nat.log2 n : Int) - 52) = n := by
      rw [units, roundHalfEven_natCast]
      push_cast
      rw [mul_assoc, mul_comm _ ((2 : ℚ) ^ ((Nat.log2 n : Int) - 52)), unit, mul_one]
    have finite : ¬(2 : ℚ) ^ (1024 : Int) ≤ n := by
      rw [not_le]
      calc (n : ℚ) < 2 ^ (53 : Int) := by exact_mod_cast small
        _ ≤ 2 ^ (1024 : Int) := zpow_le_zpow_right₀ (by norm_num) (by norm_num)
    simp only [round, nonneg.ne', if_false, abs_of_pos nonneg, ulp_natCast positive, magnitude,
      finite, not_lt.mpr nonneg.le, ofNat]

/-- Rounding keeps the leading bit of a whole number. -/
theorem round_natCast_ge {n : Nat} (positive : 0 < n) :
    round n = inf false ∨ ∃ q : ℚ, round n = finite q ∧ 2 ^ Nat.log2 n ≤ q := by
  have nonneg : (0 : ℚ) < n := by exact_mod_cast positive
  have unit := ulp_natCast positive
  -- the quotient has 53 bits, and rounding it does not go below a whole number
  have bits : (2 : ℚ) ^ 52 ≤ (n : ℚ) / 2 ^ ((Nat.log2 n : Int) - 52) := by
    rw [le_div_iff₀ (by positivity), ← zpow_natCast, ← zpow_add₀ (by norm_num)]
    have : ((52 : Nat) : Int) + ((Nat.log2 n : Int) - 52) = Nat.log2 n := by push_cast; ring
    rw [this, zpow_natCast]
    exact_mod_cast Nat.log2_self_le positive.ne'
  have kept : (2 : Int) ^ 52 ≤ roundHalfEven ((n : ℚ) / 2 ^ ((Nat.log2 n : Int) - 52)) :=
    (Int.le_floor.mpr (by exact_mod_cast bits)).trans (floor_le_roundHalfEven _)
  have large : 2 ^ Nat.log2 n ≤ roundHalfEven ((n : ℚ) / 2 ^ ((Nat.log2 n : Int) - 52)) *
      (2 : ℚ) ^ ((Nat.log2 n : Int) - 52) :=
    calc (2 : ℚ) ^ Nat.log2 n = 2 ^ 52 * 2 ^ ((Nat.log2 n : Int) - 52) := by
          rw [← zpow_natCast, ← zpow_natCast, ← zpow_add₀ (by norm_num)]
          congr 1
          push_cast
          ring
      _ ≤ _ := mul_le_mul_of_nonneg_right (by exact_mod_cast kept) (by positivity)
  simp only [round, nonneg.ne', if_false, abs_of_pos nonneg, unit, not_lt.mpr nonneg.le,
    decide_false]
  split
  · exact .inl rfl
  · exact .inr ⟨_, rfl, large⟩

/-- A whole number is rounded to 0, to infinity or to a number from 1 on. -/
theorem round_natCast (n : Nat) :
    round n = finite 0 ∨ round n = inf false ∨ ∃ q : ℚ, round n = finite q ∧ 1 ≤ q := by
  rcases Nat.eq_zero_or_pos n with rfl | positive
  · left
    simp [round]
  · right
    rcases round_natCast_ge positive with infinite | ⟨q, rounded, large⟩
    · exact .inl infinite
    · exact .inr ⟨q, rounded, (one_le_pow₀ (by norm_num)).trans large⟩

theorem toLower_of_isDigit {c : Char} (digit : c.isDigit) : c.toLower = c := by
  have high : c.val.toNat ≤ 57 := by
    simp only [Char.isDigit, Bool.and_eq_true, decide_eq_true_eq] at digit
    exact digit.2
  refine Char.ext (UInt32.toNat_inj.mp ?_)
  rw [toNat_toLower, if_neg (by omega)]

theorem strtodHex_digits {digits : Str} (all : ∀ c ∈ digits, c.isDigit) :
    strtodHex digits = none := by
  unfold strtodHex
  split
  next x t =>
    have digit : x.isDigit := all x (by simp)
    rw [toLower_of_isDigit digit, if_neg]
    rintro rfl
    exact absurd digit (by decide)
  next => rfl

/-- Of the ways to read digits as a number only the decimal one is left, and it reads all. -/
theorem tonumber_digits_eq {digits : Str} (all : ∀ c ∈ digits, c.isDigit) (some : digits ≠ []) :
    tonumber digits = Option.some (round (Nat.ofDigitChars 10 digits 0 : Nat)) := by
  obtain ⟨c, t, rfl⟩ := List.exists_cons_of_ne_nil some
  have first : c.isDigit := all c (by simp)
  have noSpace : (c :: t).dropWhile isSpace = c :: t :=
    List.dropWhile_cons_of_neg (by simp [not_isSpace_of_isDigit first])
  have through : (c :: t).takeWhile Char.isDigit = c :: t := List.takeWhile_eq_self_iff.mpr all
  have behind : (c :: t).dropWhile Char.isDigit = [] := List.dropWhile_eq_nil_iff.mpr all
  have noHex := strtodHex_digits all
  have plain : strtodDecimal (c :: t) =
      Option.some (round (Nat.ofDigitChars 10 (c :: t) 0 : Nat), []) := by
    simp only [strtodDecimal, mantissa, through, behind, exponentPart]
    simp
  simp only [tonumber, strtod, noSpace, splitSign_digit c t first, noHex, plain]
  simp

/-- A numeral made of digits alone is 0, infinite or at least 1. -/
theorem tonumber_digits {digits : Str} (all : ∀ c ∈ digits, c.isDigit) {x : LuaNumber}
    (number : tonumber digits = some x) :
    x = finite 0 ∨ x = inf false ∨ ∃ q : ℚ, x = finite q ∧ 1 ≤ q := by
  by_cases empty : digits = []
  · rw [empty] at number
    cases number
  · rw [tonumber_digits_eq all empty] at number
    cases number
    exact round_natCast _

end LuaNumber
end MeepBot
