import MeepBot.Scripts.Specs

/-!
# The dice

The bounds that `roll` and `rollx` give to the generator.

* `roll_eq`, `rollx_eq`: a roll is refused with one reply, or is made with the bound admitted.
* `bounds_fair_iff`: every bound admitted for a parameter is fair if and only if `tonumber` does
  not read the parameter as a number other than zero that is not at least one.

`roll` takes digits only and is always fair. `rollx` compares with zero and with its limit, and
so admits fractions below one, negative numbers and nan.
-/

namespace MeepBot
namespace Properties

open Effect LuaBindings Scripts

/-! ### What is admitted -/

/-- The dice and the sides a parameter asks for. -/
def rollAsks : Option Str → Option LuaNumber × Option LuaNumber
  | some params => findDice params
  | none => (some (.ofNat 1), some defaultNumSides)

/-- The dice and the sides with which `roll` calls the generator. -/
def rollAdmits (params : Option Str) : Option (LuaNumber × LuaNumber) :=
  let (num, sides) := rollAsks params
  match num.filter fun num => !num.isZero, sides.filter fun sides => !sides.isZero with
  | some num, some sides =>
    if num.lt (.ofNat 0) || LuaNumber.lt (.ofNat maxRolls) num ||
        (sides.lt (.ofNat 0) || LuaNumber.lt (.ofNat maxSides) sides) then none
    else some (num, sides)
  | _, _ => none

/-- The sides with which `rollx` calls the generator. -/
def rollxAdmits (params : Option Str) : Option LuaNumber :=
  ((params.bind rollxSides).filter fun sides => !sides.isZero).filter fun sides =>
    !LuaNumber.lt (.ofNat maxRollxSides) sides

/-- A bound that one of the two commands lets through. -/
def LetThrough (params : Option Str) (bound : LuaNumber) : Prop :=
  (∃ num, rollAdmits params = some (num, bound)) ∨ rollxAdmits params = some bound

def rollReport (type : LuaValue) (caller : Str) (num : LuaNumber) (rolls : List Nat) : Str :=
  salutation type caller ++ " rolled".toList ++
    if num = .ofNat 1 then " a ".toList ++ decimal (rolls.headD 0) ++ ".".toList
    else ": ".toList ++ rollsToStr rolls

def rollxReport (type : LuaValue) (caller : Str) (result : Nat) : Str :=
  salutation type caller ++ " rolled a ".toList ++ decimal result ++ ".".toList

/-- A number that is at least one and not above the limit of `rollx` is finite. -/
theorem finite_of_within {bound : LuaNumber} (low : LuaNumber.le (.ofNat 1) bound = true)
    (small : LuaNumber.lt (.ofNat maxRollxSides) bound = false) :
    ∃ q : ℚ, bound = .finite q ∧ 1 ≤ q ∧ q ≤ maxRollxSides := by
  -- the infinities are on the wrong side of one of the two, and nan of both
  rcases bound with q | negative | _
  · rw [← Bool.not_eq_true, LuaNumber.lt_ofNat_finite, not_lt] at small
    exact ⟨q, rfl, by exact_mod_cast LuaNumber.le_ofNat_finite.mp low, small⟩
  · cases negative with
    | true => cases low
    | false => cases small
  · cases low

/-- What `roll` admits, read from digits, is at least one and at most `MAX_SIDES`. -/
theorem range_of_roll {params : Option Str} {num sides : LuaNumber}
    (admitted : rollAdmits params = some (num, sides)) :
    ∃ q : ℚ, sides = .finite q ∧ 1 ≤ q ∧ q ≤ maxSides := by
  unfold rollAdmits at admitted
  rcases dice : rollAsks params with ⟨asked, faces⟩
  simp only [dice] at admitted
  split at admitted
  next number bound _ nonzero =>
    obtain ⟨rfl, nonzero⟩ := Option.filter_eq_some_iff.mp nonzero
    split at admitted
    next => cases admitted
    next within =>
      cases admitted
      simp only [Bool.or_eq_true, not_or, Bool.not_eq_true] at within
      cases params with
      | some params => exact sides_range (findDice_sides dice) (by simpa using nonzero) within.2.2
      | none =>
        cases dice
        exact ⟨6, rfl, by norm_num, by norm_num [maxSides]⟩
  next => cases admitted

section
variable [Platform]

/-- `roll` refuses with a reply, or draws every die with the sides admitted. -/
theorem roll_eq (type : LuaValue) (caller : Str) (params : Option Str) :
    match rollAdmits params with
    | none => ∃ text, roll type caller params = sayOrPM type (some caller) (some text)
    | some (num, sides) => roll type caller params = doRolls sides (turns num) >>= fun rolls =>
        sayOrPM type (some caller) (some (rollReport type caller num rolls)) := by
  cases params with
  | none =>
    -- one die with six sides
    have default : rollAdmits none = some (.ofNat 1, defaultNumSides) := by decide
    rw [default]
    rfl
  | some params =>
    rcases dice : findDice params with ⟨num, sides⟩
    simp only [roll, rollAdmits, rollAsks, dice]
    cases num.filter fun num => !num.isZero with
    | none => exact ⟨_, rfl⟩
    | some num =>
      cases sides.filter fun sides => !sides.isZero with
      | none => exact ⟨_, rfl⟩
      | some sides =>
        by_cases many : (num.lt (.ofNat 0) || LuaNumber.lt (.ofNat maxRolls) num) = true
        · simp only [many, Bool.true_or, if_true]
          exact ⟨_, rfl⟩
        · by_cases large : (sides.lt (.ofNat 0) || LuaNumber.lt (.ofNat maxSides) sides) = true
          · simp only [many, large, Bool.or_true, if_true]
            exact ⟨_, rfl⟩
          · simp only [many, large, Bool.or_false]
            rfl

/-- `rollx` refuses with a reply, or draws one die with the sides admitted. -/
theorem rollx_eq (type : LuaValue) (caller : Str) (params : Option Str) :
    match rollxAdmits params with
    | none => ∃ text, rollx type caller params = sayOrPM type (some caller) (some text)
    | some sides => rollx type caller params = rand sides >>= fun result =>
        sayOrPM type (some caller) (some (rollxReport type caller result)) := by
  unfold rollxAdmits rollx
  cases params with
  | none => exact ⟨_, rfl⟩
  | some params =>
    simp only [Option.bind_some]
    cases (rollxSides params).filter fun sides => !sides.isZero with
    | none => exact ⟨_, rfl⟩
    | some sides =>
      cases large : LuaNumber.lt (.ofNat maxRollxSides) sides with
      | true =>
        simp only [Option.filter_some, large, Bool.not_true, if_true]
        exact ⟨_, rfl⟩
      | false =>
        simp only [Option.filter_some, large, Bool.not_false, if_true]
        rfl

/-! ### Fair bounds -/

/-- The remainder is defined, and whatever the generator yields, the result is a side. -/
structure Fair (bound : LuaNumber) : Prop where
  defined : bound.toUnsigned ≠ 0
  inside : ∀ b : Bot, ∃ result, (rand bound b).1 = .ok result ∧
    1 ≤ result ∧ LuaNumber.le (.ofNat result) bound = true

theorem rand_result {bound : LuaNumber} (nonzero : bound.toUnsigned ≠ 0) (b : Bot) :
    (rand bound b).1 = .ok (b.world.values.head % bound.toUnsigned + 1).toNat := by
  simp only [rand, act_bind, if_neg nonzero]
  rfl

/-- Up to the limit of `rollx`, the fair bounds are the numbers from one on. -/
theorem fair_iff {bound : LuaNumber}
    (small : LuaNumber.lt (.ofNat maxRollxSides) bound = false) :
    Fair bound ↔ LuaNumber.le (.ofNat 1) bound = true := by
  constructor
  · intro fair
    obtain ⟨result, -, positive, below⟩ := fair.inside (.initial .empty .empty .calm)
    exact LuaNumber.le_one_of_le positive below
  · intro low
    -- without its fraction the bound is still at least one
    obtain ⟨q, rfl, from1, toLimit⟩ := finite_of_within low small
    obtain ⟨value, positive⟩ := toUnsigned_finite from1 toLimit
    have nonzero : (LuaNumber.finite q).toUnsigned ≠ 0 := by
      intro zero
      rw [zero, UInt32.toNat_zero] at value
      omega
    refine ⟨nonzero, fun b => ⟨_, rand_result nonzero b, ?_⟩⟩
    obtain ⟨least, most⟩ := draw_range b.world.values.head nonzero
    refine ⟨least, ?_⟩
    -- the result is at most the whole part of the bound
    have whole : ((b.world.values.head % (LuaNumber.finite q).toUnsigned + 1).toNat : Int) ≤ ⌊q⌋ :=
      value ▸ by exact_mod_cast most
    exact LuaNumber.le_ofNat_finite.mpr (by exact_mod_cast Int.le_floor.mp whole)

/-- With a fair bound every die of `roll` shows a side. -/
theorem Fair.rolls {bound : LuaNumber} (fair : Fair bound) (n : Nat) (b : Bot) :
    ∃ rolls, (doRolls bound n b).1 = .ok rolls ∧ rolls.length = n ∧
      ∀ r ∈ rolls, 1 ≤ r ∧ LuaNumber.le (.ofNat r) bound = true := by
  induction n generalizing b with
  | zero => exact ⟨[], rfl, rfl, by simp⟩
  | succ n ih =>
    obtain ⟨roll, first, side⟩ := fair.inside b
    obtain ⟨rolls, others, length, sides⟩ := ih (rand bound b).2
    refine ⟨roll :: rolls, ?_, by rw [List.length_cons, length], ?_⟩
    · rw [doRolls, bind_ok (Prod.ext first rfl)]
      rcases run : doRolls bound n (rand bound b).2 with ⟨result, last⟩
      rw [run] at others
      subst others
      rw [bind_ok run]
      rfl
    · intro r member
      rcases List.mem_cons.mp member with rfl | later
      · exact side
      · exact sides r later

/-- The sides that `roll` admits are fair: digits denote no fraction. -/
theorem fair_of_roll {params : Option Str} {num sides : LuaNumber}
    (admitted : rollAdmits params = some (num, sides)) : Fair sides := by
  obtain ⟨q, rfl, low, high⟩ := range_of_roll admitted
  have limit : (maxSides : ℚ) ≤ maxRollxSides := by exact_mod_cast (by decide : maxSides ≤ _)
  refine (fair_iff ?_).mpr ?_
  · rw [← Bool.not_eq_true, LuaNumber.lt_ofNat_finite, not_lt]
    exact high.trans limit
  · exact LuaNumber.le_ofNat_finite.mpr (by exact_mod_cast low)

/-- For every parameter, the bounds let through are fair if and only if `rollx` does not read
the parameter as a number that is neither zero nor at least one. -/
theorem bounds_fair_iff (params : Option Str) :
    (∀ bound, LetThrough params bound → Fair bound) ↔
      ∀ sides, params.bind rollxSides = some sides →
        sides.isZero = true ∨ LuaNumber.le (.ofNat 1) sides = true := by
  constructor
  · intro fair sides asked
    by_cases zero : sides.isZero = true
    · exact .inl zero
    right
    by_cases large : LuaNumber.lt (.ofNat maxRollxSides) sides = true
    · -- refused for its size, which is more than one
      exact LuaNumber.le_one_of_le (by decide) (LuaNumber.le_of_lt large)
    · -- what is neither zero nor above the limit is admitted
      have admitted : rollxAdmits params = some sides := by
        simp [rollxAdmits, asked, Option.filter_some, zero, large]
      exact (fair_iff (by simpa using large)).mp (fair sides (.inr admitted))
  · rintro wellAsked bound (⟨num, admitted⟩ | admitted)
    · exact fair_of_roll admitted
    · obtain ⟨nonzero, small⟩ := Option.filter_eq_some_iff.mp admitted
      obtain ⟨asked, nonzero⟩ := Option.filter_eq_some_iff.mp nonzero
      -- zero is refused before the limit is looked at
      have low := (wellAsked bound asked).resolve_left (by simpa using nonzero)
      exact (fair_iff (by simpa using small)).mpr low

end

/-- `rollx` lets one half through, which is converted to zero. -/
theorem bound_unfair :
    ¬∀ bound, LetThrough (some "0.5".toList) bound → @Fair lp64 bound := by
  intro fair
  have admitted : rollxAdmits (some "0.5".toList) = some (.finite (1 / 2)) := by decide +kernel
  have zero : @LuaNumber.toUnsigned lp64 (.finite (1 / 2)) = 0 := by decide +kernel
  exact @Fair.defined lp64 _ (fair _ (.inr admitted)) zero

end Properties
end MeepBot
