import MeepBot.Properties.Dice

/-!
# Rolls

What `roll` answers to a parameter of one of its two forms.

* `rolls_asked`: with the number of sides it rolls what was asked; without it, it never does.
-/

namespace MeepBot
namespace Properties

open Effect LuaBindings Scripts

/-- A parameter that asks for `n` dice, with `sides` where it says how many they have. -/
inductive AsksFor : (params : Str) → (n : Nat) → (sides : Option Nat) → Prop where
  | dice {num : Str} {n : Nat} (number : Numeral num n) : AsksFor num n none
  | diceWithSides {num faces : Str} {n s : Nat} (number : Numeral num n) (sides : Numeral faces s) :
    AsksFor (num ++ 'd' :: faces) n (some s)

/-- What is told of the results: one number, or the list of them with their sum. -/
def tellRolls : List Nat → Str
  | [roll] => " a ".toList ++ decimal roll ++ ".".toList
  | rolls => ": ".toList ++ (", ".toList).intercalate (rolls.map decimal) ++ " = ".toList ++
      decimal rolls.sum

/-- The bot after some values have been taken from the generator. -/
def drawn (b : Bot) (n : Nat) : Bot :=
  { b with world := { b.world with values := b.world.values.drop n } }

/-- The bot after an answer. -/
def answered (b : Bot) (type : LuaValue) (caller text : Str) : Bot :=
  if type = .typePM then b.pm caller text else b.say text

variable [Platform]

/-- The command takes `n` values from the generator, and answers with as many results of dice
with `s` sides. -/
def Rolls (b : Bot) (type : LuaValue) (caller params : Str) (n s : Nat) : Prop :=
  ∃ rolls : List Nat, rolls.length = n ∧ (∀ r ∈ rolls, 1 ≤ r ∧ r ≤ s) ∧
    roll type caller (some params) b = (.ok (),
      answered (drawn b n) type caller (salutation type caller ++ " rolled".toList ++
        tellRolls rolls))

/-! ### What is told -/

section
omit [Platform]

theorem total_eq (sum : Nat) (rolls : List Nat) :
    rolls.foldl (· + ·) sum = sum + rolls.sum := by
  induction rolls generalizing sum with
  | nil => rfl
  | cons r rolls ih => rw [List.foldl_cons, ih, List.sum_cons, Nat.add_assoc]

theorem rollsToStr_cons (roll : Nat) (rolls : List Nat) : rollsToStr (roll :: rolls) =
    rolls.foldl (fun ret r => ret ++ ", ".toList ++ decimal r) (decimal roll) ++ " = ".toList ++
      decimal (rolls.foldl (· + ·) roll) := rfl

/-- The two loops yield the list with commas in between, and the sum. -/
theorem rollsToStr_eq (roll : Nat) (rolls : List Nat) : rollsToStr (roll :: rolls) =
    (", ".toList).intercalate ((roll :: rolls).map decimal) ++ " = ".toList ++
      decimal (roll :: rolls).sum := by
  rw [rollsToStr_cons, total_eq, List.map_cons, List.sum_cons, ← foldl_intercalate, List.foldl_map]

/-- The report of the command is what is told of its results. -/
theorem rollReport_eq (type : LuaValue) (caller : Str) {n : Nat} {rolls : List Nat}
    (length : rolls.length = n) (positive : 1 ≤ n) :
    rollReport type caller (.ofNat n) rolls =
      salutation type caller ++ " rolled".toList ++ tellRolls rolls := by
  have one : LuaNumber.ofNat n = .ofNat 1 ↔ n = 1 := by simp [LuaNumber.ofNat]
  rw [rollReport]
  rcases rolls with _ | ⟨first, _ | ⟨second, rest⟩⟩
  · simp only [List.length_nil] at length
    omega
  · rw [if_pos (one.mpr length.symm)]
    rfl
  · have many : n ≠ 1 := by
      simp only [List.length_cons] at length
      omega
    rw [if_neg fun same => many (one.mp same), rollsToStr_eq]
    simp only [tellRolls, List.append_assoc]

theorem answered_eq (type : LuaValue) (caller text : Str) {b : Bot}
    (enabled : b.lua.any Lua.isEnabled = true) :
    sayOrPM type (some caller) (some text) b = (.ok (), answered b type caller text) := by
  simp only [sayOrPM, isEnabled, query_bind, enabled, Bool.not_true, Bool.false_eq_true, if_false,
    answered]
  split
  · rfl
  · rfl

end

/-! ### What is drawn -/

theorem doRolls_drawn {bound : LuaNumber} (nonzero : bound.toUnsigned ≠ 0) (n : Nat) (b : Bot) :
    (doRolls bound n b).2 = drawn b n := by
  induction n generalizing b with
  | zero => rfl
  | succ n ih =>
    have first : rand bound b = (.ok (b.world.values.head % bound.toUnsigned + 1).toNat,
        drawn b 1) := by
      simp only [rand, act_bind, if_neg nonzero]
      rfl
    have next : drawn (drawn b 1) n = drawn b (n + 1) := rfl
    rw [doRolls, bind_ok first]
    have others := ih (drawn b 1)
    rcases run : doRolls bound n (drawn b 1) with ⟨result, last⟩
    rw [run, next] at others
    rw [bind_apply, run]
    cases result with
    | ok rolls => exact others
    | error e => exact others

/-! ### The two forms -/

section
omit [Platform]

theorem findDice_sides_given {num faces : Str} {n s : Nat} (number : Numeral num n)
    (sides : Numeral faces s) (few : n ≤ 20) (small : s ≤ 1000) :
    findDice (num ++ 'd' :: faces) = (some (.ofNat n), some (.ofNat s)) := by
  obtain ⟨run, rest⟩ := run_append_stop Char.isDigit number.digits
    (by simp : ∀ c ∈ ('d' :: faces).head?, c.isDigit = false)
  have behind : faces.takeWhile Char.isDigit = faces :=
    List.takeWhile_eq_self_iff.mpr sides.digits
  simp only [findDice, run, rest, if_neg number.nonempty, List.head?_cons, if_true, List.tail_cons,
    behind, tonumber_numeral number (by omega), tonumber_numeral sides (by omega)]

/-- Nothing is left for the second run of digits, and the empty text is no number. -/
theorem findDice_sides_omitted {num : Str} {n : Nat} (number : Numeral num n) (few : n ≤ 20) :
    findDice num = (some (.ofNat n), none) := by
  have run : num.takeWhile Char.isDigit = num := List.takeWhile_eq_self_iff.mpr number.digits
  have rest : num.dropWhile Char.isDigit = [] := List.dropWhile_eq_nil_iff.mpr number.digits
  simp only [findDice, run, rest, if_neg number.nonempty, tonumber_numeral number (by omega)]
  rfl

/-- A number of dice that is asked for is within the limits. -/
theorem dice_admitted {n : Nat} (positive : 1 ≤ n) :
    (some (LuaNumber.ofNat n)).filter (fun num => !num.isZero) = some (.ofNat n) := by
  have nonzero : (LuaNumber.ofNat n).isZero = false := by
    simp only [LuaNumber.ofNat, LuaNumber.isZero, decide_eq_false_iff_not, Nat.cast_eq_zero]
    omega
  simp [Option.filter_some, nonzero]

theorem rollAdmits_sides_given {num faces : Str} {n s : Nat} (number : Numeral num n)
    (sides : Numeral faces s) (dice : 1 ≤ n ∧ n ≤ 20) (small : 1 ≤ s ∧ s ≤ 1000) :
    rollAdmits (some (num ++ 'd' :: faces)) = some (.ofNat n, .ofNat s) := by
  have within (k limit : Nat) (low : k ≤ limit) :
      ((LuaNumber.ofNat k).lt (.ofNat 0) || (LuaNumber.ofNat limit).lt (.ofNat k)) = false := by
    simp only [LuaNumber.lt_ofNat, Bool.or_eq_false_iff, decide_eq_false_iff_not]
    omega
  simp only [rollAdmits, rollAsks, findDice_sides_given number sides dice.2 small.2,
    dice_admitted dice.1, dice_admitted small.1, within n maxRolls dice.2,
    within s maxSides small.2]
  rfl

end

theorem rolls_sides_given {num faces : Str} {n s : Nat} (number : Numeral num n)
    (sides : Numeral faces s) (dice : 1 ≤ n ∧ n ≤ 20) (small : 1 ≤ s ∧ s ≤ 1000)
    (type : LuaValue) (caller : Str) {b : Bot} (enabled : b.lua.any Lua.isEnabled = true) :
    Rolls b type caller (num ++ 'd' :: faces) n s := by
  have admitted := rollAdmits_sides_given number sides dice small
  have made := roll_eq type caller (some (num ++ 'd' :: faces))
  simp only [admitted] at made
  have fair := fair_of_roll admitted
  obtain ⟨rolls, drawn_, length, range⟩ := fair.rolls n b
  have turned : turns (.ofNat n) = n := by simp [turns, LuaNumber.ofNat]
  have run : doRolls (.ofNat s) n b = (.ok rolls, drawn b n) :=
    Prod.ext drawn_ (doRolls_drawn fair.defined n b)
  refine ⟨rolls, length, fun r member => ?_, ?_⟩
  · obtain ⟨least, most⟩ := range r member
    rw [LuaNumber.le_ofNat, decide_eq_true_eq] at most
    exact ⟨least, most⟩
  · rw [made, turned, bind_ok run, rollReport_eq type caller length dice.1]
    exact answered_eq type caller _ enabled

omit [Platform] in
/-- What is told of some results ends in a digit or a point. -/
theorem last_of_tellRolls (rolls : List Nat) (front : Str) :
    (front ++ tellRolls rolls).getLast? ≠ some '!' := by
  have digits (n : Nat) (front : Str) : (front ++ decimal n).getLast? ≠ some '!' := by
    intro last
    rw [List.getLast?_append_of_ne_nil _ (decimal_ne_nil n)] at last
    exact absurd (isDigit_of_mem_decimal (List.mem_of_getLast? last)) (by decide)
  unfold tellRolls
  split
  · rw [← List.append_assoc, List.getLast?_append_of_ne_nil _ (by simp)]
    simp
  · rw [← List.append_assoc]
    exact digits _ _

/-- Without the number of sides the command never rolls. -/
theorem not_rolls_sides_omitted {num : Str} {n : Nat} (number : Numeral num n)
    (dice : 1 ≤ n ∧ n ≤ 20) (type : LuaValue) (caller : Str) {b : Bot}
    (enabled : b.lua.any Lua.isEnabled = true) (loggedIn : b.loggedIn = true) (s : Nat) :
    ¬Rolls b type caller num n s := by
  rintro ⟨rolls, -, -, rolled⟩
  have refused : roll type caller (some num) b =
      (.ok (), answered b type caller "I need at least one side!".toList) := by
    simp only [roll, findDice_sides_omitted number dice.2, dice_admitted dice.1]
    exact answered_eq type caller _ enabled
  rw [refused] at rolled
  -- the two answers would be one text
  have same : answered b type caller "I need at least one side!".toList =
      answered (drawn b n) type caller (salutation type caller ++ " rolled".toList ++
        tellRolls rolls) := congrArg Prod.snd rolled
  obtain ⟨w, told, message⟩ := message_sayOrPM enabled loggedIn type caller
    (by decide : "I need at least one side!".toList ≠ [])
  obtain ⟨w', told', message'⟩ := message_sayOrPM (b := drawn b n) enabled loggedIn type caller
    (by simp : salutation type caller ++ " rolled".toList ++ tellRolls rolls ≠ [])
  rw [answered_eq type caller _ enabled] at told
  rw [answered_eq type caller _ (b := drawn b n) enabled, ← same, told] at told'
  obtain rfl : w = w' := by simpa using List.append_cancel_left told'
  apply last_of_tellRolls rolls (salutation type caller ++ " rolled".toList)
  rw [← message', message]
  decide

/-- For every parameter that asks for up to twenty dice, with up to a thousand sides where it
says so, from every caller and whatever the generator yields, while the bot is enabled: where
the sides are given, the command rolls what was asked; and where the bot is logged in, so that
it answers at all, it does so only there. -/
theorem rolls_asked (params : Str) (n : Nat) (sides : Option Nat)
    (asked : AsksFor params n sides) (dice : 1 ≤ n ∧ n ≤ 20)
    (small : ∀ s ∈ sides, 1 ≤ s ∧ s ≤ 1000) (type : LuaValue) (caller : Str) (b : Bot)
    (enabled : b.lua.any Lua.isEnabled = true) :
    (sides ≠ none → Rolls b type caller params n (sides.getD 6)) ∧
      (b.loggedIn = true → (Rolls b type caller params n (sides.getD 6) ↔ sides ≠ none)) := by
  cases asked with
  | dice number =>
    refine ⟨fun given => absurd rfl given, fun loggedIn => iff_of_false ?_ (absurd rfl)⟩
    exact not_rolls_sides_omitted number dice type caller enabled loggedIn 6
  | diceWithSides number faces =>
    have rolls := rolls_sides_given number faces dice (small _ rfl) type caller enabled
    exact ⟨fun _ => rolls, fun _ => iff_of_true rolls (by simp)⟩

omit [Platform]

/-- Two dice with eight sides each. -/
theorem rolls_asked_two : @Rolls lp64 { Bot.initial .empty .empty .calm with lua := some loaded }
    (.typeOf .roomMessage) "bob".toList "2d8".toList 2 8 := by
  let _ := lp64
  have two : Numeral "2".toList 2 := ⟨by simp, by simp, by decide⟩
  have eight : Numeral "8".toList 8 := ⟨by simp, by simp, by decide⟩
  exact (rolls_asked "2d8".toList 2 (some 8) (.diceWithSides two eight) (by decide)
    (by simp) (.typeOf .roomMessage) "bob".toList _ rfl).1 (by simp)

/-- Three dice whose sides are left to the default. -/
theorem rolls_refused : AsksFor "3".toList 3 none ∧
    ¬@Rolls lp64 { Bot.initial .empty .empty .calm with loggedIn := true, lua := some loaded }
      (.typeOf .roomMessage) "bob".toList "3".toList 3 6 := by
  let _ := lp64
  have three : Numeral "3".toList 3 := ⟨by simp, by simp, by decide⟩
  exact ⟨.dice three, not_rolls_sides_omitted three (by decide) _ _ rfl rfl 6⟩

end Properties
end MeepBot
