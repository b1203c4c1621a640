import Mathlib.Data.List.TakeWhile

/-!
# Byte strings and the C string functions

A string is the list of its bytes, a byte being a character of code below 256. Nothing below
depends on that bound, so the results hold for every list of characters.
-/

namespace MeepBot

abbrev Str := List Char

/-- The string behind a `const char*`: the bytes before the terminator. -/
def cstr (bytes : Str) : Str := bytes.takeWhile fun c => decide (c ≠ '\x00')

/-- The field delimiter of the chat protocol. -/
def delim : Char := '\x60'

/-- `isspace` in the C locale. -/
def isSpace (c : Char) : Bool :=
  c = ' ' || c = '\t' || c = '\n' || c = '\x0b' || c = '\x0c' || c = '\r'

/-- `tolower` in the C locale, on a whole string. -/
def toLower (s : Str) : Str := s.map Char.toLower

/-- `strncmp`: the difference of the first bytes that differ, up to `n` bytes. -/
def strncmp : Str → Str → Nat → Int
  | _, _, 0 => 0
  | s1, s2, n + 1 =>
    let a := s1.headD '\x00'
    let b := s2.headD '\x00'
    if a ≠ b then (a.toNat : Int) - b.toNat
    else if a = '\x00' then 0
    else strncmp s1.tail s2.tail n

def strncasecmp (s1 s2 : Str) (n : Nat) : Int := strncmp (toLower s1) (toLower s2) n

/-- `strcasecmp` stops at the first terminator, which is one past the shorter string at most. -/
def strcasecmp (s1 s2 : Str) : Int := strncasecmp s1 s2 (s1.length + 1)

theorem strncmp_self (s : Str) (n : Nat) : strncmp s s n = 0 := by
  induction n generalizing s with
  | zero => rfl
  | succ n ih => simp [strncmp, ih]

/-- A byte agrees with the first of the other string, and ends the comparison if it is the
terminator. -/
theorem strncmp_cons (c : Char) (s t : Str) (n : Nat) : strncmp (c :: s) t (n + 1) = 0 ↔
    c = t.headD '\x00' ∧ (c = '\x00' ∨ strncmp s t.tail n = 0) := by
  rw [strncmp]
  simp only [List.headD_cons, List.tail_cons]
  generalize t.headD '\x00' = d
  by_cases equal : c = d
  · by_cases zero : c = '\x00' <;> simp [← equal, zero]
  · have apart : (c.toNat : Int) - d.toNat ≠ 0 := by
      intro same
      exact equal (Char.toNat_inj.mp (by omega))
    simp only [ne_eq, equal, not_false_eq_true, if_true, apart, false_and]

/-- Up to the length of a string without terminator, the strings that agree with it are those
it is a prefix of. -/
theorem strncmp_eq_zero_iff (s t : Str) (clean : '\x00' ∉ s) :
    strncmp s t s.length = 0 ↔ s <+: t := by
  induction s generalizing t with
  | nil => simp [strncmp]
  | cons c s ih =>
    rw [List.mem_cons, not_or] at clean
    rw [List.length_cons, strncmp_cons, ih t.tail clean.2]
    cases t with
    | nil => simp [Ne.symm clean.1]
    | cons d t => simp [List.cons_prefix_cons, Ne.symm clean.1]

/-- A comparison that includes the terminator of the first string finds equal strings. -/
theorem strncmp_terminated_eq_zero_iff {s t : Str} (cleanS : '\x00' ∉ s) (cleanT : '\x00' ∉ t) :
    strncmp s t (s.length + 1) = 0 ↔ s = t := by
  induction s generalizing t with
  | nil =>
    cases t with
    | nil => simp [strncmp]
    | cons d t =>
      have nonzero : '\x00' ≠ d := by
        rintro rfl
        exact cleanT List.mem_cons_self
      have apart : (('\x00'.toNat : Int) - d.toNat) ≠ 0 := by
        intro same
        exact nonzero (Char.toNat_inj.mp (by omega))
      rw [List.length_nil, Nat.zero_add, strncmp]
      simp only [List.headD_nil, List.headD_cons, ne_eq, nonzero, not_false_eq_true, if_true]
      exact iff_of_false apart (List.cons_ne_nil _ _).symm
  | cons c s ih =>
    rw [List.mem_cons, not_or] at cleanS
    rw [List.length_cons, strncmp_cons]
    cases t with
    | nil => simp [Ne.symm cleanS.1]
    | cons d t =>
      rw [List.headD_cons, List.tail_cons, ih cleanS.2 fun zero => cleanT (by simp [zero])]
      simp [Ne.symm cleanS.1]

/-- An optional sign in front of a numeral: whether it is a minus, and the text behind it. -/
def splitSign : Str → Bool × Str
  | '-' :: t => (true, t)
  | '+' :: t => (false, t)
  | t => (false, t)

/-- A number as `printf` prints it with `%u`. -/
def decimal (n : Nat) : Str := Nat.toDigits 10 n

/-- A number as `printf` prints it with `%d`. -/
def decimalInt (n : Int) : Str := if n < 0 then '-' :: decimal n.natAbs else decimal n.natAbs

/-- Lower case moves the capitals and nothing else. -/
theorem toNat_toLower (c : Char) : c.toLower.val.toNat =
    if 65 ≤ c.val.toNat ∧ c.val.toNat ≤ 90 then c.val.toNat + 32 else c.val.toNat := by
  unfold Char.toLower
  split
  next upper =>
    have low : 65 ≤ c.val.toNat := upper.1
    have high : c.val.toNat ≤ 90 := upper.2
    rw [if_pos ⟨low, high⟩]
    change (c.val + ('a'.val - 'A'.val)).toNat = _
    rw [UInt32.toNat_add, Nat.mod_eq_of_lt]
    · rfl
    · change c.val.toNat + 32 < _
      omega
  next other => rw [if_neg fun range => other ⟨range.1, range.2⟩]

theorem zero_notMem_toLower {s : Str} (clean : '\x00' ∉ s) : '\x00' ∉ toLower s := by
  intro member
  obtain ⟨c, inside, zero⟩ := List.mem_map.mp member
  -- only the terminator is the terminator in lower case
  have value := congrArg (fun d : Char => d.val.toNat) zero
  simp only [toNat_toLower] at value
  have same : c = '\x00' := by
    have none : '\x00'.val.toNat = 0 := rfl
    apply Char.ext
    apply UInt32.toNat_inj.mp
    rw [none] at value ⊢
    split at value <;> omega
  exact clean (same ▸ inside)

/-- The comparison that ignores letter case finds strings equal up to letter case. -/
theorem strcasecmp_eq_zero_iff {s t : Str} (cleanS : '\x00' ∉ s) (cleanT : '\x00' ∉ t) :
    strcasecmp s t = 0 ↔ toLower s = toLower t := by
  have length : s.length = (toLower s).length := (List.length_map _).symm
  rw [strcasecmp, strncasecmp, length]
  exact strncmp_terminated_eq_zero_iff (zero_notMem_toLower cleanS) (zero_notMem_toLower cleanT)

theorem toLower_of_isLower {c : Char} (lower : c.isLower) : c.toLower = c := by
  have low : 97 ≤ c.val.toNat := by
    have range : (decide (c.val ≥ 'a'.val) && decide (c.val ≤ 'z'.val)) = true := lower
    rw [Bool.and_eq_true, decide_eq_true_eq] at range
    exact range.1
  refine Char.ext (UInt32.toNat_inj.mp ?_)
  rw [toNat_toLower, if_neg (by omega)]

theorem toLower_eq_self {s : Str} (lower : ∀ c ∈ s, c.isLower = true) : toLower s = s := by
  rw [toLower, List.map_congr_left fun c member => toLower_of_isLower (lower c member),
    List.map_id']

theorem isAlpha_iff (c : Char) : c.isAlpha = true ↔
    65 ≤ c.val.toNat ∧ c.val.toNat ≤ 90 ∨ 97 ≤ c.val.toNat ∧ c.val.toNat ≤ 122 := by
  change (decide (c.val ≥ 'A'.val ∧ c.val ≤ 'Z'.val) ||
    (decide (c.val ≥ 'a'.val) && decide (c.val ≤ 'z'.val))) = true ↔ _
  rw [Bool.or_eq_true, Bool.and_eq_true, decide_eq_true_eq, decide_eq_true_eq, decide_eq_true_eq]
  exact Iff.rfl

theorem isAlpha_toLower (c : Char) : c.toLower.isAlpha = c.isAlpha := by
  rw [Bool.eq_iff_iff, isAlpha_iff, isAlpha_iff, toNat_toLower]
  split <;> omega

theorem cstr_eq_self (s : Str) (clean : '\x00' ∉ s) : cstr s = s := by
  apply List.takeWhile_eq_self_iff.mpr
  intro c member
  have : c ≠ '\x00' := fun zero => clean (zero ▸ member)
  simpa using this

theorem zero_notMem_cstr (bytes : Str) : '\x00' ∉ cstr bytes := by
  intro zero
  simpa using List.mem_takeWhile_imp zero

theorem cstr_append_zero (s rest : Str) (clean : '\x00' ∉ s) :
    cstr (s ++ '\x00' :: rest) = s := by
  rw [cstr, List.takeWhile_append_of_pos]
  · simp
  · intro c member
    have : c ≠ '\x00' := fun zero => clean (zero ▸ member)
    simpa using this

theorem cstr_clean (s : Str) : '\x00' ∉ cstr s := by
  intro member
  simpa using List.mem_takeWhile_imp member

theorem decimal_ne_nil (n : Nat) : decimal n ≠ [] := Nat.toDigits_ne_nil

theorem isDigit_of_mem_decimal {n : Nat} {c : Char} (member : c ∈ decimal n) : c.isDigit :=
  Nat.isDigit_of_mem_toDigits (by decide) (by decide) member

theorem splitSign_digit (c : Char) (s : Str) (digit : c.isDigit) :
    splitSign (c :: s) = (false, c :: s) := by
  unfold splitSign
  split
  next h => cases h; exact absurd digit (by decide)
  next h => cases h; exact absurd digit (by decide)
  next => rfl

theorem not_isSpace_of_isDigit {c : Char} (digit : c.isDigit) : isSpace c = false := by
  rw [Bool.eq_false_iff]
  intro space
  simp only [isSpace, Bool.or_eq_true, decide_eq_true_eq] at space
  rcases space with ((((rfl | rfl) | rfl) | rfl) | rfl) | rfl <;> revert digit <;> decide

/-- A tail that does not start with a byte of `p` does not prolong the longest run of them. -/
theorem takeWhile_append_stop (p : Char → Bool) (s tail : Str)
    (stops : ∀ c ∈ tail.head?, p c = false) : (s ++ tail).takeWhile p = s.takeWhile p := by
  induction s with
  | nil =>
    cases tail with
    | nil => rfl
    | cons t ts => simp [stops t (by simp)]
  | cons c s ih => simp only [List.cons_append, List.takeWhile_cons, ih]

/-- A run of bytes of `p`, and the tail that ends it. -/
theorem run_append_stop (p : Char → Bool) {run tail : Str} (inside : ∀ c ∈ run, p c = true)
    (stops : ∀ c ∈ tail.head?, p c = false) :
    (run ++ tail).takeWhile p = run ∧ (run ++ tail).dropWhile p = tail := by
  have taken : (run ++ tail).takeWhile p = run := by
    rw [takeWhile_append_stop p run tail stops]
    exact List.takeWhile_eq_self_iff.mpr inside
  have whole := List.takeWhile_append_dropWhile (p := p) (l := run ++ tail)
  rw [taken] at whole
  exact ⟨taken, List.append_cancel_left whole⟩

theorem intercalate_append (sep front first : Str) (rest : List Str) :
    sep.intercalate ((front ++ first) :: rest) = front ++ sep.intercalate (first :: rest) := by
  cases rest with
  | nil => simp
  | cons second rest => simp [List.intercalate_cons_cons]

/-- A loop that puts a separator in front of every text but the first. -/
theorem foldl_intercalate (sep first : Str) (rest : List Str) :
    rest.foldl (fun ret t => ret ++ sep ++ t) first = sep.intercalate (first :: rest) := by
  induction rest generalizing first with
  | nil => simp
  | cons second rest ih =>
    rw [List.foldl_cons, ih, List.intercalate_cons_cons, intercalate_append, List.append_assoc]

end MeepBot
