import MeepBot.Text
import MeepBot.Library.Pieces

/-!
# StringUtil

`Split` as the source runs it: two positions chase each other through the string by the
`find` functions of `std::string`, `npos` being `none`. The positions are then forgotten:
the loop ends and appends the maximal delimiter-free runs.
-/

namespace MeepBot
namespace StringUtil

/-- `CompareNoCase`, the whole strings for length 0. -/
def compareNoCase (s1 s2 : Str) (len : Nat) : Int :=
  if len ≠ 0 then strncasecmp s1 s2 len else strcasecmp s1 s2

/-- `Format` prints into a buffer of 256 bytes, so 255 bytes and the terminator fit. -/
def format (text : Str) : Str := text.take 255

/-- The first position from `pos` on whose byte satisfies `p`. -/
def findFrom (p : Char → Bool) (s : Str) : Option Nat → Option Nat
  | none => none
  | some pos => ((s.drop pos).findIdx? p).map (pos + ·)

def findFirstOf (s : Str) (d : Char) (pos : Option Nat) : Option Nat :=
  findFrom (fun c => decide (c = d)) s pos

def findFirstNotOf (s : Str) (d : Char) (pos : Option Nat) : Option Nat :=
  findFrom (fun c => !decide (c = d)) s pos

/-- `in.substr( start, len )`, to the end of the string for the length `npos - start`. -/
def substr (s : Str) (start : Nat) (len : Option Nat) : Str :=
  match len with
  | some n => (s.drop start).take n
  | none => s.drop start

/-- The loop of `Split`. It returns nothing if the fuel does not suffice, or where `substr`
would throw. -/
def splitLoop : Nat → Str → Char → Option Nat → List Str → Option (List Str)
  | 0, _, _, _, _ => none
  | fuel + 1, s, d, next, add =>
    let start := findFirstNotOf s d next
    let next := findFirstOf s d start
    match start, next with
    | none, none => some add
    -- `substr` from `npos` throws
    | none, some _ => none
    | some st, next => splitLoop fuel s d next (add ++ [substr s st (next.map (· - st))])

/-- `Split`: each turn of the loop moves on by a byte at least, and one more turn ends it. -/
def split (s : Str) (add : List Str) (d : Char) : List Str :=
  (splitLoop (s.length + 2) s d (some 0) add).getD add

theorem splitLoop_npos (fuel : Nat) (s : Str) (d : Char) (add : List Str) :
    splitLoop (fuel + 1) s d none add = some add := rfl

/-- The text from the position found is the text without the bytes passed over. -/
theorem findFrom_some {p : Char → Bool} {s : Str} {pos q : Nat}
    (found : findFrom p s (some pos) = some q) :
    pos ≤ q ∧ s.drop q = (s.drop pos).dropWhile (fun c => !p c) ∧
      (s.drop pos).take (q - pos) = (s.drop pos).takeWhile (fun c => !p c) ∧ s.drop q ≠ [] := by
  obtain ⟨i, hi, rfl⟩ := Option.map_eq_some_iff.mp found
  obtain ⟨short, index⟩ := List.findIdx?_eq_some_iff_findIdx_eq.mp hi
  have double : (fun c => !(!p c)) = p := by funext c; simp
  refine ⟨by omega, ?_, ?_, ?_⟩
  · rw [← List.drop_drop, List.dropWhile_eq_drop_findIdx_not, double, index]
  · rw [List.takeWhile_eq_take_findIdx_not, double, index]
    congr 1
    omega
  · rw [← List.drop_drop]
    intro empty
    have := List.drop_eq_nil_iff.mp empty
    omega

theorem findFrom_none {p : Char → Bool} {s : Str} {pos : Nat}
    (absent : findFrom p s (some pos) = none) : ∀ c ∈ s.drop pos, p c = false := by
  have := Option.map_eq_none_iff.mp absent
  simpa using this

/-- From the start, the first position is the index of the character. -/
theorem findFirstOf_zero (s : Str) (d : Char) :
    findFirstOf s d (some 0) = if d ∈ s then some (s.idxOf d) else none := by
  have same : (fun c => decide (c = d)) = fun c => c == d := by
    funext c
    rw [Bool.eq_iff_iff, decide_eq_true_eq, beq_iff_eq]
  have found : findFirstOf s d (some 0) = s.findIdx? fun c => c == d := by
    simp [findFirstOf, findFrom, same]
  rw [found]
  split
  next present =>
    exact List.findIdx?_eq_some_iff_findIdx_eq.mpr ⟨List.idxOf_lt_length_of_mem present, rfl⟩
  next absent =>
    rw [List.findIdx?_eq_none_iff]
    exact fun c member => beq_eq_false_iff_ne.mpr fun same => absent (same ▸ member)

/-- The two positions of the loop: it appends the pieces of the text behind the second. -/
theorem splitLoop_pieces (s : Str) (d : Char) (fuel pos : Nat) (add : List Str)
    (enough : (s.drop pos).length + 2 ≤ fuel) :
    splitLoop fuel s d (some pos) add = some (add ++ pieces d (s.drop pos)) := by
  induction fuel generalizing pos add with
  | zero => omega
  | succ fuel ih =>
    simp only [splitLoop]
    cases start : findFirstNotOf s d (some pos) with
    | none =>
      -- only delimiters are left
      have blank := findFrom_none start
      have skipped : (s.drop pos).dropWhile (fun c => decide (c = d)) = [] := by
        rw [List.dropWhile_eq_nil_iff]
        exact fun c member => by simpa using blank c member
      rw [← Pieces.dropWhile_delim, skipped]
      simp [findFirstOf, findFrom]
    | some st =>
      obtain ⟨forward, suffix, -, remains⟩ := findFrom_some start
      simp only [Bool.not_not] at suffix
      rw [← Pieces.dropWhile_delim, ← suffix]
      obtain ⟨c, rest, shape⟩ := List.exists_cons_of_ne_nil remains
      have other : c ≠ d := by
        have stop := List.head_dropWhile_not (fun c => decide (c = d)) (l := s.drop pos)
          (by rw [← suffix]; exact remains)
        simpa [← suffix, shape] using stop
      have runs := Pieces.cons_of_ne d c rest other
      rw [← shape] at runs
      rw [runs]
      cases next : findFirstOf s d (some st) with
      | none =>
        -- the last piece reaches to the end, and the next turn ends the loop
        have last := findFrom_none next
        have through : (s.drop st).takeWhile (fun x => decide (x ≠ d)) = s.drop st :=
          List.takeWhile_eq_self_iff.mpr fun c member => by simpa using last c member
        have none_left : (s.drop st).dropWhile (fun x => decide (x ≠ d)) = [] :=
          List.dropWhile_eq_nil_iff.mpr fun c member => by simpa using last c member
        obtain ⟨more, rfl⟩ : ∃ more, fuel = more + 1 := ⟨fuel - 1, by omega⟩
        simp only [Option.map_none, substr, splitLoop_npos, through, none_left, Pieces.nil]
      | some nx =>
        obtain ⟨ahead, behind, run, -⟩ := findFrom_some next
        have notDelim : (fun c => !decide (c = d)) = fun x => decide (x ≠ d) := by funext; simp
        rw [notDelim] at behind run
        -- the piece has a byte at least, which pays for the fuel of the turn
        have moved : st < nx := by
          rcases Nat.lt_or_ge st nx with h | h
          · exact h
          · have same : nx = st := by omega
            rw [same, shape, List.dropWhile_cons_of_pos (by simpa using other)] at behind
            have := congrArg List.length behind
            have shorter := (List.dropWhile_suffix (l := rest) fun x => decide (x ≠ d)).length_le
            simp only [List.length_cons] at this
            omega
        have inside : st < s.length := by
          rw [ne_eq, List.drop_eq_nil_iff] at remains
          omega
        simp only [List.length_drop] at enough
        simp only [Option.map_some, substr]
        rw [ih nx _ (by rw [List.length_drop]; omega), run, behind,
          List.append_assoc, List.singleton_append]

theorem split_eq (s : Str) (add : List Str) (d : Char) : split s add d = add ++ pieces d s := by
  rw [split, splitLoop_pieces s d _ 0 add (by simp)]
  rfl

end StringUtil
end MeepBot
