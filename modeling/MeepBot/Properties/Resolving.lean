import MeepBot.UserList

/-!
# Resolving names

What `Resolve` makes of a pattern. The code looks for a match in any letter case first, and
its comment says the opposite.

* `resolves_iff`: both orders come to the same.
* `exact_name_kept`: the name of a listed user is never taken for another one's.
-/

namespace MeepBot
namespace Properties

/-- A user is the only one whose name starts with the pattern as it is written. -/
def OnlyExact (l : UserList) (pattern name : Str) : Prop :=
  l.Only (fun other => pattern <+: other) name

/-- A user is the only one whose name starts with the pattern in some letter case. -/
def OnlyFolded (l : UserList) (pattern name : Str) : Prop :=
  l.Only (fun other => toLower pattern <+: toLower other) name

/-- What a pattern stands for, in the order of the comment. -/
inductive Resolves (l : UserList) (caller pattern : Str) : Str → Prop where
  | me (me : toLower pattern = "me".toList) : Resolves l caller pattern caller
  | exact {name : Str} (other : toLower pattern ≠ "me".toList) (only : OnlyExact l pattern name) :
      Resolves l caller pattern name
  | folded {name : Str} (other : toLower pattern ≠ "me".toList)
      (inexact : ∀ name, ¬OnlyExact l pattern name) (only : OnlyFolded l pattern name) :
      Resolves l caller pattern name
  | itself (other : toLower pattern ≠ "me".toList) (inexact : ∀ name, ¬OnlyExact l pattern name)
      (unfolded : ∀ name, ¬OnlyFolded l pattern name) : Resolves l caller pattern pattern

theorem findMatch_exact_iff {l : UserList} {pattern : Str} (clean : '\x00' ∉ pattern) (name : Str) :
    l.findMatch pattern strncmp = some name ↔ OnlyExact l pattern name := by
  rw [UserList.findMatch_eq_some_iff]
  exact SortedSet.only_congr (fun other _ => strncmp_eq_zero_iff pattern other clean) name

theorem findMatch_folded_iff {l : UserList} {pattern : Str} (clean : '\x00' ∉ pattern)
    (name : Str) : l.findMatch pattern strncasecmp = some name ↔ OnlyFolded l pattern name := by
  have agree (other : Str) :
      strncasecmp pattern other pattern.length = 0 ↔ toLower pattern <+: toLower other := by
    have length : pattern.length = (toLower pattern).length := (List.length_map _).symm
    rw [strncasecmp, length]
    exact strncmp_eq_zero_iff _ _ (zero_notMem_toLower clean)
  rw [UserList.findMatch_eq_some_iff]
  exact SortedSet.only_congr (fun other _ => agree other) name

/-- A name that starts with the pattern as written also does in some letter case, so the only
match of the one kind is the only match of the other. -/
theorem exact_eq_folded {l : UserList} {pattern u v : Str} (exact : OnlyExact l pattern u)
    (folded : OnlyFolded l pattern v) : u = v :=
  folded.unique u exact.mem (exact.holds.map Char.toLower)

theorem resolve_of_me {l : UserList} {caller pattern : Str} (me : toLower pattern = "me".toList) :
    l.resolve caller pattern = caller :=
  if_pos ((UserList.isMe_iff pattern).mpr me)

theorem resolve_of_other {l : UserList} {caller pattern : Str}
    (other : toLower pattern ≠ "me".toList) :
    l.resolve caller pattern =
      ((l.findMatch pattern strncasecmp).or (l.findMatch pattern strncmp)).getD pattern := by
  rw [UserList.resolve, if_neg fun me => other ((UserList.isMe_iff pattern).mp me)]
  cases l.findMatch pattern strncasecmp <;> rfl

/-- For every list of users, every caller and every pattern without a terminator: `Resolve`
returns what the pattern stands for, and nothing else. -/
theorem resolves_iff (l : UserList) (caller pattern name : Str) (clean : '\x00' ∉ pattern) :
    Resolves l caller pattern name ↔ l.resolve caller pattern = name := by
  have exactly := fun name => findMatch_exact_iff (l := l) clean name
  have folds := fun name => findMatch_folded_iff (l := l) clean name
  constructor
  · intro resolves
    cases resolves with
    | me me => exact resolve_of_me me
    | exact other only =>
      rw [resolve_of_other other, (exactly name).mpr only]
      cases folded : l.findMatch pattern strncasecmp with
      | none => rfl
      -- the first pass of the code may find a name as well, which is the same
      | some v => exact (exact_eq_folded only ((folds v).mp folded)).symm
    | folded other inexact only =>
      rw [resolve_of_other other, (folds name).mpr only]
      rfl
    | itself other inexact unfolded =>
      have first : l.findMatch pattern strncasecmp = none :=
        Option.eq_none_iff_forall_ne_some.mpr fun v found => unfolded v ((folds v).mp found)
      have second : l.findMatch pattern strncmp = none :=
        Option.eq_none_iff_forall_ne_some.mpr fun v found => inexact v ((exactly v).mp found)
      rw [resolve_of_other other, first, second]
      rfl
  · rintro rfl
    by_cases me : toLower pattern = "me".toList
    · rw [resolve_of_me me]
      exact .me me
    rw [resolve_of_other me]
    cases second : l.findMatch pattern strncmp with
    | some u =>
      have only := (exactly u).mp second
      cases first : l.findMatch pattern strncasecmp with
      | none => exact .exact me only
      | some v =>
        have same := exact_eq_folded only ((folds v).mp first)
        exact .exact me (same ▸ only)
    | none =>
      have inexact : ∀ name, ¬OnlyExact l pattern name := fun name only => by
        rw [(exactly name).mpr only] at second
        cases second
      cases first : l.findMatch pattern strncasecmp with
      | some v => exact .folded me inexact ((folds v).mp first)
      | none =>
        refine .itself me inexact fun name only => ?_
        rw [(folds name).mpr only] at first
        cases first

/-- "bob" in capitals is the one who is not spelt "Bobby". -/
theorem resolves_iff_bob :
    UserList.resolve ⟨["BOB".toList, "Bobby".toList], by decide⟩ "Mia".toList "BO".toList =
      "BOB".toList := by
  refine (resolves_iff _ _ _ _ (by decide)).mp (.exact (by decide) ⟨?_, ?_, ?_⟩)
  · simp [SortedSet.mem_def]
  · exact ⟨['B'], rfl⟩
  · simp [SortedSet.mem_def]

/-! ### Names of users -/

/-- A listed user matches the own name in both passes, so no other name can be the only match. -/
theorem findMatch_self {l : UserList} {u name : Str} (func : CmpFunc) (listed : u ∈ l)
    (self : func u u u.length = 0) (found : l.findMatch u func = some name) : name = u :=
  (((UserList.findMatch_eq_some_iff l u func name).mp found).unique u listed self).symm

theorem resolve_listed {l : UserList} {caller u : Str} (listed : u ∈ l)
    (other : toLower u ≠ "me".toList) : l.resolve caller u = u := by
  rw [resolve_of_other other]
  cases first : l.findMatch u strncasecmp with
  | some v => exact findMatch_self strncasecmp listed (strncmp_self _ _) first
  | none =>
    cases second : l.findMatch u strncmp with
    | some v => exact findMatch_self strncmp listed (strncmp_self _ _) second
    | none => rfl

/-- A pattern that is not resolved to a listed name is left as it is. -/
theorem resolve_listed_or_same (l : UserList) (caller : Str) {pattern : Str}
    (other : toLower pattern ≠ "me".toList) :
    l.resolve caller pattern ∈ l ∨ l.resolve caller pattern = pattern := by
  rw [resolve_of_other other]
  cases first : l.findMatch pattern strncasecmp with
  | some u => exact .inl (UserList.findMatch_mem first)
  | none =>
    cases second : l.findMatch pattern strncmp with
    | some u => exact .inl (UserList.findMatch_mem second)
    | none => exact .inr rfl

/-- For every list of users and every caller: a listed name that is no spelling of "me"
resolves to itself, whatever other names it overlaps with; and if no listed name is one, what
any other pattern resolves to does. -/
theorem exact_name_kept (l : UserList) (caller : Str) :
    (∀ u ∈ l, toLower u ≠ "me".toList → l.resolve caller u = u) ∧
    ((∀ u ∈ l, toLower u ≠ "me".toList) → ∀ p, toLower p ≠ "me".toList →
      l.resolve caller (l.resolve caller p) = l.resolve caller p) := by
  constructor
  · exact fun u listed other => resolve_listed listed other
  · intro others p other
    rcases resolve_listed_or_same l caller other with listed | same
    · exact resolve_listed listed (others _ listed)
    · rw [same, same]

/-- A user whose name is the start of another one. -/
theorem exact_name_kept_bob :
    UserList.resolve ⟨["bob".toList, "bobby".toList], by decide⟩ "Mia".toList "bob".toList =
      "bob".toList :=
  (exact_name_kept ⟨["bob".toList, "bobby".toList], by decide⟩ "Mia".toList).1 _
    (by simp [SortedSet.mem_def]) (by decide)

end Properties
end MeepBot
