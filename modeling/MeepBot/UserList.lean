import Mathlib.Data.List.Lex
import Mathlib.Data.Char
import MeepBot.StringUtil
import MeepBot.Library.SortedSet

/-!
# UserList

The names of the users in the room, and the resolution of a pattern to one of them. The set
is traversed in the order of the bytes.
-/

namespace MeepBot

abbrev UserList := SortedSet Str

/-- A comparison of two strings up to a length; the result 0 means that they agree. -/
abbrev CmpFunc := Str → Str → Nat → Int

namespace UserList

def add (l : UserList) (name : Str) : UserList := l.insert name

def remove (l : UserList) (name : Str) : UserList := l.erase name

def getNumUsers (l : UserList) : Nat := l.size

/-- `FindMatch`: the one name that agrees with the pattern, if there is exactly one. Counting
stops at two. -/
def findMatch (l : UserList) (pattern : Str) (func : CmpFunc) : Option Str :=
  let agrees (name : Str) : Bool := decide (func pattern name pattern.length = 0)
  let count := l.elems.foldl
    (fun (count : Nat) name => if count < 2 ∧ agrees name then count + 1 else count) 0
  if count ≠ 1 then none else l.elems.find? agrees

def resolve (l : UserList) (caller pattern : Str) : Str :=
  if pattern.length = 2 ∧ StringUtil.compareNoCase pattern "me".toList 0 = 0 then caller
  else match findMatch l pattern strncasecmp with
    | some name => name
    | none => (findMatch l pattern strncmp).getD pattern

/-- The two loops find the one name that agrees with the pattern. -/
theorem findMatch_eq_some_iff (l : UserList) (pattern : Str) (func : CmpFunc) (name : Str) :
    findMatch l pattern func = some name ↔
      l.Only (fun other => func pattern other pattern.length = 0) name := by
  have agree : l.Only (fun other => func pattern other pattern.length = 0) name ↔
      l.Only (fun other => decide (func pattern other pattern.length = 0) = true) name :=
    SortedSet.only_congr (fun _ _ => by rw [decide_eq_true_eq]) name
  rw [agree, SortedSet.only_iff_find, ← SortedSet.capped_count_eq_one_iff, findMatch]
  split
  next other => exact iff_of_false (by simp) fun one => other one.1
  next one => exact (and_iff_right (not_not.mp one)).symm

theorem findMatch_mem {l : UserList} {pattern name : Str} {func : CmpFunc}
    (found : findMatch l pattern func = some name) : name ∈ l :=
  ((findMatch_eq_some_iff l pattern func name).mp found).mem

/-- The pattern for the caller is "me", in any letter case. -/
theorem isMe_iff (pattern : Str) :
    pattern.length = 2 ∧ StringUtil.compareNoCase pattern "me".toList 0 = 0 ↔
      toLower pattern = "me".toList := by
  have lower : toLower "me".toList = "me".toList := by decide
  constructor
  · rintro ⟨two, same⟩
    rcases pattern with _ | ⟨a, _ | ⟨b, _ | ⟨c, rest⟩⟩⟩ <;> simp at two
    change strncmp [a.toLower, b.toLower] (toLower "me".toList) 3 = 0 at same
    obtain ⟨first, zero | more⟩ := (strncmp_cons a.toLower [b.toLower] _ 2).mp same
    · exact absurd (zero.symm.trans first) (by decide)
    · obtain ⟨second, -⟩ := (strncmp_cons b.toLower [] _ 1).mp more
      change [a.toLower, b.toLower] = _
      rw [first, second, lower]
      rfl
  · intro same
    have two : (toLower pattern).length = 2 := by rw [same]; rfl
    rw [toLower, List.length_map] at two
    refine ⟨two, ?_⟩
    simp only [StringUtil.compareNoCase, strcasecmp, strncasecmp, lower, same]
    exact strncmp_self _ _

/-- A pattern resolves to the caller, to a user of the list, or to itself. -/
theorem resolve_cases (l : UserList) (caller pattern : Str) :
    resolve l caller pattern = caller ∨ resolve l caller pattern ∈ l ∨
      resolve l caller pattern = pattern := by
  unfold resolve
  split
  · exact .inl rfl
  · split
    next name found => exact .inr (.inl (findMatch_mem found))
    next =>
      cases found : findMatch l pattern strncmp with
      | none => exact .inr (.inr rfl)
      | some name => exact .inr (.inl (findMatch_mem found))

/-- What holds of the caller, the pattern and every user holds of the name resolved. -/
theorem resolve_of_all {l : UserList} {caller pattern : Str} {P : Str → Prop}
    (atCaller : P caller) (atPattern : P pattern) (listed : ∀ name ∈ l, P name) :
    P (resolve l caller pattern) := by
  rcases resolve_cases l caller pattern with same | member | same
  · rwa [same]
  · exact listed _ member
  · rwa [same]

end UserList
end MeepBot
