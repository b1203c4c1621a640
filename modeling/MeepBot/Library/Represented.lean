import Mathlib.Data.List.Forall2
import MeepBot.Library.KeyedTable

/-!
# Tables kept in rows of another type

A table with a unique key whose rows are kept, in the same order, as rows of another type. A test
of the kept rows that finds what a key finds carries the operations of the table over to them.
-/

namespace KeyedTable

variable {α ρ κ : Type} {key : ρ → κ} [DecidableEq κ]

/-- The rows stand for those of the table. -/
abbrev Represents (R : α → ρ → Prop) (rows : List α) (t : KeyedTable key) : Prop :=
  List.Forall₂ R rows t.rows

/-- The test finds the rows with key `k`. -/
def Finds (R : α → ρ → Prop) (key : ρ → κ) (found : α → Bool) (k : κ) : Prop :=
  ∀ a r, R a r → found a = decide (key r = k)

variable {R : α → ρ → Prop} {rows : List α} {t : KeyedTable key} {found : α → Bool} {k : κ}

/-- Rows at the same place stand for each other. -/
theorem rel_getElem? {rows : List α} {rs : List ρ} (rep : List.Forall₂ R rows rs) (i : Nat) :
    Option.Rel R rows[i]? rs[i]? := by
  induction rep generalizing i with
  | nil => exact .none
  | cons same _ ih =>
    cases i with
    | zero => exact .some same
    | succ i => exact ih i

omit [DecidableEq κ] in
theorem Represents.empty : Represents R [] (⟨[], List.nodup_nil⟩ : KeyedTable key) := .nil

/-- The first row that is found stands for the row of the key. -/
theorem Represents.find (rep : Represents R rows t) (finds : Finds R key found k) :
    Option.Rel R (rows.find? found) (t.lookup k) := by
  obtain ⟨rs, unique⟩ := t
  change List.Forall₂ R rows rs at rep
  rw [lookup]
  simp only
  clear unique
  induction rep with
  | nil => exact .none
  | @cons a r _ _ same _ ih =>
    have here := finds a r same
    by_cases hit : key r = k
    · rw [List.find?_cons_of_pos (by rw [here]; simpa using hit),
        List.find?_cons_of_pos (by simpa using hit)]
      exact .some same
    · rw [List.find?_cons_of_neg (by rw [here]; simpa using hit),
        List.find?_cons_of_neg (by simpa using hit)]
      exact ih

theorem Represents.update (rep : Represents R rows t) (finds : Finds R key found k) {g : α → α}
    {f : Rewrite key} (keeps : ∀ a r, R a r → R (g a) (f r)) :
    Represents R (rows.map fun a => if found a then g a else a) (t.update k f) := by
  refine List.rel_map (fun a r same => ?_) rep
  rw [finds a r same]
  by_cases hit : key r = k
  · simp only [hit, decide_true, if_true]
    exact keeps a r same
  · simp only [hit, decide_false, if_false, Bool.false_eq_true]
    exact same

theorem Represents.delete (rep : Represents R rows t) (finds : Finds R key found k) :
    Represents R (rows.filter fun a => !found a) (t.delete k) := by
  refine List.rel_filter (fun a r same => ?_) rep
  simp [finds a r same]

/-- Whether the key is taken. -/
theorem Represents.any (rep : Represents R rows t) (finds : Finds R key found k) :
    rows.any found = true ↔ k ∈ t.rows.map key := by
  have row := rep.find finds
  have taken : k ∈ t.rows.map key ↔ (t.lookup k).isSome := by
    rw [← not_iff_not, ← lookup_none_iff, Option.not_isSome_iff_eq_none]
  have hit : rows.any found = true ↔ (rows.find? found).isSome := by
    rw [List.find?_isSome, List.any_eq_true]
  rw [taken, hit]
  generalize rows.find? found = a at row
  generalize t.lookup k = r at row
  cases row <;> rfl

omit [DecidableEq κ] in
/-- A new row at the end. -/
theorem Represents.append (rep : Represents R rows t) {a : α} {r : ρ} (same : R a r)
    {t' : KeyedTable key} (grown : t'.rows = t.rows ++ [r]) : Represents R (rows ++ [a]) t' := by
  rw [Represents, grown]
  exact List.rel_append rep (.cons same .nil)

/-- A new row unless its key is taken. -/
theorem Represents.insertOrIgnore (rep : Represents R rows t) {a : α} {r : ρ} (same : R a r)
    (finds : Finds R key found (key r)) :
    Represents R (if rows.any found then rows else rows ++ [a]) (t.insertOrIgnore r) := by
  by_cases taken : key r ∈ t.rows.map key
  · rw [if_pos ((rep.any finds).mpr taken), KeyedTable.insertOrIgnore, dif_pos taken]
    exact rep
  · rw [if_neg fun hit => taken ((rep.any finds).mp hit)]
    refine rep.append same ?_
    rw [KeyedTable.insertOrIgnore, dif_neg taken]

/-- A new row in place of the one that has its key. -/
theorem Represents.insertOrReplace (rep : Represents R rows t) {a : α} {r : ρ} (same : R a r)
    (finds : Finds R key found (key r)) :
    Represents R ((rows.filter fun a => !found a) ++ [a]) (t.insertOrReplace r) :=
  (rep.delete finds).append same rfl

end KeyedTable
