import Mathlib.Data.List.Nodup

/-!
# Tables with a unique key

A table is a list of rows no two of which have the same key; the key is computed from the
row, so a collation is a key function. The operations are the ones a store offers: insert
unless the key is taken, insert or replace, update the row of a key, delete the row of a key.
-/

/-- Rows of type `ρ` no two of which agree on `key`. -/
structure KeyedTable {ρ κ : Type} (key : ρ → κ) where
  rows : List ρ
  unique : (rows.map key).Nodup

namespace KeyedTable

variable {ρ κ : Type} {key : ρ → κ}

/-- A change of a row that keeps its key. -/
structure Rewrite (key : ρ → κ) where
  apply : ρ → ρ
  keeps : ∀ r, key (apply r) = key r

instance : CoeFun (Rewrite key) fun _ => ρ → ρ := ⟨Rewrite.apply⟩

variable [DecidableEq κ]

/-- The table without rows. -/
def empty : KeyedTable key := ⟨[], List.nodup_nil⟩

/-- The row with key `k`. -/
def lookup (t : KeyedTable key) (k : κ) : Option ρ := t.rows.find? fun r => decide (key r = k)

/-- Add a row at the end unless its key is taken. -/
def insertOrIgnore (t : KeyedTable key) (r : ρ) : KeyedTable key :=
  if h : key r ∈ t.rows.map key then t
  else ⟨t.rows ++ [r], by
    rw [List.map_append, List.map_singleton, ← List.concat_eq_append]
    exact List.Nodup.concat h t.unique⟩

/-- Rewrite the row with key `k` by a function that keeps its key. -/
def update (t : KeyedTable key) (k : κ) (f : Rewrite key) : KeyedTable key :=
  ⟨t.rows.map fun r => if key r = k then f r else r, by
    have same : (t.rows.map fun r => if key r = k then f r else r).map key = t.rows.map key := by
      rw [List.map_map]
      apply List.map_congr_left
      intro r _
      by_cases h : key r = k <;> simp [h, f.keeps]
    rw [same]
    exact t.unique⟩

/-- Delete the row with key `k`. -/
def delete (t : KeyedTable key) (k : κ) : KeyedTable key :=
  ⟨t.rows.filter fun r => decide (key r ≠ k),
    t.unique.sublist (List.Sublist.map key List.filter_sublist)⟩

/-- Put a row at the end, in place of the one that has its key. -/
def insertOrReplace (t : KeyedTable key) (r : ρ) : KeyedTable key :=
  ⟨(t.delete (key r)).rows ++ [r], by
    rw [List.map_append, List.map_singleton, ← List.concat_eq_append]
    refine List.Nodup.concat (fun taken => ?_) (t.delete (key r)).unique
    obtain ⟨row, member, same⟩ := List.mem_map.mp taken
    simpa [same] using (List.mem_filter.mp member).2⟩

theorem lookup_some_iff (t : KeyedTable key) (k : κ) (r : ρ) :
    t.lookup k = some r ↔ r ∈ t.rows ∧ key r = k := by
  constructor
  · intro h
    exact ⟨List.mem_of_find?_eq_some h, by simpa using List.find?_some h⟩
  · rintro ⟨member, rfl⟩
    obtain ⟨found, h⟩ : ∃ found, t.lookup (key r) = some found := by
      rw [← Option.isSome_iff_exists, lookup, List.find?_isSome]
      exact ⟨r, member, by simp⟩
    -- two rows of one key are one row
    have same : key found = key r := by simpa using List.find?_some h
    rw [h, List.inj_on_of_nodup_map t.unique (List.mem_of_find?_eq_some h) member same]

theorem lookup_none_iff (t : KeyedTable key) (k : κ) :
    t.lookup k = none ↔ k ∉ t.rows.map key := by
  simp [lookup]

theorem mem_of_lookup {t : KeyedTable key} {k : κ} {r : ρ} (h : t.lookup k = some r) :
    r ∈ t.rows := ((lookup_some_iff t k r).mp h).1

theorem key_of_lookup {t : KeyedTable key} {k : κ} {r : ρ} (h : t.lookup k = some r) :
    key r = k := ((lookup_some_iff t k r).mp h).2

theorem mem_insertOrIgnore {t : KeyedTable key} {r row : ρ} :
    row ∈ (t.insertOrIgnore r).rows ↔
      row ∈ t.rows ∨ (row = r ∧ t.lookup (key r) = none) := by
  by_cases h : key r ∈ t.rows.map key
  · have taken : t.lookup (key r) ≠ none := fun none => (lookup_none_iff t _).mp none h
    rw [insertOrIgnore, dif_pos h]
    simp [taken]
  · have free := (lookup_none_iff t (key r)).mpr h
    rw [insertOrIgnore, dif_neg h]
    simp [free]

/-- An insertion that may be ignored adds its row at the end, or nothing. -/
theorem insertOrIgnore_cases (t : KeyedTable key) (r : ρ) :
    t.insertOrIgnore r = t ∨ (t.insertOrIgnore r).rows = t.rows ++ [r] := by
  unfold insertOrIgnore
  split
  · exact .inl rfl
  · exact .inr rfl

/-- An insertion under a key that is taken is ignored. -/
theorem insertOrIgnore_of_present {t : KeyedTable key} {r row : ρ}
    (present : t.lookup (key r) = some row) : t.insertOrIgnore r = t := by
  have taken : key r ∈ t.rows.map key := by
    by_contra free
    rw [(lookup_none_iff t _).mpr free] at present
    cases present
  rw [insertOrIgnore, dif_pos taken]

/-- An insertion under a free key adds its row at the end. -/
theorem rows_insertOrIgnore {t : KeyedTable key} {r : ρ} (absent : t.lookup (key r) = none) :
    (t.insertOrIgnore r).rows = t.rows ++ [r] := by
  rw [insertOrIgnore, dif_neg ((lookup_none_iff t _).mp absent)]

/-- An insertion that may be ignored never changes a row that is there. -/
theorem lookup_insertOrIgnore {t : KeyedTable key} {r row : ρ} {k : κ}
    (present : t.lookup k = some row) : (t.insertOrIgnore r).lookup k = some row := by
  rw [lookup_some_iff] at present ⊢
  exact ⟨mem_insertOrIgnore.mpr (.inl present.1), present.2⟩

theorem mem_update {t : KeyedTable key} {k : κ} {f : Rewrite key} {row : ρ} :
    row ∈ (t.update k f).rows ↔ ∃ old ∈ t.rows, row = if key old = k then f old else old := by
  simp only [update, List.mem_map, eq_comm]

/-- What holds of every row, and is kept by the rewriting, holds after an update. -/
theorem forall_update {t : KeyedTable key} {k : κ} {f : Rewrite key} {P : ρ → Prop}
    (before : ∀ r ∈ t.rows, P r) (keeps : ∀ r ∈ t.rows, P (f r)) :
    ∀ r ∈ (t.update k f).rows, P r := by
  intro r member
  obtain ⟨old, present, rfl⟩ := mem_update.mp member
  split
  · exact keeps old present
  · exact before old present

/-- An update rewrites the row of its key and leaves every other row as it is. -/
theorem lookup_update (t : KeyedTable key) (k k' : κ) (f : Rewrite key) :
    (t.update k f).lookup k' = (t.lookup k').map fun r => if k' = k then f r else r := by
  rw [lookup, lookup, update, List.find?_map]
  have sameKey : ((fun r => decide (key r = k')) ∘ fun r => if key r = k then f r else r)
      = fun r => decide (key r = k') := by
    funext r
    by_cases h : key r = k <;> simp [h, f.keeps]
  rw [sameKey]
  cases found : t.rows.find? fun r => decide (key r = k') with
  | none => rfl
  | some r =>
    have atKey : key r = k' := by simpa using List.find?_some found
    simp [atKey]

/-- An update of an absent key changes nothing. -/
theorem update_of_absent {t : KeyedTable key} {k : κ} {f : Rewrite key}
    (absent : t.lookup k = none) : t.update k f = t := by
  have free := (lookup_none_iff t k).mp absent
  obtain ⟨rows, unique⟩ := t
  simp only [update, KeyedTable.mk.injEq]
  conv_rhs => rw [← List.map_id rows]
  apply List.map_congr_left
  intro r member
  have other : key r ≠ k := fun same => free (by simpa using ⟨r, member, same⟩)
  simp [other]

theorem mem_delete {t : KeyedTable key} {k : κ} {row : ρ} :
    row ∈ (t.delete k).rows ↔ row ∈ t.rows ∧ key row ≠ k := by
  simp [delete, List.mem_filter]

/-- A deletion frees its own key and no other. -/
theorem lookup_delete (t : KeyedTable key) (k k' : κ) :
    (t.delete k).lookup k' = if k' = k then none else t.lookup k' := by
  split
  next same =>
    rw [lookup_none_iff]
    rintro taken
    obtain ⟨row, member, rfl⟩ := List.mem_map.mp taken
    exact (mem_delete.mp member).2 same
  next other =>
    apply Option.ext
    intro row
    rw [lookup_some_iff, lookup_some_iff, mem_delete]
    constructor
    · rintro ⟨⟨member, -⟩, rfl⟩
      exact ⟨member, rfl⟩
    · rintro ⟨member, rfl⟩
      exact ⟨⟨member, other⟩, rfl⟩

theorem mem_insertOrReplace {t : KeyedTable key} {r row : ρ} :
    row ∈ (t.insertOrReplace r).rows ↔ row = r ∨ row ∈ t.rows ∧ key row ≠ key r := by
  rw [insertOrReplace, List.mem_append, mem_delete, List.mem_singleton, or_comm]

/-- A replacing insertion decides its own key and no other. -/
theorem lookup_insertOrReplace (t : KeyedTable key) (r : ρ) (k : κ) :
    (t.insertOrReplace r).lookup k = if k = key r then some r else t.lookup k := by
  split
  next same => exact (lookup_some_iff _ k r).mpr ⟨mem_insertOrReplace.mpr (.inl rfl), same.symm⟩
  next other =>
    apply Option.ext
    intro row
    rw [lookup_some_iff, lookup_some_iff, mem_insertOrReplace]
    constructor
    · rintro ⟨rfl | ⟨member, -⟩, at_⟩
      · exact absurd at_.symm other
      · exact ⟨member, at_⟩
    · rintro ⟨member, rfl⟩
      exact ⟨.inr ⟨member, other⟩, rfl⟩

/-- An insertion under a free key adds its row. -/
theorem lookup_insertOrIgnore_of_absent {t : KeyedTable key} {r : ρ}
    (absent : t.lookup (key r) = none) : (t.insertOrIgnore r).lookup (key r) = some r :=
  (lookup_some_iff _ _ r).mpr ⟨mem_insertOrIgnore.mpr (.inr ⟨rfl, absent⟩), rfl⟩

/-- An insertion under a free key decides this key and no other. -/
theorem lookup_insertOrIgnore_free {t : KeyedTable key} {r : ρ} (absent : t.lookup (key r) = none)
    (k : κ) : (t.insertOrIgnore r).lookup k = if k = key r then some r else t.lookup k := by
  split
  next same => rw [same, lookup_insertOrIgnore_of_absent absent]
  next other =>
    apply Option.ext
    intro row
    rw [lookup_some_iff, lookup_some_iff, mem_insertOrIgnore]
    constructor
    · rintro ⟨member | ⟨rfl, -⟩, rfl⟩
      · exact ⟨member, rfl⟩
      · exact absurd rfl other
    · rintro ⟨member, rfl⟩
      exact ⟨.inl member, rfl⟩

/-- An insertion that may be ignored leaves a row with its key. -/
theorem lookup_insertOrIgnore_self (t : KeyedTable key) (r : ρ) :
    ((t.insertOrIgnore r).lookup (key r)).isSome := by
  cases present : t.lookup (key r) with
  | some old =>
    rw [lookup_insertOrIgnore present]
    rfl
  | none =>
    rw [lookup_insertOrIgnore_of_absent present]
    rfl

end KeyedTable
