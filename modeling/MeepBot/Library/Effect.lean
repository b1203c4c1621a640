import Mathlib.Data.List.Basic

/-!
# Programs with a state that survives failure

`ExceptT ε (StateM σ)` runs on a state and may stop with an error, keeping the changes made
so far. A triple says what holds after either outcome. A program maintains an invariant when
both outcomes keep it; its rules then follow the shape of the program.
-/

namespace Effect

variable {σ ε α β : Type}

/-- A program: from a state, a result or an error, and the state reached. -/
abbrev Program (σ ε α : Type) := ExceptT ε (StateM σ) α

/-- A total operation on the state that yields a value. -/
def act (f : σ → α × σ) : Program σ ε α := fun s => (.ok (f s).1, (f s).2)

/-- An operation that only reads the state. -/
def query (f : σ → α) : Program σ ε α := act fun s => (f s, s)

/-- An operation that only changes the state. -/
def change (f : σ → σ) : Program σ ε Unit := act fun s => ((), f s)

@[simp] theorem act_apply (f : σ → α × σ) (s : σ) :
    (act f : Program σ ε α) s = (.ok (f s).1, (f s).2) := rfl

@[simp] theorem query_apply (f : σ → α) (s : σ) :
    (query f : Program σ ε α) s = (.ok (f s), s) := rfl

@[simp] theorem change_apply (f : σ → σ) (s : σ) :
    (change f : Program σ ε Unit) s = (.ok (), f s) := rfl

@[simp] theorem pure_apply (a : α) (s : σ) : (pure a : Program σ ε α) s = (.ok a, s) := rfl

@[simp] theorem throw_apply (e : ε) (s : σ) : (throw e : Program σ ε α) s = (.error e, s) := rfl

/-- Sequencing stops at the first error and keeps the state reached there. -/
theorem bind_apply (m : Program σ ε α) (f : α → Program σ ε β) (s : σ) :
    (m >>= f) s = match m s with
      | (.ok a, s') => f a s'
      | (.error e, s') => (.error e, s') := by
  change StateT.bind m (ExceptT.bindCont f) s = _
  simp only [StateT.bind]
  rcases h : m s with ⟨_ | _, _⟩
  · rfl
  · rfl

theorem bind_ok {m : Program σ ε α} {f : α → Program σ ε β} {s s' : σ} {a : α}
    (h : m s = (.ok a, s')) : (m >>= f) s = f a s' := by
  rw [bind_apply, h]

theorem bind_error {m : Program σ ε α} {f : α → Program σ ε β} {s s' : σ} {e : ε}
    (h : m s = (.error e, s')) : (m >>= f) s = (.error e, s') := by
  rw [bind_apply, h]

@[simp] theorem act_bind (g : σ → α × σ) (f : α → Program σ ε β) (s : σ) :
    (act g >>= f) s = f (g s).1 (g s).2 := rfl

@[simp] theorem query_bind (g : σ → α) (f : α → Program σ ε β) (s : σ) :
    (query g >>= f) s = f (g s) s := rfl

@[simp] theorem change_bind (g : σ → σ) (f : Unit → Program σ ε β) (s : σ) :
    (change g >>= f) s = f () (g s) := rfl

/-- From a state satisfying `pre`, a result satisfies `post` and an error satisfies `err`. -/
def Triple (pre : σ → Prop) (m : Program σ ε α) (post : α → σ → Prop) (err : ε → σ → Prop) :
    Prop :=
  ∀ s, pre s → match m s with
    | (.ok a, s') => post a s'
    | (.error e, s') => err e s'

namespace Triple

variable {pre : σ → Prop} {mid : α → σ → Prop} {post : β → σ → Prop} {err : ε → σ → Prop}

theorem seq {m : Program σ ε α} {f : α → Program σ ε β} (first : Triple pre m mid err)
    (next : ∀ a, Triple (mid a) (f a) post err) : Triple pre (m >>= f) post err := by
  intro s hs
  have h := first s hs
  rw [bind_apply]
  rcases result : m s with ⟨_ | a, s'⟩
  · rw [result] at h
    exact h
  · rw [result] at h
    exact next a s' h

theorem weaken {m : Program σ ε β} {pre' : σ → Prop} {post' : β → σ → Prop} {err' : ε → σ → Prop}
    (h : Triple pre m post err) (before : ∀ s, pre' s → pre s)
    (after : ∀ b s, post b s → post' b s) (failed : ∀ e s, err e s → err' e s) :
    Triple pre' m post' err' := by
  intro s hs
  have outcome := h s (before s hs)
  rcases result : m s with ⟨e | b, s'⟩
  · rw [result] at outcome
    exact failed e s' outcome
  · rw [result] at outcome
    exact after b s' outcome

end Triple

/-- Every outcome keeps the invariant `inv`; results satisfy `post` and errors `err`. -/
def Maintains (inv : σ → Prop) (m : Program σ ε α) (post : α → Prop) (err : ε → Prop) : Prop :=
  Triple inv m (fun a s => inv s ∧ post a) (fun e s => inv s ∧ err e)

namespace Maintains

variable {inv : σ → Prop} {q : α → Prop} {post : β → Prop} {err : ε → Prop}

theorem seq {m : Program σ ε α} {f : α → Program σ ε β} (first : Maintains inv m q err)
    (next : ∀ a, q a → Maintains inv (f a) post err) : Maintains inv (m >>= f) post err :=
  Triple.seq first fun a s hs => next a hs.2 s hs.1

/-- Nothing is known of the first result. -/
theorem seqAny {m : Program σ ε α} {f : α → Program σ ε β}
    (first : Maintains inv m (fun _ => True) err) (next : ∀ a, Maintains inv (f a) post err) :
    Maintains inv (m >>= f) post err := seq first fun a _ => next a

theorem act {f : σ → β × σ} (keeps : ∀ s, inv s → inv (f s).2)
    (returns : ∀ s, inv s → post (f s).1) : Maintains (ε := ε) inv (act f) post err :=
  fun s hs => ⟨keeps s hs, returns s hs⟩

theorem query {f : σ → β} (returns : ∀ s, inv s → post (f s)) :
    Maintains (ε := ε) inv (query f) post err := fun s hs => ⟨hs, returns s hs⟩

theorem change {f : σ → σ} {post : Unit → Prop} (keeps : ∀ s, inv s → inv (f s))
    (returns : post ()) : Maintains (ε := ε) inv (change f) post err :=
  fun s hs => ⟨keeps s hs, returns⟩

theorem returns {b : β} (h : post b) : Maintains (ε := ε) inv (pure b) post err :=
  fun _ hs => ⟨hs, h⟩

theorem fails {e : ε} (h : err e) : Maintains (α := β) inv (throw e) post err :=
  fun _ hs => ⟨hs, h⟩

theorem ite {c : Prop} [Decidable c] {m n : Program σ ε β}
    (yes : c → Maintains inv m post err) (no : ¬c → Maintains inv n post err) :
    Maintains inv (if c then m else n) post err := by
  by_cases h : c
  · rw [if_pos h]; exact yes h
  · rw [if_neg h]; exact no h

theorem weaken {m : Program σ ε β} {post' : β → Prop} {err' : ε → Prop}
    (h : Maintains inv m post err) (after : ∀ b, post b → post' b)
    (failed : ∀ e, err e → err' e) : Maintains inv m post' err' :=
  Triple.weaken h (fun _ hs => hs) (fun b _ hb => ⟨hb.1, after b hb.2⟩)
    (fun e _ he => ⟨he.1, failed e he.2⟩)

/-- The state reached satisfies the invariant, whatever the outcome. -/
theorem state {m : Program σ ε β} (h : Maintains inv m post err) {s : σ} (hs : inv s) :
    inv (m s).2 := by
  have outcome := h s hs
  rcases result : m s with ⟨_ | _, s'⟩ <;> rw [result] at outcome <;> exact outcome.1

/-- Where no error is allowed, the program returns. -/
theorem succeeds {m : Program σ ε β} (h : Maintains inv m post fun _ => False) {s : σ}
    (hs : inv s) : ∃ b, (m s).1 = .ok b := by
  have outcome := h s hs
  rcases result : m s with ⟨_ | b, s'⟩ <;> rw [result] at outcome
  · exact outcome.2.elim
  · exact ⟨b, rfl⟩

end Maintains
end Effect
