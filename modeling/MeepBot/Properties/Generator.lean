import Mathlib
import MeepBot.Isaac
import MeepBot.Properties.Rolls

/-!
# The generator

What `ISAAC` returns, and what becomes of its state.

* `isaacGen_permutes`: to make new results permutes the states.
* `doRolls_generated`: the numbers of a roll are those results, the last of them first.
* `values_periodic`: what is returned comes round.
* `seeds_apart`: different seeds never lead to the same state at the same time.
-/

namespace MeepBot
namespace Properties

open Effect Isaac Reversible LuaBindings Scripts

/-- The part of a context that decides all that follows. -/
structure State where
  mem : Words
  a : Word
  b : Word
  c : Word

def stateOf (ctx : RandCtx) : State := ⟨ctx.randmem, ctx.randa, ctx.randb, ctx.randc⟩

/-- A context with nothing but the state. -/
def State.ctx (s : State) : RandCtx := ⟨0, Vector.replicate 256 0, s.mem, s.a, s.b, s.c⟩

/-- The state after `ISAAC_Gen`. -/
def State.next (s : State) : State := stateOf (gen s.ctx)

/-- The results of `ISAAC_Gen`. -/
def State.batch (s : State) : Words := (gen s.ctx).randrsl

/-! ### The results that are overwritten -/

/-- Two passes that agree in all but the results from place `n` on. -/
structure Agree (n : Nat) (p q : Pass) : Prop where
  mm : p.mm = q.mm
  a : p.a = q.a
  b : p.b = q.b
  rsl : ∀ i : Fin 256, i < n → p.rsl.get i = q.rsl.get i

theorem Agree.turn {n : Nat} (inside : n < 256) {p q : Pass} (agree : Agree n p q) :
    Agree (n + 1) (turn n p) (turn n q) := by
  obtain ⟨mm, rsl, a, b⟩ := p
  obtain ⟨mm', rsl', a', b'⟩ := q
  obtain ⟨rfl, rfl, rfl, results⟩ := agree
  refine ⟨rfl, rfl, rfl, fun i below => ?_⟩
  have place : (Fin.ofNat 256 n : Nat) = n := Nat.mod_eq_of_lt inside
  simp only [Isaac.turn, turnAt, Vector.get_eq_getElem, Fin.getElem_fin, Vector.getElem_set, place]
  split
  · rfl
  · exact results i (by omega)

theorem Agree.turns {n : Nat} (inside : n ≤ 256) {p q : Pass} (agree : Agree 0 p q) :
    Agree n (turns n p) (turns n q) := by
  induction n with
  | zero => exact agree
  | succ n ih => exact Agree.turn (by omega) (ih (by omega))

/-- Neither the next state nor the next results depend on the results before. -/
theorem gen_agree (ctx : RandCtx) :
    stateOf (gen ctx) = (stateOf ctx).next ∧ (gen ctx).randrsl = (stateOf ctx).batch := by
  have agree : Agree 256
      (turns 256 ⟨ctx.randmem, ctx.randrsl, ctx.randa, ctx.randb + (ctx.randc + 1)⟩)
      (turns 256 ⟨ctx.randmem, Vector.replicate 256 0, ctx.randa, ctx.randb + (ctx.randc + 1)⟩) :=
    Agree.turns (by omega) ⟨rfl, rfl, rfl, fun i below => absurd below (Nat.not_lt_zero i)⟩
  constructor
  · simp only [stateOf, State.next, gen, State.ctx, agree.mm, agree.a, agree.b]
  · apply Vector.ext
    intro i inside
    exact agree.rsl ⟨i, inside⟩ inside

/-! ### The generator loses nothing -/

theorem mixAt_injective (i : Nat) : Function.Injective fun a => a ^^^ mixAt i a := by
  unfold mixAt
  rcases i % 4 with _ | _ | _ | _
  · exact xor_shiftLeft_injective (by decide)
  · exact xor_ushiftRight_injective (by decide)
  · exact xor_shiftLeft_injective (by decide)
  · exact xor_ushiftRight_injective (by decide)

/-- Two passes that agree in all but the results. -/
def Same (p q : Pass) : Prop := p.mm = q.mm ∧ p.a = q.a ∧ p.b = q.b

theorem turnAt_same {i j : Fin 256} {mix : Word → Word}
    (reversible : Function.Injective fun a => a ^^^ mix a) {p q : Pass}
    (same : Same (turnAt i j mix p) (turnAt i j mix q)) : Same p q := by
  obtain ⟨mm, rsl, a, b⟩ := p
  obtain ⟨mm', rsl', a', b'⟩ := q
  obtain ⟨memory, sum, last⟩ := same
  simp only [turnAt] at memory sum last
  -- the word looked up for `b` is looked up in the new memory
  obtain ⟨y, others⟩ := of_set_eq memory
  rw [memory, y] at last
  have x : mm[i] = mm'[i] := (BitVec.add_right_inj _).mp last
  have before : mm = mm' := eq_of_others others x
  subst before
  have mixed : a = a' := reversible ((BitVec.add_left_inj _).mp sum)
  subst mixed
  exact ⟨rfl, rfl, (BitVec.add_right_inj _).mp y⟩

theorem turns_same {n : Nat} {p q : Pass} (same : Same (turns n p) (turns n q)) : Same p q := by
  induction n with
  | zero => exact same
  | succ n ih => exact ih (turnAt_same (mixAt_injective n) same)

theorem next_injective : Function.Injective State.next := by
  intro s t same
  obtain ⟨mem, a, b, c⟩ := s
  obtain ⟨mem', a', b', c'⟩ := t
  simp only [State.next, stateOf, gen, State.ctx, State.mk.injEq] at same
  obtain ⟨memory, first, second, count⟩ := same
  have counted : c = c' := (BitVec.add_left_inj _).mp count
  subst counted
  obtain ⟨memory, first, second⟩ := turns_same ⟨memory, first, second⟩
  have summand : b = b' := (BitVec.add_left_inj _).mp second
  exact congr (congr (congr (congrArg State.mk memory) first) summand) rfl

instance : Finite State := by
  have words : Finite Words := Finite.of_injective (fun v (i : Fin 256) => v[i].toFin) (by
    intro v u same
    apply Vector.ext
    intro i inside
    exact BitVec.eq_of_toFin_eq (congrFun same ⟨i, inside⟩))
  have word : Finite Word := Finite.of_injective BitVec.toFin fun _ _ => BitVec.eq_of_toFin_eq
  exact Finite.of_injective (fun s : State => (s.mem, s.a, s.b, s.c)) (by
    rintro ⟨_, _, _, _⟩ ⟨_, _, _, _⟩ same
    cases same
    rfl)

/-- `ISAAC_Gen` as a permutation of the states. -/
noncomputable def permutation : Equiv.Perm State :=
  Equiv.ofBijective State.next (Finite.injective_iff_bijective.mp next_injective)

/-- `ISAAC_Gen` permutes the states: nothing is lost, and no state is out of reach. -/
theorem isaacGen_permutes : ∃ π : Equiv.Perm State, ∀ ctx,
    (isaacGen ctx).map stateOf = some (π (stateOf ctx)) :=
  ⟨permutation, fun ctx => by rw [isaacGen_eq, Option.map_some, (gen_agree ctx).1]; rfl⟩

/-- Some number of steps brings every state back. -/
theorem next_period : ∃ p > 0, ∀ s, State.next^[p] s = s := by
  refine ⟨Nat.card (Equiv.Perm State), Nat.card_pos, fun s => ?_⟩
  have back : permutation ^ Nat.card (Equiv.Perm State) = 1 := pow_card_eq_one'
  have steps := congrArg (· s) back
  rwa [Equiv.Perm.coe_pow] at steps

/-! ### The values, one by one -/

/-- The context that holds the results of call `k` of `ISAAC_Gen`. -/
def batchCtx (seed : Octet) (k : Nat) : RandCtx := gen^[k + 1] (start seed)

theorem batchCtx_succ (seed : Octet) (k : Nat) : batchCtx seed (k + 1) = gen (batchCtx seed k) :=
  Function.iterate_succ_apply' gen (k + 1) (start seed)

/-- The state the generator starts from. -/
def seedState (seed : Octet) : State := stateOf (start seed)

theorem batchCtx_batch (seed : Octet) (k : Nat) :
    (batchCtx seed k).randrsl = (State.next^[k] (seedState seed)).batch ∧
      stateOf (batchCtx seed k) = State.next^[k + 1] (seedState seed) := by
  induction k with
  | zero => exact (gen_agree (start seed)).symm
  | succ k ih =>
    rw [batchCtx_succ, (gen_agree _).2, (gen_agree _).1, ih.2]
    exact ⟨rfl, (Function.iterate_succ_apply' State.next (k + 1) _).symm⟩

/-- Value `n`: the results of a call are used from the last to the first. -/
def randomValue (seed : Octet) (n : Nat) : Word :=
  (State.next^[n / 256] (seedState seed)).batch[255 - n % 256]

/-- The generator after `n` values: of the results of call `k` of `ISAAC_Gen`, `r` are used. The
next call is made when the next value is asked for. -/
def Used (seed : Octet) (n : Nat) (g : Isaac) : Prop :=
  ∃ k r, n = 256 * k + r ∧ r ≤ 256 ∧ (r = 0 → k = 0) ∧
    g.ctx = { batchCtx seed k with randcnt := BitVec.ofNat 32 (256 - r) }

theorem Used.draw {seed : Octet} {n : Nat} {g : Isaac} (used : Used seed n g) :
    g.getValue.1 = ⟨randomValue seed n⟩ ∧ Used seed (n + 1) g.getValue.2 := by
  obtain ⟨k, r, rfl, within, -, context⟩ := used
  by_cases left : r = 256
  · -- all results of the call are used, and the next call is made
    subst left
    have draw : isaacRand g.ctx = some ((batchCtx seed (k + 1)).randrsl[255],
        { batchCtx seed (k + 1) with randcnt := 255 }) := by
      rw [isaacRand_zero (by rw [context]; rfl), context, batchCtx_succ]
      rfl
    have number : (256 * k + 256) / 256 = k + 1 ∧ (256 * k + 256) % 256 = 0 := by omega
    refine ⟨?_, k + 1, 1, rfl, by omega, by omega, ?_⟩
    · simp only [getValue, draw_eq draw, (batchCtx_batch seed (k + 1)).1, randomValue, number]
    · simp only [getValue, draw_eq draw]
      rfl
  · have draw : isaacRand g.ctx = some ((batchCtx seed k).randrsl[255 - r],
        { batchCtx seed k with randcnt := BitVec.ofNat 32 (256 - (r + 1)) }) := by
      have counter : g.ctx.randcnt = BitVec.ofNat 32 (255 - r + 1) := by
        rw [context, show 255 - r + 1 = 256 - r by omega]
      rw [isaacRand_succ (by omega) counter, context]
      simp only [show 256 - (r + 1) = 255 - r by omega]
    have number : (256 * k + r) / 256 = k ∧ (256 * k + r) % 256 = r := by omega
    refine ⟨?_, k, r + 1, rfl, by omega, by omega, ?_⟩
    · simp only [getValue, draw_eq draw, (batchCtx_batch seed k).1, randomValue, number]
    · simp only [getValue, draw_eq draw]

/-- The generator after some values. -/
def afterDraws (g : Isaac) (n : Nat) : Isaac := (·.getValue.2)^[n] g

theorem used_after (seed : Octet) (n : Nat) : Used seed n (afterDraws (new seed) n) := by
  induction n with
  | zero => exact ⟨0, 0, rfl, by omega, fun _ => rfl, new_ctx seed⟩
  | succ n ih =>
    have step := ih.draw.2
    rwa [afterDraws, Function.iterate_succ_apply']

theorem values_get (g : Isaac) (n : Nat) : g.values.get n = (afterDraws g n).getValue.1 := by
  have iterate (n : Nat) : (Stream'.iterate (·.getValue.2) g).get n = afterDraws g n := by
    induction n with
    | zero => rfl
    | succ n ih =>
      rw [Stream'.get_succ_iterate', ih, afterDraws, afterDraws, Function.iterate_succ_apply']
  rw [values, Stream'.unfolds, Stream'.corec_def, Stream'.get_map, iterate]

theorem values_new (seed : Octet) (n : Nat) : (new seed).values.get n = ⟨randomValue seed n⟩ := by
  rw [values_get, (used_after seed n).draw.1]

/-- The values come round, whatever the seed: they have a period, and no start that is left out
of it. -/
theorem values_periodic :
    ∃ p > 0, ∀ seed n, (new seed).values.get (n + p) = (new seed).values.get n := by
  obtain ⟨p, positive, back⟩ := next_period
  refine ⟨256 * p, by omega, fun seed n => ?_⟩
  have number : (n + 256 * p) / 256 = n / 256 + p ∧ (n + 256 * p) % 256 = n % 256 := by omega
  rw [values_new, values_new]
  simp only [randomValue, number, Function.iterate_add_apply, back]

/-- A bot whose generator was made from `seed` rolls the results one by one, with every bound that
does not convert to zero. -/
theorem doRolls_generated [Platform] {b : Bot} {seed : Octet} {n : Nat}
    (generator : b.world.values = (new seed).values.drop n) {bound : LuaNumber}
    (nonzero : bound.toUnsigned ≠ 0) (count : Nat) :
    doRolls bound count b =
      (.ok ((List.range count).map fun j =>
          (UInt32.ofBitVec (randomValue seed (n + j)) % bound.toUnsigned + 1).toNat),
        drawn b count) := by
  induction count generalizing b n with
  | zero => rfl
  | succ count ih =>
    have here : b.world.values.head = UInt32.ofBitVec (randomValue seed n) := by
      rw [generator, Stream'.head_drop, values_new]
    have later : (drawn b 1).world.values = (new seed).values.drop (n + 1) := by
      simp only [drawn, generator, Stream'.drop_drop]
    have first : rand bound b =
        (.ok (UInt32.ofBitVec (randomValue seed n) % bound.toUnsigned + 1).toNat, drawn b 1) := by
      simp only [rand, act_bind, if_neg nonzero, here]
      rfl
    have shifted (j : Nat) : n + 1 + j = n + (j + 1) := by omega
    rw [doRolls, bind_ok first, bind_ok (ih later), List.range_succ_eq_map, List.map_cons,
      List.map_map]
    simp only [Function.comp_def, Nat.succ_eq_add_one, shifted]
    rfl

/-- Two rolls of a new bot's generator. -/
theorem doRolls_generated_two : ∃ b : Bot, b.world.values = (new (meepSeed 5)).values ∧
    @doRolls lp64 (.ofNat 6) 2 b =
      (.ok ((List.range 2).map fun j =>
          (UInt32.ofBitVec (randomValue (meepSeed 5) (0 + j)) %
            @LuaNumber.toUnsigned lp64 (.ofNat 6) + 1).toNat),
        drawn b 2) := by
  let b : Bot := Bot.initial .empty .empty { World.calm with values := (new (meepSeed 5)).values }
  exact ⟨b, rfl, @doRolls_generated lp64 b (meepSeed 5) 0 rfl (.ofNat 6) (by decide +kernel) 2⟩

/-! ### Seeds -/

theorem mixLine_injective (i : Fin 8) (shifted : Word → Word) :
    Function.Injective (mixLine i shifted) := by
  have distinct : ∀ i : Fin 8, i + 1 ≠ i ∧ i ≠ i + 3 ∧ i + 2 ≠ i + 1 := by decide
  obtain ⟨next, third, second⟩ := distinct i
  have first : Function.Injective (Octet.assign i fun s => s[i] ^^^ shifted s[i + 1]) := by
    apply set_injective
    intro s t others same
    rw [others (i + 1) next] at same
    exact (BitVec.xor_left_inj _).mp same
  have add : Function.Injective (Octet.assign (i + 3) fun s => s[i + 3] + s[i]) := by
    apply set_injective
    intro s t others same
    rw [others i third] at same
    exact (BitVec.add_left_inj _).mp same
  have add' : Function.Injective (Octet.assign (i + 1) fun s => s[i + 1] + s[i + 2]) := by
    apply set_injective
    intro s t others same
    rw [others (i + 2) second] at same
    exact (BitVec.add_left_inj _).mp same
  exact add'.comp (add.comp first)

theorem mix_injective : Function.Injective mix := by
  unfold mix
  have line (i : Fin 8) (shifted : Word → Word) := mixLine_injective i shifted
  exact (line 7 _).comp <| (line 6 _).comp <| (line 5 _).comp <| (line 4 _).comp <|
    (line 3 _).comp <| (line 2 _).comp <| (line 1 _).comp (line 0 _)

theorem octet_add_cancel (s : Octet) : Function.Injective (s + ·) := by
  intro t u same
  apply Vector.ext
  intro i inside
  have sum := congrArg (·[i]) same
  simp only [Vector.getElem_add] at sum
  exact (BitVec.add_right_inj _).mp sum

theorem octet_store (m : Words) (k l : Fin 32) (s : Octet) :
    octet (store m k s) l = if l = k then s else octet m l := by
  apply Vector.ext
  intro j inside
  have block : (8 * l.1 + j) / 8 = l := by omega
  have place : (8 * l.1 + j) % 8 = j := by omega
  by_cases same : l = k
  · subst same
    simp only [octet, store, Vector.getElem_ofFn, block, place, if_true]
  · have distinct : ¬(l : Nat) = k := Fin.ext_iff.not.mp same
    simp only [octet, store, Vector.getElem_ofFn, block, if_neg distinct, if_neg same,
      Fin.getElem_fin]

theorem octet_ext {m m' : Words} (blocks : ∀ k, octet m k = octet m' k) : m = m' := by
  apply Vector.ext
  intro i inside
  have block := congrArg (fun s => getElem s (i % 8) (Nat.mod_lt i (by decide)))
    (blocks ⟨i / 8, by omega⟩)
  simpa [octet, Nat.div_add_mod] using block

/-- A loop that adds the blocks of `src` makes a chain of them: the variables hold its last link,
and block `k` of the memory the link behind block `k` of `src`. -/
theorem fill_chain (added : Words → Fin 32 → Octet) {src : Words} (m₀ : Words)
    (reads : ∀ m k, octet m k = octet m₀ k → added m k = octet src k) (s₀ : Octet) {n : Nat}
    (within : n ≤ 32) :
    (fill added n (s₀, m₀)).1 = chain (· + ·) mix s₀ (blocks src) n ∧
      ∀ k : Fin 32, octet (fill added n (s₀, m₀)).2 k =
        if k < n then chain (· + ·) mix s₀ (blocks src) (k + 1) else octet m₀ k := by
  induction n with
  | zero => exact ⟨rfl, fun k => rfl⟩
  | succ n ih =>
    obtain ⟨vars, memory⟩ := ih (by omega)
    have number : (Fin.ofNat 32 n : Nat) = n := Nat.mod_eq_of_lt (by omega)
    have summand : added (fill added n (s₀, m₀)).2 (Fin.ofNat 32 n) = blocks src n := by
      apply reads
      rw [memory, if_neg (by omega)]
    have link : mix ((fill added n (s₀, m₀)).1 + added (fill added n (s₀, m₀)).2 (Fin.ofNat 32 n)) =
        chain (· + ·) mix s₀ (blocks src) (n + 1) := by
      rw [vars, summand, chain]
    refine ⟨link, fun k => ?_⟩
    simp only [fill, link, octet_store, memory, Fin.ext_iff, number]
    by_cases here : (k : Nat) = n
    · rw [if_pos here, if_pos (by omega), here]
    · rw [if_neg here]
      by_cases before : (k : Nat) < n
      · rw [if_pos before, if_pos (by omega)]
      · rw [if_neg before, if_neg (by omega)]

theorem blocks_eq {words : Words} {k : Nat} (inside : k < 32) :
    blocks words k = octet words ⟨k, inside⟩ := by
  have number : Fin.ofNat 32 k = ⟨k, inside⟩ := Fin.ext (Nat.mod_eq_of_lt inside)
  rw [blocks, number]

/-- The memory is the end of two chains, of which the second starts from the last block of the
first. -/
theorem seeded_chain (ctx : RandCtx) : ∃ mid : Words,
    (∀ k < 32, blocks mid k = chain (· + ·) mix golden (blocks ctx.randrsl) (k + 1)) ∧
    ∀ k < 32, blocks (seeded ctx) k = chain (· + ·) mix (blocks mid 31) (blocks mid) (k + 1) := by
  obtain ⟨vars, memory⟩ := fill_chain (fun _ => octet ctx.randrsl) ctx.randmem
    (fun m k _ => rfl) golden (Nat.le_refl 32)
  rcases first : fill (fun _ => octet ctx.randrsl) 32 (golden, ctx.randmem) with ⟨s, mid⟩
  rw [first] at vars memory
  have links (k : Nat) (inside : k < 32) :
      blocks mid k = chain (· + ·) mix golden (blocks ctx.randrsl) (k + 1) := by
    rw [blocks_eq inside, memory, if_pos inside]
  have last : s = blocks mid 31 := vars.trans (links 31 (by omega)).symm
  subst last
  obtain ⟨-, memory'⟩ := fill_chain octet mid (fun m k read => read)
    (blocks mid 31) (Nat.le_refl 32)
  refine ⟨mid, links, fun k inside => ?_⟩
  rw [blocks_eq inside, seeded, first, memory', if_pos inside]

theorem blocks_ext {m m' : Words} (same : ∀ k < 32, blocks m k = blocks m' k) : m = m' := by
  apply octet_ext
  intro k
  rw [← blocks_eq k.2, ← blocks_eq k.2]
  exact same k k.2

/-- The memory tells the seed. -/
theorem seeded_injective {ctx ctx' : RandCtx} (same : seeded ctx = seeded ctx') :
    ctx.randrsl = ctx'.randrsl := by
  obtain ⟨mid, first, second⟩ := seeded_chain ctx
  obtain ⟨mid', first', second'⟩ := seeded_chain ctx'
  have middle : ∀ k < 32, blocks mid k = blocks mid' k := by
    apply chain_self octet_add_cancel mix_injective (by decide : 0 < 31)
    intro k inside
    rw [← second k inside, ← second' k inside, same]
  apply blocks_ext
  apply chain_blocks octet_add_cancel mix_injective
  intro k inside
  rw [← first k inside, ← first' k inside]
  exact middle k inside

theorem seedState_injective : Function.Injective seedState := by
  intro seed seed' same
  have memory : seeded (cleared seed) = seeded (cleared seed') := by
    have part := congrArg State.mem same
    simpa only [seedState, stateOf, start] using part
  have stored := seeded_injective memory
  simp only [cleared] at stored
  have block := congrArg (octet · 0) stored
  simpa only [octet_store, if_true] using block

/-- As long as two generators have returned equally many values, they are in the same state just
when their seeds are the same. -/
theorem seeds_apart (seed seed' : Octet) (n : Nat) :
    stateOf (afterDraws (new seed) n).ctx = stateOf (afterDraws (new seed') n).ctx ↔
      seed = seed' := by
  constructor
  · intro same
    obtain ⟨k, r, number, within, unused, context⟩ := used_after seed n
    obtain ⟨k', r', number', within', unused', context'⟩ := used_after seed' n
    obtain rfl : k = k' := by omega
    have states : State.next^[k + 1] (seedState seed) = State.next^[k + 1] (seedState seed') := by
      rw [context, context'] at same
      rw [← (batchCtx_batch seed k).2, ← (batchCtx_batch seed' k).2]
      exact same
    exact seedState_injective (next_injective.iterate (k + 1) states)
  · rintro rfl
    rfl

end Properties
end MeepBot
