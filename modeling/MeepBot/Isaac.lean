import Mathlib.Data.Stream.Defs
import MeepBot.Library.Reversible

/-!
# The random number generator

`ISAAC` and the functions of `rand.c` it is made of. The loops of `ISAAC_Gen` move three
pointers through the two arrays of the context; here a pointer is an index, and to read or write
through one that has left its array yields nothing. The same computation without pointers stands
beside them: one turn for each place of the memory.
-/

namespace MeepBot
namespace Isaac

/-- `ub4` -/
abbrev Word := BitVec 32

/-- An array of `RANDSIZ` words. -/
abbrev Words := Vector Word 256

/-- `randctx` -/
structure RandCtx where
  randcnt : Word
  randrsl : Words
  randmem : Words
  randa : Word
  randb : Word
  randc : Word

/-- The words of the memory that `ind` can read: the two low bits of an offset are masked out,
since it counts bytes. -/
theorem offset_lt (x : Word) : (x &&& 0x3FC).toNat / 4 < 256 := by
  have masked : (x &&& 0x3FC).toNat ≤ 0x3FC := by
    rw [BitVec.toNat_and]
    exact Nat.and_le_right
  omega

def ind (mm : Words) (x : Word) : Word :=
  getElem mm ((x &&& 0x3FC).toNat / 4) (offset_lt x)

/-! ### The loops of `ISAAC_Gen` -/

/-- The local variables of `ISAAC_Gen` that its steps change, with the arrays they write to. -/
structure Locals where
  mm : Words
  rsl : Words
  a : Word
  b : Word
  m : Nat
  m2 : Nat
  r : Nat

def rngstep (mix : Word → Word) (s : Locals) : Option Locals :=
  if inside : s.m < 256 ∧ s.m2 < 256 ∧ s.r < 256 then
    let x := s.mm[s.m]
    let a := (s.a ^^^ mix s.a) + s.mm[s.m2]
    let y := ind s.mm x + a + s.b
    let mm := s.mm.set s.m y
    -- the second word is looked up in the memory as it has just been changed
    let b := ind mm (y >>> 8) + x
    some ⟨mm, s.rsl.set s.r b, a, b, s.m + 1, s.m2 + 1, s.r + 1⟩
  else none

/-- The body of both loops. -/
def rngsteps (s : Locals) : Option Locals := do
  let s ← rngstep (· <<< 13) s
  let s ← rngstep (· >>> 6) s
  let s ← rngstep (· <<< 2) s
  rngstep (· >>> 16) s

/-- `while( goOn ) body`, with a bound on the turns. -/
def whileLoop {σ : Type} (goOn : σ → Bool) (body : σ → Option σ) : Nat → σ → Option σ
  | 0, s => if goOn s then none else some s
  | bound + 1, s => if goOn s then body s >>= whileLoop goOn body bound else some s

/-- `for (...; m<mend; )` -/
def lowerLoop (s : Locals) : Option Locals := whileLoop (fun s => s.m < 128) rngsteps 256 s

/-- `for (m2 = mm; m2<mend; )` -/
def upperLoop (s : Locals) : Option Locals :=
  whileLoop (fun s => s.m2 < 128) rngsteps 256 { s with m2 := 0 }

def isaacGen (ctx : RandCtx) : Option RandCtx := do
  let randc := ctx.randc + 1
  let s ← lowerLoop ⟨ctx.randmem, ctx.randrsl, ctx.randa, ctx.randb + randc, 0, 128, 0⟩
  let s ← upperLoop s
  pure { ctx with randrsl := s.rsl, randmem := s.mm, randa := s.a, randb := s.b, randc := randc }

/-! ### One turn for each place -/

/-- What the turns work on. -/
structure Pass where
  mm : Words
  rsl : Words
  a : Word
  b : Word

/-- The four shifts come round. -/
def mixAt (i : Nat) : Word → Word :=
  match i % 4 with
  | 0 => (· <<< 13)
  | 1 => (· >>> 6)
  | 2 => (· <<< 2)
  | _ => (· >>> 16)

/-- The turn for place `i`; `j` is the place on the other half. -/
def turnAt (i j : Fin 256) (mix : Word → Word) (p : Pass) : Pass :=
  let a := (p.a ^^^ mix p.a) + p.mm[j]
  let y := ind p.mm p.mm[i] + a + p.b
  let mm := p.mm.set i y
  let b := ind mm (y >>> 8) + p.mm[i]
  ⟨mm, p.rsl.set i b, a, b⟩

def turn (i : Nat) : Pass → Pass :=
  turnAt (Fin.ofNat 256 i) (Fin.ofNat 256 (i + 128)) (mixAt i)

/-- The turns for the first `n` places. -/
def turns : Nat → Pass → Pass
  | 0, p => p
  | n + 1, p => turn n (turns n p)

/-- What `ISAAC_Gen` computes. -/
def gen (ctx : RandCtx) : RandCtx :=
  let p := turns 256 ⟨ctx.randmem, ctx.randrsl, ctx.randa, ctx.randb + (ctx.randc + 1)⟩
  { ctx with
    randrsl := p.rsl, randmem := p.mm, randa := p.a, randb := p.b, randc := ctx.randc + 1 }

/-- The pointers at place `i`, with `m2` at place `j`. -/
def Pass.at (p : Pass) (i j : Nat) : Locals := ⟨p.mm, p.rsl, p.a, p.b, i, j, i⟩

theorem rngstep_turn {i j : Nat} (inside : i < 256) (inside' : j < 256)
    (other : j = (i + 128) % 256) (p : Pass) :
    rngstep (mixAt i) (p.at i j) = some ((turn i p).at (i + 1) (j + 1)) := by
  have place : Fin.ofNat 256 i = ⟨i, inside⟩ := Fin.ext (Nat.mod_eq_of_lt inside)
  have place' : Fin.ofNat 256 (i + 128) = ⟨j, inside'⟩ := Fin.ext other.symm
  rw [rngstep, dif_pos ⟨inside, inside', inside⟩, turn, place, place']
  rfl

/-- The body of a loop takes the turns for four places. -/
theorem rngsteps_turns {i j : Nat} (aligned : i % 4 = 0) (inside : i + 3 < 256)
    (inside' : j + 3 < 256) (other : j = (i + 128) % 256) (p : Pass) :
    rngsteps ((turns i p).at i j) = some ((turns (i + 4) p).at (i + 4) (j + 4)) := by
  have mix₀ : mixAt i = fun a : Word => a <<< 13 := by
    simp only [mixAt, show i % 4 = 0 by omega]
  have mix₁ : mixAt (i + 1) = fun a : Word => a >>> 6 := by
    simp only [mixAt, show (i + 1) % 4 = 1 by omega]
  have mix₂ : mixAt (i + 2) = fun a : Word => a <<< 2 := by
    simp only [mixAt, show (i + 2) % 4 = 2 by omega]
  have mix₃ : mixAt (i + 3) = fun a : Word => a >>> 16 := by
    simp only [mixAt, show (i + 3) % 4 = 3 by omega]
  rw [rngsteps, ← mix₀, rngstep_turn (by omega) (by omega) (by omega)]
  rw [Option.bind_eq_bind, Option.bind_some, ← mix₁,
    rngstep_turn (by omega) (by omega) (by omega)]
  rw [Option.bind_some, ← mix₂, rngstep_turn (by omega) (by omega) (by omega)]
  rw [Option.bind_some, ← mix₃, rngstep_turn (by omega) (by omega) (by omega)]
  rfl

/-- A loop whose states are known one by one. -/
theorem whileLoop_states {σ : Type} {goOn : σ → Bool} {body : σ → Option σ} (states : Nat → σ)
    {n : Nat} (further : ∀ k < n, goOn (states k) = true)
    (next : ∀ k < n, body (states k) = some (states (k + 1))) (ends : goOn (states n) = false)
    {bound : Nat} (enough : n ≤ bound) :
    whileLoop goOn body bound (states 0) = some (states n) := by
  induction n generalizing states bound with
  | zero =>
    cases bound with
    | zero => rw [whileLoop, ends, if_neg Bool.false_ne_true]
    | succ bound => rw [whileLoop, ends, if_neg Bool.false_ne_true]
  | succ n ih =>
    obtain ⟨bound, rfl⟩ : ∃ k, bound = k + 1 := ⟨bound - 1, by omega⟩
    rw [whileLoop, if_pos (further 0 (by omega)), next 0 (by omega), Option.bind_eq_bind,
      Option.bind_some]
    exact ih (fun k => states (k + 1)) (fun k _ => further (k + 1) (by omega))
      (fun k _ => next (k + 1) (by omega)) ends (by omega)

theorem lowerLoop_turns (p : Pass) :
    lowerLoop (p.at 0 128) = some ((turns 128 p).at 128 256) :=
  whileLoop_states (fun k => (turns (4 * k) p).at (4 * k) (4 * k + 128)) (n := 32)
    (fun k inside => decide_eq_true (by simp only [Pass.at]; omega))
    (fun k inside => rngsteps_turns (by omega) (by omega) (by omega) (by omega) p)
    (decide_eq_false (show ¬4 * 32 < 128 by omega)) (by omega)

theorem upperLoop_turns (p : Pass) :
    upperLoop ((turns 128 p).at 128 256) = some ((turns 256 p).at 256 128) :=
  whileLoop_states (fun k => (turns (128 + 4 * k) p).at (128 + 4 * k) (4 * k)) (n := 32)
    (fun k inside => decide_eq_true (by simp only [Pass.at]; omega))
    (fun k inside => rngsteps_turns (by omega) (by omega) (by omega) (by omega) p)
    (decide_eq_false (show ¬4 * 32 < 128 by omega)) (by omega)

/-- The pointers stay inside the arrays, both loops end, and they take all turns in order. -/
theorem isaacGen_eq (ctx : RandCtx) : isaacGen ctx = some (gen ctx) := by
  have lower := lowerLoop_turns ⟨ctx.randmem, ctx.randrsl, ctx.randa, ctx.randb + (ctx.randc + 1)⟩
  rw [Pass.at] at lower
  rw [isaacGen, lower, Option.bind_eq_bind, Option.bind_some, upperLoop_turns]
  rfl

/-! ### `ISAAC_Init` -/

/-- The eight variables `a` to `h`. -/
abbrev Octet := Vector Word 8

def Octet.assign (i : Fin 8) (value : Octet → Word) (s : Octet) : Octet := s.set i (value s)

/-- A line of `mix`: `a^=b<<11; d+=a; b+=c;` and its like. The variables come round. -/
def mixLine (i : Fin 8) (shifted : Word → Word) (s : Octet) : Octet :=
  let s := Octet.assign i (fun s => s[i] ^^^ shifted s[i + 1]) s
  let s := Octet.assign (i + 3) (fun s => s[i + 3] + s[i]) s
  Octet.assign (i + 1) (fun s => s[i + 1] + s[i + 2]) s

def mix (s : Octet) : Octet :=
  let s := mixLine 0 (fun b => b <<< 11) s
  let s := mixLine 1 (fun c => c >>> 2) s
  let s := mixLine 2 (fun d => d <<< 8) s
  let s := mixLine 3 (fun e => e >>> 16) s
  let s := mixLine 4 (fun f => f <<< 10) s
  let s := mixLine 5 (fun g => g >>> 4) s
  let s := mixLine 6 (fun h => h <<< 8) s
  mixLine 7 (fun a => a >>> 9) s

/-- The eight words of an array from place `8 * k` on. -/
def octet (words : Words) (k : Fin 32) : Octet :=
  Vector.ofFn fun j : Fin 8 => words[8 * k.1 + j.1]

/-- The words of an array in blocks of eight, one after the other. -/
def blocks (words : Words) (k : Nat) : Octet := octet words (Fin.ofNat 32 k)

/-- `m[i  ]=a; m[i+1]=b;` and so on, where `i` is `8 * k`. -/
def store (m : Words) (k : Fin 32) (s : Octet) : Words :=
  Vector.ofFn fun i : Fin 256 =>
    if i.1 / 8 = k.1 then getElem s (i.1 % 8) (Nat.mod_lt _ (by decide)) else m[i]

/-- The loops `for (i=0; i<RANDSIZ; i+=8)`, up to block `n`: what is added to the variables before
they are mixed is read from the memory as it is then. -/
def fill (added : Words → Fin 32 → Octet) : Nat → Octet × Words → Octet × Words
  | 0, sm => sm
  | n + 1, sm =>
    let (s, m) := fill added n sm
    let k := Fin.ofNat 32 n
    let s := mix (s + added m k)
    (s, store m k s)

/-- `0x9e3779b9`, eight times, and scrambled. -/
def golden : Octet := mix (mix (mix (mix (Vector.replicate 8 0x9e3779b9))))

/-- The memory filled from the results, in two passes. -/
def seeded (ctx : RandCtx) : Words :=
  let sm := fill (fun _ => octet ctx.randrsl) 32 (golden, ctx.randmem)
  -- the second pass goes over what the first has left
  (fill octet 32 sm).2

/-- The memory filled without a seed. -/
def unseeded (ctx : RandCtx) : Words :=
  (fill (fun _ _ => Vector.replicate 8 0) 32 (golden, ctx.randmem)).2

def isaacInit (ctx : RandCtx) (flag : Bool) : Option RandCtx := do
  let m := if flag then seeded ctx else unseeded ctx
  let ctx ← isaacGen { ctx with randmem := m, randa := 0, randb := 0, randc := 0 }
  pure { ctx with randcnt := 256 }

theorem isaacInit_seeded (ctx : RandCtx) : isaacInit ctx true =
    some { gen { ctx with randmem := seeded ctx, randa := 0, randb := 0, randc := 0 } with
      randcnt := 256 } := by
  rw [isaacInit, isaacGen_eq]
  rfl

/-! ### `ISAAC_Rand` -/

def isaacRand (ctx : RandCtx) : Option (Word × RandCtx) :=
  if ctx.randcnt = 0 then do
    let ctx ← isaacGen ctx
    pure (ctx.randrsl[255], { ctx with randcnt := 255 })
  else
    let cnt := ctx.randcnt - 1
    if inside : cnt.toNat < 256 then some (ctx.randrsl[cnt.toNat], { ctx with randcnt := cnt })
    else none

theorem isaacRand_zero {ctx : RandCtx} (used : ctx.randcnt = 0) :
    isaacRand ctx = some ((gen ctx).randrsl[255], { gen ctx with randcnt := 255 }) := by
  rw [isaacRand, if_pos used, isaacGen_eq]
  rfl

theorem isaacRand_succ {ctx : RandCtx} {n : Nat} (inside : n < 256)
    (left : ctx.randcnt = BitVec.ofNat 32 (n + 1)) : isaacRand ctx =
      some (ctx.randrsl[n], { ctx with randcnt := BitVec.ofNat 32 n }) := by
  have positive : ctx.randcnt ≠ 0 := by
    rw [left]
    intro zero
    have value : (n + 1) % 2 ^ 32 = 0 := congrArg BitVec.toNat zero
    omega
  have before : ctx.randcnt - 1 = BitVec.ofNat 32 n := by
    rw [left, BitVec.ofNat_add]
    exact BitVec.add_sub_cancel _ _
  have value : (BitVec.ofNat 32 n).toNat = n := by
    rw [BitVec.toNat_ofNat]
    omega
  simp only [isaacRand, if_neg positive, before, value, dif_pos inside]

/-- A draw leaves the counter inside the results. -/
theorem isaacRand_inside {ctx : RandCtx} (inside : ctx.randcnt.toNat ≤ 256) :
    ∃ drawn, isaacRand ctx = some drawn ∧ drawn.2.randcnt.toNat ≤ 256 := by
  rcases left : ctx.randcnt.toNat with _ | n
  · have used : ctx.randcnt = 0 := BitVec.eq_of_toNat_eq left
    exact ⟨_, isaacRand_zero used, (by decide : (255 : Word).toNat ≤ 256)⟩
  · have some_left : ctx.randcnt = BitVec.ofNat 32 (n + 1) := by
      rw [← left, BitVec.ofNat_toNat, BitVec.setWidth_eq]
    refine ⟨_, isaacRand_succ (by omega) some_left, ?_⟩
    rw [BitVec.toNat_ofNat]
    omega

end Isaac

/-! ### The class -/

/-- `ISAAC`: a context whose counter is inside its results. -/
structure Isaac where
  ctx : Isaac.RandCtx
  inside : ctx.randcnt.toNat ≤ 256

namespace Isaac

/-- The context that the constructor initializes: all zero but for the seed. -/
def cleared (seed : Octet) : RandCtx where
  randcnt := 0
  randrsl := store (Vector.replicate 256 0) 0 seed
  randmem := Vector.replicate 256 0
  randa := 0
  randb := 0
  randc := 0

/-- The context before the first set of results. -/
def start (seed : Octet) : RandCtx :=
  { cleared seed with randmem := seeded (cleared seed), randa := 0, randb := 0, randc := 0 }

theorem isaacInit_cleared (seed : Octet) :
    isaacInit (cleared seed) true = some { gen (start seed) with randcnt := 256 } :=
  isaacInit_seeded (cleared seed)

/-- `ISAAC( seed )` -/
def new (seed : Octet) : Isaac where
  ctx := (isaacInit (cleared seed) true).get (by rw [isaacInit_cleared, Option.isSome_some])
  inside := by
    rw [Option.get_of_eq_some _ (isaacInit_cleared seed)]
    exact (by decide : (256 : Word).toNat ≤ 256)

/-- The value and the context that `ISAAC_Rand` yields. -/
def draw (g : Isaac) : Word × RandCtx :=
  (isaacRand g.ctx).get (by
    obtain ⟨drawn, draw, -⟩ := isaacRand_inside g.inside
    rw [draw, Option.isSome_some])

/-- `GetValue` -/
def getValue (g : Isaac) : UInt32 × Isaac :=
  (⟨g.draw.1⟩, ⟨g.draw.2, by
    obtain ⟨drawn, draw, inside⟩ := isaacRand_inside g.inside
    simpa only [Isaac.draw, draw, Option.get_some] using inside⟩)

/-- All values the generator will return. -/
def values (g : Isaac) : Stream' UInt32 := Stream'.unfolds (·.getValue.1) (·.getValue.2) g

/-- The seed of the bot's generator: `'M','E','E','P','B','O','T', time(NULL)`. -/
def meepSeed (time : Word) : Octet :=
  #v[0x4D, 0x45, 0x45, 0x50, 0x42, 0x4F, 0x54, time]

theorem new_ctx (seed : Octet) :
    (new seed).ctx = { gen (start seed) with randcnt := 256 } := by
  simp only [new]
  rw [Option.get_of_eq_some _ (isaacInit_cleared seed)]

theorem draw_eq {g : Isaac} {value : Word} {next : RandCtx}
    (draw : isaacRand g.ctx = some (value, next)) : g.draw = (value, next) := by
  simp only [Isaac.draw, draw, Option.get_some]

end Isaac
end MeepBot
