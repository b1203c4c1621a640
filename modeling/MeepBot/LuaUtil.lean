import Mathlib.Data.List.Lex
import Mathlib.Data.Char
import MeepBot.StringUtil
import MeepBot.Library.SortedSet

/-!
# LuaUtil

`RunScriptsFromDir`, which runs the scripts of a directory. What a script does is decided outside:
it returns some values or fails with one, and all that is known of a value is the text that
`lua_tostring` gives for it, if it gives one.
-/

namespace MeepBot

/-- An entry of a directory, with the two bytes that a `struct dirent` has in front of `d_name`. -/
structure Dirent where
  reclenHigh : Char
  dType : Char
  name : Str
  nonempty : name ≠ []
  short : name.length ≤ 255
  clean : '\x00' ∉ name

namespace Dirent

/-- The bytes of the entry from two in front of the name. -/
def bytes (e : Dirent) : Str := e.reclenHigh :: e.dType :: e.name

/-- `name + len - 3` as a C string; of a short name it begins in front of the name. -/
def ext (e : Dirent) : Str := cstr (e.bytes.drop (e.name.length - 1))

/-- Whether the entry is passed over as hidden or special. -/
def hidden (e : Dirent) : Bool := decide (e.name.head? = some '.')

/-- The positions that are examined, counted from the start of the name: its first byte, and
unless the entry is hidden the bytes and the terminator read by `strlen`, and those of `ext`. -/
def examined (e : Dirent) : List Int :=
  if e.hidden then [0]
  else 0 :: (List.range (e.name.length + 1)).map (fun i : Nat => (i : Int)) ++
    (List.range (e.ext.length + 1)).map fun i : Nat => (e.name.length : Int) - 3 + i

end Dirent

/-- How `luaL_dofile` ends: a file returns values, or it cannot be loaded or fails, and leaves the
value of its error. -/
inductive Ran where
  | returned (values : List (Option Str))
  | failed (err : Option Str)

namespace LuaUtil

/-- What a loop over the entries did: the value returned, the entries that were run with the file
names given to `luaL_dofile`, the positions of names that were examined, and the stack. -/
structure Loading where
  ret : Bool
  ran : List (Dirent × Str)
  examined : List (Dirent × Int)
  stack : List (Option Str)

/-- The loop of `RunScriptsFromDir` over the sorted entries. -/
def runScripts (dofile : Str → Ran) (path : Str) :
    (dirlist : List Dirent) → (stack : List (Option Str)) → Loading
  | [], stack => ⟨true, [], [], stack⟩
  | e :: dirlist, stack =>
    let examined := e.examined.map fun i => (e, i)
    if e.hidden ∨ StringUtil.compareNoCase e.ext "lua".toList 0 ≠ 0 then
      let later := runScripts dofile path dirlist stack
      { later with examined := examined ++ later.examined }
    else
      let file := StringUtil.format (path ++ '/' :: e.name)
      match dofile file with
      | .failed err => ⟨false, [(e, file)], examined, err :: stack⟩
      | .returned values =>
        let later := runScripts dofile path dirlist (values.reverse ++ stack)
        { later with ran := (e, file) :: later.ran, examined := examined ++ later.examined }

/-- `RunScriptsFromDir` on what the directory holds, in any order; nothing if it cannot be
read. -/
def runScriptsFromDir (dofile : Str → Ran) (path : Str) (dir : Option (List Dirent))
    (stack : List (Option Str)) : Loading :=
  match dir with
  | none => ⟨false, [], [], stack⟩
  | some entries => runScripts dofile path (entries.sortBy Dirent.name) stack

end LuaUtil

/-! ### The extension -/

namespace Dirent

/-- The three last bytes of a name that has as many. -/
theorem ext_eq (e : Dirent) (long : 3 ≤ e.name.length) :
    e.ext = e.name.drop (e.name.length - 3) := by
  have inside : e.bytes.drop (e.name.length - 1) = e.name.drop (e.name.length - 3) := by
    obtain ⟨n, length⟩ := Nat.exists_eq_add_of_le' long
    rw [bytes, length]
    rfl
  rw [ext, inside, cstr_eq_self]
  exact fun zero => e.clean (List.mem_of_mem_drop zero)

/-- Nothing outside a name is examined exactly if it is hidden or has three bytes at least. -/
theorem examined_inside_iff (e : Dirent) :
    (∀ i ∈ e.examined, 0 ≤ i ∧ i ≤ e.name.length) ↔ (e.hidden = false → 3 ≤ e.name.length) := by
  unfold examined
  cases e.hidden with
  | true => simp
  | false =>
    constructor
    · intro inside _
      have first := inside ((e.name.length : Int) - 3)
        (List.mem_append_right _ (List.mem_map.mpr ⟨0, by simp, by simp⟩))
      omega
    · intro long i member
      have length : e.ext.length = 3 := by
        have := long rfl
        rw [ext_eq e this, List.length_drop]
        omega
      have := long rfl
      simp only [Bool.false_eq_true, if_false, List.mem_append, List.mem_cons, List.mem_map,
        List.mem_range, length] at member
      rcases member with (zero | ⟨j, below, rfl⟩) | ⟨j, below, rfl⟩ <;> omega

end Dirent
end MeepBot
