import MeepBot.LuaUtil

/-!
# Running scripts

Which entries of a directory `RunScriptsFromDir` runs, whatever the entries are called and however
the scripts end.

* `scripts_exact_iff`: it runs the Lua scripts, up to the first that fails, exactly when no name
  up to there is short, ends in the letters without the dot, or makes the path too long.
-/

namespace MeepBot
namespace Properties

open LuaUtil

/-! ### What is to be run -/

def fullPath (path : Str) (e : Dirent) : Str := path ++ '/' :: e.name

/-- An entry that does not start with a dot and whose name ends in ".lua", in any letter case. -/
def isScript (e : Dirent) : Bool := !e.hidden && decide (".lua".toList <:+ toLower e.name)

/-- Whether the script fails when it is run under its full path. -/
def fails (dofile : Str → Ran) (path : Str) (e : Dirent) : Bool :=
  match dofile (fullPath path e) with
  | .failed _ => true
  | .returned _ => false

/-- A list up to and including the first element with a property. -/
def upTo {α : Type} (p : α → Bool) : List α → List α
  | [] => []
  | a :: l => if p a then [a] else a :: upTo p l

/-- Exactly the scripts among the entries, which come in order, are run. -/
structure RunsScripts (dofile : Str → Ran) (path : Str) (entries : List Dirent) (l : Loading) :
    Prop where
  ran : l.ran =
    (upTo (fails dofile path) (entries.filter isScript)).map fun e => (e, fullPath path e)
  ret : l.ret = true ↔ ∀ e ∈ entries.filter isScript, fails dofile path e = false
  inside : ∀ x ∈ l.examined, 0 ≤ x.2 ∧ x.2 ≤ x.1.name.length

/-- The entries that the loop should come to. -/
def reached (dofile : Str → Ran) (path : Str) (entries : List Dirent) : List Dirent :=
  upTo (fun e => isScript e && fails dofile path e) entries

/-- A name the loop does justice to. -/
structure Regular (path : Str) (e : Dirent) : Prop where
  long : 3 ≤ e.name.length
  dotted : "lua".toList <:+ toLower e.name → ".lua".toList <:+ toLower e.name
  fits : isScript e = true → (fullPath path e).length ≤ 255

/-! ### One entry -/

theorem isScript_iff {e : Dirent} :
    isScript e = true ↔ e.hidden = false ∧ ".lua".toList <:+ toLower e.name := by
  simp [isScript]

/-- Of a name that is long enough, the extension is compared as it should be. -/
theorem compareNoCase_ext (e : Dirent) (long : 3 ≤ e.name.length) :
    StringUtil.compareNoCase e.ext "lua".toList 0 = 0 ↔ "lua".toList <:+ toLower e.name := by
  have lower : toLower "lua".toList = "lua".toList := by decide
  have clean : '\x00' ∉ e.ext := zero_notMem_cstr _
  rw [StringUtil.compareNoCase, if_neg (by decide), strcasecmp_eq_zero_iff clean (by decide), lower,
    Dirent.ext_eq e long, List.suffix_iff_eq_drop, toLower, toLower, List.map_drop, List.length_map]
  exact eq_comm

theorem upTo_subset {α : Type} (p : α → Bool) (l : List α) : upTo p l ⊆ l := by
  induction l with
  | nil => exact List.Subset.refl _
  | cons a l ih =>
    rw [upTo]
    split
    · simp
    · exact List.cons_subset_cons a ih

theorem upTo_cons_neg {α : Type} {p : α → Bool} {a : α} (other : p a = false) (l : List α) :
    upTo p (a :: l) = a :: upTo p l := by
  rw [upTo, if_neg (by simp [other])]

theorem head_mem_upTo {α : Type} (p : α → Bool) (a : α) (l : List α) : a ∈ upTo p (a :: l) := by
  rw [upTo]
  split <;> simp

variable {dofile : Str → Ran} {path : Str}

/-- The positions in the first entry are examined, whatever comes of it. -/
theorem examined_head (e : Dirent) (entries : List Dirent) (stack : List (Option Str)) :
    ∀ i ∈ e.examined, (e, i) ∈ (runScripts dofile path (e :: entries) stack).examined := by
  intro i member
  have here : (e, i) ∈ e.examined.map fun i => (e, i) := List.mem_map.mpr ⟨i, member, rfl⟩
  rw [runScripts]
  simp only
  split
  · exact List.mem_append_left _ here
  · split
    · exact here
    · exact List.mem_append_left _ here

/-- An entry whose name ends in the letters is run, whether it is a script or not. -/
theorem ran_head {e : Dirent} (visible : e.hidden = false) (long : 3 ≤ e.name.length)
    (letters : "lua".toList <:+ toLower e.name) (entries : List Dirent)
    (stack : List (Option Str)) :
    (runScripts dofile path (e :: entries) stack).ran.head? =
      some (e, StringUtil.format (fullPath path e)) := by
  have passes : ¬(e.hidden = true ∨ StringUtil.compareNoCase e.ext "lua".toList 0 ≠ 0) := by
    rintro (hidden | other)
    · rw [visible] at hidden
      cases hidden
    · exact other ((compareNoCase_ext e long).mpr letters)
  rw [runScripts]
  simp only [if_neg passes]
  split <;> rfl

theorem passes_of_script {e : Dirent} (script : isScript e = true) (regular : Regular path e) :
    ¬(e.hidden = true ∨ StringUtil.compareNoCase e.ext "lua".toList 0 ≠ 0) := by
  obtain ⟨visible, dotted⟩ := isScript_iff.mp script
  rintro (hidden | other)
  · rw [visible] at hidden
    cases hidden
  · exact other ((compareNoCase_ext e regular.long).mpr ((List.suffix_cons '.' _).trans dotted))

/-- The positions of one entry are inside its name. -/
theorem forall_examined_append {e : Dirent} (inside : ∀ i ∈ e.examined, 0 ≤ i ∧ i ≤ e.name.length)
    (later : List (Dirent × Int)) :
    (∀ x ∈ (e.examined.map fun i => (e, i)) ++ later, 0 ≤ x.2 ∧ x.2 ≤ x.1.name.length) ↔
      ∀ x ∈ later, 0 ≤ x.2 ∧ x.2 ≤ x.1.name.length := by
  constructor
  · exact fun all x member => all x (List.mem_append_right _ member)
  · intro all x member
    rcases List.mem_append.mp member with here | there
    · obtain ⟨i, at_, rfl⟩ := List.mem_map.mp here
      exact inside i at_
    · exact all x there

/-- An entry that is passed over, and should be, changes nothing. -/
theorem runsScripts_skip {e : Dirent} {entries : List Dirent} {stack : List (Option Str)}
    (skipped : e.hidden = true ∨ StringUtil.compareNoCase e.ext "lua".toList 0 ≠ 0)
    (other : isScript e = false) (inside : ∀ i ∈ e.examined, 0 ≤ i ∧ i ≤ e.name.length) :
    RunsScripts dofile path (e :: entries) (runScripts dofile path (e :: entries) stack) ↔
      RunsScripts dofile path entries (runScripts dofile path entries stack) := by
  have scripts : (e :: entries).filter isScript = entries.filter isScript :=
    List.filter_cons_of_neg (by simp [other])
  rw [runScripts]
  simp only [if_pos skipped]
  constructor
  · rintro ⟨ran, ret, all⟩
    rw [scripts] at ran ret
    exact ⟨ran, ret, (forall_examined_append inside _).mp all⟩
  · rintro ⟨ran, ret, all⟩
    rw [← scripts] at ran ret
    exact ⟨ran, ret, (forall_examined_append inside _).mpr all⟩

/-- A script whose full path fits is run under it. If it fails it is the last one, -/
theorem runsScripts_failed {e : Dirent} (script : isScript e = true) (regular : Regular path e)
    (failed : fails dofile path e = true) (entries : List Dirent) (stack : List (Option Str)) :
    RunsScripts dofile path (e :: entries) (runScripts dofile path (e :: entries) stack) := by
  have file : StringUtil.format (path ++ '/' :: e.name) = fullPath path e :=
    List.take_of_length_le (regular.fits script)
  have scripts : (e :: entries).filter isScript = e :: entries.filter isScript :=
    List.filter_cons_of_pos script
  obtain ⟨err, outcome⟩ : ∃ err, dofile (fullPath path e) = .failed err := by
    rw [fails] at failed
    split at failed
    next err outcome => exact ⟨err, outcome⟩
    next => cases failed
  rw [runScripts]
  simp only [if_neg (passes_of_script script regular), file, outcome]
  constructor
  · rw [scripts, upTo, if_pos failed]
    rfl
  · rw [scripts]
    apply iff_of_false (by simp)
    intro none
    rw [none e (by simp)] at failed
    cases failed
  · rw [← List.append_nil (e.examined.map _)]
    exact (forall_examined_append (e.examined_inside_iff.mpr fun _ => regular.long) []).mpr
      (by simp)

/-- and otherwise the others are run behind it. -/
theorem runsScripts_returned {e : Dirent} (script : isScript e = true) (regular : Regular path e)
    (returned : fails dofile path e = false) (entries : List Dirent) (stack : List (Option Str)) :
    ∃ stack',
      RunsScripts dofile path (e :: entries) (runScripts dofile path (e :: entries) stack) ↔
        RunsScripts dofile path entries (runScripts dofile path entries stack') := by
  have file : StringUtil.format (path ++ '/' :: e.name) = fullPath path e :=
    List.take_of_length_le (regular.fits script)
  have scripts : (e :: entries).filter isScript = e :: entries.filter isScript :=
    List.filter_cons_of_pos script
  have inside := forall_examined_append (e.examined_inside_iff.mpr fun _ => regular.long)
  obtain ⟨values, outcome⟩ : ∃ values, dofile (fullPath path e) = .returned values := by
    rw [fails] at returned
    split at returned
    next => cases returned
    next values outcome => exact ⟨values, outcome⟩
  refine ⟨values.reverse ++ stack, ?_⟩
  rw [runScripts]
  simp only [if_neg (passes_of_script script regular), file, outcome]
  constructor
  · rintro ⟨ran, ret, all⟩
    rw [scripts, upTo_cons_neg returned, List.map_cons, List.cons_eq_cons] at ran
    rw [scripts, List.forall_mem_cons] at ret
    exact ⟨ran.2, ret.trans (and_iff_right returned), (inside _).mp all⟩
  · rintro ⟨ran, ret, all⟩
    refine ⟨?_, ?_, (inside _).mpr all⟩
    · rw [scripts, upTo_cons_neg returned, List.map_cons]
      exact congrArg _ ran
    · rw [scripts, List.forall_mem_cons]
      exact ret.trans (and_iff_right returned).symm

/-- Of a regular entry that is no script that fails, the work is left to the others. -/
theorem runsScripts_rest {e : Dirent} (regular : e.hidden = false → Regular path e)
    (goesOn : (isScript e && fails dofile path e) = false) (entries : List Dirent)
    (stack : List (Option Str)) :
    ∃ stack',
      RunsScripts dofile path (e :: entries) (runScripts dofile path (e :: entries) stack) ↔
        RunsScripts dofile path entries (runScripts dofile path entries stack') := by
  cases script : isScript e with
  | true =>
    have returned : fails dofile path e = false := by simpa [script] using goesOn
    exact runsScripts_returned script (regular (isScript_iff.mp script).1) returned entries stack
  | false =>
    have inside : ∀ i ∈ e.examined, 0 ≤ i ∧ i ≤ e.name.length :=
      e.examined_inside_iff.mpr fun visible => (regular visible).long
    have skipped : e.hidden = true ∨ StringUtil.compareNoCase e.ext "lua".toList 0 ≠ 0 := by
      by_contra! passes
      have visible : e.hidden = false := by simpa using passes.1
      have letters := (compareNoCase_ext e (regular visible).long).mp passes.2
      rw [isScript_iff.mpr ⟨visible, (regular visible).dotted letters⟩] at script
      cases script
    exact ⟨stack, runsScripts_skip skipped script inside⟩

/-- A visible entry is regular where the scripts are run: else bytes in front of its name are
examined, or it is run without being a script, or under a part of its path. -/
theorem regular_of_runsScripts {e : Dirent} (visible : e.hidden = false) {entries : List Dirent}
    {stack : List (Option Str)}
    (runs : RunsScripts dofile path (e :: entries) (runScripts dofile path (e :: entries) stack)) :
    Regular path e := by
  have long : 3 ≤ e.name.length := by
    apply e.examined_inside_iff.mp _ visible
    intro i member
    exact runs.inside (e, i) (examined_head e entries stack i member)
  by_cases letters : "lua".toList <:+ toLower e.name
  · have head : (e, StringUtil.format (fullPath path e)) ∈
        (runScripts dofile path (e :: entries) stack).ran :=
      List.mem_of_head? (ran_head visible long letters entries stack)
    rw [runs.ran] at head
    obtain ⟨other, member, same⟩ := List.mem_map.mp head
    obtain ⟨rfl, file⟩ := Prod.mk.inj same
    have script := (List.mem_filter.mp (upTo_subset _ _ member)).2
    refine ⟨long, fun _ => (isScript_iff.mp script).2, fun _ => ?_⟩
    rw [file, StringUtil.format]
    exact List.length_take_le _ _
  · refine ⟨long, fun same => absurd same letters, fun script => absurd ?_ letters⟩
    exact (List.suffix_cons '.' _).trans (isScript_iff.mp script).2

/-! ### The loop -/

/-- For all entries in a row: the loop runs the scripts among them exactly when every visible
entry that it should come to has a regular name. -/
theorem runScripts_iff (entries : List Dirent) (stack : List (Option Str)) :
    RunsScripts dofile path entries (runScripts dofile path entries stack) ↔
      ∀ e ∈ reached dofile path entries, e.hidden = false → Regular path e := by
  induction entries generalizing stack with
  | nil =>
    apply iff_of_true
    · exact ⟨rfl, by simp [runScripts], by simp [runScripts]⟩
    · simp [reached, upTo]
  | cons e entries ih =>
    by_cases regular : e.hidden = false → Regular path e
    · cases last : isScript e && fails dofile path e with
      | true =>
        have only : reached dofile path (e :: entries) = [e] := by
          rw [reached, upTo, if_pos last]
        obtain ⟨script, failed⟩ := Bool.and_eq_true_iff.mp last
        rw [only]
        apply iff_of_true
        · exact runsScripts_failed script (regular (isScript_iff.mp script).1) failed entries stack
        · simpa using regular
      | false =>
        have later : reached dofile path (e :: entries) = e :: reached dofile path entries :=
          upTo_cons_neg (p := fun e => isScript e && fails dofile path e) last entries
        obtain ⟨stack', rest⟩ := runsScripts_rest regular last entries stack
        rw [rest, ih, later, List.forall_mem_cons]
        exact (and_iff_right regular).symm
    · obtain ⟨visible, irregular⟩ := Classical.not_imp.mp regular
      apply iff_of_false
      · exact fun runs => irregular (regular_of_runsScripts visible runs)
      · exact fun all => regular (all e (head_mem_upTo _ e entries))

/-- For every directory, whatever its entries are called, every outcome of every script, every
path and every stack: the scripts of the directory are run in order and under their full path, up
to the first that fails, with the right result and without a look outside of a name, exactly when
every visible entry up to there has three bytes at least, does not end in the letters without the
dot, and if it is a script has a full path of 255 bytes at most. -/
theorem scripts_exact_iff (dofile : Str → Ran) (path : Str) (entries : List Dirent)
    (stack : List (Option Str)) :
    RunsScripts dofile path (entries.sortBy Dirent.name)
        (runScriptsFromDir dofile path (some entries) stack) ↔
      ∀ e ∈ reached dofile path (entries.sortBy Dirent.name), e.hidden = false → Regular path e :=
  runScripts_iff _ stack

/-- A regular file with a name of one letter. -/
def single : Dirent := ⟨'\x00', '\x08', "a".toList, by decide, by decide, by decide⟩

/-- A regular file whose name ends in the letters without the dot. -/
def dotless : Dirent := ⟨'\x00', '\x08', "foolua".toList, by decide, by decide, by decide⟩

/-- Of the name of one letter the second byte in front of it is examined, and the file without
the dot is run. -/
theorem scripts_not_exact :
    (single, -2) ∈ (runScriptsFromDir (fun _ => .returned []) "scripts".toList (some [single])
      []).examined ∧
    (runScriptsFromDir (fun _ => .returned []) "scripts".toList (some [dotless]) []).ran.map
      Prod.snd = ["scripts/foolua".toList] ∧
    ¬RunsScripts (fun _ => .returned []) "scripts".toList [single]
      (runScriptsFromDir (fun _ => .returned []) "scripts".toList (some [single]) []) ∧
    ¬RunsScripts (fun _ => .returned []) "scripts".toList [dotless]
      (runScriptsFromDir (fun _ => .returned []) "scripts".toList (some [dotless]) []) := by
  have alone (e : Dirent) :
      runScriptsFromDir (fun _ => .returned []) "scripts".toList (some [e]) [] =
        runScripts (fun _ => .returned []) "scripts".toList [e] [] := by
    rw [runScriptsFromDir, List.sortBy, List.mergeSort_singleton]
  have outside : (single, -2) ∈
      (runScripts (fun _ => .returned []) "scripts".toList [single] []).examined :=
    examined_head single [] [] (-2) (by decide)
  have ran : (runScripts (fun _ => .returned []) "scripts".toList [dotless] []).ran.map Prod.snd =
      ["scripts/foolua".toList] := by decide
  rw [alone, alone]
  refine ⟨outside, ran, fun runs => ?_, fun runs => ?_⟩
  · exact absurd (runs.inside _ outside).1 (by decide)
  · rw [runs.ran] at ran
    exact absurd ran (by decide)

end Properties
end MeepBot
