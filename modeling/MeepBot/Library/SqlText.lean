import Mathlib.Algebra.Group.Int.Defs
import Mathlib.Algebra.Group.Nat.Defs

/-!
# Query texts

A query is printed by a format, with every quote of a text argument doubled, and read back as a
sequence of tokens. What is read depends on the format and on the arguments as wholes: a text
argument that is printed inside a literal is read as part of this literal, whatever its
characters are.
-/

namespace Sql

abbrev Text := List Char

/-! ### Formats -/

/-- An argument of a format. -/
inductive Arg where
  | text (s : Text)
  | number (n : Int)

/-- What is printed for one part of a format. -/
inductive Piece where
  | char (c : Char)
  | number (n : Int)
  | quoted (s : Text)

/-- A format with its arguments: `%s`, `%d`, `%q`, `%%`, and characters that stand for
themselves. -/
def pieces : Text → List Arg → List Piece
  | '%' :: 's' :: fmt, .text s :: args => s.map .char ++ pieces fmt args
  | '%' :: 'd' :: fmt, .number n :: args => .number n :: pieces fmt args
  | '%' :: 'q' :: fmt, .text s :: args => .quoted s :: pieces fmt args
  | '%' :: '%' :: fmt, args => .char '%' :: pieces fmt args
  | c :: fmt, args => .char c :: pieces fmt args
  | [], _ => []

/-- Every quote twice. -/
def doubled (s : Text) : Text := s.flatMap fun c => if c = '\'' then ['\'', '\''] else [c]

def numeral (n : Int) : Text :=
  if n < 0 then '-' :: Nat.toDigits 10 n.natAbs else Nat.toDigits 10 n.natAbs

def Piece.print : Piece → Text
  | .char c => [c]
  | .number n => numeral n
  | .quoted s => doubled s

/-- `vmprintf` -/
def printed (fmt : Text) (args : List Arg) : Text := (pieces fmt args).flatMap Piece.print

/-! ### Tokens -/

/-- The keywords of the statements below. -/
inductive Keyword where
  | create | table | if_ | not | exists_ | integer | text | string | primary | key | unique
  | autoincrement | collate | nocase | insert | or_ | ignore | replace | into | values | update
  | set | delete | select | from_ | where_ | like | order | by_ | random | limit
  deriving DecidableEq

/-- A value of a column. -/
inductive Value where
  | null
  | number (n : Int)
  | text (s : Text)
  deriving DecidableEq

inductive Token where
  | key (k : Keyword)
  | name (n : Text)
  | constant (v : Value)
  | comma | opening | closing | semicolon | equals | star
  | other (c : Char)
  deriving DecidableEq

def keywords : List (Text × Keyword) :=
  [("create".toList, .create), ("table".toList, .table), ("if".toList, .if_),
   ("not".toList, .not), ("exists".toList, .exists_), ("integer".toList, .integer),
   ("text".toList, .text), ("string".toList, .string), ("primary".toList, .primary),
   ("key".toList, .key), ("unique".toList, .unique), ("autoincrement".toList, .autoincrement),
   ("collate".toList, .collate), ("nocase".toList, .nocase), ("insert".toList, .insert),
   ("or".toList, .or_), ("ignore".toList, .ignore), ("replace".toList, .replace),
   ("into".toList, .into), ("values".toList, .values), ("update".toList, .update),
   ("set".toList, .set), ("delete".toList, .delete), ("select".toList, .select),
   ("from".toList, .from_), ("where".toList, .where_), ("like".toList, .like),
   ("order".toList, .order), ("by".toList, .by_), ("random".toList, .random),
   ("limit".toList, .limit)]

/-- Keywords and names are read in any letter case. -/
def word (w : Text) : Token :=
  let w := w.map Char.toLower
  match keywords.lookup w with
  | some k => .key k
  | none => if w = "null".toList then .constant .null else .name w

def punctuation (c : Char) : Token :=
  if c = ',' then .comma
  else if c = '(' then .opening
  else if c = ')' then .closing
  else if c = ';' then .semicolon
  else if c = '=' then .equals
  else if c = '*' then .star
  else .other c

/-! ### Scanning -/

/-- Where the scanner is. -/
inductive Mode where
  | between
  | word (w : Text)
  | number (negative : Bool) (n : Int)
  | text (s : Text)
  /-- behind a quote that ends the literal, unless it is doubled -/
  | quote (s : Text)
  | dash
  | comment
  | slash
  | block
  /-- in a block comment, behind a star -/
  | star

structure Scanner where
  mode : Mode
  /-- The tokens read, the last of them first. -/
  tokens : List Token

/-- A character of a name: bytes outside ASCII belong to names. -/
def isName (c : Char) : Bool := c.isAlphanum || c = '_' || c = '$' || 0x80 ≤ c.toNat

def isBlank (c : Char) : Bool := c = ' ' || c = '\t' || c = '\n' || c = '\x0c' || c = '\r'

def digitOf (c : Char) : Int := (c.toNat - '0'.toNat : Nat)

namespace Scanner

def start : Scanner := ⟨.between, []⟩

/-- A character between two tokens. -/
def open_ (tokens : List Token) (c : Char) : Scanner :=
  if isBlank c then ⟨.between, tokens⟩
  else if c = '\'' then ⟨.text [], tokens⟩
  else if c.isDigit then ⟨.number false (digitOf c), tokens⟩
  else if isName c then ⟨.word [c], tokens⟩
  else if c = '-' then ⟨.dash, tokens⟩
  else if c = '/' then ⟨.slash, tokens⟩
  else ⟨.between, punctuation c :: tokens⟩

def step (r : Scanner) (c : Char) : Scanner :=
  match r.mode with
  | .between => open_ r.tokens c
  | .word w => if isName c then ⟨.word (w ++ [c]), r.tokens⟩ else open_ (Sql.word w :: r.tokens) c
  | .number negative n =>
    if c.isDigit then
      let n := if negative then 10 * n - digitOf c else 10 * n + digitOf c
      ⟨.number negative n, r.tokens⟩
    -- a name does not begin right behind a number
    else if isName c then ⟨.between, .other c :: r.tokens⟩
    else open_ (.constant (.number n) :: r.tokens) c
  | .text s => if c = '\'' then ⟨.quote s, r.tokens⟩ else ⟨.text (s ++ [c]), r.tokens⟩
  | .quote s =>
    if c = '\'' then ⟨.text (s ++ [c]), r.tokens⟩ else open_ (.constant (.text s) :: r.tokens) c
  | .dash =>
    if c = '-' then ⟨.comment, r.tokens⟩
    else if c.isDigit then ⟨.number true (-digitOf c), r.tokens⟩
    else open_ (.other '-' :: r.tokens) c
  | .comment => if c = '\n' then ⟨.between, r.tokens⟩ else r
  | .slash => if c = '*' then ⟨.block, r.tokens⟩ else open_ (.other '/' :: r.tokens) c
  | .block => if c = '*' then ⟨.star, r.tokens⟩ else r
  | .star =>
    if c = '/' then ⟨.between, r.tokens⟩
    else if c = '*' then r
    else ⟨.block, r.tokens⟩

/-- The tokens at the end of the text; a literal that is still open is an error. -/
def finish (r : Scanner) : Option (List Token) :=
  match r.mode with
  | .word w => some (Sql.word w :: r.tokens).reverse
  | .number _ n => some (.constant (.number n) :: r.tokens).reverse
  | .text _ => none
  | .quote s => some (.constant (.text s) :: r.tokens).reverse
  | .dash => some (.other '-' :: r.tokens).reverse
  | .slash => some (.other '/' :: r.tokens).reverse
  | .between | .comment | .block | .star => some r.tokens.reverse

end Scanner

def tokens (query : Text) : Option (List Token) := (query.foldl Scanner.step .start).finish

/-! ### Reading what was printed -/

/-- A doubled text inside a literal is part of the literal. -/
theorem feed_doubled (s t : Text) (ts : List Token) :
    (doubled s).foldl Scanner.step ⟨.text t, ts⟩ = ⟨.text (t ++ s), ts⟩ := by
  induction s generalizing t with
  | nil => simp [doubled]
  | cons c s ih =>
    have rest := ih (t ++ [c])
    rw [doubled] at rest
    by_cases quote : c = '\''
    · subst quote
      simpa [doubled, Scanner.step] using rest
    · simpa [doubled, Scanner.step, quote] using rest

/-- The value of more digits behind a number. -/
theorem feed_digits (negative : Bool) {digits : Text} (all : ∀ c ∈ digits, c.isDigit) (n : Nat)
    (ts : List Token) :
    digits.foldl Scanner.step ⟨.number negative (if negative then -n else n), ts⟩ =
      ⟨.number negative (if negative then -Nat.ofDigitChars 10 digits n
        else Nat.ofDigitChars 10 digits n), ts⟩ := by
  induction digits generalizing n with
  | nil => simp
  | cons c digits ih =>
    obtain ⟨digit, others⟩ := List.forall_mem_cons.mp all
    rw [Nat.ofDigitChars_cons, ← ih others]
    have next : Scanner.step ⟨.number negative (if negative then -n else n), ts⟩ c =
        ⟨.number negative (if negative then -(10 * n + (c.toNat - '0'.toNat) : Nat)
          else (10 * n + (c.toNat - '0'.toNat) : Nat)), ts⟩ := by
      cases negative with
      | false => simp [Scanner.step, digit, digitOf]
      | true => simp [Scanner.step, digit, digitOf]; omega
    rw [List.foldl_cons, next]

theorem plain_digit {c : Char} (digit : c.isDigit) : isBlank c = false ∧ c ≠ '\'' ∧ c ≠ '-' := by
  refine ⟨?_, ?_, ?_⟩
  · refine Bool.eq_false_iff.mpr fun blank => ?_
    simp only [isBlank, Bool.or_eq_true, decide_eq_true_eq] at blank
    rcases blank with (((rfl | rfl) | rfl) | rfl) | rfl
    all_goals exact absurd digit (by decide)
  · rintro rfl
    exact absurd digit (by decide)
  · rintro rfl
    exact absurd digit (by decide)

/-- A number between two tokens. -/
theorem feed_numeral (n : Int) (ts : List Token) :
    (numeral n).foldl Scanner.step ⟨.between, ts⟩ = ⟨.number (decide (n < 0)) n, ts⟩ := by
  obtain ⟨d, rest, shape⟩ := List.exists_cons_of_ne_nil
    (Nat.toDigits_ne_nil (n := n.natAbs) (b := 10))
  have digits : ∀ c ∈ d :: rest, c.isDigit := fun c member =>
    Nat.isDigit_of_mem_toDigits (by decide) (by decide) (shape ▸ member)
  have value : Nat.ofDigitChars 10 (d :: rest) 0 = n.natAbs := by
    rw [← shape, Nat.ofDigitChars_ten_toDigits]
  obtain ⟨digit, others⟩ := List.forall_mem_cons.mp digits
  obtain ⟨visible, unquoted, unsigned⟩ := plain_digit digit
  rw [Nat.ofDigitChars_cons, Nat.mul_zero, Nat.zero_add] at value
  rw [numeral, shape]
  by_cases negative : n < 0
  · have sign : Scanner.step ⟨.between, ts⟩ '-' = ⟨.dash, ts⟩ := rfl
    have first : Scanner.step ⟨.dash, ts⟩ d = ⟨.number true (if true then
        -(d.toNat - '0'.toNat : Nat) else (d.toNat - '0'.toNat : Nat)), ts⟩ := by
      simp only [Scanner.step, unsigned, digit, digitOf, if_true, if_false]
    rw [if_pos negative, List.foldl_cons, sign, List.foldl_cons, first, feed_digits true others,
      value, decide_eq_true negative, if_pos rfl]
    congr 2
    omega
  · have first : Scanner.step ⟨.between, ts⟩ d = ⟨.number false (if false then
        -(d.toNat - '0'.toNat : Nat) else (d.toNat - '0'.toNat : Nat)), ts⟩ := by
      simp [Scanner.step, Scanner.open_, visible, unquoted, digit, digitOf]
    rw [if_neg negative, List.foldl_cons, first, feed_digits false others, value,
      decide_eq_false negative, if_neg Bool.false_ne_true]
    congr 2
    omega

/-- What a piece does to the scanner: a literal takes a text as a whole, and a number between two
tokens is read as a number. -/
def Scanner.take (r : Scanner) (p : Piece) : Scanner :=
  match p, r.mode with
  | .quoted s, .text t => ⟨.text (t ++ s), r.tokens⟩
  | .number n, .between => ⟨.number (decide (n < 0)) n, r.tokens⟩
  | p, _ => p.print.foldl Scanner.step r

theorem feed_piece (r : Scanner) (p : Piece) : p.print.foldl Scanner.step r = r.take p := by
  obtain ⟨mode, ts⟩ := r
  cases p with
  | char c => rfl
  | number n =>
    cases mode with
    | between => exact feed_numeral n ts
    | _ => rfl
  | quoted s =>
    cases mode with
    | text t => exact feed_doubled s t ts
    | _ => rfl

/-- The tokens of a text that was printed. -/
theorem tokens_printed (fmt : Text) (args : List Arg) :
    tokens (printed fmt args) = ((pieces fmt args).foldl Scanner.take .start).finish := by
  have fed (ps : List Piece) (r : Scanner) :
      (ps.flatMap Piece.print).foldl Scanner.step r = ps.foldl Scanner.take r := by
    induction ps generalizing r with
    | nil => rfl
    | cons p ps ih => rw [List.flatMap_cons, List.foldl_append, feed_piece, ih, List.foldl_cons]
  rw [tokens, printed, fed]

end Sql
