import MeepBot.Scripts.Util

/-!
# The handlers of the shipped scripts

One section for each script, in the order they are loaded. A handler gets the type of the
message, its sender and the parameter string, and runs as a program on the bot.
-/

namespace MeepBot
namespace LuaValue

/-- The value `lua_tonumber` gives, if `lua_isnumber` says there is one. -/
def toNumber : LuaValue → Option LuaNumber
  | number x => some x
  | string s => LuaNumber.tonumber s
  | _ => none

end LuaValue

namespace Scripts

open Effect LuaBindings

/-! ### 8ball.lua -/

def answers : List String :=
  ["as I see it, yes", "it is certain", "it is decidedly so", "most likely", "outlook good",
   "signs point to yes", "without a doubt", "yes", "yes - definitely", "you may rely on it",
   "reply hazy, try again", "ask again later", "better not tell you now", "cannot predict now",
   "concentrate and ask again",
   "don't count on it", "my reply is no", "my sources say no", "outlook not so good",
   "very doubtful"]

/-- An entry of a table that counts from 1, as an argument of `format`. -/
def entry (table : List String) (idx : Nat) : LuaM Str := do
  let text ← LuaM.need "bad argument to 'format' (string expected, got nil)" <|
    if idx = 0 then none else table[idx - 1]?
  pure text.toList

def eightBall [Platform] (type : LuaValue) (caller : Str) (params : Option Str) : LuaM Unit :=
  if (params.bind fun p => p.getLast?) = some '?' then do
    let idx ← rand (.ofNat answers.length)
    let answer ← entry answers idx
    sayOrPM type (some caller) (some (caller ++ ": ".toList ++ answer ++ ".".toList))
  else sayOrPM type (some caller) (some "I need a question.".toList)

/-! ### AdminActions.lua -/

/-- `protect` and `unprotect` differ in the flag and in two texts. -/
def setProtection (bProtect : Bool) (usage done : String) (type : LuaValue) (caller : Str) :
    Option Str → LuaM Unit
  | none => sayOrPM type (some caller) (some usage.toList)
  | some params => do
    let target ← resolve caller params
    let ok ← LuaBindings.protect target bProtect
    let response :=
      if ok then target ++ done.toList
      else "User \"".toList ++ target ++ "\" doesn't exist!".toList
    sayOrPM type (some caller) (some response)

def protect : LuaValue → Str → Option Str → LuaM Unit :=
  setProtection true "Usage: !protect [username]" " is now protected."

def unprotect : LuaValue → Str → Option Str → LuaM Unit :=
  setProtection false "Usage: !unProtect [username]" " is no longer protected."

def setmask (type : LuaValue) (caller : Str) : Option Str → LuaM Unit
  | none => sayOrPM type (some caller) (some "Usage: !setMask [user] [mask]".toList)
  | some _ => sayOrPM type (some caller) (some "Not implemented yet, check back later".toList)

/-! ### Describe.lua -/

def describe (type : LuaValue) (caller : Str) (params : Option Str) : LuaM Unit := do
  let target ← resolveParams caller params
  let entry ← match target with
    | some target => getUserEntry target
    | none => pure none
  match target, entry with
  | some target, some entry =>
    let response :=
      if entry.desc.length = 0 then target ++ " hasn't set a description yet.".toList
      else target ++ " ".toList ++ entry.desc
    sayOrPM type (some caller) (some response)
  | _, _ => LuaM.error "attempt to index local 'entry' (a nil value)"

/-- `MAX_DESC_LEN` -/
def maxDescLen : Nat := 64

def setdesc (type : LuaValue) (caller : Str) : Option Str → LuaM Unit
  | none => sayOrPM type (some caller) (some "Usage: !setDesc [description]".toList)
  | some params =>
    if maxDescLen < params.length then
      sayOrPM type (some caller) (some ("Your description is too long! ".toList ++ "(".toList ++
        decimal params.length ++ "/".toList ++ decimal maxDescLen ++ " characters)".toList))
    else do
      let ok ← setDescription caller params
      let response :=
        if ok then "Description set.".toList else "Oh noes! Couldn't set description :(".toList
      sayOrPM type (some caller) (some response)

def admindesc (type : LuaValue) (caller : Str) (_params : Option Str) : LuaM Unit :=
  sayOrPM type (some caller) (some "Sorry, not implemented yet.".toList)

/-! ### Dice.lua -/

def defaultNumSides : LuaNumber := .ofNat 6

def maxRolls : Nat := 20

def maxSides : Nat := 1000

/-- `math.pow(2,32) - 1` -/
def maxRollxSides : Nat := 2 ^ 32 - 1

/-- The name that stands in front of a roll: less formal in a private message. -/
def salutation (type : LuaValue) (caller : Str) : Str :=
  if type = .typePM then "You".toList else caller

/-- `DoRoll`, as often as asked. -/
def doRolls [Platform] (sides : LuaNumber) : Nat → LuaM (List Nat)
  | 0 => pure []
  | n + 1 => do
    let roll ← rand sides
    let rolls ← doRolls sides n
    pure (roll :: rolls)

def rollsToStr : List Nat → Str
  -- a loop that makes no turn leaves a table without a first entry
  | [] => "nil = nil".toList
  | roll :: rolls =>
    (rolls.foldl (fun ret r => ret ++ ", ".toList ++ decimal r) (decimal roll)) ++ " = ".toList ++
      decimal (rolls.foldl (· + ·) roll)

/-- `params:find( "^(%d+)d?(%d*)" )`, both captures as numbers. -/
def findDice (params : Str) : Option LuaNumber × Option LuaNumber :=
  let num := params.takeWhile Char.isDigit
  if num = [] then (none, none)
  else
    -- the first run takes all digits it can, so the sides are those behind the letter
    let rest := params.dropWhile Char.isDigit
    let rest := if rest.head? = some 'd' then rest.tail else rest
    (LuaNumber.tonumber num, LuaNumber.tonumber (rest.takeWhile Char.isDigit))

/-- The count of a `for` loop from 1 to `num`. -/
def turns : LuaNumber → Nat
  | .finite q => ⌊q⌋.toNat
  | _ => 0

def roll [Platform] (type : LuaValue) (caller : Str) (params : Option Str) : LuaM Unit :=
  let (num, sides) := match params with
    | some params => findDice params
    | none => (some (.ofNat 1), some defaultNumSides)
  match num.filter fun num => !num.isZero, sides.filter fun sides => !sides.isZero with
  | none, _ => sayOrPM type (some caller) (some "I need at least one die.".toList)
  | some _, none => sayOrPM type (some caller) (some "I need at least one side!".toList)
  | some num, some sides =>
    if num.lt (.ofNat 0) || LuaNumber.lt (.ofNat maxRolls) num then
      sayOrPM type (some caller)
        (some ("Must be between 1 and ".toList ++ decimal maxRolls ++ " rolls.".toList))
    else if sides.lt (.ofNat 0) || LuaNumber.lt (.ofNat maxSides) sides then
      sayOrPM type (some caller)
        (some ("Must be between 1 and ".toList ++ decimal maxSides ++ " sides.".toList))
    else do
      let rolls ← doRolls sides (turns num)
      let response := salutation type caller ++ " rolled".toList ++
        if num = .ofNat 1 then " a ".toList ++ decimal (rolls.headD 0) ++ ".".toList
        else ": ".toList ++ rollsToStr rolls
      sayOrPM type (some caller) (some response)

/-- The number of sides a parameter asks for; `d20` is read as `20`. -/
def rollxSides (params : Str) : Option LuaNumber :=
  LuaNumber.tonumber (if params.take 1 = ['d'] then params.drop 1 else params)

def rollx [Platform] (type : LuaValue) (caller : Str) : Option Str → LuaM Unit
  | none => sayOrPM type (some caller) (some "Usage: !rollx [number].".toList)
  | some params =>
    match (rollxSides params).filter fun sides => !sides.isZero with
    | none => sayOrPM type (some caller) (some "I need a non-zero integer. 8)".toList)
    | some sides =>
      if LuaNumber.lt (.ofNat maxRollxSides) sides then
        sayOrPM type (some caller)
          (some ("Sides is limited to ".toList ++ decimal maxRollxSides ++ ".".toList))
      else do
        let result ← rand sides
        sayOrPM type (some caller) (some (salutation type caller ++ " rolled a ".toList ++
          decimal result ++ ".".toList))

/-! ### EnableDisable.lua -/

def enablebot (_type : LuaValue) (_caller : Str) (_params : Option Str) : LuaM Unit := do
  setEnabled true
  say (some "Bot enabled.".toList)

def disablebot (_type : LuaValue) (_caller : Str) (_params : Option Str) : LuaM Unit := do
  setEnabled false
  say (some "Bot disabled.".toList)

/-! ### Fling.lua -/

def objects : List String :=
  ["a desk lamp", "a crying baby", "a sailboat", "a little green army dude",
   "a dismembered doll head", "an ace of clubs", "a glass of milk", "a centipede",
   "a pepperoni Hot Pocket", "a carrot", "an orange stapler", "a pillow", "a 7-iron", "a shoe",
   "a Bible", "a can of Spam", "a cold water balloon", "a baguette", "a sock full of nickels",
   "a beehive", "a banana phone", "a rusty spoon", "a fuzzy bunny", "Hiker's walking stick",
   "a broken refridgerator", "a Pok\xe9ball", "Chat's bell", "Henner's nose",
   "a spicy meatball", "an unplugged electric guitar", "a 20-sided die", "a steel tire iron",
   "a Trigonometry textbook", "a flying cuttlefish", "a glow stick", "a bucket of Legos",
   "a winning lottery ticket", "a grappling hook", "a satellite dish", "an ant farm",
   "a CRT monitor", "a cardboard box", "Morgan Freeman"]

/-- The test for a public message compares the truth value of the type with `TYPE_CHAT`, so
that every message is turned away. -/
def fling [Platform] (type : LuaValue) (caller : Str) (params : Option Str) : LuaM Unit :=
  if LuaValue.boolean (!type.truthy) ≠ .typeOf .roomMessage then pure ()
  else do
    let idx ← rand (.ofNat objects.length)
    let target ← resolveParams caller params
    let object ← entry objects idx
    let target ← LuaM.need "bad argument to 'format' (string expected, got nil)" target
    say (some ("*flings ".toList ++ object ++ " at ".toList ++ target ++ "*".toList))

/-! ### Geico.lua -/

/-- `Rand` is registered under `Utils` only, so that the first statement fails. -/
def geico (_type : LuaValue) (_caller : Str) (_params : Option Str) : LuaM Unit :=
  LuaM.error "attempt to call field 'Rand' (a nil value)"

/-! ### Help.lua -/

/-- `GetFunctionsSorted`. With a level, `Stringify` is given that level in place of the
functions and indexes a number. -/
def getFunctionsSorted : Option AccessLevel → LuaM Str
  | none => LuaM.error "'for' limit must be a number"
  | some level =>
    if .user ≤ level then LuaM.error "attempt to index local 'funcs' (a number value)" else pure []

def clean (str : Str) : Str := toLower (if str.take 1 = ['!'] then str.drop 1 else str)

def help (type : LuaValue) (caller : Str) (params : Option Str) : LuaM Unit := do
  let level ← getAccessLevel caller
  if level < .op ∧ type ≠ .typePM then pure ()
  else match params with
    | some params => do
      let found ← query fun b => b.lua.bind fun l => l.registry.help.lookup (clean params)
      let response := match found with
        | some text => params ++ " - ".toList ++ text
        | none => "Sorry, no help available for \"".toList ++ params ++ "\".".toList
      sayOrPM type (some caller) (some response)
    | none => do
      let functions ← getFunctionsSorted none
      sayOrPM type (some caller) (some ("Registered commands: ".toList ++ functions ++
        " For info on a specific command, use !help [command]".toList))

/-! ### ModActions.lua -/

/-- The function `ModAction` returns, given what is said and the code that is sent. -/
def modAction (witticism : Str → Str) (code : MessageCode) (_type : LuaValue) (caller : Str) :
    Option Str → LuaM Unit
  | none => pure ()
  | some params => do
    let target ← resolve caller params
    say (some (witticism target))
    LuaBindings.modAction target code

def kick : LuaValue → Str → Option Str → LuaM Unit :=
  modAction (fun target => "Hasta la vista, ".toList ++ target ++ "!".toList) .userKick

def disable : LuaValue → Str → Option Str → LuaM Unit :=
  modAction (fun _ => "Something witty.".toList) .userDisable

def ban : LuaValue → Str → Option Str → LuaM Unit :=
  modAction (fun target => target ++ ": it's what's for dinner. BANNED.".toList) .userBan

def unban : LuaValue → Str → Option Str → LuaM Unit :=
  modAction (fun target => target ++ " unbanned.".toList) .userUnban

def mute : LuaValue → Str → Option Str → LuaM Unit :=
  modAction (fun target => "But what good is a phone call, ".toList ++ target ++
    ", if you are... unable to speak?".toList) .userMute

def unmute : LuaValue → Str → Option Str → LuaM Unit :=
  modAction (fun target => target ++ " unmuted.".toList) .userUnmute

/-! ### Position.lua -/

def levelToName : AccessLevel → Str
  | .banned => "BANNED from MeepBot!".toList
  | .user => "a normal user.".toList
  | .op => "an Operator.".toList
  | .mod => "a Moderator.".toList
  | .admin => "an Administrator.".toList

def position (type : LuaValue) (caller : Str) (params : Option Str) : LuaM Unit := do
  let level ← getAccessLevel caller
  if level = .user ∧ type ≠ .typePM then pure ()
  else do
    let target ← resolve caller (params.getD "me".toList)
    let entry ← getUserEntry target
    match entry with
    -- the text stands where the type is expected, and there is nothing to say
    | none => sayOrPM (.string "That user doesn't exist!".toList) none none
    | some entry =>
      sayOrPM type (some caller) (some (target ++ " is ".toList ++ levelToName entry.level))

/-! ### Quotes.lua -/

def addquote (type : LuaValue) (caller : Str) (params : Option Str) : LuaM Unit := do
  let added ← quoteAdd caller params
  let response := if added then "Quote added.".toList else "Oh noes! Quote not added! :(".toList
  sayOrPM type (some caller) (some response)

/-- The capture of `find( "#(%d+)" )`. -/
def findNumber : Str → Option Str
  | [] => none
  | c :: t =>
    let digits := t.takeWhile Char.isDigit
    if c = '#' ∧ digits ≠ [] then some digits else findNumber t

/-- An argument of a function that asks for a number. -/
def onNumber {α : Type} (f : LuaNumber → LuaM α) (missing : α) (id : LuaValue) : LuaM α :=
  match id.toNumber with
  | some x => f x
  | none => pure missing

/-- An id as a value, and as it is printed. -/
structure QuoteId where
  value : LuaValue
  text : Str

namespace QuoteId

def ofDigits (digits : Str) : QuoteId := ⟨.string digits, digits⟩

def ofIndex (idx : Int) : QuoteId := ⟨.number (.finite idx), decimalInt idx⟩

end QuoteId

section
variable [Platform]

def removequote (type : LuaValue) (caller : Str) (params : Option Str) : LuaM Unit :=
  match params.bind findNumber with
  | none => sayOrPM type (some caller) (some "Usage: !removeQuote #[id]".toList)
  | some id => do
    let author ← onNumber quoteGetAuthor none (.string id)
    match author with
    | none => sayOrPM type (some caller) (some "That quote doesn't exist!".toList)
    | some author => do
      let removed ← onNumber quoteRemove false (.string id)
      if removed then do
        let number ← LuaM.need "bad argument #1 to 'format' (number expected, got string)"
          (LuaValue.string id).toNumber
        sayOrPM type (some caller) (some ("Quote #".toList ++ number.formatD ++
          " removed. It was added by ".toList ++ author ++ ";".toList ++
          " maybe you should smite them?".toList))
      else
        sayOrPM type (some caller)
          (some "Quote NOT removed! Something terrible has happened :(".toList)

/-- The id of the quote to show: the number asked for, if it is one, else a quote by the
pattern, or any quote. -/
def quoteToShow (caller : Str) : Option Str → LuaM (Option QuoteId)
  | none => do
    let idx ← quoteGetRandomID
    pure (idx.map QuoteId.ofIndex)
  | some params => do
    let params := if toLower params = "me".toList then caller else params
    let exact ← match findNumber params with
      | some digits => onNumber quoteGetByID none (.string digits)
      | none => pure none
    match findNumber params, exact with
    | some digits, some _ => pure (some (.ofDigits digits))
    | _, _ => do
      let idx ← quoteGetIDByPattern params
      pure (idx.map QuoteId.ofIndex)

def quote (type : LuaValue) (caller : Str) (params : Option Str) : LuaM Unit := do
  let level ← getAccessLevel caller
  if level = .user ∧ type ≠ .typePM then pure ()
  else do
    let id ← quoteToShow caller params
    match id with
    | some id => do
      -- read again by its id, which has been cut to an `int` if it comes from a pattern
      let found ← onNumber quoteGetByID none id.value
      let quote ← LuaM.need "attempt to concatenate local 'quote' (a nil value)" found
      sayOrPM type (some caller) (some ("#".toList ++ id.text ++ ": ".toList ++ quote))
    | none =>
      let response :=
        if params.isSome then "Quote not found!".toList
        else "No quotes found. Maybe you should add some?".toList
      sayOrPM type (some caller) (some response)

end

/-! ### Say.lua -/

def sayCommand (_type : LuaValue) (_caller : Str) : Option Str → LuaM Unit
  | none => LuaM.error "attempt to index local 'params' (a nil value)"
  | some params => if params.take 1 = ['/'] then pure () else say (some params)

/-! ### Warnings.lua -/

/-- `MAX_WARNINGS` -/
def maxWarnings : Int := 3

/-- What follows from the last warning: the user is demoted and locked. -/
def demote (target : Str) : LuaM Unit := do
  let _ ← setDescription target []
  let _ ← setAccessLevel target .banned
  let _ ← LuaBindings.protect target true

def warn (type : LuaValue) (caller : Str) : Option Str → LuaM Unit
  | none => sayOrPM type (some caller) (some "Usage: !warn [username]".toList)
  | some params => do
    let target ← resolve caller params
    let entry ← getUserEntry target
    match entry with
    | none => sayOrPM type (some caller) (some ("User ".toList ++ target ++ " not found!".toList))
    | some entry =>
      if .op < entry.level then
        sayOrPM type (some caller) (some "You can't warn staff!".toList)
      else do
        let warnings ← getWarnings target
        if maxWarnings ≤ warnings then
          sayOrPM type (some caller) (some (target ++ " already has ".toList ++
            decimalInt warnings ++ " warnings!".toList))
        else do
          let warnings := warnings + 1
          -- a count that the binding refuses is announced all the same
          let _ ← setWarnings target warnings
          let response := target ++ " warned. (".toList ++ decimalInt warnings ++ "/".toList ++
            decimalInt maxWarnings ++ ")".toList
          if maxWarnings ≤ warnings then do
            demote target
            sayOrPM type (some caller) (some (response ++ " -  ".toList ++ target ++
              " is no longer allowed to use the bot.".toList))
          else sayOrPM type (some caller) (some response)

def unwarn (type : LuaValue) (caller : Str) : Option Str → LuaM Unit
  | none => sayOrPM type (some caller) (some "Usage: !unwarn [username]".toList)
  | some params => do
    let target ← resolve caller params
    let entry ← getUserEntry target
    match entry with
    | none => sayOrPM type (some caller) (some "That user doesn't exist!".toList)
    | some _ => do
      let _ ← setWarnings target 0
      sayOrPM type (some caller) (some (target ++ " now has no warnings.".toList))

/-- The part of `checkwarnings` behind the check of the caller's level. -/
def tellWarnings (type : LuaValue) (caller : Str) (params : Option Str) : LuaM Unit := do
  let target ← resolveParams caller params
  match target with
  | none => LuaM.error "attempt to compare nil with number"
  | some target => do
    let warnings ← getWarnings target
    let response :=
      -- it is the caller who is named, whoever was asked about
      if warnings < 0 then "User ".toList ++ caller ++ " not found!".toList
      else target ++ " has ".toList ++ decimalInt warnings ++ "/".toList ++
        decimalInt maxWarnings ++ " warnings.".toList
    sayOrPM type (some caller) (some response)

/-- Below a moderator, the warnings are the caller's own, and told in private. -/
def checkwarnings (type : LuaValue) (caller : Str) (params : Option Str) : LuaM Unit := do
  let level ← getAccessLevel caller
  if level < .mod then tellWarnings .typePM caller (some "me".toList)
  else tellWarnings type caller params

/-! ### Calling a handler -/

def run [Platform] : Command → LuaValue → Str → Option Str → LuaM Unit
  | .eightBall => eightBall
  | .protect => protect
  | .unprotect => unprotect
  | .setmask => setmask
  | .describe => describe
  | .setdesc => setdesc
  | .admindesc => admindesc
  | .roll => roll
  | .rollx => rollx
  | .enablebot => enablebot
  | .disablebot => disablebot
  | .fling => fling
  | .geico => geico
  | .help => help
  | .kick => kick
  | .disable => disable
  | .ban => ban
  | .unban => unban
  | .mute => mute
  | .unmute => unmute
  | .position => position
  | .addquote => addquote
  | .removequote => removequote
  | .quote => quote
  | .say => sayCommand
  | .warn => warn
  | .unwarn => unwarn
  | .checkwarnings => checkwarnings

end Scripts
end MeepBot
