import GatewayMapping.Text.Search

/-!
# The words of a command line

A command line is a list of words: switches with a long name after `--` or a letter after `-`, some
of them with a value, and operands. Words are read from left to right, and the first that does not
fit ends the reading. After the word `--` all words are operands.

## Main definitions

* `Switch`, `Level`: what may stand on a command line, up to a command that has switches of its
  own.
* `Level.read`: what stands there.
-/

namespace GatewayMapping.CommandLine

/-- A switch. One without a value, or one that does not repeat, may stand once only. -/
structure Switch where
  name : String
  letter? : Option Char := none
  takesValue : Bool := false
  repeats : Bool := false
  /-- The values that a switch may have. -/
  accepts : String → Bool := fun _ => true

/-- Why words are read no further. -/
inductive Stop where
  | misuse
  | help
  | version
  deriving DecidableEq, Repr, Inhabited

/-- What may stand at a level of a command line: switches, commands, and operands. -/
structure Level where
  switches : List Switch
  commands : List String := []
  operands : Nat := 0
  /-- The operands that may stand there. -/
  acceptsOperand : String → Bool := fun _ => true

/-- The switches with their values, and the operands, that were found. -/
structure Found where
  switches : List (String × String) := []
  operands : List String := []
  deriving Repr, Inhabited

namespace Found

/-- Whether a switch stands there. -/
def has (f : Found) (name : String) : Bool := f.switches.any (·.1 = name)

/-- The values of a switch. -/
def values (f : Found) (name : String) : List String :=
  f.switches.filterMap fun (n, value) => if n = name then some value else none

/-- The value of a switch that may stand once. -/
def value? (f : Found) (name : String) : Option String := (f.values name).head?

/-- Takes a switch with a value. -/
def take (f : Found) (s : Switch) (value : String) : Except Stop Found :=
  if (f.has s.name && !s.repeats) || !s.accepts value then .error .misuse
  else .ok { f with switches := f.switches ++ [(s.name, value)] }

end Found

namespace Level

/-- Takes an operand. -/
def takeOperand (level : Level) (f : Found) (word : String) : Except Stop Found :=
  if f.operands.length < level.operands && level.acceptsOperand word then
    .ok { f with operands := f.operands ++ [word] }
  else .error .misuse

/-- Reads a long name. A switch that still lacks its value comes along. -/
def readName (level : Level) (f : Found) (cs : List Char) : Except Stop (Found × Option Switch) :=
  let (name, value?) := match Text.cutAt? '=' cs with
    | some (name, value) => (String.ofList name, some (String.ofList value))
    | none => (String.ofList cs, none)
  match level.switches.find? (·.name = name), value? with
  | some s, none => if s.takesValue then .ok (f, some s) else (f.take s "").map (·, none)
  | some s, some value =>
    if s.takesValue then (f.take s value).map (·, none) else .error .misuse
  | none, none =>
    if name = "help" then .error .help
    else if name = "version" then .error .version
    else .error .misuse
  | none, some _ => .error .misuse

/-- Reads letters. What follows the letter of a switch with a value is its value. -/
def readLetters (level : Level) (f : Found) : List Char → Except Stop (Found × Option Switch)
  | [] => .ok (f, none)
  | c :: cs =>
    match level.switches.find? (·.letter? = some c) with
    | some s =>
      if s.takesValue then
        match cs with
        | [] => .ok (f, some s)
        | '=' :: cs => (f.take s (String.ofList cs)).map (·, none)
        | cs => (f.take s (String.ofList cs)).map (·, none)
      else do readLetters level (← f.take s "") cs
    | none =>
      if c = 'h' then .error .help else if c = 'V' then .error .version else .error .misuse

/-- Reads words up to a command, which comes along with the words after it. The last switch may
wait for its value, and `--` may have ended the switches. -/
def readFrom (level : Level) :
    (ended : Bool) → (waiting : Option Switch) → Found → List String →
      Except Stop (Found × Option (String × List String))
  | _, some _, _, [] => .error .misuse
  | _, none, f, [] => .ok (f, none)
  | true, _, f, word :: words => do
    readFrom level true none (← level.takeOperand f word) words
  | false, waiting, f, word :: words =>
    match waiting, word.toList with
    | none, ['-', '-'] => readFrom level true none f words
    | none, '-' :: '-' :: cs => do
      let (f, waiting) ← level.readName f cs
      readFrom level false waiting f words
    | none, '-' :: c :: cs => do
      let (f, waiting) ← level.readLetters f (c :: cs)
      readFrom level false waiting f words
    | some _, '-' :: _ :: _ => .error .misuse
    | some s, _ => do readFrom level false none (← f.take s word) words
    | none, _ =>
      if word ∈ level.commands then .ok (f, some (word, words))
      else do readFrom level false none (← level.takeOperand f word) words

/-- Reads the words of a level. -/
def read (level : Level) (words : List String) :
    Except Stop (Found × Option (String × List String)) :=
  level.readFrom false none {} words

end Level
end GatewayMapping.CommandLine
