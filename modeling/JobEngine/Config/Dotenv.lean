-- SUMMARY: Variables in a file: lines of names and values with quotes, escapes and references.
import JobEngine.Table
import JobEngine.Text.Blank

/-!
# Variables in a file

A file may define variables for the environment, one `NAME=value` a line. Values may be quoted and
may refer to other variables by `$NAME`. A value in single quotes stands for itself; elsewhere a
backslash takes the special meaning from the character after it. What the environment already has
wins over the file, an earlier line over a later one, and a malformed line ends the file.
-/

namespace JobEngine.Dotenv

/-! ## Values -/

/-- The quotes that a character of a value stands in. -/
inductive Quotes where
  | bare
  | single
  | double
  /-- The value is over; blanks and a comment may follow. -/
  | after
deriving DecidableEq, Repr

/-- The name of a variable in a reference, and what follows the reference: `$NAME` or
`$\x7bNAME\x7d`. -/
def referenceOf (cs : List Char) : Option (String × List Char) :=
  match cs with
  | '\x7b' :: rest =>
    match rest.dropWhile (· ≠ '\x7d') with
    | _ :: after => some (String.ofList (rest.takeWhile (· ≠ '\x7d')), after)
    | [] => none
  | _ => some (String.ofList (cs.takeWhile Char.isAlphanum), cs.dropWhile Char.isAlphanum)

/-- The character behind a backslash. -/
def escaped? (c : Char) : Option Char :=
  if c ∈ ['\\', '\'', '"', '$', ' '] then some c else if c = 'n' then some '\n' else none

/-- The text that a value stands for. -/
def readValue (lookup : String → String) : Nat → Quotes → List Char → Option (List Char)
  | 0, _, _ => none
  | _ + 1, .bare, [] | _ + 1, .after, [] => some []
  | _ + 1, .single, [] | _ + 1, .double, [] => none
  | fuel + 1, .after, c :: rest =>
    if c = ' ' ∨ c = '\t' then readValue lookup fuel .after rest
    else if c = '#' then some [] else none
  | fuel + 1, .single, c :: rest =>
    if c = '\'' then readValue lookup fuel .bare rest
    else (readValue lookup fuel .single rest).map (c :: ·)
  | fuel + 1, quotes, '$' :: rest => do
    let (name, rest) ← referenceOf rest
    return (lookup name).toList ++ (← readValue lookup fuel quotes rest)
  | fuel + 1, quotes, '\\' :: rest =>
    match rest with
    | [] => if quotes = .bare then some [] else none
    | c :: rest => do
      let c ← escaped? c
      return c :: (← readValue lookup fuel quotes rest)
  | fuel + 1, .double, c :: rest =>
    if c = '"' then readValue lookup fuel .bare rest
    else (readValue lookup fuel .double rest).map (c :: ·)
  | fuel + 1, .bare, c :: rest =>
    if c = '\'' then readValue lookup fuel .single rest
    else if c = '"' then readValue lookup fuel .double rest
    else if c = ' ' ∨ c = '\t' then readValue lookup fuel .after rest
    else (readValue lookup fuel .bare rest).map (c :: ·)

/-! ## Lines -/

def isNameStart (c : Char) : Bool := c.isAlpha || c = '_'
def isNameChar (c : Char) : Bool := c.isAlphanum || c = '_' || c = '.'

/-- A name and what follows it and the blanks after it. -/
def readName (cs : List Char) : Option (String × List Char) :=
  match cs with
  | c :: _ =>
    if isNameStart c then
      some (String.ofList (cs.takeWhile isNameChar), (cs.dropWhile isNameChar).dropWhile isBlank)
    else none
  | [] => none

/-- The name that a line defines, and the text of its value. The word `export` may stand before it.
-/
def readDefinition (cs : List Char) : Option (String × List Char) := do
  match ← readName cs with
  | (name, '=' :: rest) => return (name, rest.dropWhile isBlank)
  | ("export", rest) =>
    match ← readName rest with
    | (name, '=' :: rest) => return (name, rest.dropWhile isBlank)
    | _ => none
  | _ => none

/-- Define the variables of some lines, given those that are defined. -/
def defineAll (env : Table String String) : List String → Table String String
  | [] => env
  | line :: rest =>
    match trimBlanks line.toList with
    | [] | '#' :: _ => defineAll env rest
    | cs =>
      let defined := do
        let (name, text) ← readDefinition cs
        let value ←
          match text with
          | '#' :: _ => some []
          | _ => readValue (fun n => (env.get? n).getD "") (text.length + 1) .bare text
        return (name, String.ofList value)
      match defined with
      | none => env
      | some (name, value) =>
        defineAll (if env.contains name then env else env.insert name value) rest

/-- The environment with the variables of a file. -/
def extend (env : Table String String) (file : String) : Table String String :=
  defineAll env (file.splitOn "\n")

end JobEngine.Dotenv
