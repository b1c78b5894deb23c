-- SUMMARY: Reading TOML documents: tables, dotted keys, strings, numbers, arrays and inline tables.
import JobEngine.Json.Reading
import JobEngine.Text.Escaped

/-!
# TOML

`Toml.parse?` reads a TOML document into an object. A document is a sequence of statements, each on
lines of its own: a header names the table that the assignments after it fill, and an assignment
gives a key its value. No key is given a value twice, and no header names a table twice. Dates and
strings of several lines are not part of what is read.
-/

namespace JobEngine.Toml

/-! ## Blanks and keys -/

def skipBlanks (cs : List Char) : List Char := cs.dropWhile fun c => c = ' ' ∨ c = '\t'

/-- Skip blanks, comments and line ends. -/
def skipLines (inComment : Bool) : List Char → List Char
  | [] => []
  | '\n' :: rest => skipLines false rest
  | '\r' :: '\n' :: rest => skipLines false rest
  | c :: rest =>
    if inComment then skipLines true rest
    else if c = ' ' ∨ c = '\t' then skipLines false rest
    else if c = '#' then skipLines true rest
    else c :: rest

/-- What follows the end of a statement, or `none` if something else stands on its line. -/
def endOfLine? (cs : List Char) : Option (List Char) :=
  match skipBlanks cs with
  | [] => some []
  | '\n' :: rest => some rest
  | '\r' :: '\n' :: rest => some rest
  | '#' :: rest => some (rest.dropWhile (· ≠ '\n'))
  | _ => none

def isBareKeyChar (c : Char) : Bool := c.isAlphanum || c = '_' || c = '-'

/-- The rest of a literal string after its opening quote, and what follows its closing quote. -/
def readLiteral (cs : List Char) : Option (List Char × List Char) :=
  match cs.span (· ≠ '\'') with
  | (body, '\'' :: rest) =>
    if body.any fun c => c.toNat < 32 && c ≠ '\t' then none else some (body, rest)
  | _ => none

/-- One part of a key. -/
def readSimpleKey : List Char → Option (String × List Char)
  | '"' :: rest => (readEscaped rest).map fun r => (String.ofList r.1, r.2)
  | '\'' :: rest => (readLiteral rest).map fun r => (String.ofList r.1, r.2)
  | cs =>
    let key := cs.takeWhile isBareKeyChar
    if key.isEmpty then none else some (String.ofList key, cs.dropWhile isBareKeyChar)

/-- A key: parts with points between them. -/
def readKey : Nat → List Char → Option (List String × List Char)
  | 0, _ => none
  | fuel + 1, cs => do
    let (k, rest) ← readSimpleKey (skipBlanks cs)
    match skipBlanks rest with
    | '.' :: more =>
      let (ks, rest) ← readKey fuel more
      return (k :: ks, rest)
    | rest => return ([k], rest)

/-! ## Numbers -/

/-- Drop underscores, each of which must stand between two digits. -/
def withoutUnderscores? : List Char → Option (List Char)
  | [] => some []
  | a :: '_' :: b :: rest =>
    if a.isAlphanum && b.isAlphanum then (withoutUnderscores? (b :: rest)).map (a :: ·) else none
  | '_' :: _ => none
  | a :: rest => (withoutUnderscores? rest).map (a :: ·)

/-- Whether a decimal number starts with a zero that it does not need. -/
def hasLeadingZero (cs : List Char) : Bool :=
  let body := match cs with
    | '+' :: r | '-' :: r => r
    | r => r
  match body with
  | '0' :: c :: _ => isDigit c
  | _ => false

/-- Whether every point has a digit on both sides. -/
def pointsHaveDigits : List Char → Bool
  | a :: '.' :: b :: rest => isDigit a && isDigit b && pointsHaveDigits (b :: rest)
  | ['.'] | [_, '.'] => false
  | '.' :: _ => false
  | _ :: rest => pointsHaveDigits rest
  | [] => true

/-- A value that is neither a string nor a collection. -/
def scalar? (cs : List Char) : Option Json :=
  match cs with
  | '0' :: 'x' :: ds => (withoutUnderscores? ds).bind (wordInBase? 16) |>.map Json.int
  | '0' :: 'o' :: ds => (withoutUnderscores? ds).bind (wordInBase? 8) |>.map Json.int
  | '0' :: 'b' :: ds => (withoutUnderscores? ds).bind (wordInBase? 2) |>.map Json.int
  | _ => do
    let text := String.ofList cs
    if text = "true" then return .bool true
    if text = "false" then return .bool false
    if text ∈ ["inf", "+inf", "-inf", "nan", "+nan", "-nan"] then
      return .float (← Binary64.ofText? text)
    let plain ← withoutUnderscores? cs
    if hasLeadingZero plain then none
    match integerOf? plain with
    | some _ => (word? plain).map .int
    | none =>
      if plain.any isDigit && pointsHaveDigits plain then
        (Binary64.ofText? (String.ofList plain)).map .float
      else none

/-! ## Values and statements -/

/-- Change the value of a key path: `f` gets the old value, if there is one. Tables on the way are
made where there are none, and of an array of tables the last one counts. -/
def change (f : Option Json → Option Json) : List String → Json → Option Json
  | [], _ => none
  | key :: rest, .obj fields =>
    let old := (fields.find? (fun e => e.1 = key)).map (·.2)
    let new := match rest, old with
      | [], _ => f old
      | _ :: _, some (.arr items) =>
        items.getLast?.bind fun t => (change f rest t).map fun t => .arr (items.dropLast ++ [t])
      | _ :: _, old => change f rest (old.getD (.obj []))
    new.map fun v => .obj (Json.setField key v fields)
  | _, _ => none

/-- Give a key path its value, unless it has one. -/
def assign (path : List String) (v : Json) (table : Json) : Option Json :=
  change (fun old => if old.isNone then some v else none) path table

def isValueChar (c : Char) : Bool := c.isAlphanum || c = '_' || c = '-' || c = '+' || c = '.'

mutual
/-- A value. -/
def readValue : Nat → List Char → Option (Json × List Char)
  | 0, _ => none
  | _ + 1, '"' :: rest => (readEscaped rest).map fun r => (.str (String.ofList r.1), r.2)
  | _ + 1, '\'' :: rest => (readLiteral rest).map fun r => (.str (String.ofList r.1), r.2)
  | fuel + 1, '[' :: rest => (readItems fuel (skipLines false rest)).map fun r => (.arr r.1, r.2)
  | fuel + 1, '\x7b' :: rest =>
    match skipBlanks rest with
    | '\x7d' :: rest => some (.obj [], rest)
    | rest => readPairs fuel (.obj []) rest
  | _ + 1, cs => (scalar? (cs.takeWhile isValueChar)).map (·, cs.dropWhile isValueChar)
/-- The rest of an array after its opening bracket. -/
def readItems : Nat → List Char → Option (List Json × List Char)
  | 0, _ => none
  | _ + 1, ']' :: rest => some ([], rest)
  | fuel + 1, cs => do
    let (v, rest) ← readValue fuel cs
    match skipLines false rest with
    | ']' :: rest => return ([v], rest)
    | ',' :: rest =>
      let (vs, rest) ← readItems fuel (skipLines false rest)
      return (v :: vs, rest)
    | _ => none
/-- The rest of an inline table that has the fields of `table` so far. -/
def readPairs : Nat → Json → List Char → Option (Json × List Char)
  | 0, _, _ => none
  | fuel + 1, table, cs => do
    let (path, rest) ← readKey fuel cs
    match rest with
    | '=' :: rest =>
      let (v, rest) ← readValue fuel (skipBlanks rest)
      let table ← assign path v table
      match skipBlanks rest with
      | '\x7d' :: rest => return (table, rest)
      | ',' :: rest => readPairs fuel table rest
      | _ => none
    | _ => none
end

/-- What stands on a line, or on several if it holds an array. -/
inductive Statement where
  /-- `[path]`: the assignments that follow fill this table. -/
  | table (path : List String)
  /-- `[[path]]`: they fill a new table at the end of this array. -/
  | item (path : List String)
  | assign (path : List String) (v : Json)

/-- One statement, and what follows it on its line. -/
def readStatement (fuel : Nat) : List Char → Option (Statement × List Char)
  | '[' :: '[' :: rest => do
    match ← readKey fuel rest with
    | (path, ']' :: ']' :: rest) => return (.item path, rest)
    | _ => none
  | '[' :: rest => do
    match ← readKey fuel rest with
    | (path, ']' :: rest) => return (.table path, rest)
    | _ => none
  | cs => do
    match ← readKey fuel cs with
    | (path, '=' :: rest) =>
      let (v, rest) ← readValue fuel (skipBlanks rest)
      return (.assign path v, rest)
    | _ => none

/-- All statements of a document. -/
def readStatements (fuel : Nat) : Nat → List Char → Option (List Statement)
  | 0, _ => none
  | lines + 1, cs =>
    match skipLines false cs with
    | [] => some []
    | cs => do
      let (s, rest) ← readStatement fuel cs
      return s :: (← readStatements fuel lines (← endOfLine? rest))

/-! ## Documents -/

/-- A document as far as it has been read. -/
structure Document where
  root : Json := .obj []
  /-- The table that assignments fill. -/
  current : List String := []
  /-- The tables that no header may name any more. -/
  named : List (List String) := []
  /-- The values that are collections; nothing is added to them. -/
  finished : List (List String) := []

namespace Document

/-- Whether a path leads into a value that is finished. -/
def isFinished (d : Document) (path : List String) : Bool := d.finished.any (·.isPrefixOf path)

/-- The tables that an assignment to a key of several parts makes on its way. -/
def onTheWay (d : Document) (key : List String) : List (List String) :=
  ((List.range key.length).drop 1).map fun n => d.current ++ key.take n

/-- Give a key of the current table its value. -/
def assign (d : Document) (key : List String) (v : Json) : Option Document := do
  let path := d.current ++ key
  if d.isFinished path then none
  let finished := match v with
    | .obj _ | .arr _ => path :: d.finished
    | _ => d.finished
  let root ← Toml.assign path v d.root
  return { d with root, named := d.onTheWay key ++ d.named, finished }

/-- Go on with a table, and make it if there is none. -/
def enter (d : Document) (path : List String) : Option Document := do
  if path ∈ d.named || d.isFinished path then none
  let root ← change (fun old => match old with
    | none => some (.obj [])
    | some (.obj fields) => some (.obj fields)
    | some _ => none) path d.root
  return { d with root, current := path, named := path :: d.named }

/-- Go on with a new table at the end of an array, in which all names are free again. -/
def append (d : Document) (path : List String) : Option Document := do
  if d.isFinished path then none
  let root ← change (fun old => match old with
    | none => some (.arr [.obj []])
    | some (.arr items) => some (.arr (items ++ [.obj []]))
    | some _ => none) path d.root
  let outside := fun p : List String => !(path.isPrefixOf p)
  return {
    root
    current := path
    named := d.named.filter outside
    finished := d.finished.filter outside }

def add (d : Document) : Statement → Option Document
  | .assign key v => d.assign key v
  | .table path => d.enter path
  | .item path => d.append path

end Document

/-- The object that a document describes. -/
def parse? (s : String) : Option Json := do
  let cs := s.toList
  let statements ← readStatements (cs.length + 1) (cs.length + 1) cs
  return (← statements.foldlM Document.add {}).root

end JobEngine.Toml
