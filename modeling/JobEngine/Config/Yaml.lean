-- SUMMARY: Reading YAML documents: block and flow collections with scalars on one line.
import JobEngine.Json.Reading
import JobEngine.Text.Blank
import JobEngine.Text.Escaped

/-!
# YAML

`Yaml.parse?` reads one YAML document. Its lines are cut into indentation and text, without comments
and blank lines; deeper lines belong to the key or the dash above them. A scalar stands on one line
and is plain or quoted; what a plain one stands for follows from its spelling. Anchors, tags and
scalars of several lines are not part of what is read.
-/

namespace JobEngine.Yaml

/-! ## Lines -/

/-- A line that holds something. -/
structure Line where
  indent : Nat
  text : List Char

/-- Cut a comment off: a number sign at the start or after a blank, outside quotes. `quote` is the
quote that is open, `afterBlank` whether a comment may begin here. -/
def withoutComment (quote : Option Char) (afterBlank : Bool) : List Char → List Char
  | [] => []
  | c :: rest =>
    match quote with
    | some q => c :: withoutComment (if c = q then none else some q) false rest
    | none =>
      if c = '#' && afterBlank then []
      else
        let opens := afterBlank && (c = '"' || c = '\'')
        let blank := c = ' ' || c = '\t' || c = '[' || c = ','
        c :: withoutComment (if opens then some c else none) blank rest

/-- The line of a text, `none` if it is indented by tabs. -/
def line? (s : String) : Option Line :=
  let cs := s.toList
  let text := trimBlanks (withoutComment none true cs)
  let indent := (cs.takeWhile (· = ' ')).length
  match cs.drop indent with
  | '\t' :: _ => if text.isEmpty then some ⟨indent, []⟩ else none
  | _ => some ⟨indent, text⟩

/-- The lines that hold something. -/
def lines? (s : String) : Option (List Line) :=
  ((s.splitOn "\n").mapM line?).map fun ls => ls.filter fun l => !l.text.isEmpty

/-! ## Scalars -/

/-- The value of a plain scalar. -/
def plain (cs : List Char) : Json :=
  let text := String.ofList cs
  let number : Option Json :=
    match cs with
    | '0' :: 'x' :: ds => (wordInBase? 16 ds).map .int
    | '0' :: 'o' :: ds => (wordInBase? 8 ds).map .int
    | _ => (word? cs).map .int
  match text with
  | "" | "~" | "null" => .null
  | "true" => .bool true
  | "false" => .bool false
  | _ =>
    number.getD <|
      if cs.any isDigit then ((Binary64.ofText? text).map .float).getD (.str text) else .str text

/-- The rest of a text in single quotes, in which a quote is written twice, and what follows it. -/
def readSingle : List Char → Option (List Char × List Char)
  | '\'' :: '\'' :: rest => (readSingle rest).map fun r => ('\'' :: r.1, r.2)
  | '\'' :: rest => some ([], rest)
  | c :: rest => (readSingle rest).map fun r => (c :: r.1, r.2)
  | [] => none

/-- A text in quotes, and what follows it. -/
def readQuotes : List Char → Option (List Char × List Char)
  | '"' :: rest => readEscaped rest
  | '\'' :: rest => readSingle rest
  | _ => none

def isQuote (c : Char) : Bool := c = '"' || c = '\''

/-- Whether a plain scalar may begin with a character. -/
def mayBegin (c : Char) : Bool := !("&*!|>%@`,]\x7d".toList.contains c)

/-! ## Flow collections -/

def skipSpaces (cs : List Char) : List Char := cs.dropWhile (· = ' ')

/-- A plain scalar inside brackets ends where the item or its key ends. -/
def flowPlain : List Char → List Char × List Char
  | [] => ([], [])
  | ':' :: ' ' :: rest => ([], ':' :: ' ' :: rest)
  | c :: rest =>
    if c = ',' ∨ c = ']' ∨ c = '\x7d' ∨ c = '[' ∨ c = '\x7b' then ([], c :: rest)
    else
      let r := flowPlain rest
      (c :: r.1, r.2)

mutual
/-- A value inside brackets. -/
def readFlow : Nat → List Char → Option (Json × List Char)
  | 0, _ => none
  | fuel + 1, '[' :: rest => (readFlowItems fuel (skipSpaces rest)).map fun r => (.arr r.1, r.2)
  | fuel + 1, '\x7b' :: rest =>
    (readFlowPairs fuel (skipSpaces rest)).map fun r => (.object r.1, r.2)
  | _ + 1, c :: rest =>
    if isQuote c then (readQuotes (c :: rest)).map fun r => (.str (String.ofList r.1), r.2)
    else if mayBegin c then
      let r := flowPlain (c :: rest)
      some (plain (trimBlanks r.1), r.2)
    else none
  | _ + 1, [] => none
def readFlowItems : Nat → List Char → Option (List Json × List Char)
  | 0, _ => none
  | _ + 1, ']' :: rest => some ([], rest)
  | fuel + 1, cs => do
    let (v, rest) ← readFlow fuel cs
    match skipSpaces rest with
    | ']' :: rest => return ([v], rest)
    | ',' :: rest =>
      let (vs, rest) ← readFlowItems fuel (skipSpaces rest)
      return (v :: vs, rest)
    | _ => none
def readFlowPairs : Nat → List Char → Option (List (String × Json) × List Char)
  | 0, _ => none
  | _ + 1, '\x7d' :: rest => some ([], rest)
  | fuel + 1, cs => do
    let (key, rest) ← match cs with
      | c :: _ => if isQuote c then readQuotes cs else some (flowPlain cs)
      | [] => none
    match skipSpaces rest with
    | ':' :: rest =>
      let (v, rest) ← readFlow fuel (skipSpaces rest)
      let entry := (String.ofList (trimBlanks key), v)
      match skipSpaces rest with
      | '\x7d' :: rest => return ([entry], rest)
      | ',' :: rest =>
        let (es, rest) ← readFlowPairs fuel (skipSpaces rest)
        return (entry :: es, rest)
      | _ => none
    | _ => none
end

/-! ## What a line begins with -/

/-- Cut a plain key off: the text up to a colon at the end or before a blank. -/
def splitPlainKey : List Char → Option (List Char × List Char)
  | [] => none
  | [':'] => some ([], [])
  | ':' :: ' ' :: rest => some ([], skipSpaces rest)
  | c :: rest => (splitPlainKey rest).map fun r => (c :: r.1, r.2)

/-- The text of an item after its dash. -/
def dashed? : List Char → Option (List Char)
  | ['-'] => some []
  | '-' :: ' ' :: rest => some rest
  | _ => none

/-- The value of a text that fills the rest of its line: no entry and no item begins there. -/
def inline? (cs : List Char) : Option Json :=
  match cs with
  | [] => some .null
  | c :: _ =>
    if isQuote c || c = '[' || c = '\x7b' then
      match readFlow (cs.length + 1) cs with
      | some (v, []) => some v
      | _ => none
    else if mayBegin c && (splitPlainKey cs).isNone && (dashed? cs).isNone then some (plain cs)
    else none

/-! ## Blocks -/

/-- The key at the start of a line, and the text after its colon. -/
def splitKey? (cs : List Char) : Option (String × List Char) :=
  match cs with
  | [] => none
  | c :: _ =>
    if isQuote c then do
      match ← readQuotes cs with
      | (key, ':' :: rest) => return (String.ofList key, skipSpaces rest)
      | _ => none
    else if c = '[' || c = '\x7b' || !mayBegin c then none
    else (splitPlainKey cs).map fun r => (String.ofList (trimBlanks r.1), r.2)

mutual
/-- A value that begins at the first line. -/
def readBlock : Nat → List Line → Option (Json × List Line)
  | fuel + 1, l :: rest =>
    if (dashed? l.text).isSome then
      (readDashes fuel l.indent (l :: rest)).map fun r => (.arr r.1, r.2)
    else if (splitKey? l.text).isSome then
      (readKeys fuel l.indent [] (l :: rest)).map fun r => (.object r.1, r.2)
    else (inline? l.text).map (·, rest)
  | _, _ => none
/-- The items of a sequence at an indentation. -/
def readDashes : Nat → Nat → List Line → Option (List Json × List Line)
  | _, _, [] => some ([], [])
  | 0, _, _ => none
  | fuel + 1, indent, l :: rest =>
    if l.indent < indent then some ([], l :: rest)
    else
      match dashed? l.text with
      | none => if l.indent = indent then some ([], l :: rest) else none
      | some text =>
        if l.indent ≠ indent then none
        else do
          let body := skipSpaces text
          let deeper := indent + 2 + (text.length - body.length)
          let (v, rest) ←
            if body.isEmpty then readNested fuel (indent + 1) rest
            else readBlock fuel (⟨deeper, body⟩ :: rest)
          let (vs, rest) ← readDashes fuel indent rest
          return (v :: vs, rest)
/-- The entries of a mapping at an indentation, none of whose keys is among those that were read. -/
def readKeys : Nat → Nat → List String → List Line → Option (List (String × Json) × List Line)
  | _, _, _, [] => some ([], [])
  | 0, _, _, _ => none
  | fuel + 1, indent, known, l :: rest =>
    if l.indent < indent then some ([], l :: rest)
    else
      match splitKey? l.text with
      | none => none
      | some (key, text) =>
        if l.indent ≠ indent ∨ key ∈ known then none
        else do
          let (v, rest) ←
            if text.isEmpty then
              match rest with
              | next :: _ =>
                if next.indent = indent ∧ (dashed? next.text).isSome then readBlock fuel rest
                else readNested fuel (indent + 1) rest
              | [] => some (.null, [])
            else (inline? text).map (·, rest)
          let (es, rest) ← readKeys fuel indent (key :: known) rest
          return ((key, v) :: es, rest)
/-- The value on the lines that are at least as deep as `least`, `null` if there are none. -/
def readNested : Nat → Nat → List Line → Option (Json × List Line)
  | _, _, [] => some (.null, [])
  | 0, _, _ => none
  | fuel + 1, least, l :: rest =>
    if l.indent < least then some (.null, l :: rest) else readBlock fuel (l :: rest)
end

/-- The value of a document; a text without one is an empty object. -/
def parse? (s : String) : Option Json := do
  let lines ← lines? s
  let isMark (l : Line) : Bool := l.indent = 0 && l.text = ['-', '-', '-']
  match lines with
  | [] => return .obj []
  | first :: rest =>
    let body := if isMark first then rest else lines
    if body.isEmpty then return .null
    if body.any isMark then none
    match ← readBlock (2 * s.length + 2) body with
    | (v, []) => return v
    | _ => none

end JobEngine.Yaml
