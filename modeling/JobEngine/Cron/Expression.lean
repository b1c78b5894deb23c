-- SUMMARY: The grammar of cron expressions: fields, lists, ranges, steps and names.
import JobEngine.Text.Blank
import JobEngine.Text.Digits

/-!
# Cron expressions

A cron expression has fields for seconds, minutes, hours, days of the month, months, days of the
week and, if it likes, years. `Cron.Syntax` is such an expression as it was written; what a field
means is decided in `Cron/Schedule.lean`. Blanks between the fields are not needed where one field
cannot go on: a number takes the blanks around it, and a list ends where no further item follows.
-/

namespace JobEngine.Cron

/-- The part of an item in front of a step. -/
inductive Base where
  | all
  | point (n : Nat)
  | range (first last : Nat)
  | namedRange (first last : String)
deriving DecidableEq, Repr

/-- One item of a field's list. -/
inductive Item where
  | plain (base : Base)
  | stepped (base : Base) (step : Nat)
  | named (name : String)
deriving DecidableEq, Repr

/-- An expression as it was written. -/
structure Syntax where
  seconds : List Item
  minutes : List Item
  hours : List Item
  daysOfMonth : List Item
  months : List Item
  daysOfWeek : List Item
  years : Option (List Item)
deriving DecidableEq, Repr

namespace Syntax

/-- The blanks of the grammar. -/
def isSpace (c : Char) : Bool := c = ' ' || c = '\t' || c = '\r' || c = '\n'

def skipSpace (cs : List Char) : List Char := cs.dropWhile isSpace

def isLetter (c : Char) : Bool := ('a' ≤ c && c ≤ 'z') || ('A' ≤ c && c ≤ 'Z')

/-- A number of at most 32 bits with the blanks around it. -/
def readNumber (cs : List Char) : Option (Nat × List Char) :=
  let (ds, rest) := takeDigits (skipSpace cs)
  if ds.isEmpty ∨ UInt32.size ≤ digitsValue ds then none else some (digitsValue ds, skipSpace rest)

/-- A name with the blanks around it. -/
def readName (cs : List Char) : Option (String × List Char) :=
  let body := skipSpace cs
  let letters := body.takeWhile isLetter
  if letters.isEmpty then none
  else some (String.ofList letters, skipSpace (body.dropWhile isLetter))

/-- Two parts with a hyphen between them. -/
def readRange {α : Type} (read : List Char → Option (α × List Char)) (cs : List Char) :
    Option (α × α × List Char) :=
  match read cs with
  | some (a, '-' :: rest) => (read rest).map fun r => (a, r.1, r.2)
  | _ => none

/-- A star, a range, a number or a range of names. Where `questionMark` is allowed it stands for the
star. -/
def readBase (questionMark : Bool) (cs : List Char) : Option (Base × List Char) :=
  match cs with
  | '*' :: rest => some (.all, rest)
  | cs =>
    if questionMark ∧ cs.head? = some '?' then some (.all, cs.drop 1)
    else
      match readRange readNumber cs with
      | some (a, b, rest) => some (.range a b, rest)
      | none =>
        match readNumber cs with
        | some (n, rest) => some (.point n, rest)
        | none => (readRange readName cs).map fun r => (.namedRange r.1 r.2.1, r.2.2)

/-- A base with or without a step, or a name. -/
def readItem (questionMark : Bool) (cs : List Char) : Option (Item × List Char) :=
  match readBase questionMark cs with
  | some (b, rest) =>
    match rest with
    | '/' :: after =>
      match readNumber after with
      | some (n, after) => some (.stepped b n, after)
      | none => some (.plain b, rest)
    | _ => some (.plain b, rest)
  | none => (readName cs).map fun r => (.named r.1, r.2)

/-- Further items behind commas. The list ends before a comma that no item follows. -/
def readMore (questionMark : Bool) : Nat → List Char → List Item × List Char
  | 0, cs => ([], cs)
  | fuel + 1, cs =>
    match cs with
    | ',' :: rest =>
      match readItem questionMark rest with
      | some (i, rest) =>
        let (items, rest) := readMore questionMark fuel rest
        (i :: items, rest)
      | none => ([], cs)
    | _ => ([], cs)

/-- A field: a list of items with the blanks around it. -/
def readField (questionMark : Bool) (cs : List Char) : Option (List Item × List Char) :=
  match readItem questionMark (skipSpace cs) with
  | some (i, rest) =>
    let (items, rest) := readMore questionMark rest.length rest
    some (i :: items, skipSpace rest)
  | none => none

/-- Read six or seven fields that fill the text. -/
def parse? (cs : List Char) : Option Syntax := do
  let (seconds, r) ← readField false cs
  let (minutes, r) ← readField false r
  let (hours, r) ← readField false r
  let (daysOfMonth, r) ← readField true r
  let (months, r) ← readField false r
  let (daysOfWeek, r) ← readField true r
  match r with
  | [] => return ⟨seconds, minutes, hours, daysOfMonth, months, daysOfWeek, none⟩
  | r =>
    let (years, r) ← readField false r
    if r.isEmpty then return ⟨seconds, minutes, hours, daysOfMonth, months, daysOfWeek, some years⟩
    else none

end Syntax

end JobEngine.Cron
