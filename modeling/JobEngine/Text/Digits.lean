-- SUMMARY: Reading runs of decimal digits from the front of a character list.

/-!
# Decimal digits

Every reader of this library that meets a number takes the run of ASCII digits at the front of its
input with `takeDigits` and gives it a value with `digitsValue`.
-/

namespace JobEngine

/-- An ASCII decimal digit. -/
def isDigit (c : Char) : Bool := '0' ≤ c && c ≤ '9'

/-- The value of an ASCII digit. -/
def digitValue (c : Char) : Nat := c.toNat - '0'.toNat

/-- The longest run of digits at the front, and what follows it. -/
def takeDigits (cs : List Char) : List Char × List Char :=
  (cs.takeWhile isDigit, cs.dropWhile isDigit)

/-- The number that a run of digits stands for. -/
def digitsValue (ds : List Char) : Nat := ds.foldl (fun n c => n * 10 + digitValue c) 0

/-- The number that is written as a one and `n` zeros. -/
def tenTo (n : Nat) : Nat := Nat.pow 10 n

theorem takeDigits_append (cs : List Char) : (takeDigits cs).1 ++ (takeDigits cs).2 = cs :=
  List.takeWhile_append_dropWhile

/-- The number of a text of digits alone, perhaps after a plus sign. -/
def naturalOf? (cs : List Char) : Option Nat :=
  let ds := match cs with
    | '+' :: rest => rest
    | _ => cs
  if ds.isEmpty || !ds.all isDigit then none else some (digitsValue ds)

/-- The number of a text of digits alone, perhaps after a sign. -/
def integerOf? : List Char → Option Int
  | '-' :: '+' :: _ => none
  | '-' :: ds => (naturalOf? ds).map fun n => -(n : Int)
  | cs => (naturalOf? cs).map Int.ofNat

/-- One more than the largest integer of 64 bits with a sign. -/
def wordLimit : Nat := 9223372036854775808

/-- Whether an integer is one of 64 bits with a sign. -/
def isWord (n : Int) : Bool := -(wordLimit : Int) ≤ n && n < wordLimit

/-- The integer of 64 bits of a whole text. -/
def word? (cs : List Char) : Option Int := (integerOf? cs).filter isWord

/-- A natural number with at least `width` digits, padded with zeros on the left. -/
def padded (width n : Nat) : String :=
  let ds := Nat.toDigits 10 n
  String.ofList (List.replicate (width - ds.length) '0' ++ ds)

end JobEngine
