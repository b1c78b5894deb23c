-- SUMMARY: White space, trimming, and splitting at white space.

/-!
# Blank characters

`Char.isBlank` is the Unicode property White_Space. Texts that people write (cron expressions,
retention periods) are trimmed and split by it.
-/

namespace JobEngine

/-- The characters of the Unicode property White_Space. -/
def isBlank (c : Char) : Bool :=
  let n := c.toNat
  (9 ≤ n && n ≤ 13) || n == 0x20 || n == 0x85 || n == 0xa0 || n == 0x1680 ||
    (0x2000 ≤ n && n ≤ 0x200a) || n == 0x2028 || n == 0x2029 || n == 0x202f || n == 0x205f ||
    n == 0x3000

/-- Drop blanks at both ends. -/
def trimBlanks (cs : List Char) : List Char :=
  ((cs.dropWhile isBlank).reverse.dropWhile isBlank).reverse

/-- The text without blanks at its ends. -/
def trimmed (s : String) : String := String.ofList (trimBlanks s.toList)

/-- The number of maximal runs of other than blank characters; `inside` says whether a run has
already begun. -/
def countWords (inside : Bool) : List Char → Nat
  | [] => 0
  | c :: rest =>
    if isBlank c then countWords false rest
    else (if inside then 0 else 1) + countWords true rest

end JobEngine
