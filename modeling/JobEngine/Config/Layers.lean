-- SUMMARY: Paths of settings, values of the environment, and one source laid over another.
import JobEngine.Json.Reading
import JobEngine.Table

/-!
# Layers of settings

Settings come from a file and from the environment. Both name a setting by a path such as
`polling.concurrency`; what a later layer says about a path replaces what an earlier one says, and
tables are merged key by key. Keys count in lower case.

An environment variable names a setting by its path in upper or lower case behind a common start,
with two underscores where the path has a point: `TASKMILL__POLLING__CONCURRENCY`.
-/

namespace JobEngine.Layers

/-! ## Paths -/

/-- One step from a value to a part of it. -/
inductive PathStep where
  | key (name : String)
  /-- An item of an array; a negative index counts from the end. -/
  | item (index : Int)
deriving DecidableEq, Repr

/-- A character of a key in a path. -/
def isKeyChar (c : Char) : Bool :=
  c.isAlphanum || c = ' ' || c = '_' || c = '-'

/-- The steps after the first one, each a point and a key or an index in brackets. -/
def readSteps : Nat → List Char → Option (List PathStep)
  | _, [] => some []
  | fuel + 1, '.' :: rest =>
    let key := rest.takeWhile isKeyChar
    if key.isEmpty then none
    else (readSteps fuel (rest.dropWhile isKeyChar)).map (.key (String.ofList key) :: ·)
  | fuel + 1, '[' :: rest => do
    let index ← integerOf? (rest.takeWhile (· ≠ ']'))
    match rest.dropWhile (· ≠ ']') with
    | ']' :: rest => (readSteps fuel rest).map (.item index :: ·)
    | _ => none
  | _, _ => none

/-- The path that a text says. A text that says none is a single key. -/
def path (s : String) : List PathStep :=
  let cs := s.toList
  let steps :=
    if (cs.takeWhile isKeyChar).isEmpty then none else readSteps (cs.length + 1) ('.' :: cs)
  steps.getD [.key s]

/-! ## Merging -/

/-- The fields of a value, none if it is no object. -/
def fieldsOf : Json → List (String × Json)
  | .obj fields => fields
  | _ => []

/-- The items of a value, none if it is no array. -/
def itemsOf : Json → List Json
  | .arr items => items
  | _ => []

/-- The field of a name, `null` if there is none. -/
def fieldOf (name : String) (fields : List (String × Json)) : Json :=
  ((fields.find? (fun e => e.1 = name)).map (·.2)).getD .null

mutual
/-- What a later value makes of an earlier one: objects are merged, all else is replaced. -/
def overlay (old : Json) : Json → Json
  | .obj fields => .obj (overlayFields (fieldsOf old) fields)
  | v => v
/-- `overlay` for the fields of objects. -/
def overlayFields (old : List (String × Json)) : List (String × Json) → List (String × Json)
  | [] => old
  | (name, v) :: rest =>
    let key := name.toLower
    overlayFields (Json.setField key (overlay (fieldOf key old) v) old) rest
end

/-- Change the item at an index; an array that is too short is filled up with `null`. -/
def changeItem (index : Int) (f : Json → Json) (items : List Json) : List Json :=
  let i := if index < 0 then (items.length + index).toNat else index.toNat
  let items := items ++ List.replicate (i + 1 - items.length) .null
  items.modify i f

/-- Change what stands at a path. What is no table or array on the way there becomes one. -/
def change (f : Json → Json) : List PathStep → Json → Json
  | [], v => f v
  | .key name :: rest, v =>
    let key := name.toLower
    .obj (Json.setField key (change f rest (fieldOf key (fieldsOf v))) (fieldsOf v))
  | .item i :: rest, v => .arr (changeItem i (change f rest) (itemsOf v))

/-- Lay a source over settings: each of its entries names a path and what stands there. -/
def apply (settings : Json) (source : List (String × Json)) : Json :=
  source.foldl (fun s e => change (overlay · e.2) (path e.1) s) settings

/-! ## The environment -/

/-- What the names of all variables start with that are settings, in lower case. -/
def variableStart : String := "taskmill__"

/-- The settings that are lists; a text stands for the list of its parts between commas. -/
def listSettings : List String := ["retry.strategies"]

/-- The path in a variable's name, or `none` if it is no setting. -/
def settingOf? (name : String) : Option String :=
  let lower := name.toLower
  if lower.startsWith variableStart then
    some ((String.ofList (lower.toList.drop variableStart.length)).replace "__" ".")
  else none

/-- The value that the text of a variable stands for. -/
def valueOf (setting text : String) : Json :=
  if text.toLower = "true" then .bool true
  else if text.toLower = "false" then .bool false
  else
    match word? text.toList, Binary64.ofText? text with
    | some n, _ => .int n
    | none, some x => .float x
    | none, none =>
      if setting ∈ listSettings then .arr ((text.splitOn ",").map .str) else .str text

/-- The settings in the environment, in the order of their paths. -/
def environment (env : Table String String) : List (String × Json) :=
  let settings := env.entries.filterMap fun e => (settingOf? e.1).map fun s => (s, valueOf s e.2)
  (Table.ofList settings).entries

end JobEngine.Layers
