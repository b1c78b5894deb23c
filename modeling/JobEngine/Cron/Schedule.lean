-- SUMMARY: What a cron expression means: the sets of its fields, and the next time it fires.
import JobEngine.Cron.Expression
import JobEngine.Error.Basic
import JobEngine.Time.Calendar

/-!
# Cron schedules

A `Cron.Schedule` is the set of admitted values of each field. It fires at the whole seconds whose
civil time in UTC lies in every field's set, day of the month and day of the week both; Sunday is
the first day of the week, and no year after 2100 counts. `nextFireAfter` is the first such second
strictly after a given instant, `upcoming` the first few.
-/

namespace JobEngine.Cron

/-! ## Fields -/

/-- A kind of field: the range of its values, and the names that some values have. -/
structure FieldKind where
  least : Nat
  greatest : Nat
  names : List (List String × Nat) := []

def secondsField : FieldKind := { least := 0, greatest := 59 }
def minutesField : FieldKind := { least := 0, greatest := 59 }
def hoursField : FieldKind := { least := 0, greatest := 23 }
def daysOfMonthField : FieldKind := { least := 1, greatest := 31 }
def yearsField : FieldKind := { least := 1970, greatest := 2100 }

def monthsField : FieldKind where
  least := 1
  greatest := 12
  names :=
    [(["jan", "january"], 1), (["feb", "february"], 2), (["mar", "march"], 3),
      (["apr", "april"], 4), (["may"], 5), (["jun", "june"], 6), (["jul", "july"], 7),
      (["aug", "august"], 8), (["sep", "september"], 9), (["oct", "october"], 10),
      (["nov", "november"], 11), (["dec", "december"], 12)]

def daysOfWeekField : FieldKind where
  least := 1
  greatest := 7
  names :=
    [(["sun", "sunday"], 1), (["mon", "monday"], 2), (["tue", "tues", "tuesday"], 3),
      (["wed", "wednesday"], 4), (["thu", "thurs", "thursday"], 5), (["fri", "friday"], 6),
      (["sat", "saturday"], 7)]

namespace FieldKind

/-- The values from `a` to `b`. -/
def between (a b : Nat) : List Nat := (List.range (b + 1 - a)).map (· + a)

/-- All values of a field. -/
def values (k : FieldKind) : List Nat := between k.least k.greatest

/-- A value in range. -/
def value? (k : FieldKind) (n : Nat) : Option Nat :=
  if k.least ≤ n ∧ n ≤ k.greatest then some n else none

/-- The value of a name, in any case. -/
def named? (k : FieldKind) (name : String) : Option Nat :=
  (k.names.find? (fun e => e.1.contains (name.map Char.toLower))).map (·.2)

/-- The values from `a` to `b`, which must both be in range and in order. -/
def range? (k : FieldKind) (a b : Nat) : Option (List Nat) := do
  let a ← k.value? a
  let b ← k.value? b
  if a ≤ b then some (between a b) else none

/-- The values of an item without a step. -/
def base? (k : FieldKind) : Base → Option (List Nat)
  | .all => some k.values
  | .point n => (k.value? n).map ([·])
  | .range a b => k.range? a b
  | .namedRange a b => do k.range? (← k.named? a) (← k.named? b)

/-- Every `step`-th member of a list, from its first on; `skip` are to be left out first. -/
def everyNth (step : Nat) : Nat → List Nat → List Nat
  | _, [] => []
  | 0, n :: rest => n :: everyNth step (step - 1) rest
  | skip + 1, _ :: rest => everyNth step skip rest

/-- The values of an item. A step behind a single number counts from it to the end of the range. -/
def item? (k : FieldKind) : Item → Option (List Nat)
  | .plain b => k.base? b
  | .named name => (k.named? name).map ([·])
  | .stepped b step =>
    if step = 0 ∨ k.greatest < step then none
    else
      let members := match b with
        | .point n => (k.value? n).map fun n => between n k.greatest
        | b => k.base? b
      members.map (everyNth step 0)

/-- The values that a list of items admits, in increasing order. -/
def members? (k : FieldKind) (items : List Item) : Option (List Nat) :=
  (items.mapM k.item?).map fun lists => k.values.filter fun n => lists.any (·.contains n)

end FieldKind

/-! ## Schedules -/

/-- The admitted values of each field, in increasing order. -/
structure Schedule where
  seconds : List Nat
  minutes : List Nat
  hours : List Nat
  daysOfMonth : List Nat
  months : List Nat
  daysOfWeek : List Nat
  years : List Nat
deriving DecidableEq, Repr

namespace Schedule

/-- The schedule of an expression whose values are all in range. -/
def ofSyntax? (s : Syntax) : Option Schedule := do
  return {
    seconds := ← secondsField.members? s.seconds
    minutes := ← minutesField.members? s.minutes
    hours := ← hoursField.members? s.hours
    daysOfMonth := ← daysOfMonthField.members? s.daysOfMonth
    months := ← monthsField.members? s.months
    daysOfWeek := ← daysOfWeekField.members? s.daysOfWeek
    years := ← yearsField.members? (s.years.getD [.plain .all]) }

/-- The first admitted time of day from the given one on. -/
def firstTime (s : Schedule) (hour minute second : Nat) : Option (Nat × Nat × Nat) :=
  s.hours.findSome? fun h =>
    if h < hour then none
    else
      s.minutes.findSome? fun m =>
        if h = hour ∧ m < minute then none
        else
          s.seconds.findSome? fun sec =>
            if h = hour ∧ m = minute ∧ sec < second then none else some (h, m, sec)

/-- Whether a valid date is admitted. -/
def admitsDate (s : Schedule) (d : Date) : Bool :=
  d.isValid && s.daysOfWeek.contains (Date.weekday d.dayNumber)

/-- The first admitted second from a civil time on. -/
def firstFrom (s : Schedule) (start : Civil) : Option Civil :=
  s.years.findSome? fun (year : Nat) =>
    if (year : Int) < start.date.year then none
    else
      s.months.findSome? fun month =>
        if year = start.date.year ∧ month < start.date.month then none
        else
          s.daysOfMonth.findSome? fun day =>
            let date : Date := ⟨year, month, day⟩
            let first := year = start.date.year ∧ month = start.date.month
            if first ∧ day < start.date.day then none
            else if s.admitsDate date then
              let time :=
                if first ∧ day = start.date.day then
                  s.firstTime start.hour start.minute start.second
                else s.firstTime 0 0 0
              time.map fun t => ⟨date, t.1, t.2.1, t.2.2, 0⟩
            else none

/-- The first time that the schedule fires strictly after `after`. A schedule has no times in the
years before the first one. -/
def next? (s : Schedule) (after : Instant) : Option Instant :=
  if after.civil.date.year < 0 then none
  else
    (after.add? (.ofSecs 1)).bind fun start =>
      (s.firstFrom start.civil).bind fun c => Instant.ofNanos? c.toNanos

/-- The first `count` times that the schedule fires strictly after `after`, fewer if it ends. -/
def upcoming (s : Schedule) : Nat → Instant → List Instant
  | 0, _ => []
  | count + 1, after =>
    match s.next? after with
    | none => []
    | some time => time :: s.upcoming count time

end Schedule

/-! ## Expressions -/

/-- Why an expression gives no fire time. -/
inductive CronError where
  | fieldCount (found : Nat)
  | malformed
  | neverFires
deriving DecidableEq, Repr

/-- The wording of each cause. The one of `malformed` is a choice of this library for every text that
is not in the grammar of expressions: it does not tell what is wrong with the text. -/
def CronError.reason : CronError → String
  | .fieldCount found => "expected 5, 6 or 7 fields, found " ++ toString found
  | .malformed => "not a valid cron expression"
  | .neverFires => "schedule never fires again"

/-- The engine error about an expression. -/
def CronError.toError (e : CronError) (expression : String) : EngineError :=
  .invalidCron expression e.reason

/-- The schedule of an expression. One of five fields has no seconds and fires at second 0. -/
def parse (expression : String) : Except CronError Schedule :=
  let text := trimBlanks expression.toList
  let schedule (cs : List Char) : Except CronError Schedule :=
    match (Syntax.parse? cs).bind Schedule.ofSyntax? with
    | some s => .ok s
    | none => .error .malformed
  match countWords false text with
  | 5 => schedule ('0' :: ' ' :: text)
  | 6 | 7 => schedule text
  | n => .error (.fieldCount n)

/-- The first fire time of an expression strictly after `after`. -/
def nextFireAfter (expression : String) (after : Instant) : Except CronError Instant :=
  match parse expression with
  | .error e => .error e
  | .ok s =>
    match s.next? after with
    | some time => .ok time
    | none => .error .neverFires

/-- The first `count` fire times of an expression strictly after `after`. -/
def upcoming (expression : String) (after : Instant) (count : Nat) :
    Except CronError (List Instant) :=
  (parse expression).map fun s => s.upcoming count after

end JobEngine.Cron
