-- SUMMARY: How long finished jobs are kept.
import JobEngine.Error.Basic
import JobEngine.Text.Blank
import JobEngine.Time.DurationText

/-!
# Retention

A retention period is a duration text. Blanks alone mean that finished jobs are kept for ever; any
other period counts in whole minutes, of which there is at least one.
-/

namespace JobEngine.Retention

/-- The shortest retention. -/
def minimum : Duration := .ofSecs 60

/-- A duration in whole minutes, at least the minimum. -/
def wholeMinutes (d : Duration) : Duration :=
  let cut := Duration.ofSecs (d.secs / 60 * 60)
  if cut < minimum then minimum else cut

/-- The retention of a period text, `none` if nothing is ever deleted. -/
def parse (period : String) : Except EngineError (Option Duration) :=
  let text := trimmed period
  if text.isEmpty then .ok none
  else
    match Duration.parse text with
    | .ok d => .ok (some (wholeMinutes d))
    | .error cause =>
      .error (.configuration ("Invalid retention period '" ++ text ++ "': " ++ cause.message))

end JobEngine.Retention
