-- SUMMARY: Jobs, cron definitions, messages, progress and filters as JSON records.
import JobEngine.Job.CronDefinition
import JobEngine.Job.Filter
import JobEngine.Job.Message
import JobEngine.Time.DurationText
import JobEngine.Time.Rfc3339

/-!
# Records of jobs

The written form of everything that a store holds. Times are RFC 3339 texts in UTC, durations are
duration texts, identifiers are UUID texts. An absent time or text is null; when such a field is
read it may also be missing.
-/

namespace JobEngine

namespace Instant

def toJson (t : Instant) : Json := .str t.zuluText
def ofJson? (v : Json) : Option Instant := v.text?.bind parse?

end Instant

namespace Duration

def toJson (d : Duration) : Json := .str d.toText
def ofJson? (v : Json) : Option Duration := do
  match parse (← v.text?) with
  | .ok d => some d
  | .error _ => none

end Duration

namespace TagSet

def toJson (t : TagSet) : Json := .arr (t.toList.map .str)
def ofJson? (v : Json) : Option TagSet := (v.items? Json.text?).map ofList

end TagSet

/-! ## Queues and jobs -/

namespace Queue

def toJson (q : Queue) : Json :=
  .object [("id", q.id.toJson), ("name", .str q.name), ("weight", q.weight.toJson),
    ("locked", .bool q.locked)]

def ofJson? (v : Json) : Option Queue := do
  let r ← v.record? ["id", "name", "weight", "locked"]
  return {
    id := ← r.required "id" Uuid.ofJson?
    name := ← r.required "name" Json.text?
    weight := ← r.required "weight" Count.ofJson?
    locked := ← r.required "locked" Json.boolean? }

instance : Recorded Queue := ⟨toJson, ofJson?⟩

end Queue

namespace Job

/-- The fields of a job record, in the order in which an array lists them. -/
def fieldNames : List String :=
  ["id", "identifier", "queue", "handler", "state", "category", "data", "retries", "max_retries",
    "timeout", "tags", "created_at", "scheduled_at", "executing_at", "completed_at", "failed_at",
    "discarded_at"]

def toJson (j : Job) : Json :=
  .object [
    ("id", j.id.toJson),
    ("identifier", .ofOption .str j.identifier),
    ("queue", j.queue.toJson),
    ("handler", .str j.handler),
    ("state", j.state.toJson),
    ("category", j.category.toJson),
    ("data", j.data),
    ("retries", j.retries.toJson),
    ("max_retries", j.maxRetries.toJson),
    ("timeout", j.timeout.toJson),
    ("tags", j.tags.toJson),
    ("created_at", j.createdAt.toJson),
    ("scheduled_at", .ofOption Instant.toJson j.scheduledAt),
    ("executing_at", .ofOption Instant.toJson j.executingAt),
    ("completed_at", .ofOption Instant.toJson j.completedAt),
    ("failed_at", .ofOption Instant.toJson j.failedAt),
    ("discarded_at", .ofOption Instant.toJson j.discardedAt)]

def ofJson? (v : Json) : Option Job := do
  let r ← v.record? fieldNames
  return {
    id := ← r.required "id" Uuid.ofJson?
    identifier := ← r.optional "identifier" Json.text?
    queue := ← r.required "queue" Queue.ofJson?
    handler := ← r.required "handler" Json.text?
    state := ← r.required "state" JobState.ofJson?
    category := ← r.required "category" JobCategory.ofJson?
    data := ← r.required "data" some
    retries := ← r.required "retries" Count.ofJson?
    maxRetries := ← r.required "max_retries" Count.ofJson?
    timeout := ← r.required "timeout" Duration.ofJson?
    tags := ← r.required "tags" TagSet.ofJson?
    createdAt := ← r.required "created_at" Instant.ofJson?
    scheduledAt := ← r.optional "scheduled_at" Instant.ofJson?
    executingAt := ← r.optional "executing_at" Instant.ofJson?
    completedAt := ← r.optional "completed_at" Instant.ofJson?
    failedAt := ← r.optional "failed_at" Instant.ofJson?
    discardedAt := ← r.optional "discarded_at" Instant.ofJson? }

instance : Recorded Job := ⟨toJson, ofJson?⟩

end Job

namespace CronDefinition

/-- The fields of a cron definition, in the order in which an array lists them. -/
def fieldNames : List String :=
  ["id", "name", "expression", "handler", "queue", "max_retries", "timeout", "enabled",
    "next_run_at", "data", "tags"]

def toJson (c : CronDefinition) : Json :=
  .object [
    ("id", c.id.toJson),
    ("name", .str c.name),
    ("expression", .str c.expression),
    ("handler", .str c.handler),
    ("queue", c.queue.toJson),
    ("max_retries", c.maxRetries.toJson),
    ("timeout", c.timeout.toJson),
    ("enabled", .bool c.enabled),
    ("next_run_at", .ofOption Instant.toJson c.nextRunAt),
    ("data", c.data),
    ("tags", c.tags.toJson)]

def ofJson? (v : Json) : Option CronDefinition := do
  let r ← v.record? fieldNames
  return {
    id := ← r.required "id" Uuid.ofJson?
    name := ← r.required "name" Json.text?
    expression := ← r.required "expression" Json.text?
    handler := ← r.required "handler" Json.text?
    queue := ← r.required "queue" Queue.ofJson?
    maxRetries := ← r.required "max_retries" Count.ofJson?
    timeout := ← r.required "timeout" Duration.ofJson?
    enabled := ← r.required "enabled" Json.boolean?
    nextRunAt := ← r.optional "next_run_at" Instant.ofJson?
    data := ← r.required "data" some
    tags := ← r.required "tags" TagSet.ofJson? }

instance : Recorded CronDefinition := ⟨toJson, ofJson?⟩

end CronDefinition

/-! ## Messages and progress -/

namespace JobMessage

def toJson (m : JobMessage) : Json :=
  .object [("job_id", m.jobId.toJson), ("level", m.level.toJson), ("message", .str m.message),
    ("detail", .ofOption id m.detail), ("created_at", m.createdAt.toJson)]

def ofJson? (v : Json) : Option JobMessage := do
  let r ← v.record? ["job_id", "level", "message", "detail", "created_at"]
  return {
    jobId := ← r.required "job_id" Uuid.ofJson?
    level := ← r.required "level" MessageLevel.ofJson?
    message := ← r.required "message" Json.text?
    detail := ← r.optional "detail" some
    createdAt := ← r.required "created_at" Instant.ofJson? }

instance : Recorded JobMessage := ⟨toJson, ofJson?⟩

end JobMessage

namespace JobProgress

def toJson (p : JobProgress) : Json :=
  .object [("job_id", p.jobId.toJson), ("percent", .ofNat p.percent),
    ("message", .ofOption .str p.message), ("timestamp", p.timestamp.toJson)]

/-- Read progress. A percentage up to 255 is accepted. -/
def ofJson? (v : Json) : Option JobProgress := do
  let r ← v.record? ["job_id", "percent", "message", "timestamp"]
  return {
    jobId := ← r.required "job_id" Uuid.ofJson?
    percent := ← r.required "percent" (Json.natBelow? 256)
    message := ← r.optional "message" Json.text?
    timestamp := ← r.required "timestamp" Instant.ofJson? }

instance : Recorded JobProgress := ⟨toJson, ofJson?⟩

end JobProgress

/-! ## Filters and pages -/

namespace JobFilter

def toJson (f : JobFilter) : Json :=
  .object [("states", .arr (f.states.map JobState.toJson)), ("queue", .ofOption .str f.queue),
    ("handler", .ofOption .str f.handler)]

def ofJson? (v : Json) : Option JobFilter := do
  let r ← v.record? ["states", "queue", "handler"]
  return {
    states := ← r.required "states" (Json.items? JobState.ofJson?)
    queue := ← r.optional "queue" Json.text?
    handler := ← r.optional "handler" Json.text? }

instance : Recorded JobFilter := ⟨toJson, ofJson?⟩

end JobFilter

namespace Page

def toJson (p : Page) : Json := .object [("offset", .ofNat p.offset), ("limit", .ofNat p.limit)]

def ofJson? (v : Json) : Option Page := do
  let r ← v.record? ["offset", "limit"]
  return {
    offset := ← r.required "offset" (Json.natBelow? UInt64.size)
    limit := ← r.required "limit" (Json.natBelow? UInt64.size) }

instance : Recorded Page := ⟨toJson, ofJson?⟩

end Page

end JobEngine
