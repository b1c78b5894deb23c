-- SUMMARY: Metrics as lines of the Prometheus text format.
import JobEngine.Binary64.Shortest
import JobEngine.Telemetry.Metrics
import JobEngine.Telemetry.Settings

/-!
# The text of metrics

`Exposition.lines` writes metrics in the Prometheus text format: for every family that has a series
a help line and a type line, and for every series its samples. A histogram has a sample per bucket,
of all observations up to the bucket's bound, then their sum and their number.
-/

namespace JobEngine.Exposition

/-! ## Families -/

/-- Name and help text of a family of series. -/
structure Family where
  name : String
  help : String

def counterFamily : Counter → Family
  | .events _ => ⟨"taskmill_events_total", "Engine events dispatched, by event name"⟩
  | .jobsProcessed _ _ =>
    ⟨"taskmill_jobs_processed_total", "Jobs processed, by handler and outcome"⟩
  | .workerPanics _ =>
    ⟨"taskmill_worker_panics_total", "Worker loops that terminated with a panic"⟩
  | .commandErrors _ =>
    ⟨"taskmill_scheduler_command_errors_total", "Scheduler command failures, by command"⟩
  | .breakerTransitions _ =>
    ⟨"taskmill_circuit_breaker_transitions_total",
      "Circuit breaker state transitions, by target state"⟩
  | .errors _ => ⟨"taskmill_errors_total", "Engine errors, by code"⟩

def gaugeFamily : Gauge → Family
  | .workersActive => ⟨"taskmill_workers_active", "Worker loops currently running"⟩
  | .breakerState =>
    ⟨"taskmill_circuit_breaker_state", "Circuit breaker state (0=closed, 1=half-open, 2=open)"⟩

def histogramFamily : Histogram → Family
  | .pickLatency => ⟨"taskmill_pick_latency_seconds", "Time spent picking a job from storage"⟩
  | .jobDuration _ => ⟨"taskmill_job_duration_seconds", "Handler execution time in seconds"⟩
  | .schedulerTick => ⟨"taskmill_scheduler_tick_seconds", "Duration of one scheduling tick"⟩

/-- The labels of a counter, in order. -/
def counterLabels : Counter → List (String × String)
  | .events name => [("event", name)]
  | .jobsProcessed handler outcome => [("handler", handler), ("outcome", outcome)]
  | .workerPanics pool => [("pool", pool)]
  | .commandErrors command => [("command", command)]
  | .breakerTransitions kind => [("to", kind.name)]
  | .errors code =>
    [("code", code.name), ("category", code.category), ("severity", code.severity.name)]

def histogramLabels : Histogram → List (String × String)
  | .jobDuration handler => [("handler", handler)]
  | .pickLatency | .schedulerTick => []

/-! ## Labels -/

/-- Set a label, in the place where it stands or at the end. -/
def setLabel (labels : List (String × String)) (e : String × String) : List (String × String) :=
  Metrics.update e.1 e.2 (fun _ => e.2) labels

def isLabelStart (c : Char) : Bool := ('a' ≤ c && c ≤ 'z') || ('A' ≤ c && c ≤ 'Z') || c = '_'
def isLabelChar (c : Char) : Bool := isLabelStart c || ('0' ≤ c && c ≤ '9')

/-- A label's name with underscores for the characters that the format does not admit. -/
def labelName (s : String) : String :=
  match s.toList with
  | [] => ""
  | c :: rest =>
    String.ofList ((if isLabelStart c then c else '_') ::
      rest.map fun c => if isLabelChar c then c else '_')

/-- A label's value with line ends, quotes and backslashes escaped. A backslash in front of another
one or of a quote counts as an escape that is already there; `held` is such a backslash. -/
def escapeValue : Bool → List Char → List Char
  | held, [] => if held then ['\\', '\\'] else []
  | held, c :: rest =>
    match c with
    | '\n' => '\\' :: 'n' :: escapeValue held rest
    | '"' => '\\' :: '"' :: escapeValue false rest
    | '\\' => if held then '\\' :: '\\' :: escapeValue false rest else escapeValue true rest
    | c => (if held then ['\\', '\\'] else []) ++ c :: escapeValue false rest

/-- `name="value"`. -/
def labelText (e : String × String) : String :=
  labelName e.1 ++ "=\"" ++ String.ofList (escapeValue false e.2.toList) ++ "\""

/-- A sample line. -/
def sample (name : String) (labels : List String) (value : String) : String :=
  let shown := if labels.isEmpty then "" else "\x7b" ++ ",".intercalate labels ++ "\x7d"
  name ++ shown ++ " " ++ value

/-! ## Lines -/

/-- What every sample shares: the labels of the service, and the bounds of the buckets. -/
structure Layout where
  globals : List (String × String)
  buckets : List Binary64

/-- The layout of a service: its name is the first label, and the configured ones follow. -/
def Layout.ofService (c : MetricsConfig) (service : String) : Layout where
  globals := c.globalLabels.entries.foldl setLabel [("service", service)]
  buckets := c.durationBuckets

/-- The labels of a series: the global ones, then its own. -/
def Layout.labels (l : Layout) (own : List (String × String)) : List String :=
  (own.foldl setLabel l.globals).map labelText

/-- The samples of a histogram. -/
def Layout.histogramSamples (l : Layout) (h : Histogram) (observed : List Duration) :
    List String :=
  let name := (histogramFamily h).name
  let labels := l.labels (histogramLabels h)
  let seconds := observed.map Duration.secsFloat
  let bucket (bound : Binary64) : String :=
    sample (name ++ "_bucket") (labels ++ ["le=\"" ++ bound.plainText ++ "\""])
      (toString (seconds.countP (·.le bound)))
  l.buckets.map bucket ++
    [sample (name ++ "_bucket") (labels ++ ["le=\"+Inf\""]) (toString seconds.length),
      sample (name ++ "_sum") labels (seconds.foldl Binary64.add Binary64.zero).plainText,
      sample (name ++ "_count") labels (toString seconds.length)]

/-- The help line and the type line of a family. -/
def header (f : Family) (kind : String) : List String :=
  ["# HELP " ++ f.name ++ " " ++ f.help, "# TYPE " ++ f.name ++ " " ++ kind]

/-- All lines, the headers of a family once. -/
def lines (l : Layout) (m : Metrics) : List String :=
  let headers :=
    m.counters.flatMap (fun e => header (counterFamily e.1) "counter") ++
      m.gauges.flatMap (fun e => header (gaugeFamily e.1) "gauge") ++
      m.histograms.flatMap (fun e => header (histogramFamily e.1) "histogram")
  headers.eraseDups ++
    m.counters.map (fun e =>
      sample (counterFamily e.1).name (l.labels (counterLabels e.1)) (toString e.2)) ++
    m.gauges.map (fun e => sample (gaugeFamily e.1).name (l.labels []) (toString e.2)) ++
    m.histograms.flatMap (fun e => l.histogramSamples e.1 e.2)

end JobEngine.Exposition
