import WebMigration.Failure.Event
import WebMigration.Text.Timestamp

/-!
# Progress events

What a batch tells about its progress while it runs, as a record, as a frame of an event stream and
as a line of a log.
-/

namespace WebMigration.Progress

/-- Something that a job tells about itself. -/
structure Message where
  /-- The kind: progress, complete or error. -/
  kind : String
  jobId : String
  text : String
  /-- When it was told, in microseconds. -/
  time : Int
  data : Option (List (String × Json)) := none

/-- A stage of a batch. -/
inductive Stage
  | planning | transforming | postProcessing | complete
  deriving DecidableEq, Repr

def Stage.name : Stage → String
  | planning => "planning"
  | transforming => "transforming"
  | postProcessing => "post-processing"
  | complete => "complete"

/-- How far a batch has come: the files done, and all files. -/
structure Report where
  stage : Stage
  current : Nat
  total : Nat
  text : String
  deriving DecidableEq, Repr

/-- The data of the event for a report. -/
def Report.data (r : Report) : List (String × Json) :=
  [("stage", .string r.stage.name), ("current", .ofNat r.current), ("total", .ofNat r.total)]

namespace Message

/-- The data as a value; no data are null. -/
def dataJson (m : Message) : Json :=
  match m.data with
  | some fields => .record fields
  | none => .null

def toJson (m : Message) : Json :=
  .record [("type", .string m.kind), ("job_id", .string m.jobId), ("message", .string m.text),
    ("timestamp", .string (Text.timestamp m.time)), ("data", m.dataJson)]

/-- The frame of an event stream. -/
def frame (m : Message) : String := "data: " ++ m.toJson.compact ++ "\n\n"

/-- A message of a kind about some data; empty data are none. -/
def about (kind jobId text : String) (time : Int) (data : List (String × Json)) : Message :=
  ⟨kind, jobId, text, time, if data.isEmpty then none else some data⟩

/-- The line of a log for a message to a job. -/
def line (jobId : String) (m : Message) : LogLine :=
  let level := if m.kind == "error" then LogLevel.error else .info
  let suffix := if m.dataJson.isTruthy then " " ++ m.dataJson.compact else ""
  ⟨level, "[" ++ jobId ++ "] " ++ m.kind ++ ": " ++ m.text ++ suffix⟩

end Message

end WebMigration.Progress
