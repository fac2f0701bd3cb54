import LogicalPlan.Fault

/-!
# Logs

A log entry is a list of texts, written on one line with blanks between them. A text that cannot be
produced ends its entry: what precedes it stays written, and the line is left unfinished.
-/

namespace LogicalPlan

/-- An entry of a log. -/
structure LogEntry where
  parts : List String
  finished : Bool
  deriving DecidableEq, Inhabited

namespace LogEntry

/-- The entry made of the texts up to the first one that cannot be produced, and the fault that
ended it. -/
def ofParts : List (Outcome String) → LogEntry × Outcome Unit
  | [] => (⟨[], true⟩, .ok ())
  | .error fault :: _ => (⟨[], false⟩, .error fault)
  | .ok part :: rest =>
    let (entry, outcome) := ofParts rest
    (⟨part :: entry.parts, entry.finished⟩, outcome)

/-- The written form of an entry behind a lead, if there is one. -/
def render (lead : Option String) (entry : LogEntry) : String :=
  let parts := lead.toList ++ entry.parts
  if entry.finished then joinTexts " " parts ++ "\n"
  else String.join (parts.map (· ++ " "))

end LogEntry

/-- What stands in front of every entry of a log. -/
inductive LogLead where
  /-- The same value each time; a value that counts as false leaves the entry as it is. -/
  | fixed (v : Value)
  /-- The time of day. -/
  | clock
  /-- The next value of a list. -/
  | sequence (vs : List Value)
  deriving Inhabited

namespace LogLead

/-- The text of a lead, unless it counts as false. -/
def shown (v : Value) : Option String :=
  if v.isTruthy then some v.text else none

/-- The lead of the next entry at a time of day, and the lead for the entries after it. -/
def next (time : String) : LogLead → Outcome (Option String) × LogLead
  | .fixed v => (.ok (shown v), .fixed v)
  | .clock => (.ok (some time), .clock)
  | .sequence [] => (.error (.illTyped .noIndex), .sequence [])
  | .sequence (v :: vs) => (.ok (shown v), .sequence vs)

end LogLead

/-- What is written for a list of entries, and how each of them turned out. -/
def writeLog (time : String) (lead : LogLead) : List (List Value) → String × List (Outcome Unit)
  | [] => ("", [])
  | args :: rest =>
    let (head, lead) := lead.next time
    let (written, outcomes) := writeLog time lead rest
    match head with
    | .ok head =>
      let (entry, outcome) := LogEntry.ofParts (args.map Value.shown)
      (entry.render head ++ written, outcome :: outcomes)
    | .error fault => (written, .error fault :: outcomes)

/-- The lines of a written log. A line that was left unfinished at the end does not count. -/
def logLines (time : String) (log : List LogEntry) : List String :=
  ((String.join (log.map (LogEntry.render (some time)))).splitOn "\n").dropLast

end LogicalPlan
