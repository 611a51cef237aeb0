/-!
# Events of a run

What happens during a run is reported by events: a message of some level with named fields. A run
is a computation that reports events and may fail; the events up to a failure are kept.
-/

namespace TriggerScript

/-- How important an event is. -/
inductive Level where
  | debug
  | info
  | warn
deriving Repr, DecidableEq

namespace Level

/-- The name of a level. -/
def name : Level → String
  | debug => "debug"
  | info => "info"
  | warn => "warn"

/-- The rank of a level; a more severe one ranks higher. -/
def rank : Level → Nat
  | debug => 0
  | info => 1
  | warn => 2

end Level

/-- Something worth reporting. -/
structure Event where
  level : Level
  message : String
  fields : List (String × String) := []
deriving Repr, DecidableEq

/-- A computation that reports events and may fail with an error. -/
abbrev Run (ε α : Type) := EStateM ε (List Event) α

namespace Run

variable {ε ε' α : Type}

/-- Reports an event. -/
def report (e : Event) : Run ε Unit :=
  modify (· ++ [e])

/-- Reports several events. -/
def reportAll (es : List Event) : Run ε Unit :=
  modify (· ++ es)

/-- A computation that reports nothing. -/
def ofExcept : Except ε α → Run ε α
  | .ok a => pure a
  | .error e => throw e

/-- Changes the error of a run. -/
def mapError (f : ε → ε') (run : Run ε α) : Run ε' α :=
  fun log =>
    match run log with
    | .ok a log => .ok a log
    | .error e log => .error (f e) log

/-- The result of a run from the start, and the events it reports. -/
def start (run : Run ε α) : Except ε α × List Event :=
  match run [] with
  | .ok a log => (.ok a, log)
  | .error e log => (.error e, log)

end Run

end TriggerScript
