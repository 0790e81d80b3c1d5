import RollupBoundary.Event.Decode

/-!
# Decoding many logs

`decodeEach` decodes each log of a list.  `decodeMatching` decodes only those that say they are of
the event, and sorts the outcomes into events and errors, each with the place of its log.
-/

namespace RollupBoundary.EventSchema

/-- Decodes each log. -/
def decodeEach (s : EventSchema) (logs : List EventLog) : List (Except EventError Event) :=
  logs.map s.decode

/-- Events and errors with the places of their logs, in the order of the logs. -/
structure Outcomes where
  events : List (Nat × Event)
  errors : List (Nat × EventError)

/-- The outcomes of the logs of the event, of which the first log has the place `place`. -/
def decodeMatchingFrom (s : EventSchema) : Nat → List EventLog → Outcomes
  | _, [] => ⟨[], []⟩
  | place, log :: logs =>
    let others := decodeMatchingFrom s (place + 1) logs
    if s.isOf log then
      match s.decode log with
      | .ok e => { others with events := (place, e) :: others.events }
      | .error e => { others with errors := (place, e) :: others.errors }
    else others

/-- The outcomes of the logs of the event. -/
def decodeMatching (s : EventSchema) (logs : List EventLog) : Outcomes :=
  decodeMatchingFrom s 0 logs

end RollupBoundary.EventSchema
