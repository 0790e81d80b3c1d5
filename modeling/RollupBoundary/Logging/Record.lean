import RollupBoundary.Logging.Filter

/-!
# Log records

A record says what happened, with named values beside the text.  Records are values: the
operations of this library are pure, and the modules that report on them say which records an
operation gives rise to.  A subscriber is what shows them.  It is installed once; a second attempt
fails and leaves the first one in place.  Settings that give no filter do not keep it from being
installed: it then runs at `info` and says so.
-/

namespace RollupBoundary.Logging

/-- A named value in a record. -/
inductive FieldValue where
  | text (s : String)
  | number (n : Nat)
deriving DecidableEq

/-- The value as text. -/
def FieldValue.show : FieldValue → String
  | .text s => s
  | .number n => toString n

/-- Something that happened. -/
structure Record where
  severity : Severity
  /-- The part of the program that speaks. -/
  target : String
  message : String
  fields : List (String × FieldValue)
deriving DecidableEq

/-- The names of the values of a record.  The text is one of them. -/
def Record.names (r : Record) : List String :=
  "message" :: r.fields.map Prod.fst

/-- Lines that the record takes when it is shown as plain text: one, and one more for each line
break in its texts. -/
def Record.lineCount (r : Record) : Nat :=
  1 + r.message.toList.count '\n' +
    (r.fields.map fun f => f.2.show.toList.count '\n').foldr (· + ·) 0

/-- The records that a filter lets through. -/
def Filter.select (f : Filter) (records : List Record) : List Record :=
  records.filter fun r => f.enabled r.target r.names r.severity

/-- What shows records. -/
structure Subscriber where
  filter : Filter
  json : Bool

/-- Why no subscriber is installed: there is one already. -/
inductive InstallError where
  | alreadyInstalled
deriving DecidableEq

/-- Installs a subscriber where `current` is the one in place, and gives it with the records that
tell about settings without a filter. -/
def install (check : ValueCheck) (current : Option Subscriber) (s : Settings) :
    Except InstallError (Subscriber × List Record) :=
  match current with
  | some _ => .error .alreadyInstalled
  | none =>
    match s.filter? check with
    | .ok f => .ok (⟨f, s.json⟩, [])
    | .error e =>
      .ok (⟨.info, s.json⟩,
        [⟨.warn, "chainbridge_observability::tracing_setup",
          "log configuration rejected, using level info", [("error", .text e.message)]⟩])

end RollupBoundary.Logging
