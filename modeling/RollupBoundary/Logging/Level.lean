/-!
# Severities and levels

A log record has a `Severity`.  A `Level` bounds the severities that are let through, or lets none
through.  A level is written by its name in any mixture of cases or by its number from 0 to 5; a
number may have a plus sign and leading zeros.  The empty text stands for `error`.
-/

namespace RollupBoundary.Logging

/-- How grave a record is, gravest first. -/
inductive Severity where
  | error
  | warn
  | info
  | debug
  | trace
deriving DecidableEq

namespace Severity

/-- Place in the order from the gravest, which has 1. -/
def rank : Severity → Nat
  | .error => 1
  | .warn => 2
  | .info => 3
  | .debug => 4
  | .trace => 5

/-- All severities, gravest first. -/
def all : List Severity :=
  [.error, .warn, .info, .debug, .trace]

/-- The name in lower case. -/
def name : Severity → String
  | .error => "error"
  | .warn => "warn"
  | .info => "info"
  | .debug => "debug"
  | .trace => "trace"

/-- The name as records show it. -/
def label : Severity → String
  | .error => "ERROR"
  | .warn => "WARN"
  | .info => "INFO"
  | .debug => "DEBUG"
  | .trace => "TRACE"

end Severity

/-- The severities that are let through. -/
inductive Level where
  | off
  /-- This severity and graver ones. -/
  | upTo (s : Severity)
deriving DecidableEq

namespace Level

/-- How far down the severities are let through; 0 lets none through. -/
def rank : Level → Nat
  | .off => 0
  | .upTo s => s.rank

/-- All levels, by rising rank. -/
def all : List Level :=
  .off :: Severity.all.map .upTo

/-- The name of a level. -/
def name : Level → String
  | .off => "off"
  | .upTo s => s.name

/-- Whether a record of this severity is let through. -/
def allows (l : Level) (s : Severity) : Bool :=
  s.rank ≤ l.rank

/-- The more talkative of two levels. -/
def max (a b : Level) : Level :=
  if a.rank ≤ b.rank then b else a

/-- A text of plain digits, behind at most one plus sign, as a number. -/
def number? (text : List Char) : Option Nat :=
  let digits := match text with
    | '+' :: rest => rest
    | all => all
  if digits ≠ [] ∧ digits.all Char.isDigit then some (Nat.ofDigitChars 10 digits 0) else none

/-- The level a text stands for. -/
def ofText? (text : String) : Option Level :=
  match number? text.toList with
  | some n => all.find? fun l => l.rank = n
  | none =>
    if text = "" then some (.upTo .error)
    else all.find? fun l => l.name.toList = text.toList.map Char.toLower

/-- What is said of a text that stands for no level. -/
def expectation : String :=
  "error parsing level filter: expected one of \"off\", \"error\", \"warn\", \"info\", " ++
    "\"debug\", \"trace\", or a number 0-5"

end Level
end RollupBoundary.Logging
