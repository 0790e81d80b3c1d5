import RollupBoundary.Logging.Level
import RollupBoundary.Logging.Settings
import RollupBoundary.Text.Alphanumeric
import RollupBoundary.Text.Pieces

/-!
# Log filters

A filter is a list of directives.  A directive is a level, for the targets that begin with some text
or for all targets, and it may be confined to records inside a span of some name or with a field of
some name.  It is written `target[span{field=value}]=level`, where each part may be left out.  Of the
directives that apply to a record the closest one decides, and of two that are equally close the
later one.  Where none applies, nothing is let through.

The directives are read from one text, separated by commas.  Names and levels are put into that
text as they stand, so a comma, a bracket or an equals sign inside one of them changes how the text
is read; the filter means what the text says.  The level for everything is checked on its own first,
because a misspelled one would be read as a target.

A directive is read from left to right, one character after another, and blanks around it are passed
over.  They are passed over in reading only: what is taken out of the directive is taken by position,
and positions do not count the blanks in front, so these move everything that is taken.  Values of
fields are patterns; which texts are patterns is left open (`ValueCheck`).
-/

namespace RollupBoundary.Logging

/-! ## Directives -/

/-- What is wrong with the value that a directive asks of a field, if anything. -/
abbrev ValueCheck := String → Option String

/-- A field that a directive asks for, and the value if it asks for one. -/
structure FieldMatch where
  name : String
  value : Option String
deriving DecidableEq

/-- A level, and the records it is for. -/
structure Directive where
  /-- What the targets of the records begin with. -/
  target : Option String
  /-- The span that the records are inside. -/
  span : Option String
  field : Option FieldMatch
  level : Level
deriving DecidableEq

/-- What is wrong with a directive. -/
inductive DirectiveFault where
  /-- Its parts are not put together as those of a directive. -/
  | malformed
  /-- The text of its level stands for no level. -/
  | badLevel
  /-- The value that it asks of a field is none. -/
  | badValue (reason : String)
deriving DecidableEq

/-- The text a fault is reported with. -/
def DirectiveFault.message : DirectiveFault → String
  | .malformed => "invalid filter directive"
  | .badLevel => Level.expectation
  | .badValue reason => "invalid field filter: " ++ reason

/-- Reads what stands between braces: a name, and behind an equals sign a value.  What follows a
second equals sign does not count. -/
def FieldMatch.ofText (check : ValueCheck) (text : List Char) :
    Except DirectiveFault FieldMatch :=
  match Text.cutAt '=' text with
  | name :: value :: _ =>
    match check (String.ofList value) with
    | none => .ok ⟨String.ofList name, some (String.ofList value)⟩
    | some reason => .error (.badValue reason)
  | _ => .ok ⟨String.ofList text, none⟩

/-! ## Reading a directive -/

/-- The part of a directive that its reader is in; `since` is where that part begins. -/
inductive Place where
  | start
  | levelOrTarget
  | span (since : Nat)
  | field (since : Nat)
  | behindField
  | behindBracket
  | level (since : Nat)

/-- The parts of a directive that have been read, and the part that is being read. -/
structure Reading where
  place : Place
  target : Option String
  span : Option String
  field : Option FieldMatch

/-- What stands in a text from one position up to another. -/
def between (text : List Char) (first last : Nat) : String :=
  String.ofList ((text.take last).drop first)

/-- Whether a directive may begin with this character, unless it begins with a bracket. -/
def Directive.mayBegin (c : Char) : Bool :=
  c = '-' || c = ':' || c = '_' || Text.isAlphanumeric c

namespace Reading

variable (check : ValueCheck) (text : List Char)

/-- Nothing has been read. -/
def initial : Reading :=
  ⟨.start, none, none, none⟩

/-- Reads the character `c` at the position `i` of a directive, which is `text` with the blanks
around it. -/
def step (r : Reading) (i : Nat) (c : Char) : Except DirectiveFault Reading :=
  match r.place with
  | .start =>
    if c = '[' then .ok { r with place := .span (i + 1) }
    else if Directive.mayBegin c then .ok { r with place := .levelOrTarget }
    else .error .malformed
  | .levelOrTarget =>
    if c = '=' then .ok { r with place := .level (i + 1), target := some (between text 0 i) }
    else if c = '[' then .ok { r with place := .span (i + 1), target := some (between text 0 i) }
    else .ok r
  | .span since =>
    if c = ']' then .ok { r with place := .behindBracket, span := some (between text since i) }
    else if c = '{' then
      .ok { r with
        place := .field (i + 1)
        span := if since = i then none else some (between text since i) }
    else .ok r
  | .field since =>
    -- a directive has one field at most, as a second one would stand behind a comma
    if c = '}' then
      if since = i then .error .malformed
      else
        (FieldMatch.ofText check ((text.take i).drop since)).map fun f =>
          { r with place := .behindField, field := some f }
    else .ok r
  | .behindField =>
    if c = ']' then .ok { r with place := .behindBracket } else .error .malformed
  | .behindBracket =>
    if c = '=' then .ok { r with place := .level (i + 1) } else .error .malformed
  | .level _ => .ok r

/-- Reads characters from the position `i` on. -/
def run (r : Reading) (i : Nat) : List Char → Except DirectiveFault Reading
  | [] => .ok r
  | c :: cs =>
    match r.step check text i c with
    | .ok r' => r'.run (i + 1) cs
    | .error fault => .error fault

/-- The directive with the level that a text stands for, where no text at all means `trace`. -/
def atLevel (r : Reading) (levelText : List Char) : Except DirectiveFault Directive :=
  if levelText = [] then .ok ⟨r.target, r.span, r.field, .upTo .trace⟩
  else
    match Level.ofText? (String.ofList levelText) with
    | some level => .ok ⟨r.target, r.span, r.field, level⟩
    | none => .error .badLevel

/-- The directive that has been read to its end.  A text without an equals sign and without brackets
is a level for all targets if it stands for a level, and else a target at `trace`. -/
def finish (r : Reading) : Except DirectiveFault Directive :=
  match r.place with
  | .levelOrTarget =>
    match Level.ofText? (String.ofList text) with
    | some level => .ok ⟨none, r.span, r.field, level⟩
    | none => .ok ⟨some (String.ofList text), r.span, r.field, .upTo .trace⟩
  | .behindBracket => .ok ⟨r.target, r.span, r.field, .upTo .trace⟩
  | .level since => r.atLevel (text.drop since)
  | .start | .span _ | .field _ | .behindField => .error .malformed

end Reading

namespace Directive

/-- Reads one directive. -/
def ofText (check : ValueCheck) (text : List Char) : Except DirectiveFault Directive := do
  (← Reading.initial.run check text 0 (Text.trim text)).finish text

/-! ## Which directive decides -/

/-- Whether the directive asks for the value of a field. -/
def asksValue (d : Directive) : Bool :=
  d.field.any fun f => f.value.isSome

/-- Whether the directive applies to records of this target and with fields of these names.  One that
asks for a span or for the value of a field, which spans have, applies inside such a span only, and
this library enters none. -/
def appliesTo (d : Directive) (target : String) (names : List String) : Bool :=
  d.span.isNone && !d.asksValue &&
    (d.target.all fun t => t.toList.isPrefixOf target.toList) &&
    d.field.all fun f => names.contains f.name

/-- How closely the directive names its targets. -/
def specificity (d : Directive) : Nat :=
  match d.target with
  | none => 0
  | some t => t.length + 1

/-- Whether `d` is as close as `b` or closer: by its target, then by asking for a field, then by the
name of that field. -/
def yieldsTo (b d : Directive) : Bool :=
  b.specificity < d.specificity ||
    (b.specificity = d.specificity &&
      match b.field, d.field with
      | none, _ => true
      | some _, none => false
      | some f, some g => f.name ≤ g.name)

end Directive

/-! ## Filters -/

/-- Directives in the order they were given. -/
structure Filter where
  directives : List Directive
deriving DecidableEq

namespace Filter

/-- Reads directives separated by commas, where empty ones are skipped. -/
def ofText (check : ValueCheck) (text : String) : Except DirectiveFault Filter := do
  let pieces := (Text.cutAt ',' text.toList).filter fun piece => !piece.isEmpty
  let directives ← pieces.mapM (Directive.ofText check)
  return ⟨directives⟩

/-- The filter that lets everything up to `info` through. -/
def info : Filter :=
  ⟨[⟨none, none, none, .upTo .info⟩]⟩

/-- The directive that decides for a record: the closest one, and of equally close ones the last. -/
def deciding? (f : Filter) (target : String) (names : List String) : Option Directive :=
  f.directives.foldl
    (fun best d =>
      if d.appliesTo target names then
        match best with
        | none => some d
        | some b => if b.yieldsTo d then some d else some b
      else best)
    none

/-- Whether records of this target and severity, with fields of these names, are let through. -/
def enabled (f : Filter) (target : String) (names : List String) (s : Severity) : Bool :=
  (f.deciding? target names).any fun d => d.level.allows s

/-- The most talkative level of any directive, also of one that a later one replaces.  A directive
that asks for the value of a field makes it the most talkative of all, as values are known only when
they are recorded. -/
def maxLevel (f : Filter) : Level :=
  if f.directives.any Directive.asksValue then .upTo .trace
  else f.directives.foldl (fun l d => l.max d.level) .off

end Filter

/-! ## The filter of settings -/

/-- Why settings give no filter. -/
inductive SettingsError where
  /-- The level for everything stands for no level. -/
  | level (text : String)
  | directives (text : String) (fault : DirectiveFault)
deriving DecidableEq

/-- The text an error is reported with. -/
def SettingsError.message : SettingsError → String
  | .level text => "invalid log level '" ++ text ++ "': " ++ Level.expectation
  | .directives text fault => "invalid log directives '" ++ text ++ "': " ++ fault.message

namespace Settings

/-- The filter that the settings ask for. -/
def filter? (check : ValueCheck) (s : Settings) : Except SettingsError Filter :=
  match Level.ofText? s.level with
  | none => .error (.level s.level)
  | some _ =>
    match Filter.ofText check s.directives with
    | .ok f => .ok f
    | .error fault => .error (.directives s.directives fault)

/-- The filter that the settings ask for, or everything up to `info` if they ask for none. -/
def filter (check : ValueCheck) (s : Settings) : Filter :=
  match s.filter? check with
  | .ok f => f
  | .error _ => .info

end Settings
end RollupBoundary.Logging
