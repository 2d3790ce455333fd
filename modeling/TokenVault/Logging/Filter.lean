import TokenVault.Logging.Pattern.Basic
import TokenVault.Text.Bytes
import TokenVault.Text.Decimal
import TokenVault.Text.Numeral

/-!
# Filters

A filter says which events are written.  It is a list of directives between commas, each a
level, a target with or without a level, or the like for events that have a given field.
The value of a field is given by a number or a pattern.  Of the directives that match an
event the most specific one decides.
-/

namespace TokenVault.Logging

/-- How much is written. -/
inductive Verbosity
  | off
  | error
  | warn
  | info
  | debug
  | trace
  deriving DecidableEq, Repr

namespace Verbosity

/-- The number of a verbosity: the greater, the more is written. -/
def rank : Verbosity → Nat
  | off => 0
  | error => 1
  | warn => 2
  | info => 3
  | debug => 4
  | trace => 5

/-- The name of a verbosity. -/
def name : Verbosity → String
  | off => "off"
  | error => "error"
  | warn => "warn"
  | info => "info"
  | debug => "debug"
  | trace => "trace"

/-- Every verbosity. -/
def all : List Verbosity := [off, error, warn, info, debug, trace]

/-- The verbosity that a text names, by its number or by its name in any case. -/
def ofText? (text : String) : Option Verbosity :=
  match Numeral.ofText text with
  | .ok n => all.find? (·.rank = n.toNat)
  | .error _ => all.find? fun v => v.name.toList = text.toList.map Char.toLower

end Verbosity

/-- Why a filter is refused. -/
inductive FilterError
  | shape
  | level
  /-- The value of a field makes no sense. -/
  | value (fault : Pattern.Fault)
  deriving DecidableEq, Repr

/-- The wording of a refusal. -/
def FilterError.message : FilterError → String
  | shape => "invalid filter directive"
  | value fault => "invalid field filter: " ++ fault.message
  | level => "error parsing level filter: expected one of \"off\", \"error\", \"warn\", " ++
      "\"info\", \"debug\", \"trace\", or a number 0-5"

/-- Says what is written of the events that match. -/
structure Directive where
  /-- What the target of an event must begin with. -/
  target : Option String
  /-- The span that an event must lie in. -/
  span : Option String
  /-- A field that an event must have, perhaps with a given value. -/
  field : Option String
  verbosity : Verbosity
  deriving DecidableEq, Repr

namespace Directive

/-- Everything up to a verbosity. -/
def ofVerbosity (verbosity : Verbosity) : Directive := ⟨none, none, none, verbosity⟩

/-- The part of a text between two positions, in octets. -/
def cut (text : Bytes) (first last : Nat) : String :=
  Bytes.display ((text.drop first).take (last - first))

/-- The first of some octets from a position on, and where it is. -/
def seek (text : Bytes) (first : Nat) (stops : Bytes) : Option (Nat × UInt8) :=
  let skipped := ((text.drop first).takeWhile (· ∉ stops)).length
  (text[first + skipped]?).map fun octet => (first + skipped, octet)

/-- The octets that have a meaning in directives. -/
def equals : UInt8 := 0x3D

/-- The octet `[`. -/
def opening : UInt8 := 0x5B

/-- The octet `]`. -/
def closing : UInt8 := 0x5D

/-- The octet that opens a field. -/
def openingField : UInt8 := 0x7B

/-- The octet that closes a field. -/
def closingField : UInt8 := 0x7D

/-- A text without the blanks around it. -/
def shapeOf (text : String) : List Char :=
  ((text.toList.dropWhile Text.isBlank).reverse.dropWhile Text.isBlank).reverse

/-- Reads a verbosity from a position to the end.  Nothing at all means everything. -/
def readLevel (whole : Bytes) (first : Nat) : Except FilterError Verbosity :=
  match cut whole first whole.length with
  | "" => .ok .trace
  | text =>
    match Verbosity.ofText? text with
    | some verbosity => .ok verbosity
    | none => .error .level

/-- Reads what follows a bracket: nothing or a verbosity. -/
def readAfterSpan (shape whole : Bytes) (first : Nat) : Except FilterError Verbosity :=
  match shape[first]? with
  | none => .ok .trace
  | some octet => if octet = equals then readLevel whole (first + 1) else .error .shape

/-- The value that a field is to have, if one is given: it stands between the first equals
sign and the next one. -/
def valueOf? (field : String) : Option (List Char) :=
  match field.toList.dropWhile (· ≠ '=') with
  | [] => none
  | _ :: rest => some (rest.takeWhile (· ≠ '='))

/-- What is wrong with the value that a field is to have, if anything. -/
def valueFault? (field : String) : Option Pattern.Fault :=
  (valueOf? field).bind fun value =>
    if Text.isNumber value then none else Pattern.fault? value

/-- Reads a directive from the opening bracket of its span on. -/
def readSpan (shape whole : Bytes) (target : Option String) (first : Nat) :
    Except FilterError Directive :=
  match seek shape first [closing, openingField] with
  | none => .error .shape
  | some (stop, octet) =>
    let name := cut whole first stop
    if octet = closing then do
      return ⟨target, some name, none, ← readAfterSpan shape whole (stop + 1)⟩
    else
      match seek shape (stop + 1) [closingField] with
      | none => .error .shape
      | some (last, _) =>
        let field := cut whole (stop + 1) last
        if field = "" then .error .shape
        else
          match valueFault? field with
          | some fault => .error (.value fault)
          | none =>
            if shape[last + 1]? ≠ some closing then .error .shape
            else do
              return ⟨target, if name = "" then none else some name, some field,
                ← readAfterSpan shape whole (last + 2)⟩

/-- Whether a directive that has no span at its front may begin with a character. -/
def startsTarget (c : Char) : Bool :=
  c = '-' || c = ':' || c = '_' || Text.isAlphanumeric c

/-- Reads a directive.  Its shape is found without the blanks around it, but its parts are
cut out of the text with them. -/
def ofText (text : String) : Except FilterError Directive :=
  let whole := Bytes.ofText text
  match shapeOf text with
  | [] => .error .shape
  | c :: rest =>
    let shape := Bytes.ofText (String.ofList (c :: rest))
    if c = '[' then readSpan shape whole none 1
    else if !startsTarget c then .error .shape
    else
      match seek shape 0 [equals, opening] with
      | none =>
        match Verbosity.ofText? text with
        | some verbosity => .ok (ofVerbosity verbosity)
        | none => .ok ⟨some text, none, none, .trace⟩
      | some (stop, octet) =>
        let target := cut whole 0 stop
        if octet = equals then do
          return ⟨some target, none, none, ← readLevel whole (stop + 1)⟩
        else readSpan shape whole (some target) (stop + 1)

/-- Whether a directive concerns events by themselves and not by the spans they lie in or
the values of their fields. -/
def isPlain (directive : Directive) : Bool :=
  directive.span.isNone && directive.field.all (fun field => (valueOf? field).isNone)

/-- Whether a directive concerns events with a target and fields. -/
def applies (directive : Directive) (target : String) (fields : List String) : Bool :=
  directive.isPlain &&
    directive.target.all (fun start => start.toList.isPrefixOf target.toList) &&
    directive.field.all fields.contains

/-- How specific a directive is: by the length of its target, then by its field. -/
def specificity (directive : Directive) : Nat × Nat × Bytes :=
  (directive.target.elim 0 fun target => (Bytes.ofText target).length + 1,
    directive.field.elim 0 fun _ => 1,
    directive.field.elim [] Bytes.ofText)

/-- Whether one directive is less specific than another. -/
def lessSpecific (a b : Directive) : Bool :=
  let (target, field, name) := a.specificity
  let (target', field', name') := b.specificity
  target < target' ||
    (target = target' && (field < field' || (field = field' && decide (name < name'))))

end Directive

/-- Says which events are written. -/
structure Filter where
  directives : List Directive
  deriving DecidableEq, Repr

namespace Filter

/-- The parts of a text between commas. -/
def pieces (text : String) : List String :=
  (text.toList.foldr (fun c pieces =>
    match pieces with
    | piece :: rest => if c = ',' then [] :: piece :: rest else (c :: piece) :: rest
    | [] => [[c]]) [[]]).map String.ofList

/-- Reads a filter.  A filter without directives lets errors pass. -/
def ofText (text : String) : Except FilterError Filter := do
  let directives ← ((pieces text).filter (· ≠ "")).mapM Directive.ofText
  return ⟨if directives = [] then [.ofVerbosity .error] else directives⟩

/-- How much is written of events with a target and fields.  Of equally specific
directives the last one counts. -/
def verbosity (filter : Filter) (target : String) (fields : List String) : Verbosity :=
  let best := (filter.directives.filter (·.applies target fields)).foldl
    (fun best directive =>
      match best with
      | some other => if directive.lessSpecific other then some other else some directive
      | none => some directive) none
  best.elim .off (·.verbosity)

/-- Whether events of a verbosity with a target and fields are written. -/
def lets (filter : Filter) (verbosity : Verbosity) (target : String) (fields : List String) :
    Bool :=
  verbosity.rank ≤ (filter.verbosity target fields).rank

end Filter

end TokenVault.Logging
