import TokenVault.Json.Print
import TokenVault.Logging.Filter

/-!
# Logging

Logging is started once for a program.  Its filter is the one that the environment names,
or else the one of the options.  If the filter lets it, the start itself is logged.
-/

namespace TokenVault.Logging

/-- How a service logs. -/
structure Options where
  service : String
  /-- The filter, unless the environment has one. -/
  level : String
  /-- Whether log lines are objects. -/
  json : Bool
  deriving DecidableEq, Repr

namespace Options

/-- How a service logs if nothing else is said. -/
def default : Options := ⟨"token-core", "info", false⟩

/-- The options with the name of the service. -/
def withService (options : Options) (service : String) : Options := { options with service }

/-- The options with a filter. -/
def withLevel (options : Options) (level : String) : Options := { options with level }

/-- The options with log lines that are objects. -/
def withJson (options : Options) : Options := { options with json := true }

end Options

/-- Why logging is not started. -/
inductive Error
  | filter (cause : FilterError)
  | started
  deriving DecidableEq, Repr

/-- The detail of an error. -/
def Error.detail : Error → String
  | filter cause => "Invalid log level: " ++ cause.message
  | started => "Tracing already initialized: " ++
      "a global default trace dispatcher has already been set"

/-- A line of the log, without its time. -/
inductive Line
  | plain (text : String)
  | object (value : Json.Value)

/-- The target of the line about the start. -/
def target : String := "token_core::telemetry"

/-- The message of the line about the start. -/
def message : String := "Tracing initialized"

/-- The fields of the line about the start. -/
def fields : List String := ["message", "service"]

/-- The line about the start. -/
def startLine (options : Options) : Line :=
  if options.json then
    .object (.object [("level", .string "INFO"),
      ("fields", .object [("message", .string message), ("service", .string options.service)]),
      ("target", .string target)])
  else .plain ("INFO " ++ target ++ ": " ++ message ++ " service=" ++ options.service)

/-- The filter that counts, given the one that the environment names, if any.  One that
makes no sense is passed over. -/
def chooseFilter (environment : Option String) (options : Options) :
    Except Error Filter :=
  match environment.bind fun text => (Filter.ofText text).toOption with
  | some filter => .ok filter
  | none => (Filter.ofText options.level).mapError .filter

/-- Starts logging, unless it has been `started`: what is logged about it. -/
def start (environment : Option String) (started : Bool) (options : Options) :
    Except Error (List Line) := do
  let filter ← chooseFilter environment options
  if started then throw .started
  return if filter.lets .info target fields then [startLine options] else []

/-- Starts logging with each of several options in turn. -/
def startAll (environment : Option String) : (started : Bool) → List Options →
    List (Except Error (List Line))
  | _, [] => []
  | started, options :: rest =>
    let result := start environment started options
    result :: startAll environment (started || result.toBool) rest

end TokenVault.Logging
