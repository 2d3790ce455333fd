import TokenVault.Environment.File
import TokenVault.Logging.Basic
import TokenVault.Store.Basic
import TokenVault.Token.Verifier

/-!
# Settings

The settings of a program are read from its environment once and checked at once.  A
variable that is missing leaves its setting at the default; the first one that makes no
sense is reported.
-/

namespace TokenVault

/-- The settings of a program. -/
structure Settings where
  storePath : Bytes
  /-- By how much clocks may differ when a token is verified. -/
  clockSkew : Duration
  /-- How long before its expiry an access token is due for a refresh. -/
  refreshWindow : Duration
  logLevel : String
  logJson : Bool
  deriving DecidableEq

/-- What is wrong with the settings. -/
inductive SettingsError
  | number (name : String) (fault : Numeral.Fault)
  | flag (name : String)
  | emptyStorePath
  deriving DecidableEq, Repr

namespace Settings

/-- The variable for the path of the store. -/
def storePathName : String := "CREDENTIAL_STORE_PATH"

/-- The variable for the skew of clocks. -/
def clockSkewName : String := "TOKEN_CLOCK_SKEW_SECONDS"

/-- The variable for the refresh window. -/
def refreshWindowName : String := "TOKEN_REFRESH_WINDOW_SECONDS"

/-- The variable for the log filter. -/
def logLevelName : String := "LOG_LEVEL"

/-- The variable for the form of log lines. -/
def logJsonName : String := "LOG_JSON"

end Settings

namespace SettingsError

/-- The detail of an error. -/
def detail : SettingsError → String
  | number name fault => "Invalid " ++ name ++ ": " ++ fault.message
  | flag name => "Invalid " ++ name ++ ": provided string was not `true` or `false`"
  | emptyStorePath => Settings.storePathName ++ " must not be empty"

/-- The wording of an error. -/
def message (e : SettingsError) : String := ErrorKind.settings.describe e.detail

end SettingsError

namespace Settings

/-- The settings of an empty environment. -/
def default : Settings where
  storePath := Bytes.ofText ".credentials/stored_credentials.json"
  clockSkew := .ofSeconds Verifier.defaultSkew
  refreshWindow := .ofSeconds 60
  logLevel := Logging.Options.default.level
  logJson := false

/-- A number of seconds from the environment. -/
def seconds (environment : Environment) (name : String) (otherwise : Duration) :
    Except SettingsError Duration :=
  match environment.text? name with
  | some text => ((Numeral.ofText text).map .ofSeconds).mapError (.number name)
  | none => .ok otherwise

/-- A truth value from the environment. -/
def flag (environment : Environment) (name : String) (otherwise : Bool) :
    Except SettingsError Bool :=
  match environment.text? name with
  | some "true" => .ok true
  | some "false" => .ok false
  | some _ => .error (.flag name)
  | none => .ok otherwise

/-- The settings that an environment makes. -/
def ofEnvironment (environment : Environment) : Except SettingsError Settings := do
  let storePath :=
    (environment.text? storePathName).elim default.storePath Bytes.ofText
  let clockSkew ← seconds environment clockSkewName default.clockSkew
  let refreshWindow ← seconds environment refreshWindowName default.refreshWindow
  let logLevel := (environment.text? logLevelName).getD default.logLevel
  let logJson ← flag environment logJsonName default.logJson
  if storePath = [] then throw .emptyStorePath
  return { storePath, clockSkew, refreshWindow, logLevel, logJson }

/-- How the program logs. -/
def logging (settings : Settings) : Logging.Options :=
  { Logging.Options.default with level := settings.logLevel, json := settings.logJson }

/-- The store of the program. -/
def store (settings : Settings) : Store := ⟨settings.storePath⟩

/-- What the program requires of tokens under a key. -/
def verifier (settings : Settings) (key : VerificationKey) : Verifier :=
  { Verifier.ofKey key with skew := settings.clockSkew.seconds }

theorem ofEnvironment_empty : (ofEnvironment .empty).toOption = some default := by
  decide +kernel

end Settings

end TokenVault
