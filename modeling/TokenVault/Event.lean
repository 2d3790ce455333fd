import TokenVault.Algorithm
import TokenVault.Error
import TokenVault.Text.Bytes
import TokenVault.Text.Printable

/-!
# Events

What happens is told as a list of events, each with a level, a message and named fields.
No event carries a secret, a token or the content of a record.
-/

namespace TokenVault

/-- How much an event matters. -/
inductive Level
  | debug
  | info
  | warn
  deriving DecidableEq, Repr

/-- How a level is written. -/
def Level.name : Level → String
  | debug => "DEBUG"
  | info => "INFO"
  | warn => "WARN"

/-- The value of a field. -/
inductive FieldValue
  | text (value : String)
  | flag (value : Bool)
  | count (value : Nat)
  deriving DecidableEq, Repr

/-- Something that happened. -/
inductive Event
  | signed (algorithm : Algorithm) (keyId : Option String)
  | rejected (kind : ErrorKind)
  | lockAcquired (lock : Bytes)
  | lockReleased (lock : Bytes)
  /-- The system has refused to release the lock, in these words. -/
  | lockNotReleased (lock : Bytes) (wording : String)
  | rewrote (path : Bytes) (entries : Nat)
  | refusedLink (path : Bytes)
  | stored (key : String)
  | deleted (key : String) (existed : Bool)
  | cleared (path : Bytes)
  deriving DecidableEq, Repr

namespace Event

/-- The level of an event. -/
def level : Event → Level
  | signed _ _ | lockAcquired _ | lockReleased _ | rewrote _ _ => .debug
  | stored _ | deleted _ _ | cleared _ => .info
  | rejected _ | refusedLink _ | lockNotReleased _ _ => .warn

/-- The message of an event. -/
def message : Event → String
  | signed _ _ => "Signed token"
  | rejected _ => "Token rejected"
  | lockAcquired _ => "Acquired credential store lock"
  | lockReleased _ => "Released credential store lock"
  | lockNotReleased _ _ => "Failed to release credential store lock"
  | rewrote _ _ => "Rewrote credential store"
  | refusedLink _ => "Refusing symbolic link as credential store location"
  | stored _ => "Stored credential"
  | deleted _ _ => "Deleted credential"
  | cleared _ => "Cleared credential store"

/-- The fields of an event. -/
def fields : Event → List (String × FieldValue)
  | signed algorithm keyId =>
    [("alg", .text algorithm.name), ("kid", .text (Text.quotedOption keyId))]
  | rejected kind => [("code", .text kind.code)]
  | lockAcquired lock => [("path", .text lock.display)]
  | lockReleased lock => [("path", .text lock.display)]
  | lockNotReleased lock wording => [("path", .text lock.display), ("error", .text wording)]
  | rewrote path entries => [("path", .text path.display), ("entries", .count entries)]
  | refusedLink path => [("path", .text path.display)]
  | stored key => [("key", .text key)]
  | deleted key existed => [("key", .text key), ("existed", .flag existed)]
  | cleared path => [("path", .text path.display)]

end Event

end TokenVault
