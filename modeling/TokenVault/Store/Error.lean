import TokenVault.Error
import TokenVault.FileTree.Basic
import TokenVault.Json.Error

/-!
# Faults of a store

Every fault of a store names the path that it concerns unless that is a temporary file, and
a system error or what is wrong with the file.
-/

namespace TokenVault

/-- What a store does with a path. -/
inductive StoreTask
  | inspect
  | create
  | openLock
  | lock
  | read
  | replace
  deriving DecidableEq, Repr

/-- How a task is put in a message. -/
def StoreTask.text : StoreTask → String
  | inspect => "stat"
  | create => "create"
  | openLock => "open lock file"
  | lock => "lock"
  | read => "read"
  | replace => "replace"

/-- What a store does with a temporary file before it takes the place of the file. -/
inductive TemporaryTask
  | create
  | write
  | setMode
  deriving DecidableEq, Repr

/-- How a task with a temporary file is put in a message. -/
def TemporaryTask.text : TemporaryTask → String
  | create => "create temp file"
  | write => "write temp file"
  | setMode => "set permissions"

/-- Why a store refuses a request. -/
inductive StoreError
  /-- There is a symbolic link where a file of the store should be. -/
  | symbolicLink (path : Bytes)
  | system (task : StoreTask) (path : Bytes) (cause : SystemError)
  | temporary (task : TemporaryTask) (cause : SystemError)
  /-- The file holds no credentials. -/
  | corrupt (path : Bytes) (cause : Json.Error)
  deriving DecidableEq

namespace StoreError

/-- The kind of a fault. -/
def kind : StoreError → ErrorKind
  | symbolicLink _ => .unsafeLocation
  | system _ _ _ | temporary _ _ | corrupt _ _ => .storeFault

/-- The detail of a fault. -/
def detail : StoreError → String
  | symbolicLink path => path.display
  | system task path cause =>
    "Failed to " ++ task.text ++ " " ++ path.display ++ ": " ++ cause.message
  | temporary task cause => "Failed to " ++ task.text ++ ": " ++ cause.message
  | corrupt path cause =>
    "Corrupt credential store " ++ path.display ++ ": " ++ cause.message

/-- The wording of a fault. -/
def message (e : StoreError) : String := e.kind.describe e.detail

/-- Every fault of a store puts its credentials out of reach. -/
theorem isStorageFault_kind (e : StoreError) : e.kind.isStorageFault = true := by
  cases e <;> rfl

end StoreError

end TokenVault
