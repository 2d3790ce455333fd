import TokenVault.Store.Step

/-!
# What the system refuses

The system may refuse what a store asks of it for reasons that the files do not show: the disk
is full or broken, there is no lock to be had, something is forbidden.  What is refused has
not been done, except that part of a file may have been written.
-/

namespace TokenVault

/-- What a store asks of the system for a request, in this order.  The look at the file is
repeated once the lock is held. -/
inductive SystemCall
  | inspectFile
  | findDirectory
  | makeDirectory (dir : Bytes)
  | inspectLock
  | openLock
  | lock
  | inspectAgain
  | read
  | createTemporary
  | write
  | sync
  | setMode
  | replace
  /-- Removes a temporary file that does not take the place of the file. -/
  | remove
  | unlock
  deriving DecidableEq, Repr

/-- The calls that the system refuses while a request is performed, each in words of its own.  If
it refuses to write a file, so many octets of it have been written by then. -/
structure Faults where
  refusal : SystemCall → Option String
  written : Nat

namespace Faults

variable {α : Type}

/-- The system refuses nothing. -/
protected def none : Faults := ⟨fun _ => .none, 0⟩

/-- The system refuses this call and no other one. -/
def only (call : SystemCall) (wording : String) : Faults :=
  ⟨fun other => if other = call then some wording else .none, 0⟩

/-- A step that takes a call to the system: it is not made if the call is refused. -/
def attempt (faults : Faults) (call : SystemCall) (fault : SystemError → StoreError)
    (step : Step α) : Step α :=
  match faults.refusal call with
  | some wording => Step.fail (fault (.other wording))
  | .none => step

/-- Writes a file that is there already. -/
def write (faults : Faults) (place : Location) (mode : Nat) (octets : Bytes) : Step Unit :=
  match faults.refusal .write with
  | some wording => fun tree =>
    ⟨tree.put place (.file mode (octets.take faults.written)), [],
      .error (.temporary .write (.other wording))⟩
  | .none => fun tree => ⟨tree.put place (.file mode octets), [], .ok ()⟩

/-- A step with a temporary file.  If it fails the file is removed; if that is refused as well
the file stays, and nobody is told. -/
def discarding (faults : Faults) (place : Location) (step : Step α) : Step α := fun tree =>
  let outcome := step tree
  match outcome.result, faults.refusal .remove with
  | .error _, .none => { outcome with tree := outcome.tree.drop place }
  | _, _ => outcome

end Faults

end TokenVault
