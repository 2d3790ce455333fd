import TokenVault.FileTree.Operations
import TokenVault.Store.Faults
import TokenVault.Store.Request

/-!
# Stores

A store is a file with credentials.  Nothing is kept between requests: each one takes the
lock, reads the file, replaces it by a new one if the request changes anything, and
releases the lock.  The lock is a file of its own beside the data, so replacing the data
does not touch it.  A symbolic link in place of either file is refused.
-/

namespace TokenVault

/-- The path of a file with credentials. -/
structure Store where
  path : Bytes
  deriving DecidableEq

namespace Store

/-- The mode of the files of a store: nobody but their owner may use them. -/
def fileMode : Nat := 0o600

/-- The mode of a directory that is made for a store. -/
def directoryMode : Nat := 0o700

/-- The path of the lock. -/
def lockPath (store : Store) : Bytes := store.path ++ Bytes.ofText ".lock"

/-- The directory that the file lies in. -/
def directory (store : Store) : Bytes := Path.directory store.path

/-- Refuses a symbolic link.  Nothing at all is as good as a file. -/
def refuseLink (path : Bytes) : Step Unit := fun tree =>
  match tree.inspect path with
  | .ok (.link _) => ⟨tree, [.refusedLink path], .error (.symbolicLink path)⟩
  | .ok _ | .error .notFound => ⟨tree, [], .ok ()⟩
  | .error e => ⟨tree, [], .error (.system .inspect path e)⟩

/-- Makes sure of the directory of the store: it is made unless it is found.  If it cannot be looked
for it is not found. -/
def makeRoom (store : Store) (faults : Faults) : Step Unit := fun tree =>
  if faults.refusal .findDirectory = none ∧ tree.reaches store.directory then ⟨tree, [], .ok ()⟩
  else
    match tree.makeNewDirectories (fun dir => faults.refusal (.makeDirectory dir)) directoryMode
      (Path.ancestors store.directory) with
    | (tree, .ok _) => ⟨tree, [], .ok ()⟩
    | (tree, .error e) => ⟨tree, [], .error (.system .create store.directory e)⟩

/-- Opens the file of the lock, which is made if it is not there. -/
def openLock (store : Store) : Step Unit :=
  Step.change (·.openFile store.lockPath fileMode) (.system .openLock store.lockPath)

/-- Takes the lock. -/
def acquire (store : Store) (faults : Faults) : Step Unit := do
  faults.attempt .inspectFile (.system .inspect store.path) (refuseLink store.path)
  store.makeRoom faults
  faults.attempt .inspectLock (.system .inspect store.lockPath) (refuseLink store.lockPath)
  faults.attempt .openLock (.system .openLock store.lockPath) store.openLock
  faults.attempt .lock (.system .lock store.lockPath) (Step.tell [.lockAcquired store.lockPath])

/-- What is told when the lock is given up. -/
def released (store : Store) (faults : Faults) : Event :=
  match faults.refusal .unlock with
  | some wording => .lockNotReleased store.lockPath wording
  | none => .lockReleased store.lockPath

/-- Releases the lock.  Its file is closed after that, which frees the lock even if releasing it
has been refused. -/
def release (store : Store) (faults : Faults) : Step Unit := Step.tell [store.released faults]

/-- What is in the file.  No file is as good as one without credentials. -/
def readFile (store : Store) : Step Contents := fun tree =>
  match tree.content store.path with
  | .ok input => ⟨tree, [], (Contents.ofOctets input).mapError (.corrupt store.path)⟩
  | .error .notFound => ⟨tree, [], .ok .empty⟩
  | .error e => ⟨tree, [], .error (.system .read store.path e)⟩

/-- Reads the file; the link is refused again, as it may have come while the lock was
waited for. -/
def readContents (store : Store) (faults : Faults) : Step Contents := do
  faults.attempt .inspectAgain (.system .inspect store.path) (refuseLink store.path)
  faults.attempt .read (.system .read store.path) store.readFile

/-- A name that is longer than those of all files. -/
def unusedName (tree : FileTree) : Bytes :=
  let longest := (tree.entries.map fun e => (e.1.location.getLast?.getD []).length).foldl max 0
  Bytes.ofText ".tmp" ++ List.replicate longest 0x78

/-- Makes an empty temporary file in the directory of the store: where it is.  The name is as good
as any other unused one.  How long the whole path may be depends on where the process runs: if it
is too long, that is for the system to refuse. -/
def openTemporary (store : Store) : Step Location := fun tree =>
  match tree.follow store.directory with
  | .ok (directory, .directory _) =>
    let place := directory ++ [unusedName tree]
    ⟨tree.put place (.file fileMode []), [], .ok place⟩
  | .ok _ => ⟨tree, [], .error (.temporary .create .notDirectory)⟩
  | .error e => ⟨tree, [], .error (.temporary .create e)⟩

/-- Writes out a temporary file and makes sure of its mode, which it has been made with. -/
def writeOut (faults : Faults) (place : Location) (octets : Bytes) : Step Unit := do
  faults.write place fileMode octets
  faults.attempt .sync (.temporary .write) (pure ())
  faults.attempt .setMode (.temporary .setMode) (pure ())

/-- Puts a temporary file in place of the file.  If that cannot be done, it is removed. -/
def replaceBy (store : Store) (faults : Faults) (place : Location) : Step Unit :=
  faults.discarding place <|
    faults.attempt .replace (.system .replace store.path) <|
      Step.change (·.moveTo place store.path) (.system .replace store.path)

/-- Gives the store new contents. -/
def commit (store : Store) (faults : Faults) (contents : Contents) : Step Unit := do
  let place ← faults.attempt .createTemporary (.temporary .create) store.openTemporary
  faults.discarding place (writeOut faults place contents.octets)
  store.replaceBy faults place
  Step.tell [.rewrote store.path contents.entries.length]

/-- Grants a request while the lock is held: what the store held before it. -/
def grant (store : Store) (faults : Faults) (request : Request) : Step Contents := do
  let contents ← store.readContents faults
  if request.changes then store.commit faults (request.after contents)
  return contents

/-- Performs a request while the system refuses some of the calls that it takes. -/
def performUnder (store : Store) (faults : Faults) (request : Request) : Step Reply := do
  store.acquire faults
  let contents ← (store.grant faults request).afterwards (store.release faults)
  Step.tell (request.notice store.path contents)
  return request.reply contents

/-- Performs a request. -/
def perform (store : Store) (request : Request) : Step Reply := store.performUnder .none request

/-- Performs requests one after the other until one fails: what each one answered. -/
def performAll (store : Store) : List Request → Step (List Reply)
  | [] => Step.done []
  | request :: rest => do
    let reply ← store.perform request
    let replies ← store.performAll rest
    return reply :: replies

end Store

end TokenVault
