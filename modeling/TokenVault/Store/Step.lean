import TokenVault.Event
import TokenVault.FileTree.Basic
import TokenVault.Store.Error

/-!
# Steps on files

A step turns a file tree into another, tells events and succeeds or fails.  Steps are
taken one after the other until one fails; what has been done and told by then stays.
-/

namespace TokenVault

/-- What a step leaves behind: the files, the events in order, and its result. -/
structure Outcome (α : Type) where
  tree : FileTree
  events : List Event
  result : Except StoreError α

/-- Something done to a file tree. -/
def Step (α : Type) : Type := FileTree → Outcome α

namespace Step

variable {α β : Type}

/-- The step that does nothing and succeeds. -/
def done (value : α) : Step α := fun tree => ⟨tree, [], .ok value⟩

/-- The step that does nothing and fails. -/
def fail (e : StoreError) : Step α := fun tree => ⟨tree, [], .error e⟩

/-- A step, and if it succeeds another. -/
def andThen (first : Step α) (next : α → Step β) : Step β := fun tree =>
  let outcome := first tree
  match outcome.result with
  | .ok value =>
    let rest := next value outcome.tree
    ⟨rest.tree, outcome.events ++ rest.events, rest.result⟩
  | .error e => ⟨outcome.tree, outcome.events, .error e⟩

instance : Monad Step where
  pure := done
  bind := andThen

/-- The step that only tells events. -/
def tell (events : List Event) : Step Unit := fun tree => ⟨tree, events, .ok ()⟩

/-- The step that changes files as the file system allows, or fails. -/
def change (alter : FileTree → Except SystemError FileTree) (fault : SystemError → StoreError) :
    Step Unit := fun tree =>
  match alter tree with
  | .ok tree => ⟨tree, [], .ok ()⟩
  | .error e => ⟨tree, [], .error (fault e)⟩

/-- A step, and whether it succeeds or fails another. -/
def afterwards (first : Step α) (last : Step Unit) : Step α := fun tree =>
  let outcome := first tree
  let rest := last outcome.tree
  ⟨rest.tree, outcome.events ++ rest.events, outcome.result⟩

end Step

end TokenVault
