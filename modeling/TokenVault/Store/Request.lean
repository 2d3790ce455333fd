import TokenVault.Event
import TokenVault.Store.Contents

/-!
# Requests to a store

What a request makes of the contents of a store, and what it answers, apart from all
files.
-/

namespace TokenVault

/-- What may be asked of a store. -/
inductive Request
  /-- All that the store holds. -/
  | load
  | get (key : String)
  | keys
  /-- Puts a credential into the store, in place of one with the same key. -/
  | store (key : String) (credential : Credential)
  | delete (key : String)
  | clear
  deriving DecidableEq

/-- What a store answers. -/
inductive Reply
  | contents (contents : Contents)
  | credential (found : Option Credential)
  | keys (keys : List String)
  | done
  | existed (existed : Bool)
  deriving DecidableEq

namespace Request

/-- Whether the request changes what the store holds. -/
def changes : Request → Bool
  | load | get _ | keys => false
  | store _ _ | delete _ | clear => true

/-- What the store holds after the request. -/
def after (contents : Contents) : Request → Contents
  | load | get _ | keys => contents
  | store key credential => contents.insert key credential
  | delete key => contents.erase key
  | clear => .empty

/-- What the store answers to the request. -/
def reply (contents : Contents) : Request → Reply
  | load => .contents contents
  | get key => .credential (contents.get? key)
  | keys => .keys contents.keys
  | store _ _ | clear => .done
  | delete key => .existed (contents.contains key)

/-- What a store with this path tells about a request that it has granted. -/
def notice (path : Bytes) (contents : Contents) : Request → List Event
  | load | get _ | keys => []
  | store key _ => [.stored key]
  | delete key => [.deleted key (contents.contains key)]
  | clear => [.cleared path]

/-- A request that changes nothing leaves the contents as they are. -/
theorem after_of_not_changes {request : Request} (h : request.changes = false)
    (contents : Contents) : request.after contents = contents := by
  cases request <;> simp_all [changes, after]

end Request

end TokenVault
