import Mathlib.Logic.Function.Basic
import TokenVault.Store.Basic

/-!
# Interleaved requests

Any number of clients make requests to one store, and their steps are interleaved as a schedule
says.  A request is granted step by step: before it waits for the lock it does what `acquire`
does, and holding the lock it does what `grant` does, except that the temporary file is written
little by little.  On its own a client does just what `perform` does (`Shared.run_alone`).  It may
halt wherever it stands; its lock is then freed some time later.  The state records which requests
have got the lock, which of them have renamed their temporary file, and what has been returned.
-/

namespace TokenVault

namespace Store

/-- What is done for a request before it waits for the lock. -/
inductive Preparation
  | refuseLink
  | makeRoom
  | refuseLockLink
  | openLock
  deriving DecidableEq

/-- Does what comes before the lock, one step at a time. -/
def prepare (store : Store) : Preparation → Step Unit
  | .refuseLink => Store.refuseLink store.path
  | .makeRoom => store.makeRoom .none
  | .refuseLockLink => Store.refuseLink store.lockPath
  | .openLock => store.openLock

/-- Where a request stands.  Of a temporary file it is known how much has been written. -/
inductive Stage
  | preparing (next : Preparation)
  | waiting
  | locked
  | known (contents : Contents)
  | writing (contents : Contents) (place : Location) (written : Nat)
  | settled (outcome : Except StoreError Contents)
  | released (outcome : Except StoreError Contents)

/-- What follows on a step before the lock. -/
def Preparation.after (outcome : Except StoreError Unit) (step : Preparation) : Stage :=
  match outcome with
  | .error e => .released (.error e)
  | .ok () =>
    match step with
    | refuseLink => .preparing makeRoom
    | makeRoom => .preparing refuseLockLink
    | refuseLockLink => .preparing openLock
    | openLock => .waiting

/-- Where a client stands. -/
inductive Point
  | idle
  | busy (request : Request) (stage : Stage)
  | halted

/-- A client, the requests that it has still to make, and how many it has begun. -/
structure Client where
  point : Point
  pending : List Request
  number : Nat

/-- A request that a client has begun, and which of its requests it is. -/
structure Call (ι : Type) where
  client : ι
  number : Nat
  request : Request
  deriving DecidableEq

/-- The files, who holds the lock, and where all clients stand; and what has happened: the calls
in the order in which they have got the lock, those that have renamed their file, and those that
have returned. -/
structure Shared (ι : Type) where
  tree : FileTree
  holder : Option ι
  clients : ι → Client
  acquired : List (Call ι)
  renamed : List (Call ι)
  returned : List (Call ι × Except StoreError Reply)

/-- What may happen next: a client goes on, and if it is writing it writes so many octets; a
client halts; or the lock of a client that has halted is freed. -/
inductive Action (ι : Type)
  | advance (client : ι) (octets : Nat)
  | halt (client : ι)
  | reclaim

namespace Shared

variable {ι : Type} [DecidableEq ι]

/-- The state in which no request has been made yet. -/
def initial (tree : FileTree) (pending : ι → List Request) : Shared ι where
  tree := tree
  holder := none
  clients client := ⟨.idle, pending client, 0⟩
  acquired := []
  renamed := []
  returned := []

/-- The call that a client is busy with if it makes this request. -/
def call (s : Shared ι) (client : ι) (request : Request) : Call ι :=
  ⟨client, (s.clients client).number, request⟩

/-- The clients, one of which stands elsewhere now. -/
def moved (s : Shared ι) (client : ι) (point : Point) : ι → Client :=
  Function.update s.clients client { s.clients client with point := point }

theorem moved_self (s : Shared ι) (client : ι) (point : Point) :
    s.moved client point client = { s.clients client with point := point } := by
  rw [moved, Function.update_self]

theorem moved_of_ne (s : Shared ι) {client other : ι} (h : other ≠ client) (point : Point) :
    s.moved client point other = s.clients other := by
  rw [moved, Function.update_of_ne h]

/-- A client makes its next request, if there is one. -/
def begin (s : Shared ι) (client : ι) : Shared ι :=
  match (s.clients client).pending with
  | [] => s
  | request :: rest =>
    let begun : Client :=
      ⟨.busy request (.preparing .refuseLink), rest, (s.clients client).number + 1⟩
    { s with clients := Function.update s.clients client begun }

/-- A client goes on with a request.  To get the lock it must be free; to be renamed a temporary
file must be written out. -/
def proceed (store : Store) (octets : Nat) (s : Shared ι) (client : ι) (request : Request) :
    Stage → Shared ι
  | .preparing step =>
    let outcome := store.prepare step s.tree
    { s with
      tree := outcome.tree
      clients := s.moved client (.busy request (step.after outcome.result)) }
  | .waiting =>
    match s.holder with
    | some _ => s
    | none =>
      { s with
        holder := some client
        clients := s.moved client (.busy request .locked)
        acquired := s.acquired ++ [s.call client request] }
  | .locked =>
    let outcome := store.readContents .none s.tree
    let stage := match outcome.result with
      | .ok contents => Stage.known contents
      | .error e => .settled (.error e)
    { s with tree := outcome.tree, clients := s.moved client (.busy request stage) }
  | .known contents =>
    if request.changes then
      let outcome := store.openTemporary s.tree
      let stage := match outcome.result with
        | .ok place => Stage.writing contents place 0
        | .error e => .settled (.error e)
      { s with tree := outcome.tree, clients := s.moved client (.busy request stage) }
    else { s with clients := s.moved client (.busy request (.settled (.ok contents))) }
  | .writing contents place written =>
    let all := (request.after contents).octets
    if written < all.length then
      let next := written + octets
      { s with
        tree := s.tree.put place (.file fileMode (all.take next))
        clients := s.moved client (.busy request (.writing contents place next)) }
    else
      let outcome := store.replaceBy .none place s.tree
      match outcome.result with
      | .ok () =>
        { s with
          tree := outcome.tree
          clients := s.moved client (.busy request (.settled (.ok contents)))
          renamed := s.renamed ++ [s.call client request] }
      | .error e =>
        { s with
          tree := outcome.tree
          clients := s.moved client (.busy request (.settled (.error e))) }
  | .settled outcome =>
    { s with holder := none, clients := s.moved client (.busy request (.released outcome)) }
  | .released outcome =>
    { s with
      clients := s.moved client .idle
      returned := s.returned ++ [(s.call client request, outcome.map (request.reply ·))] }

/-- What comes of an action.  One that is not possible changes nothing. -/
def step (store : Store) (s : Shared ι) : Action ι → Shared ι
  | .advance client octets =>
    match (s.clients client).point with
    | .idle => s.begin client
    | .busy request stage => s.proceed store octets client request stage
    | .halted => s
  | .halt client => { s with clients := s.moved client .halted }
  | .reclaim =>
    match s.holder with
    | none => s
    | some client =>
      match (s.clients client).point with
      | .halted => { s with holder := none }
      | _ => s

/-- What comes of a schedule. -/
def run (store : Store) (s : Shared ι) (schedule : List (Action ι)) : Shared ι :=
  schedule.foldl (fun s action => s.step store action) s

end Shared

end Store

end TokenVault
