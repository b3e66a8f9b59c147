import MaxApi.Lib.Int64
import MaxApi.Lib.System
import MaxApi.TaskPlugin.State
import Mathlib.Logic.Function.Basic

/-! # The catalog store and its nodes

The durable catalog is a head row with the revision and one row for every version.  A node reads it
in three statements, between which other nodes commit, and writes it in one transaction that first
claims the next revision.  A node makes one call at a time; every statement is a step of its own, so
a list of operations is an interleaving of any number of nodes, of their restarts and of direct
calls of the store. -/

namespace MaxApi.TaskPlugin

open Checked

structure TaskPluginCatalogHead where
  revision : ℤ
  mutationID : String
  deriving DecidableEq

/-- The tables: the head row, if it is there, and the rows of the versions by their identity. -/
structure Store where
  head : Option TaskPluginCatalogHead
  rows : Dict StoredPackage

variable (lib : Library)

def taskPluginStorageIdentity (entry : StoredPackage) : Option String :=
  (loadPackage lib entry.document entry.digest).map fun p => lib.sha256 p.identity

/-- The rows in the order of their identities. -/
def sortedRows (rows : Dict StoredPackage) : List (Dict.Entry StoredPackage) :=
  rows.entries.insertionSort fun a b => a.1 ≤ b.1

def loadVersion (row : Dict.Entry StoredPackage) : Except CatalogError StoredPackage := do
  require (taskPluginStorageIdentity lib row.2 = some row.1) .invalid
  pure row.2

def loadTaskPluginVersions (rows : Dict StoredPackage) : Except CatalogError (List StoredPackage) :=
  (sortedRows rows).mapM (loadVersion lib)

/-! ### Reading -/

/-- The first statement of `Load`. -/
def readHead (s : Store) : Except CatalogError (Option TaskPluginCatalogHead) :=
  match s.head with
  | none => pure none
  | some head => do
      require (0 < head.revision ∧ head.mutationID ≠ "") .invalid
      pure (some head)

/-- The last statement of `Load`: the head must be as it was. -/
def recheck (s : Store) (head : Option TaskPluginCatalogHead) (packages : List StoredPackage) :
    Except CatalogError CatalogSnapshot := do
  require (s.head = head) .conflict
  match head with
  | none => do
      require (packages = []) .invalid
      pure ⟨0, packages⟩
  | some h => pure ⟨h.revision, packages⟩

/-! ### Writing -/

/-- The transaction's claim of the revision after `revision`. -/
def claimHead (s : Store) (revision : ℤ) (mutationID : String) :
    Except CatalogError TaskPluginCatalogHead :=
  match s.head with
  | none => do
      require (revision = 0) .conflict
      pure ⟨1, mutationID⟩
  | some head =>
      if revision = 0 then do
        -- the insert did nothing, and the row that is there is read back
        require (head.mutationID = mutationID ∧ head.revision = 1) .conflict
        pure head
      else do
        require (head.revision = revision) .conflict
        pure ⟨revision + 1, mutationID⟩

/-- Write one version: the flags of a known one, a row for a new one. -/
def writeVersion (known : List String) (rows : Dict StoredPackage) (e : String × StoredPackage) :
    Except CatalogError (Dict StoredPackage) :=
  match rows.lookup e.1 with
  | none => pure (if e.1 ∈ known then rows else rows.insert e.1 e.2)
  | some row => do
      require (e.1 ∈ known) .unavailable
      pure (rows.insert e.1 { e.2 with document := row.document, digest := row.digest })

def identified (entry : StoredPackage) : Except CatalogError (String × StoredPackage) := do
  let identity ← orThrow (taskPluginStorageIdentity lib entry) .invalid
  pure (identity, entry)

/-- `TaskPluginCatalogStore.CompareAndSwap`, as far as it changes the tables. -/
def compareAndSwap (revision : ℤ) (packages : List StoredPackage) (mutationID : String)
    (s : Store) : Except CatalogError Store := do
  require (0 ≤ revision ∧ revision ≠ Int64Range.maxValue) .invalid
  validateCatalogTransition lib ⟨0, []⟩ ⟨revision + 1, packages⟩
  let versions ← packages.mapM (identified lib)
  let head ← claimHead s revision mutationID
  let previous ← loadTaskPluginVersions lib s.rows
  require (revision = 0 → previous = []) .invalid
  validateCatalogTransition lib ⟨revision, previous⟩ ⟨revision + 1, packages⟩
  let rows ← versions.foldlM (writeVersion s.rows.keys) s.rows
  pure ⟨some head, rows⟩

/-! ### Nodes -/

/-- The calls of the catalog that read or change the store. -/
inductive Task where
  | refresh
  /-- `updateExpected`; `update` expects no revision. -/
  | update (expected : Option ℤ) (change : Change lib)
  deriving DecidableEq

/-- What a call checks before it takes the lock. -/
def Task.check : Task lib → Except CatalogError Unit
  | .refresh => pure ()
  | .update expected change => do
      require (∀ r ∈ expected, 0 ≤ r ∧ r ≠ Int64Range.maxValue) .invalid
      match change with
      | .install [] => throw .invalid
      | _ => pure ()

/-- How far the call of a node is. -/
inductive Phase where
  | idle
  | starting (task : Task lib) (attempt : ℕ)
  | reading (task : Task lib) (attempt : ℕ) (head : Option TaskPluginCatalogHead)
  | read (task : Task lib) (attempt : ℕ) (head : Option TaskPluginCatalogHead)
      (packages : List StoredPackage)
  | loaded (task : Task lib) (attempt : ℕ) (result : Except CatalogError CatalogSnapshot)
  | swapping (task : Task lib) (next : CatalogSnapshot) (state : HostState lib)
  | swapped (task : Task lib) (next : CatalogSnapshot) (state : HostState lib)
      (result : Except CatalogError ℤ)

/-- A catalog in its process; `host` is what the host serves at the moment. -/
structure Node where
  snapshot : CatalogSnapshot
  state : Option (HostState lib)
  host : Option (HostState lib)
  phase : Phase lib

/-- A catalog that has not read the store yet. -/
def Node.new : Node lib := ⟨⟨0, []⟩, none, none, .idle⟩

variable {lib}

def Node.suspend (nd : Node lib) : Node lib := { nd with host := none }

/-- `Catalog.publish`. -/
def Node.publish (nd : Node lib) (snapshot : CatalogSnapshot) (state : HostState lib) : Node lib :=
  { nd with snapshot := snapshot, state := some state, host := some state }

def Node.in (nd : Node lib) (phase : Phase lib) : Node lib := { nd with phase := phase }

variable (lib)

/-- A call that has returned; `revision` is the one that its catalog holds then. -/
structure Returned where
  node : ℕ
  task : Task lib
  result : Except CatalogError Unit
  revision : ℤ
  deriving DecidableEq

/-- All nodes and the store.  `commits` lists what the store has held, the newest first, and
`returned` what the calls have returned, the oldest first. -/
structure World where
  store : Store
  /-- How many mutation ids have been drawn. -/
  drawn : ℕ
  nodes : ℕ → Node lib
  commits : List CatalogSnapshot
  returned : List (Returned lib)

/-- What goes wrong in a step: a statement fails, its reply is lost, the caller goes away. -/
inductive Fault where
  | none
  | fails
  | replyLost
  | canceled
  deriving DecidableEq

inductive Op where
  | begin (node : ℕ) (task : Task lib)
  | proceed (node : ℕ) (fault : Fault)
  /-- A process starts: a new catalog, whose first call is a refresh. -/
  | restart (node : ℕ)
  /-- A call of the store that no catalog makes. -/
  | storeCall (revision : ℤ) (packages : List StoredPackage)

def Store.revision (s : Store) : ℤ := (s.head.map TaskPluginCatalogHead.revision).getD 0

/-- The snapshot that the tables hold. -/
def Store.contents (s : Store) : CatalogSnapshot :=
  ⟨s.revision, (sortedRows s.rows).map Sigma.snd⟩

def World.start : World lib where
  store := ⟨none, ∅⟩
  drawn := 0
  nodes := fun _ => Node.new lib
  commits := [⟨0, []⟩]
  returned := []

variable {lib}

def World.set (w : World lib) (n : ℕ) (nd : Node lib) : World lib :=
  { w with nodes := Function.update w.nodes n nd }

/-- The call of node `n` returns. -/
def World.finish (w : World lib) (n : ℕ) (nd : Node lib) (task : Task lib)
    (result : Except CatalogError Unit) : World lib :=
  { w.set n (nd.in .idle) with
    returned := w.returned ++ [⟨n, task, result, nd.snapshot.revision⟩] }

def World.commit (w : World lib) (s : Store) : World lib :=
  { w with store := s, commits := s.contents :: w.commits }

/-- A transaction has drawn a mutation id. -/
def World.draw (w : World lib) : World lib := { w with drawn := w.drawn + 1 }

variable (lib)

/-- What `updateExpected` sends to the store. -/
def prepareUpdate (current : CatalogSnapshot) (expected : Option ℤ) (change : Change lib) :
    Except CatalogError (CatalogSnapshot × HostState lib) := do
  require (∀ r ∈ expected, current.revision = r) .conflict
  require (current.revision ≠ Int64Range.maxValue) .invalid
  let packages ← change.apply lib current.packages
  let next : CatalogSnapshot := ⟨current.revision + 1, packages⟩
  let state ← buildCatalogState lib next current true
  pure (next, state)

/-- The part of `refreshLocked` after a failed load. -/
def loadFailed (w : World lib) (n : ℕ) (fault : Fault) (task : Task lib) (attempt : ℕ)
    (e : CatalogError) : World lib :=
  if e = .conflict ∧ attempt < 2 ∧ fault ≠ .canceled then
    w.set n ((w.nodes n).suspend.in (.starting task (attempt + 1)))
  else
    w.finish n (w.nodes n).suspend task
      (.error (if e = .invalid ∧ fault ≠ .canceled then .invalid else .unavailable))

/-- A call after its refresh. -/
def afterRefresh (w : World lib) (n : ℕ) (nd : Node lib) : Task lib → World lib
  | .refresh => w.finish n nd .refresh (.ok ())
  | .update expected change =>
      match prepareUpdate lib nd.snapshot expected change with
      | .error e => w.finish n nd (.update expected change) (.error e)
      | .ok (next, state) => w.set n (nd.in (.swapping (.update expected change) next state))

/-- The part of `refreshLocked` after a load. -/
def loadDone (w : World lib) (n : ℕ) (fault : Fault) (task : Task lib)
    (snapshot : CatalogSnapshot) : World lib :=
  let nd := w.nodes n
  if fault = .canceled then w.finish n nd.suspend task (.error .unavailable)
  else
    match buildCatalogState lib snapshot nd.snapshot nd.state.isSome with
    | .error e => w.finish n nd.suspend task (.error e)
    | .ok state => afterRefresh lib w n (nd.publish snapshot state) task

/-- What a transaction makes of the world, and what its caller is told. -/
def transact (uuid : ℕ → String) (w : World lib) (revision : ℤ) (packages : List StoredPackage)
    (fault : Fault) : World lib × Except CatalogError ℤ :=
  match fault with
  | .fails => (w, .error .unavailable)
  | .canceled => (w, .error .unavailable)
  | .none =>
      match compareAndSwap lib revision packages (uuid w.drawn) w.store with
      | .error e => (w.draw, .error e)
      | .ok s => (w.draw.commit s, .ok (revision + 1))
  | .replyLost =>
      match compareAndSwap lib revision packages (uuid w.drawn) w.store with
      | .error _ => (w.draw, .error .unavailable)
      | .ok s => (w.draw.commit s, .error .unavailable)

/-- The end of `updateExpected`. -/
def swapDone (w : World lib) (n : ℕ) (task : Task lib) (next : CatalogSnapshot)
    (state : HostState lib) : Except CatalogError ℤ → World lib
  | .ok revision =>
      if revision = next.revision then w.finish n ((w.nodes n).publish next state) task (.ok ())
      else w.finish n (w.nodes n).suspend task (.error .unavailable)
  | .error e =>
      w.finish n (w.nodes n).suspend task
        (.error (if e = .conflict then .conflict else .unavailable))

variable (uuid : ℕ → String)

/-- The next statement of the call of node `n`. -/
def proceed (w : World lib) (n : ℕ) (fault : Fault) : World lib :=
  match (w.nodes n).phase with
  | .idle => w
  | .starting task attempt =>
      if fault = .canceled then w.finish n (w.nodes n).suspend task (.error .unavailable)
      else if fault = .none then
        match readHead w.store with
        | .error e => w.set n ((w.nodes n).in (.loaded task attempt (.error e)))
        | .ok head => w.set n ((w.nodes n).in (.reading task attempt head))
      else w.set n ((w.nodes n).in (.loaded task attempt (.error .unavailable)))
  | .reading task attempt head =>
      if fault = .none then
        match loadTaskPluginVersions lib w.store.rows with
        | .error e => w.set n ((w.nodes n).in (.loaded task attempt (.error e)))
        | .ok packages => w.set n ((w.nodes n).in (.read task attempt head packages))
      else w.set n ((w.nodes n).in (.loaded task attempt (.error .unavailable)))
  | .read task attempt head packages =>
      w.set n ((w.nodes n).in (.loaded task attempt (
        if fault = .none then recheck w.store head packages
        else if fault = .fails then .error .conflict else .error .unavailable)))
  | .loaded task attempt (.error e) => loadFailed lib w n fault task attempt e
  | .loaded task _ (.ok snapshot) => loadDone lib w n fault task snapshot
  | .swapping task next state =>
      let r := transact lib uuid w (w.nodes n).snapshot.revision next.packages fault
      r.1.set n ((w.nodes n).in (.swapped task next state r.2))
  | .swapped task next state result => swapDone lib w n task next state result

def step (w : World lib) : Op lib → World lib
  | .begin n task =>
      match (w.nodes n).phase with
      | .idle =>
          match task.check with
          | .error e => w.finish n (w.nodes n) task (.error e)
          | .ok () => w.set n ((w.nodes n).in (.starting task 0))
      | _ => w
  | .proceed n fault => proceed lib uuid w n fault
  | .restart n => w.set n ((Node.new lib).in (.starting .refresh 0))
  | .storeCall revision packages => (transact lib uuid w revision packages .none).1

end MaxApi.TaskPlugin
