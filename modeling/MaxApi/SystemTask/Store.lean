import MaxApi.Lib.Table
import MaxApi.Lib.Txn

/-! # System tasks

The table of background tasks and the statements that create, claim, renew and finish a task.
Every write is one guarded statement: the guard of a claim reads the lease (`locked_by`,
`locked_until`), the guards of the later writes read `locked_by` and the status only.

The arguments `payload`, `state` and `result` are the outcomes of
`marshalSystemTaskJSON`; the random part of a task id is an argument of the call. -/

namespace MaxApi.SystemTasks

open Relational Relational.Txn

/-! ### Rows -/

/-- The column `status`. -/
inductive SystemTaskStatus where
  | pending
  | running
  | succeeded
  | failed
  deriving DecidableEq, Repr

/-- The statuses of tasks that are still to be run. -/
def activeSystemTaskStatuses : List SystemTaskStatus := [.pending, .running]

/-- The task is over. -/
def SystemTaskStatus.Terminal (s : SystemTaskStatus) : Prop := s ∉ activeSystemTaskStatuses

instance (s : SystemTaskStatus) : Decidable s.Terminal :=
  inferInstanceAs (Decidable (s ∉ activeSystemTaskStatuses))

/-- The statuses with which an execution finishes its task. -/
inductive Outcome where
  | succeeded
  | failed
  deriving DecidableEq, Repr

/-- The outcome as the value of the column. -/
def Outcome.status : Outcome → SystemTaskStatus
  | .succeeded => .succeeded
  | .failed => .failed

theorem Outcome.status_terminal (o : Outcome) : o.status.Terminal := by
  cases o <;> decide

/-- A row of the table of system tasks. -/
structure SystemTask where
  id : ℤ
  taskID : String
  type : String
  status : SystemTaskStatus
  activeKey : Option String
  payload : String
  state : String
  result : String
  error : String
  lockedBy : String
  lockedUntil : ℤ
  createdAt : ℤ
  updatedAt : ℤ
  deriving DecidableEq, Repr

/-- The columns with unique indexes. -/
structure TaskKey where
  id : ℤ
  taskID : String
  activeKey : Option String

instance : Keyed SystemTask where
  Key := TaskKey
  key r := ⟨r.id, r.taskID, r.activeKey⟩
  Clash a b := a.id = b.id ∨ a.taskID = b.taskID ∨ (a.activeKey ≠ none ∧ a.activeKey = b.activeKey)
  clashDec _ _ := instDecidableOr
  clash_refl _ := .inl rfl
  clash_symm := by
    rintro a b (h | h | ⟨hne, h⟩)
    · exact .inl h.symm
    · exact .inr (.inl h.symm)
    · exact .inr (.inr ⟨h ▸ hne, h.symm⟩)

theorem eq_of_taskID {t : Table SystemTask} {a b : SystemTask} (ha : a ∈ t) (hb : b ∈ t)
    (h : a.taskID = b.taskID) : a = b := Table.eq_of_clash ha hb (.inr (.inl h))

theorem eq_of_activeKey {t : Table SystemTask} {a b : SystemTask} {k : String} (ha : a ∈ t)
    (hb : b ∈ t) (hka : a.activeKey = some k) (hkb : b.activeKey = some k) : a = b :=
  Table.eq_of_clash ha hb (.inr (.inr ⟨by simp [Keyed.key, hka], hka.trans hkb.symm⟩))

/-! ### Statements -/

/-- The errors of the store. -/
inductive TaskError where
  | lockLost
  | duplicateKey
  | recordNotFound
  | marshal (message : String)
  deriving DecidableEq, Repr

/-- The message of an error. -/
def TaskError.text : TaskError → String
  | .lockLost => "system task lock lost"
  | .duplicateKey => "duplicated key not allowed"
  | .recordNotFound => "record not found"
  | .marshal message => message

/-- What `marshalSystemTaskJSON` returned. -/
abbrev Marshalled := Except TaskError String

/-- A body that works on the table of system tasks. -/
abbrev TaskTxn := Txn (Table SystemTask) TaskError

/-- `CreateSystemTask`, with the id that `GenerateSystemTaskID` returned. -/
def CreateSystemTask (taskID : Except TaskError String) (taskType activeKey : String)
    (payload state : Marshalled) (now : ℤ) : TaskTxn SystemTask := do
  let taskID ← Txn.ofExcept taskID
  let payloadText ← Txn.ofExcept payload
  let stateText ← Txn.ofExcept state
  let t ← get
  let task : SystemTask :=
    { id := t.nextID (·.id), taskID := taskID, type := taskType, status := .pending,
      activeKey := if activeKey ≠ "" then some activeKey else none,
      payload := payloadText, state := stateText, result := "", error := "",
      lockedBy := "", lockedUntil := 0, createdAt := now, updatedAt := now }
  require (∀ a ∈ t.rows, ¬ Keyed.Clash (Keyed.key a) (Keyed.key task)) .duplicateKey
  modify (·.insert task)
  pure task

/-- The row may be claimed by `runnerID` at `now`: it is not leased, its lease is over, or it is
leased to the same runner. -/
def Claimable (id : ℤ) (taskType runnerID : String) (now : ℤ) (r : SystemTask) : Prop :=
  r.id = id ∧ r.type = taskType ∧ r.status ∈ activeSystemTaskStatuses ∧
    (r.lockedUntil = 0 ∨ r.lockedUntil < now ∨ r.lockedBy = runnerID)

instance (id : ℤ) (taskType runnerID : String) (now : ℤ) :
    DecidablePred (Claimable id taskType runnerID now) := fun _ => instDecidableAnd

/-- The columns a claim writes. -/
def claimed (runnerID : String) (now lockUntil : ℤ) : SetClause SystemTask :=
  ⟨fun r => { r with
    status := .running, lockedBy := runnerID, lockedUntil := lockUntil, updatedAt := now },
    keeps fun _ => rfl⟩

/-- `ClaimSystemTask`: the claimed row, or nothing when the guard matched no row. -/
def ClaimSystemTask (id : ℤ) (taskType runnerID : String) (now lockUntil : ℤ) :
    TaskTxn (Option SystemTask) := do
  let t ← get
  if t.affected (Claimable id taskType runnerID now) = 0 then pure none
  else do
    modify (·.update (Claimable id taskType runnerID now) (claimed runnerID now lockUntil))
    let t' ← get
    let task ← orThrow (t'.first? (·.id = id)) .recordNotFound
    pure (some task)

/-- The guard of the writes of an execution: the task is running under the runner's name. -/
def HeldBy (taskID lockedBy : String) (r : SystemTask) : Prop :=
  r.taskID = taskID ∧ r.status = .running ∧ r.lockedBy = lockedBy

instance (taskID lockedBy : String) : DecidablePred (HeldBy taskID lockedBy) :=
  fun _ => instDecidableAnd

/-- The columns a renewal writes. -/
def renewed (state : String) (lockUntil now : ℤ) : SetClause SystemTask :=
  ⟨fun r => { r with state := state, lockedUntil := lockUntil, updatedAt := now },
    keeps fun _ => rfl⟩

/-- `UpdateSystemTaskState`. -/
def UpdateSystemTaskState (taskID lockedBy : String) (state : Marshalled) (lockUntil now : ℤ) :
    TaskTxn Unit := do
  let stateText ← Txn.ofExcept state
  let t ← get
  require (t.affected (HeldBy taskID lockedBy) ≠ 0) .lockLost
  modify (·.update (HeldBy taskID lockedBy) (renewed stateText lockUntil now))

/-- The columns that finishing a task writes; the active key is set to `NULL`. -/
def finished (status : SystemTaskStatus) (result error : String) (now : ℤ) :
    FreeClause SystemTask where
  set r := { r with
    status := status, activeKey := none, result := result, error := error, lockedBy := "",
    lockedUntil := 0, updatedAt := now }
  frees := by
    rintro r k (h | h | ⟨hne, _⟩)
    · exact .inl h
    · exact .inr (.inl h)
    · exact absurd rfl hne

/-- `FinishSystemTask`. -/
def FinishSystemTask (taskID lockedBy : String) (status : SystemTaskStatus) (result : Marshalled)
    (errorMessage : String) (now : ℤ) : TaskTxn Unit := do
  let resultText ← Txn.ofExcept result
  let t ← get
  require (t.affected (HeldBy taskID lockedBy) ≠ 0) .lockLost
  modify (·.updateFreeing (HeldBy taskID lockedBy) (finished status resultText errorMessage now))

end MaxApi.SystemTasks
