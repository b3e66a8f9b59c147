import MaxApi.Lib.System
import MaxApi.SystemTask.Store

/-! # The lease of a system task

The runners as a system.  A claim that succeeds starts an execution of the task, a goroutine that
knows the task's id and the id of its runner and nothing else; it renews and finishes the task at
any later time, however long it was delayed, and several executions of one task may be alive under
the same runner id.  Every clock reading is an argument of its operation.

The lease fences by runner: the writes of an execution fail from the moment another runner holds
the latest claim of the task (`lease_fencing`).  They do not fail while the latest claim is one of
its own runner, whose new execution shares the task with the old one (`reclaim_shares_lease`). -/

namespace MaxApi.SystemTasks

open Relational Relational.Txn

/-! ### Runners -/

/-- A running handler: what the goroutine of a successful claim was given. -/
structure Execution where
  taskID : String
  runnerID : String
  deriving DecidableEq, Repr

/-- The table and the executions that claims have started, the latest one last. -/
structure World where
  tasks : Table SystemTask
  executions : List Execution

/-- The runner of the latest claim of a task. -/
def World.holder (w : World) (taskID : String) : Option String :=
  ((w.executions.filter fun e => e.taskID = taskID).getLast?).map (·.runnerID)

/-- The keys under which tasks are created: every caller passes the type of a handler. -/
structure ActiveKey where
  val : String
  ne_empty : val ≠ ""

/-- What a runner does next. -/
inductive Op where
  | create (taskID : Except TaskError String) (taskType : String) (activeKey : ActiveKey)
      (payload state : Marshalled) (now : ℤ)
  | claim (id : ℤ) (taskType runnerID : String) (now lockUntil : ℤ)
  | update (execution : ℕ) (state : Marshalled) (lockUntil now : ℤ)
  | finish (execution : ℕ) (outcome : Outcome) (result : Marshalled) (errorMessage : String)
      (now : ℤ)

/-- The claim of `runSystemTaskClaimPass`, which starts an execution when it succeeds. -/
def claimPass (w : World) (id : ℤ) (taskType runnerID : String) (now lockUntil : ℤ) : World :=
  match (ClaimSystemTask id taskType runnerID now lockUntil).exec w.tasks with
  | (.ok (some task), t) => ⟨t, w.executions ++ [⟨task.taskID, runnerID⟩]⟩
  | (_, t) => ⟨t, w.executions⟩

/-- One operation. -/
def step (w : World) : Op → World
  | .create taskID taskType activeKey payload state now =>
      { w with tasks :=
        ((CreateSystemTask taskID taskType activeKey.val payload state now).exec w.tasks).2 }
  | .claim id taskType runnerID now lockUntil => claimPass w id taskType runnerID now lockUntil
  | .update i state lockUntil now =>
      match w.executions[i]? with
      | none => w
      | some e =>
          { w with tasks :=
            ((UpdateSystemTaskState e.taskID e.runnerID state lockUntil now).exec w.tasks).2 }
  | .finish i outcome result errorMessage now =>
      match w.executions[i]? with
      | none => w
      | some e =>
          { w with tasks :=
            ((FinishSystemTask e.taskID e.runnerID outcome.status result errorMessage now).exec
              w.tasks).2 }

/-- The state after a list of operations. -/
def runs (w : World) (ops : List Op) : World := Transition.run step w ops

/-- No task was ever created. -/
def World.initial : World := ⟨Table.empty, []⟩

/-! ### What the statements do -/

/-- A failing insert leaves the table alone; a successful one adds a pending task. -/
theorem exec_create (taskID : Except TaskError String) (taskType activeKey : String)
    (payload state : Marshalled) (now : ℤ) (t : Table SystemTask) (hkey : activeKey ≠ "") :
    ((CreateSystemTask taskID taskType activeKey payload state now).exec t).2 = t ∨
      ∃ task : SystemTask, task.status = .pending ∧ task.activeKey ≠ none ∧
        ((CreateSystemTask taskID taskType activeKey payload state now).exec t).2 =
          t.insert task := by
  unfold CreateSystemTask
  cases taskID with
  | error e => exact .inl rfl
  | ok taskID =>
      cases payload with
      | error e => exact .inl rfl
      | ok payload =>
          cases state with
          | error e => exact .inl rfl
          | ok state =>
              simp only [exec_bind, exec_ofExcept_ok, exec_get, exec_require, if_pos hkey]
              split
              · next heq =>
                split at heq
                · obtain ⟨_, rfl⟩ := Prod.mk.inj heq
                  exact .inr ⟨_, rfl, Option.some_ne_none _, rfl⟩
                · exact absurd heq (by simp)
              · next heq =>
                split at heq
                · exact absurd heq (by simp)
                · obtain ⟨_, rfl⟩ := Prod.mk.inj heq
                  exact .inl rfl

/-- A claim matches no row, or it takes the lease of one active task. -/
theorem exec_claim (id : ℤ) (taskType runnerID : String) (now lockUntil : ℤ)
    (t : Table SystemTask) :
    (ClaimSystemTask id taskType runnerID now lockUntil).exec t = (.ok none, t) ∨
      ∃ a ∈ t, a.status ∈ activeSystemTaskStatuses ∧
        (∀ b ∈ t, Claimable id taskType runnerID now b ↔ b = a) ∧
        (ClaimSystemTask id taskType runnerID now lockUntil).exec t =
          (.ok (some ((claimed runnerID now lockUntil).set a)),
            t.update (Claimable id taskType runnerID now) (claimed runnerID now lockUntil)) := by
  by_cases h0 : t.affected (Claimable id taskType runnerID now) = 0
  · left
    unfold ClaimSystemTask
    rw [exec_bind, exec_get]
    dsimp only
    rw [if_pos h0, exec_pure]
  · right
    obtain ⟨a, ha, hc⟩ := Table.exists_of_affected_ne_zero h0
    have hid : ∀ b ∈ t, b.id = id → b = a := by
      intro b hb hbid
      exact Table.eq_of_clash hb ha (.inl (hbid.trans hc.1.symm))
    have hiff : ∀ b ∈ t, Claimable id taskType runnerID now b ↔ b = a := by
      intro b hb
      constructor
      · intro h
        exact hid b hb h.1
      · intro h
        rw [h]
        exact hc
    refine ⟨a, ha, hc.2.2.1, hiff, ?_⟩
    have hfirst : (t.update (Claimable id taskType runnerID now)
        (claimed runnerID now lockUntil)).first? (·.id = id) =
          some ((claimed runnerID now lockUntil).set a) := by
      apply Table.first?_eq_some
      · exact Table.mem_update.mpr ⟨a, ha, (if_pos hc).symm⟩
      · exact hc.1
      · intro c hcmem hcid
        obtain ⟨b, hb, rfl⟩ := Table.mem_update.mp hcmem
        have hbid : b.id = id := by
          split at hcid
          · exact hcid
          · exact hcid
        rw [hid b hb hbid, if_pos hc]
    unfold ClaimSystemTask
    rw [exec_bind, exec_get]
    dsimp only
    rw [if_neg h0, exec_bind, exec_modify]
    dsimp only
    rw [exec_bind, exec_get]
    dsimp only
    rw [hfirst]
    rfl

/-- A renewal either fails or rewrites the row that the execution holds. -/
theorem exec_update (e : Execution) (state : Marshalled) (lockUntil now : ℤ)
    (t : Table SystemTask) :
    ((UpdateSystemTaskState e.taskID e.runnerID state lockUntil now).exec t).2 = t ∨
      ∃ text, ((UpdateSystemTaskState e.taskID e.runnerID state lockUntil now).exec t).2 =
        t.update (HeldBy e.taskID e.runnerID) (renewed text lockUntil now) := by
  unfold UpdateSystemTaskState
  cases state with
  | error e => exact .inl rfl
  | ok text =>
      rw [exec_bind, exec_ofExcept_ok]
      dsimp only
      rw [exec_bind, exec_get]
      dsimp only
      rw [exec_bind, exec_require]
      by_cases h : t.affected (HeldBy e.taskID e.runnerID) ≠ 0
      · rw [if_pos h]
        exact .inr ⟨text, rfl⟩
      · rw [if_neg h]
        exact .inl rfl

/-- A finish either fails or ends the task that the execution holds. -/
theorem exec_finish (e : Execution) (status : SystemTaskStatus) (result : Marshalled)
    (errorMessage : String) (now : ℤ) (t : Table SystemTask) :
    ((FinishSystemTask e.taskID e.runnerID status result errorMessage now).exec t).2 = t ∨
      ∃ text, ((FinishSystemTask e.taskID e.runnerID status result errorMessage now).exec t).2 =
        t.updateFreeing (HeldBy e.taskID e.runnerID) (finished status text errorMessage now) := by
  unfold FinishSystemTask
  cases result with
  | error e => exact .inl rfl
  | ok text =>
      rw [exec_bind, exec_ofExcept_ok]
      dsimp only
      rw [exec_bind, exec_get]
      dsimp only
      rw [exec_bind, exec_require]
      by_cases h : t.affected (HeldBy e.taskID e.runnerID) ≠ 0
      · rw [if_pos h]
        exact .inr ⟨text, rfl⟩
      · rw [if_neg h]
        exact .inl rfl

/-- Everything one operation can do. -/
inductive Change (w : World) : World → Prop
  | none : Change w w
  | created (task : SystemTask) (hstatus : task.status = .pending) (hkey : task.activeKey ≠ none) :
      Change w ⟨w.tasks.insert task, w.executions⟩
  | claimed (a : SystemTask) (p : SystemTask → Prop) [DecidablePred p] (runnerID : String)
      (now lockUntil : ℤ) (ha : a ∈ w.tasks) (hactive : a.status ∈ activeSystemTaskStatuses)
      (hp : ∀ b ∈ w.tasks, p b ↔ b = a) :
      Change w ⟨w.tasks.update p (claimed runnerID now lockUntil),
        w.executions ++ [⟨a.taskID, runnerID⟩]⟩
  | renewed (e : Execution) (text : String) (lockUntil now : ℤ) :
      Change w ⟨w.tasks.update (HeldBy e.taskID e.runnerID) (renewed text lockUntil now),
        w.executions⟩
  | finished (e : Execution) (outcome : Outcome) (text errorMessage : String) (now : ℤ) :
      Change w ⟨w.tasks.updateFreeing (HeldBy e.taskID e.runnerID)
        (finished outcome.status text errorMessage now), w.executions⟩

theorem step_change (w : World) (op : Op) : Change w (step w op) := by
  cases op with
  | create taskID taskType activeKey payload state now =>
      dsimp only [step]
      rcases exec_create taskID taskType activeKey.val payload state now w.tasks activeKey.ne_empty
        with h | ⟨task, hstatus, hkey, h⟩
      · rw [h]
        exact .none
      · rw [h]
        exact .created task hstatus hkey
  | claim id taskType runnerID now lockUntil =>
      show Change w (claimPass w id taskType runnerID now lockUntil)
      unfold claimPass
      rcases exec_claim id taskType runnerID now lockUntil w.tasks with h | ⟨a, ha, hactive, hp, h⟩
      · rw [h]
        exact .none
      · rw [h]
        exact .claimed a _ runnerID now lockUntil ha hactive hp
  | update i state lockUntil now =>
      dsimp only [step]
      cases w.executions[i]? with
      | none => exact .none
      | some e =>
          dsimp only
          rcases exec_update e state lockUntil now w.tasks with h | ⟨text, h⟩
          · rw [h]
            exact .none
          · rw [h]
            exact .renewed e text lockUntil now
  | finish i outcome result errorMessage now =>
      dsimp only [step]
      cases w.executions[i]? with
      | none => exact .none
      | some e =>
          dsimp only
          rcases exec_finish e outcome.status result errorMessage now w.tasks with h | ⟨text, h⟩
          · rw [h]
            exact .none
          · rw [h]
            exact .finished e outcome text errorMessage now

/-! ### The invariant -/

/-- The lease columns agree with the history of the claims, and the active key with the status. -/
structure Leased (w : World) : Prop where
  holder : ∀ a ∈ w.tasks, a.status = .running → w.holder a.taskID = some a.lockedBy
  key : ∀ a ∈ w.tasks, a.activeKey = none ↔ a.status.Terminal

theorem holder_append (w : World) (t : Table SystemTask) (e : Execution) (taskID : String) :
    (World.mk t (w.executions ++ [e])).holder taskID =
      if e.taskID = taskID then some e.runnerID else w.holder taskID := by
  unfold World.holder
  rw [List.filter_append]
  by_cases h : e.taskID = taskID
  · rw [if_pos h, List.filter_cons_of_pos (by simpa using h)]
    simp
  · rw [if_neg h, List.filter_cons_of_neg (by simpa using h)]
    simp

/-- A row that is active is not terminal. -/
theorem not_terminal_of_active {s : SystemTaskStatus} (h : s ∈ activeSystemTaskStatuses) :
    ¬ s.Terminal := fun hn => hn h

theorem running_active : SystemTaskStatus.running ∈ activeSystemTaskStatuses := by decide

theorem change_leased {w w' : World} (hw : Leased w) (h : Change w w') : Leased w' := by
  cases h with
  | none => exact hw
  | created task hstatus hkey =>
      constructor
      · intro a ha hrun
        rcases Table.mem_insert ha with ha | ⟨rfl, _⟩
        · exact hw.holder a ha hrun
        · rw [hstatus] at hrun
          exact absurd hrun (by decide)
      · intro a ha
        rcases Table.mem_insert ha with ha | ⟨rfl, _⟩
        · exact hw.key a ha
        · rw [hstatus]
          exact iff_of_false hkey (by decide)
  | claimed a p runnerID now lockUntil ha hactive hp =>
      constructor
      · intro b hb hrun
        rw [holder_append]
        obtain ⟨c, hc, rfl⟩ := Table.mem_update.mp hb
        by_cases hpc : p c
        · -- the claimed row: the new execution is the latest one of its task
          rw [if_pos hpc, (hp c hc).mp hpc]
          exact if_pos rfl
        · rw [if_neg hpc] at hrun ⊢
          rw [if_neg fun htask => hpc ((hp c hc).mpr (eq_of_taskID hc ha htask.symm))]
          exact hw.holder c hc hrun
      · intro b hb
        obtain ⟨c, hc, rfl⟩ := Table.mem_update.mp hb
        by_cases hpc : p c
        · rw [if_pos hpc]
          have hca : c = a := (hp c hc).mp hpc
          have hkey : c.activeKey ≠ none := fun h =>
            not_terminal_of_active hactive (hca ▸ (hw.key c hc).mp h)
          exact iff_of_false hkey (not_terminal_of_active running_active)
        · rw [if_neg hpc]
          exact hw.key c hc
  | renewed e text lockUntil now =>
      constructor
      · intro b hb hrun
        obtain ⟨c, hc, rfl⟩ := Table.mem_update.mp hb
        by_cases hpc : HeldBy e.taskID e.runnerID c
        · rw [if_pos hpc] at hrun ⊢
          exact hw.holder c hc hrun
        · rw [if_neg hpc] at hrun ⊢
          exact hw.holder c hc hrun
      · intro b hb
        obtain ⟨c, hc, rfl⟩ := Table.mem_update.mp hb
        by_cases hpc : HeldBy e.taskID e.runnerID c
        · rw [if_pos hpc]
          exact hw.key c hc
        · rw [if_neg hpc]
          exact hw.key c hc
  | finished e outcome text errorMessage now =>
      constructor
      · intro b hb hrun
        obtain ⟨c, hc, rfl⟩ := Table.mem_updateFreeing.mp hb
        by_cases hpc : HeldBy e.taskID e.runnerID c
        · rw [if_pos hpc] at hrun
          have hterm : SystemTaskStatus.running.Terminal := hrun ▸ outcome.status_terminal
          exact absurd running_active hterm
        · rw [if_neg hpc] at hrun ⊢
          exact hw.holder c hc hrun
      · intro b hb
        obtain ⟨c, hc, rfl⟩ := Table.mem_updateFreeing.mp hb
        by_cases hpc : HeldBy e.taskID e.runnerID c
        · rw [if_pos hpc]
          exact iff_of_true rfl outcome.status_terminal
        · rw [if_neg hpc]
          exact hw.key c hc

theorem runs_leased (ops : List Op) : Leased (runs World.initial ops) := by
  refine Transition.run_invariant step (fun w op hw => change_leased hw (step_change w op)) ops _ ?_
  exact ⟨fun _ h => absurd h List.not_mem_nil, fun _ h => absurd h List.not_mem_nil⟩

/-! ### Finished tasks -/

theorem change_keeps_terminal {w w' : World} {a : SystemTask} (ha : a ∈ w.tasks)
    (hterm : a.status.Terminal) (h : Change w w') : a ∈ w'.tasks := by
  have hheld : ∀ e : Execution, ¬ HeldBy e.taskID e.runnerID a := by
    intro e he
    rw [he.2.1] at hterm
    exact hterm running_active
  cases h with
  | none => exact ha
  | created task _ _ => exact Table.mem_insert_of_mem ha
  | claimed b p runnerID now lockUntil _ hactive hp =>
      refine Table.mem_update.mpr ⟨a, ha, (if_neg fun hpa => ?_).symm⟩
      rw [(hp a ha).mp hpa] at hterm
      exact hterm hactive
  | renewed e text lockUntil now =>
      exact Table.mem_update.mpr ⟨a, ha, (if_neg (hheld e)).symm⟩
  | finished e outcome text errorMessage now =>
      exact Table.mem_updateFreeing.mpr ⟨a, ha, (if_neg (hheld e)).symm⟩

/-- A finished task is never written again. -/
theorem runs_keeps_terminal {a : SystemTask} (hterm : a.status.Terminal) (ops : List Op)
    (w : World) (ha : a ∈ w.tasks) : a ∈ (runs w ops).tasks :=
  Transition.run_invariant step (I := fun w => a ∈ w.tasks)
    (fun w op h => change_keeps_terminal h hterm (step_change w op)) ops w ha

/-! ### Fencing -/

/-- The error of a write that matches no row: what it writes is marshalled first. -/
def lostError : Marshalled → TaskError
  | .ok _ => .lockLost
  | .error e => e

/-- A write whose guard matches no row fails and changes nothing. -/
theorem exec_update_lost {e : Execution} {t : Table SystemTask}
    (h : ∀ a ∈ t, ¬ HeldBy e.taskID e.runnerID a) (state : Marshalled) (lockUntil now : ℤ) :
    (UpdateSystemTaskState e.taskID e.runnerID state lockUntil now).exec t =
      (.error (lostError state), t) := by
  unfold UpdateSystemTaskState
  cases state with
  | error e => rfl
  | ok text =>
      rw [exec_bind, exec_ofExcept_ok]
      dsimp only
      rw [exec_bind, exec_get]
      dsimp only
      rw [exec_bind, exec_require, if_neg fun hne => hne (Table.affected_eq_zero.mpr h)]
      rfl

theorem exec_finish_lost {e : Execution} {t : Table SystemTask}
    (h : ∀ a ∈ t, ¬ HeldBy e.taskID e.runnerID a) (status : SystemTaskStatus)
    (result : Marshalled) (errorMessage : String) (now : ℤ) :
    (FinishSystemTask e.taskID e.runnerID status result errorMessage now).exec t =
      (.error (lostError result), t) := by
  unfold FinishSystemTask
  cases result with
  | error e => rfl
  | ok text =>
      rw [exec_bind, exec_ofExcept_ok]
      dsimp only
      rw [exec_bind, exec_get]
      dsimp only
      rw [exec_bind, exec_require, if_neg fun hne => hne (Table.affected_eq_zero.mpr h)]
      rfl

/-- No row is held by an execution whose runner did not make the latest claim. -/
theorem Leased.not_held {w : World} (hw : Leased w) {e : Execution}
    (he : w.holder e.taskID ≠ some e.runnerID) : ∀ a ∈ w.tasks, ¬ HeldBy e.taskID e.runnerID a := by
  intro a ha hheld
  obtain ⟨htask, hrun, hby⟩ := hheld
  apply he
  rw [← htask, hw.holder a ha hrun, hby]

/-- **Lease fencing.** In every state of every run: no two unfinished tasks share an active key, a
task has no active key exactly when it is finished, a finished task is never written again, and
while the latest claim of a task was made by another runner, an execution can neither renew nor
finish it. -/
theorem lease_fencing (ops : List Op) :
    let w := runs World.initial ops
    (∀ a ∈ w.tasks, ∀ b ∈ w.tasks, ¬ a.status.Terminal → ¬ b.status.Terminal →
      a.activeKey = b.activeKey → a = b) ∧
    (∀ a ∈ w.tasks, a.activeKey = none ↔ a.status.Terminal) ∧
    (∀ a ∈ w.tasks, a.status.Terminal → ∀ later, a ∈ (runs w later).tasks) ∧
    (∀ e ∈ w.executions, w.holder e.taskID ≠ some e.runnerID →
      (∀ state lockUntil now,
        (UpdateSystemTaskState e.taskID e.runnerID state lockUntil now).exec w.tasks =
          (.error (lostError state), w.tasks)) ∧
      (∀ status result errorMessage now,
        (FinishSystemTask e.taskID e.runnerID status result errorMessage now).exec w.tasks =
          (.error (lostError result), w.tasks))) := by
  intro w
  have hw : Leased w := runs_leased ops
  refine ⟨?_, hw.key, ?_, ?_⟩
  · intro a ha b hb hactive _ hkey
    obtain ⟨k, hk⟩ := Option.ne_none_iff_exists'.mp fun h => hactive ((hw.key a ha).mp h)
    exact eq_of_activeKey ha hb hk (hkey ▸ hk)
  · intro a ha hterm later
    exact runs_keeps_terminal hterm later w ha
  · intro e _ hholder
    have hlost := hw.not_held hholder
    exact ⟨exec_update_lost hlost, exec_finish_lost hlost⟩

/-- One task, claimed at time 0 with a lease of 60 seconds. -/
def claimedOnce : List Op :=
  [.create (.ok "systask_1") "log_cleanup" ⟨"log_cleanup", by decide⟩ (.ok "{}") (.ok "{}") 0,
    .claim 1 "log_cleanup" "node-a" 0 60]

/-- After the lease has expired the same runner claims the task again, and the execution of the
first claim still writes it. -/
theorem reclaim_shares_lease :
    ¬ ∀ (before : List Op) (e : Execution) (runnerID : String) (now lockUntil : ℤ),
      ∀ a ∈ (runs World.initial before).tasks, a.status = .running → a.lockedUntil < now →
        e ∈ (runs World.initial before).executions → e.taskID = a.taskID →
          let w := runs World.initial (before ++ [.claim a.id a.type runnerID now lockUntil])
          ∀ state lockUntil now,
            (UpdateSystemTaskState e.taskID e.runnerID (.ok state) lockUntil now).exec w.tasks =
              (.error .lockLost, w.tasks) := by
  intro h
  have hlost := h claimedOnce ⟨"systask_1", "node-a"⟩ "node-a" 100 160 _
    (List.mem_singleton_self _) rfl (by decide) (List.mem_singleton_self _) rfl "stale" 170 110
  have hfst := congrArg Prod.fst hlost
  exact absurd hfst (by decide)

end MaxApi.SystemTasks
