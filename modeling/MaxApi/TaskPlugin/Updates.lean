import MaxApi.TaskPlugin.Answers

/-! # Updates take effect once

An update that has returned nil is one revision of the store: its change took the revision before to
it, and no two updates are the same revision.  A claim on a revision arises in a transaction that
has been committed, and goes from the call to its answer (`Once`). -/

namespace MaxApi.TaskPlugin

open Checked

variable {lib : Library} {documents : Set String} {uuid : ℕ → String}

/-- The change led from one revision of the store to the next one, which is `revision`. -/
def Took (lib : Library) (commits : List CatalogSnapshot) (expected : Option ℤ)
    (change : Change lib) (revision : ℤ) : Prop :=
  ∃ before ∈ commits, ∃ after ∈ commits,
    (∀ r ∈ expected, before.revision = r) ∧ before.revision + 1 = revision ∧
      after.revision = revision ∧ ∃ es es', before.packages.Perm es ∧
        change.apply lib es = .ok es' ∧ es'.Perm after.packages

theorem Took.mono {commits commits' : List CatalogSnapshot} {expected : Option ℤ}
    {change : Change lib} {revision : ℤ} (h : Took lib commits expected change revision)
    (hcommits : commits <:+ commits') : Took lib commits' expected change revision := by
  obtain ⟨before, hbefore, after, hafter, hrest⟩ := h
  exact ⟨before, hcommits.subset hbefore, after, hcommits.subset hafter, hrest⟩

/-- The revision of a committed update whose call has not returned yet. -/
def Phase.claim : Phase lib → Option ℤ
  | .swapped _ next _ (.ok revision) => if revision = next.revision then some revision else none
  | _ => none

/-- The revision of an update that has returned nil. -/
def Returned.claim (x : Returned lib) : Option ℤ :=
  match x.task, x.result with
  | .update _ _, .ok () => some x.revision
  | _, _ => none

/-- The revisions of all updates that have returned nil. -/
def World.claims (w : World lib) : List ℤ := w.returned.filterMap Returned.claim

/-- No revision is claimed by two updates, and each update has led to its revision. -/
structure Once (w : World lib) : Prop where
  nodup : w.claims.Nodup
  pending : ∀ n, ∀ r ∈ (w.nodes n).phase.claim, r ∉ w.claims
  apart : ∀ n n', n ≠ n' → ∀ r ∈ (w.nodes n).phase.claim, r ∉ (w.nodes n').phase.claim
  took : ∀ x ∈ w.returned, x.result = .ok () → ∀ expected change,
    x.task = .update expected change → Took lib w.commits expected change x.revision

section step

variable {w : World lib}

theorem Once.set (h : Once w) {n : ℕ} {nd : Node lib}
    (hclaim : ∀ r ∈ nd.phase.claim, r ∉ w.claims ∧ ∀ m, m ≠ n → r ∉ (w.nodes m).phase.claim) :
    Once (w.set n nd) := by
  have hself := nodes_set w n nd
  have hother : ∀ m, m ≠ n → (w.set n nd).nodes m = w.nodes m :=
    fun m hm => nodes_set_of_ne w hm nd
  refine ⟨h.nodup, ?_, ?_, h.took⟩
  · intro m r hr
    by_cases hm : m = n
    · rw [hm, hself] at hr
      exact (hclaim r hr).1
    · rw [hother m hm] at hr
      exact h.pending m r hr
  · intro m m' hne r hr
    by_cases hm : m = n
    · rw [hm, hself] at hr
      have hm' : m' ≠ n := fun heq => hne (hm.trans heq.symm)
      rw [hother m' hm']
      exact (hclaim r hr).2 m' hm'
    · rw [hother m hm] at hr
      by_cases hm' : m' = n
      · rw [hm', hself]
        exact fun hr' => (hclaim r hr').2 m hm hr
      · rw [hother m' hm']
        exact h.apart m m' hne r hr

theorem Once.set_none (h : Once w) {n : ℕ} {nd : Node lib} (hclaim : nd.phase.claim = none) :
    Once (w.set n nd) :=
  h.set fun r hr => by simp [hclaim] at hr

/-- A call that returns hands its claim to its answer. -/
theorem Once.finish (h : Once w) {n : ℕ} {nd : Node lib} {task : Task lib}
    {result : Except CatalogError Unit}
    (hclaim : ∀ r ∈ Returned.claim ⟨n, task, result, nd.snapshot.revision⟩,
      r ∈ (w.nodes n).phase.claim)
    (htook : result = .ok () → ∀ expected change, task = .update expected change →
      Took lib w.commits expected change nd.snapshot.revision) :
    Once (w.finish n nd task result) := by
  have hset : Once (w.set n (nd.in .idle)) := h.set_none rfl
  have hself : (w.finish n nd task result).nodes n = nd.in .idle := nodes_set w n _
  have hother : ∀ m, m ≠ n → (w.finish n nd task result).nodes m = w.nodes m :=
    fun m hm => nodes_set_of_ne w hm _
  have hclaims : (w.finish n nd task result).claims =
      w.claims ++ (Returned.claim ⟨n, task, result, nd.snapshot.revision⟩).toList := by
    unfold World.claims World.finish
    rw [List.filterMap_append]
    cases hx : Returned.claim ⟨n, task, result, nd.snapshot.revision⟩ with
    | none => simp [hx]
    | some r => simp [hx]
  refine ⟨?_, ?_, hset.apart, ?_⟩
  · rw [hclaims, List.nodup_append]
    refine ⟨h.nodup, ?_, ?_⟩
    · cases Returned.claim ⟨n, task, result, nd.snapshot.revision⟩ with
      | none => exact List.nodup_nil
      | some r => exact List.nodup_singleton r
    · rintro r hr r' hr' rfl
      exact h.pending n r (hclaim r (Option.mem_toList.mp hr')) hr
  · intro m r hr
    rw [hclaims, List.mem_append, not_or]
    by_cases hm : m = n
    · rw [hm, hself] at hr
      simp [Phase.claim, Node.in] at hr
    · rw [hother m hm] at hr
      refine ⟨h.pending m r hr, fun hr' => ?_⟩
      exact h.apart m n hm r hr (hclaim r (Option.mem_toList.mp hr'))
  · intro x hx hok expected change htask
    rcases List.mem_append.mp hx with hx | hx
    · exact h.took x hx hok expected change htask
    · obtain rfl := List.mem_singleton.mp hx
      exact htook hok expected change htask

/-- A call that claims nothing returns. -/
theorem Once.finish_none (h : Once w) {n : ℕ} {nd : Node lib} {task : Task lib}
    {result : Except CatalogError Unit} (hresult : result = .ok () → task = .refresh) :
    Once (w.finish n nd task result) := by
  refine h.finish ?_ ?_
  · intro r hr
    unfold Returned.claim at hr
    split at hr
    · next htask hok =>
      obtain rfl : result = .ok () := hok
      obtain rfl := hresult rfl
      simp at htask
    · simp at hr
  · intro hok expected change htask
    rw [hresult hok] at htask
    simp at htask

theorem Once.loadFailed (h : Once w) (n : ℕ) (fault : Fault) (task : Task lib) (attempt : ℕ)
    (e : CatalogError) : Once (loadFailed lib w n fault task attempt e) := by
  unfold TaskPlugin.loadFailed
  split
  · exact h.set_none rfl
  · exact h.finish_none fun hok => by simp at hok

theorem Once.loadDone (h : Once w) (n : ℕ) (fault : Fault) (task : Task lib)
    (snapshot : CatalogSnapshot) : Once (loadDone lib w n fault task snapshot) := by
  unfold TaskPlugin.loadDone
  simp only
  split
  · exact h.finish_none fun hok => by simp at hok
  · split
    · exact h.finish_none fun hok => by simp at hok
    · cases task with
      | refresh => exact h.finish_none fun _ => rfl
      | update expected change =>
          simp only [afterRefresh]
          split
          · exact h.finish_none fun hok => by simp at hok
          · exact h.set_none rfl

theorem mem_claims {r : ℤ} : r ∈ w.claims ↔ ∃ x ∈ w.returned, x.result = .ok () ∧
    (∃ expected change, x.task = .update expected change) ∧ x.revision = r := by
  unfold World.claims
  rw [List.mem_filterMap]
  refine exists_congr fun x => and_congr_right fun _ => ?_
  unfold Returned.claim
  split
  · next expected change htask hok => simp [htask, hok]
  · next hnot =>
    constructor
    · intro h
      simp at h
    · rintro ⟨hok, ⟨expected, change, htask⟩, -⟩
      exact absurd hok (hnot expected change htask)

/-- A revision that has been claimed is there. -/
theorem claims_le (hw : Consistent documents uuid w) (h : Once w) {r : ℤ} (hr : r ∈ w.claims) :
    r ≤ w.store.revision := by
  obtain ⟨x, hx, hok, ⟨expected, change, htask⟩, rfl⟩ := mem_claims.mp hr
  obtain ⟨_, _, after, hafter, _, _, hrev, _⟩ := h.took x hx hok expected change htask
  rw [← hrev]
  exact (revision_le hw hafter).1

theorem claim_eq_some {phase : Phase lib} {r : ℤ} (h : r ∈ phase.claim) :
    ∃ task next state, phase = .swapped task next state (.ok r) ∧ r = next.revision := by
  unfold Phase.claim at h
  split at h
  · next task next state revision =>
    split at h
    · next heq =>
      obtain rfl := Option.some.inj h
      exact ⟨task, next, state, rfl, heq⟩
    · simp at h
  · simp at h

theorem pending_le (hw : Consistent documents uuid w) {n : ℕ} {r : ℤ}
    (hr : r ∈ (w.nodes n).phase.claim) : r ≤ w.store.revision := by
  obtain ⟨task, next, state, hphase, heq⟩ := claim_eq_some hr
  have hp := (hw.nodes n).phase
  rw [hphase] at hp
  obtain ⟨⟨c, hc, hrev, -⟩, -⟩ := hp.sees heq
  rw [heq, ← hrev]
  exact (revision_le hw hc).1

theorem Once.transact (hfree : CollisionFree lib documents) (huuid : Function.Injective uuid)
    (hw : Consistent documents uuid w) (h : Once w) (revision : ℤ)
    {packages : List StoredPackage} (hsent : Known documents packages) (fault : Fault) :
    Once (transact lib uuid w revision packages fault).1 := by
  have ht := transact_spec hfree huuid hw revision hsent fault
  have hclaims : (TaskPlugin.transact lib uuid w revision packages fault).1.claims = w.claims := by
    unfold World.claims
    rw [ht.returned]
  constructor
  · rw [hclaims]
    exact h.nodup
  · rw [hclaims, ht.nodes]
    exact h.pending
  · rw [ht.nodes]
    exact h.apart
  · rw [ht.returned]
    exact fun x hx hok expected change htask =>
      (h.took x hx hok expected change htask).mono ht.commits

/-- The transaction of a node's update claims a revision that nobody has claimed. -/
theorem Once.swap (hfree : CollisionFree lib documents) (huuid : Function.Injective uuid)
    (hw : Consistent documents uuid w) (h : Once w) {n : ℕ} {task : Task lib}
    {next : CatalogSnapshot} {state : HostState lib}
    (hknown : Known documents next.packages) (fault : Fault) :
    Once ((TaskPlugin.transact lib uuid w (w.nodes n).snapshot.revision next.packages fault).1.set n
      ((w.nodes n).in (.swapped task next state
        (TaskPlugin.transact lib uuid w (w.nodes n).snapshot.revision next.packages
          fault).2))) := by
  have ht := transact_spec hfree huuid hw (w.nodes n).snapshot.revision hknown fault
  refine (h.transact hfree huuid hw _ hknown fault).set fun r hr => ?_
  obtain ⟨_, _, _, hphase, -⟩ := claim_eq_some hr
  have hresult := (Phase.swapped.inj hphase).2.2.2
  obtain ⟨hrev, hr, -, -⟩ := ht.result r hresult
  have hlt : w.store.revision < r := by omega
  refine ⟨fun hmem => ?_, fun m _ hmem => ?_⟩
  · unfold World.claims at hmem
    rw [ht.returned] at hmem
    exact absurd (claims_le hw h hmem) (not_le.mpr hlt)
  · rw [ht.nodes] at hmem
    exact absurd (pending_le hw hmem) (not_le.mpr hlt)

theorem expected_of_prepareUpdate {current next : CatalogSnapshot} {expected : Option ℤ}
    {change : Change lib} {st : HostState lib}
    (h : prepareUpdate lib current expected change = .ok (next, st)) :
    ∀ r ∈ expected, current.revision = r := by
  unfold prepareUpdate at h
  simp only [ok_bind, ok_require] at h
  obtain ⟨-, hexpected, -⟩ := h
  exact hexpected

theorem Once.swapDone (hw : Consistent documents uuid w) (h : Once w) {n : ℕ} {task : Task lib}
    {next : CatalogSnapshot} {state : HostState lib} {result : Except CatalogError ℤ}
    (hphase : (w.nodes n).phase = .swapped task next state result) :
    Once (swapDone lib w n task next state result) := by
  cases result with
  | error e => exact h.finish_none fun hok => by simp at hok
  | ok revision =>
      simp only [TaskPlugin.swapDone]
      split
      · next heq =>
        have hp := (hw.nodes n).phase
        rw [hphase] at hp
        obtain ⟨⟨after, hafter, hrev, hperm⟩, hprep⟩ := hp.sees heq
        obtain ⟨before, hbefore, hbrev, hbperm⟩ := (hw.nodes n).snapshot
        refine h.finish ?_ ?_
        · intro r hr
          have hclaim : (w.nodes n).phase.claim = some next.revision := by
            rw [hphase]
            simp [Phase.claim, heq]
          rw [hclaim]
          unfold Returned.claim at hr
          split at hr
          · exact hr
          · simp at hr
        · intro _ expected change htask
          obtain ⟨expected', change', htask', hok⟩ := hprep
          rw [htask, Task.update.injEq] at htask'
          obtain ⟨rfl, rfl⟩ := htask'
          obtain ⟨hnext, -, happly⟩ := prepareUpdate_ok hok
          refine ⟨before, hbefore, after, hafter, ?_, ?_, hrev, _, _, hbperm.symm, happly, hperm⟩
          · rw [hbrev]
            exact expected_of_prepareUpdate hok
          · rw [hbrev]
            exact hnext.symm
      · exact h.finish_none fun hok => by simp at hok

theorem once_proceed (hfree : CollisionFree lib documents) (huuid : Function.Injective uuid)
    (hw : Consistent documents uuid w) (h : Once w) (n : ℕ) (fault : Fault) :
    Once (proceed lib uuid w n fault) := by
  unfold proceed
  cases hphase : (w.nodes n).phase with
  | idle => exact h
  | starting task attempt =>
      simp only
      split_ifs
      · exact h.finish_none fun hok => by simp at hok
      · split
        · exact h.set_none rfl
        · exact h.set_none rfl
      · exact h.set_none rfl
  | reading task attempt head =>
      simp only
      split_ifs
      · split
        · exact h.set_none rfl
        · exact h.set_none rfl
      · exact h.set_none rfl
  | read task attempt head packages => exact h.set_none rfl
  | loaded task attempt result =>
      cases result with
      | error e => exact h.loadFailed n fault task attempt e
      | ok snapshot => exact h.loadDone n fault task snapshot
  | swapping task next state => exact h.swap hfree huuid hw (known_of_swapping hw hphase) fault
  | swapped task next state result => exact h.swapDone hw hphase

theorem once_step (hfree : CollisionFree lib documents) (huuid : Function.Injective uuid)
    (hw : Consistent documents uuid w) (h : Once w) {op : Op lib} (hop : op.Sends documents) :
    Once (step lib uuid w op) := by
  cases op with
  | begin n task =>
      simp only [step]
      split
      · split
        · exact h.finish_none fun hok => by simp at hok
        · exact h.set_none rfl
      · exact h
  | proceed n fault => exact once_proceed hfree huuid hw h n fault
  | restart n => exact h.set_none rfl
  | storeCall revision packages => exact h.transact hfree huuid hw revision hop .none

end step

theorem once_start : Once (World.start lib) := by
  constructor
  · exact List.nodup_nil
  · intro n r hr
    simp [World.start, Node.new, Phase.claim] at hr
  · intro n n' _ r hr
    simp [World.start, Node.new, Phase.claim] at hr
  · exact fun x hx => absurd hx List.not_mem_nil

theorem history_once (hfree : CollisionFree lib documents) (huuid : Function.Injective uuid)
    {ops : List (Op lib)} (hops : ∀ op ∈ ops, op.Sends documents) :
    Once (history lib uuid ops) := by
  have hstart : Once (history lib uuid []) := once_start
  exact history_invariant hfree huuid
    (fun w op hw h hop => once_step hfree huuid hw h hop) hops hstart

end MaxApi.TaskPlugin
