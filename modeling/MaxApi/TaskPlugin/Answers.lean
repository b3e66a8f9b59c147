import MaxApi.TaskPlugin.History

/-! # What a returned call has seen

A call that began when the store was at revision `r` and has returned nil has read or written a
revision that is not older, and the host of its node never again serves an older one.  The proof
follows the revision through the phases of a call (`Sight`), and one step of the world is described
once for all nodes (`Observed`). -/

namespace MaxApi.TaskPlugin

open Checked

variable {lib : Library} {documents : Set String} {uuid : ℕ → String}

/-- What the call has read since it began is not older than `r`. -/
def Sight (r : ℤ) : Phase lib → Prop
  | .idle => True
  | .starting _ _ => True
  | .reading _ _ head => r ≤ headRevision head
  | .read _ _ head _ => r ≤ headRevision head
  | .loaded _ _ (.ok s) => r ≤ s.revision
  | .loaded _ _ (.error _) => True
  | .swapping _ next _ => r ≤ next.revision
  | .swapped _ next _ _ => r ≤ next.revision

/-- The host serves nothing older than `r`. -/
def Served (r : ℤ) (host : Option (HostState lib)) : Prop :=
  ∀ st, host = some st → r ≤ st.generation

theorem served_none {r : ℤ} : Served r (none : Option (HostState lib)) := by
  intro st hst
  simp at hst

theorem Served.mono {r r' : ℤ} {host : Option (HostState lib)} (h : Served r' host)
    (hr : r ≤ r') : Served r host := fun st hst => hr.trans (h st hst)

theorem generation_of_catalogState {s : CatalogSnapshot} {st : HostState lib}
    (h : catalogState lib s = .ok st) : st.generation = s.revision :=
  (stateOf_catalogState h).generation

/-- What one step lets node `m` observe, whose call has seen nothing older than `r`. -/
structure Observed (r : ℤ) (m : ℕ) (w w' : World lib) : Prop where
  phase : Sight r (w'.nodes m).phase
  host : (w'.nodes m).host = (w.nodes m).host ∨ Served r (w'.nodes m).host
  returned : w'.returned = w.returned ∨ ∃ x, w'.returned = w.returned ++ [x] ∧
    (x.node = m → (w'.nodes m).phase = .idle ∧ x.revision = (w'.nodes m).snapshot.revision ∧
      (x.result = .ok () → r ≤ x.revision ∧ Served x.revision (w'.nodes m).host))

section step

variable {w : World lib} {r : ℤ} {m : ℕ}

theorem observed_set (hsight : Sight r (w.nodes m).phase) {n : ℕ} {nd : Node lib}
    (hphase : n = m → Sight r nd.phase)
    (hhost : n = m → nd.host = (w.nodes m).host ∨ Served r nd.host) :
    Observed r m w (w.set n nd) := by
  by_cases hn : n = m
  · subst hn
    refine ⟨?_, ?_, .inl rfl⟩
    · rw [nodes_set]
      exact hphase rfl
    · rw [nodes_set]
      exact hhost rfl
  · have hnode := nodes_set_of_ne w (Ne.symm hn) nd
    refine ⟨?_, .inl ?_, .inl rfl⟩
    · rw [hnode]
      exact hsight
    · rw [hnode]

theorem observed_finish (hsight : Sight r (w.nodes m).phase) {n : ℕ} {nd : Node lib}
    {task : Task lib} {result : Except CatalogError Unit}
    (hhost : n = m → nd.host = (w.nodes m).host ∨ Served r nd.host)
    (hok : n = m → result = .ok () → r ≤ nd.snapshot.revision ∧
      Served nd.snapshot.revision nd.host) :
    Observed r m w (w.finish n nd task result) := by
  have hset : Observed r m w (w.set n (nd.in .idle)) :=
    observed_set hsight (fun _ => trivial) hhost
  refine ⟨hset.phase, hset.host, .inr ⟨_, rfl, fun hn => ?_⟩⟩
  obtain rfl : n = m := hn
  have hnode : (w.finish n nd task result).nodes n = nd.in .idle := nodes_set w n _
  rw [hnode]
  exact ⟨rfl, rfl, hok rfl⟩

/-- A call that fails and leaves its host without a state. -/
theorem observed_suspend (hsight : Sight r (w.nodes m).phase) {n : ℕ} {task : Task lib}
    {e : CatalogError} :
    Observed r m w (w.finish n (w.nodes n).suspend task (.error e)) :=
  observed_finish hsight (fun _ => .inr served_none) fun _ h => by simp at h

theorem observed_loadFailed (hsight : Sight r (w.nodes m).phase) (n : ℕ) (fault : Fault)
    (task : Task lib) (attempt : ℕ) (e : CatalogError) :
    Observed r m w (loadFailed lib w n fault task attempt e) := by
  unfold loadFailed
  split
  · exact observed_set hsight (fun _ => trivial) fun _ => .inr served_none
  · exact observed_suspend hsight

theorem observed_loadDone (hsight : Sight r (w.nodes m).phase) (n : ℕ) (fault : Fault)
    (task : Task lib) {snapshot : CatalogSnapshot} (hread : n = m → r ≤ snapshot.revision) :
    Observed r m w (loadDone lib w n fault task snapshot) := by
  unfold loadDone
  simp only
  split
  · exact observed_suspend hsight
  · split
    · exact observed_suspend hsight
    · next st hst =>
      have hserved : Served snapshot.revision (some st) := by
        intro st' hst'
        obtain rfl := Option.some.inj hst'
        exact (generation_of_catalogState (catalogState_of_build hst)).ge
      have hhost : n = m → Served r (some st) := fun hn => hserved.mono (hread hn)
      cases task with
      | refresh =>
          exact observed_finish hsight (fun hn => .inr (hhost hn)) fun hn _ => ⟨hread hn, hserved⟩
      | update expected change =>
          simp only [afterRefresh]
          split
          · exact observed_finish hsight (fun hn => .inr (hhost hn)) fun _ h => by simp at h
          · next next state hprep =>
            refine observed_set hsight (fun hn => ?_) fun hn => .inr (hhost hn)
            have hrev : next.revision = snapshot.revision + 1 := (prepareUpdate_ok hprep).1
            have := hread hn
            show r ≤ next.revision
            omega

theorem observed_swapDone (hsight : Sight r (w.nodes m).phase) (n : ℕ) (task : Task lib)
    {next : CatalogSnapshot} {state : HostState lib} {result : Except CatalogError ℤ}
    (hstate : ∀ revision, result = .ok revision → revision = next.revision →
      catalogState lib next = .ok state)
    (hread : n = m → r ≤ next.revision) :
    Observed r m w (swapDone lib w n task next state result) := by
  cases result with
  | error e => exact observed_suspend hsight
  | ok revision =>
      simp only [swapDone]
      split
      · next heq =>
        have hserved : Served next.revision (some state) := by
          intro st hst
          obtain rfl := Option.some.inj hst
          exact (generation_of_catalogState (hstate revision rfl heq)).ge
        exact observed_finish hsight (fun hn => .inr (hserved.mono (hread hn)))
          fun hn _ => ⟨hread hn, hserved⟩
      · exact observed_suspend hsight

theorem observed_proceed (hfree : CollisionFree lib documents) (huuid : Function.Injective uuid)
    (h : Consistent documents uuid w) (hr : r ≤ w.store.revision)
    (hsight : Sight r (w.nodes m).phase) (n : ℕ) (fault : Fault) :
    Observed r m w (proceed lib uuid w n fault) := by
  have hp := (h.nodes n).phase
  have hsame : n = m → Sight r (w.nodes n).phase := fun hn => hn ▸ hsight
  have hkeep : n = m → (w.nodes n).host = (w.nodes m).host ∨ Served r (w.nodes n).host :=
    fun hn => .inl (by rw [hn])
  unfold proceed
  cases hphase : (w.nodes n).phase with
  | idle => exact ⟨hsight, .inl rfl, .inl rfl⟩
  | starting task attempt =>
      simp only
      split_ifs
      · exact observed_suspend hsight
      · split
        · exact observed_set hsight (fun _ => trivial) hkeep
        · next head hhead =>
          refine observed_set hsight (fun _ => ?_) hkeep
          exact hr.trans (headRevision_readHead hhead).ge
      · exact observed_set hsight (fun _ => trivial) hkeep
  | reading task attempt head =>
      rw [hphase] at hsame
      simp only
      split_ifs
      · split
        · exact observed_set hsight (fun _ => trivial) hkeep
        · exact observed_set hsight hsame hkeep
      · exact observed_set hsight (fun _ => trivial) hkeep
  | read task attempt head packages =>
      rw [hphase] at hsame hp
      refine observed_set hsight (fun hn => ?_) hkeep
      split_ifs
      · cases hs : recheck w.store head packages with
        | error e => trivial
        | ok s =>
            rw [contents_of_recheck hp.sees.2 hs]
            exact hr
      · trivial
      · trivial
  | loaded task attempt result =>
      rw [hphase] at hsame
      cases result with
      | error e => exact observed_loadFailed hsight n fault task attempt e
      | ok snapshot => exact observed_loadDone hsight n fault task hsame
  | swapping task next state =>
      have ht := transact_spec hfree huuid h (w.nodes n).snapshot.revision
        (known_of_swapping h hphase) fault
      rw [hphase] at hsame
      have hnodes := congrFun ht.nodes m
      have hset : Observed r m
          (transact lib uuid w (w.nodes n).snapshot.revision next.packages fault).1
          ((transact lib uuid w (w.nodes n).snapshot.revision next.packages fault).1.set n
            ((w.nodes n).in (.swapped task next state
              (transact lib uuid w (w.nodes n).snapshot.revision next.packages fault).2))) :=
        observed_set (hnodes.symm ▸ hsight) hsame fun hn => .inl (by rw [hnodes, hn]; rfl)
      refine ⟨hset.phase, ?_, .inl ?_⟩
      · rw [← hnodes]
        exact hset.host
      · exact ht.returned
  | swapped task next state result =>
      rw [hphase] at hsame hp
      refine observed_swapDone hsight n task (fun revision hresult heq => ?_) hsame
      subst hresult
      obtain ⟨-, expected, change, -, hprep⟩ := hp.sees heq
      exact (prepareUpdate_ok hprep).2.1

theorem observed_step (hfree : CollisionFree lib documents) (huuid : Function.Injective uuid)
    (h : Consistent documents uuid w) (hr : r ≤ w.store.revision)
    (hsight : Sight r (w.nodes m).phase) {op : Op lib} (hop : op.Sends documents) :
    Observed r m w (step lib uuid w op) := by
  cases op with
  | begin n task =>
      simp only [step]
      split
      · split
        · refine observed_finish hsight (fun hn => .inl (by rw [hn])) fun _ hok => ?_
          simp at hok
        · exact observed_set hsight (fun _ => trivial) fun hn => .inl (by rw [hn]; rfl)
      · exact ⟨hsight, .inl rfl, .inl rfl⟩
  | proceed n fault => exact observed_proceed hfree huuid h hr hsight n fault
  | restart n => exact observed_set hsight (fun _ => trivial) fun _ => .inr served_none
  | storeCall revision packages =>
      have ht := transact_spec hfree huuid h revision hop .none
      have hnodes : ((transact lib uuid w revision packages .none).1.nodes m) = w.nodes m :=
        congrFun ht.nodes m
      refine ⟨?_, .inl ?_, .inl ht.returned⟩
      · exact hnodes.symm ▸ hsight
      · exact congrArg Node.host hnodes

/-- Every call has seen nothing older than some revision that is not newer than the store's. -/
theorem exists_sight (w : World lib) (m : ℕ) :
    ∃ r ≤ w.store.revision, Sight r (w.nodes m).phase := by
  cases hphase : (w.nodes m).phase with
  | idle => exact ⟨_, le_refl _, trivial⟩
  | starting task attempt => exact ⟨_, le_refl _, trivial⟩
  | reading task attempt head => exact ⟨min w.store.revision _, min_le_left _ _, min_le_right _ _⟩
  | read task attempt head packages =>
      exact ⟨min w.store.revision _, min_le_left _ _, min_le_right _ _⟩
  | loaded task attempt result =>
      cases result with
      | error e => exact ⟨_, le_refl _, trivial⟩
      | ok s => exact ⟨min w.store.revision _, min_le_left _ _, min_le_right _ _⟩
  | swapping task next state =>
      exact ⟨min w.store.revision _, min_le_left _ _, min_le_right _ _⟩
  | swapped task next state result =>
      exact ⟨min w.store.revision _, min_le_left _ _, min_le_right _ _⟩

/-! ### The store along a run -/

theorem transact_commits (w : World lib) (revision : ℤ) (packages : List StoredPackage)
    (fault : Fault) : w.commits <:+ (transact lib uuid w revision packages fault).1.commits := by
  unfold transact
  split
  · exact List.suffix_refl _
  · exact List.suffix_refl _
  · split
    · exact List.suffix_refl _
    · exact List.suffix_cons _ _
  · split
    · exact List.suffix_refl _
    · exact List.suffix_cons _ _

theorem proceed_commits (w : World lib) (n : ℕ) (fault : Fault) :
    w.commits <:+ (proceed lib uuid w n fault).commits := by
  have hrefl : w.commits <:+ w.commits := List.suffix_refl _
  unfold proceed
  split
  · exact hrefl
  · split_ifs
    · exact hrefl
    · split
      · exact hrefl
      · exact hrefl
    · exact hrefl
  · split_ifs
    · split
      · exact hrefl
      · exact hrefl
    · exact hrefl
  · exact hrefl
  · unfold loadFailed
    split
    · exact hrefl
    · exact hrefl
  · unfold loadDone
    simp only
    split
    · exact hrefl
    · split
      · exact hrefl
      · unfold afterRefresh
        split
        · exact hrefl
        · split
          · exact hrefl
          · exact hrefl
  · exact transact_commits w _ _ fault
  · unfold swapDone
    split
    · split
      · exact hrefl
      · exact hrefl
    · exact hrefl

/-- No step takes a revision back. -/
theorem step_commits (w : World lib) (op : Op lib) :
    w.commits <:+ (step lib uuid w op).commits := by
  cases op with
  | begin n task =>
      simp only [step]
      split
      · split
        · exact List.suffix_refl _
        · exact List.suffix_refl _
      · exact List.suffix_refl _
  | proceed n fault => exact proceed_commits w n fault
  | restart n => exact List.suffix_refl _
  | storeCall revision packages => exact transact_commits w revision packages .none

end step

/-- The history of a longer run begins with the history of the shorter one. -/
theorem history_commits (ops ops' : List (Op lib)) :
    (history lib uuid ops).commits <:+ (history lib uuid (ops ++ ops')).commits := by
  rw [history_append]
  exact Transition.run_relates (step lib uuid) (I := fun _ => True)
    (R := fun w w' => w.commits <:+ w'.commits) (fun _ _ _ => trivial)
    (fun _ => List.suffix_refl _) List.IsSuffix.trans (fun w op _ => step_commits w op) ops'
    _ trivial

theorem revision_le_of_commits {w w' : World lib} (h : Consistent documents uuid w)
    (h' : Consistent documents uuid w') (hcommits : w.commits <:+ w'.commits) :
    w.store.revision ≤ w'.store.revision :=
  (revision_le h' (hcommits.subset (contents_committed h))).1

/-! ### What calls return -/

theorem step_returned (hfree : CollisionFree lib documents) (huuid : Function.Injective uuid)
    {w : World lib} (h : Consistent documents uuid w) {op : Op lib} (hop : op.Sends documents) :
    w.returned <+: (step lib uuid w op).returned := by
  obtain ⟨r, hr, hsight⟩ := exists_sight w 0
  rcases (observed_step hfree huuid h hr hsight hop).returned with hsame | ⟨x, happend, -⟩
  · exact ⟨[], by rw [hsame, List.append_nil]⟩
  · exact ⟨[x], happend.symm⟩

theorem history_returned (hfree : CollisionFree lib documents) (huuid : Function.Injective uuid)
    {ops ops' : List (Op lib)} (hops : ∀ op ∈ ops ++ ops', op.Sends documents) :
    (history lib uuid ops).returned <+: (history lib uuid (ops ++ ops')).returned := by
  refine history_invariant hfree huuid
    (P := fun w => (history lib uuid ops).returned <+: w.returned) ?_ hops (List.prefix_refl _)
  exact fun w op hw h hop => h.trans (step_returned hfree huuid hw hop)

/-- What holds of the calls that have returned nil. -/
def Answered (w : World lib) : Prop :=
  ∀ x ∈ w.returned, x.result = .ok () → x.revision ≤ w.store.revision ∧
    Sight x.revision (w.nodes x.node).phase ∧ Served x.revision (w.nodes x.node).host

theorem answered_step (hfree : CollisionFree lib documents) (huuid : Function.Injective uuid)
    {w : World lib} (h : Consistent documents uuid w) (ha : Answered w) {op : Op lib}
    (hop : op.Sends documents) : Answered (step lib uuid w op) := by
  have h' := step_consistent hfree huuid h hop
  have hle := revision_le_of_commits h h' (step_commits w op)
  have hold : ∀ x ∈ w.returned, x.result = .ok () →
      x.revision ≤ (step lib uuid w op).store.revision ∧
        Sight x.revision ((step lib uuid w op).nodes x.node).phase ∧
          Served x.revision ((step lib uuid w op).nodes x.node).host := by
    intro x hx hok
    obtain ⟨hrev, hsight, hserved⟩ := ha x hx hok
    have hobs := observed_step hfree huuid h hrev hsight hop
    refine ⟨hrev.trans hle, hobs.phase, ?_⟩
    rcases hobs.host with hhost | hhost
    · rw [hhost]
      exact hserved
    · exact hhost
  intro x hx hok
  obtain ⟨r, hr, hsight⟩ := exists_sight w x.node
  have hobs := observed_step hfree huuid h hr hsight hop
  rcases hobs.returned with hsame | ⟨y, happend, hy⟩
  · rw [hsame] at hx
    exact hold x hx hok
  · rw [happend] at hx
    rcases List.mem_append.mp hx with hx | hx
    · exact hold x hx hok
    · obtain rfl := List.mem_singleton.mp hx
      obtain ⟨hidle, hrev, hserved⟩ := hy rfl
      obtain ⟨c, hc, hcrev, -⟩ := (h'.nodes x.node).snapshot
      refine ⟨?_, ?_, (hserved hok).2⟩
      · rw [hrev, ← hcrev]
        exact (revision_le h' hc).1
      · rw [hidle]
        trivial

theorem history_answered (hfree : CollisionFree lib documents) (huuid : Function.Injective uuid)
    {ops : List (Op lib)} (hops : ∀ op ∈ ops, op.Sends documents) :
    Answered (history lib uuid ops) := by
  have hstart : Answered (history lib uuid []) := fun x hx => absurd hx List.not_mem_nil
  exact history_invariant hfree huuid
    (fun w op hw ha hop => answered_step hfree huuid hw ha hop) hops hstart

/-! ### What a call that begins now will have seen -/

/-- The calls of node `m` that have returned nil since `w` have seen the store of `w`. -/
structure Since (w : World lib) (m : ℕ) (w' : World lib) : Prop where
  store : w.store.revision ≤ w'.store.revision
  phase : Sight w.store.revision (w'.nodes m).phase
  returned : ∃ new, w'.returned = w.returned ++ new ∧
    ∀ x ∈ new, x.node = m → x.result = .ok () → w.store.revision ≤ x.revision

theorem since_step (hfree : CollisionFree lib documents) (huuid : Function.Injective uuid)
    {w w' : World lib} {m : ℕ} (h : Consistent documents uuid w') (hs : Since w m w') {op : Op lib}
    (hop : op.Sends documents) : Since w m (step lib uuid w' op) := by
  have hle := revision_le_of_commits h (step_consistent hfree huuid h hop) (step_commits w' op)
  have hobs := observed_step hfree huuid h hs.store hs.phase hop
  refine ⟨hs.store.trans hle, hobs.phase, ?_⟩
  obtain ⟨new, hnew, hall⟩ := hs.returned
  rcases hobs.returned with hsame | ⟨y, happend, hy⟩
  · exact ⟨new, hsame.trans hnew, hall⟩
  · refine ⟨new ++ [y], by rw [happend, hnew, List.append_assoc], ?_⟩
    intro x hx hm hok
    rcases List.mem_append.mp hx with hx | hx
    · exact hall x hx hm hok
    · obtain rfl := List.mem_singleton.mp hx
      exact ((hy hm).2.2 hok).1

theorem history_since (hfree : CollisionFree lib documents) (huuid : Function.Injective uuid)
    {ops ops' : List (Op lib)} (hops : ∀ op ∈ ops ++ ops', op.Sends documents) {m : ℕ}
    (hidle : ((history lib uuid ops).nodes m).phase = .idle) :
    Since (history lib uuid ops) m (history lib uuid (ops ++ ops')) := by
  have hstart : Since (history lib uuid ops) m (history lib uuid ops) := by
    refine ⟨le_refl _, ?_, [], by simp, fun x hx => absurd hx List.not_mem_nil⟩
    rw [hidle]
    trivial
  exact history_invariant hfree huuid
    (fun w op hw hs hop => since_step hfree huuid hw hs hop) hops hstart

end MaxApi.TaskPlugin
