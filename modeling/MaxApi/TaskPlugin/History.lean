import MaxApi.TaskPlugin.Changes

/-! # The history of the catalog

`World.commits` is the history of the store: every revision it has had.  Each snapshot of a node is
one of these revisions, no matter how its reads were interleaved with the commits of other nodes,
and the host serves the state of such a snapshot or nothing (`Consistent`). -/

namespace MaxApi.TaskPlugin

open Checked

variable {lib : Library} {documents : Set String} {uuid : ℕ → String}

/-! ### The invariant -/

/-- The snapshot is one of the revisions of the store. -/
def Committed (commits : List CatalogSnapshot) (s : CatalogSnapshot) : Prop :=
  ∃ c ∈ commits, c.revision = s.revision ∧ s.packages.Perm c.packages

theorem Committed.cons {commits : List CatalogSnapshot} {s : CatalogSnapshot} (c : CatalogSnapshot)
    (h : Committed commits s) : Committed (c :: commits) s := by
  obtain ⟨c', hc', hrest⟩ := h
  exact ⟨c', List.mem_cons_of_mem _ hc', hrest⟩

def headRevision (head : Option TaskPluginCatalogHead) : ℤ :=
  (head.map TaskPluginCatalogHead.revision).getD 0

theorem headRevision_readHead {s : Store} {head : Option TaskPluginCatalogHead}
    (h : readHead s = .ok head) : headRevision head = s.revision := by
  unfold readHead at h
  split at h
  · next hnone =>
    obtain rfl := Except.ok.inj h
    exact (revision_none hnone).symm
  · next old hold =>
    simp only [ok_bind, ok_require, ok_pure] at h
    obtain ⟨-, -, rfl⟩ := h
    exact (revision_some hold).symm

/-- What an update has made of the snapshot that its refresh has read. -/
def Prepared (snapshot : CatalogSnapshot) (task : Task lib) (next : CatalogSnapshot)
    (state : HostState lib) : Prop :=
  ∃ expected change, task = .update expected change ∧
    prepareUpdate lib snapshot expected change = .ok (next, state)

/-- What a node has seen of the store in the course of its call. -/
def Sees (store : Store) (commits : List CatalogSnapshot) (snapshot : CatalogSnapshot) :
    Phase lib → Prop
  | .idle => True
  | .starting _ _ => True
  | .reading _ _ head => headRevision head ≤ store.revision
  | .read _ _ head packages => headRevision head ≤ store.revision ∧
      (headRevision head = store.revision → packages = rowsOf store.rows)
  | .loaded _ _ (.ok s) => Committed commits s
  | .loaded _ _ (.error _) => True
  | .swapping task next state => Prepared snapshot task next state
  | .swapped task next state (.ok revision) =>
      revision = next.revision → Committed commits next ∧ Prepared snapshot task next state
  | .swapped _ _ _ (.error _) => True

/-- What holds of a call that is under way. -/
structure PhaseOk (documents : Set String) (store : Store) (commits : List CatalogSnapshot)
    (snapshot : CatalogSnapshot) (phase : Phase lib) : Prop where
  sees : Sees store commits snapshot phase
  sends : ∀ task ∈ phase.task, task.Sends documents

structure NodeOk (documents : Set String) (store : Store) (commits : List CatalogSnapshot)
    (nd : Node lib) : Prop where
  snapshot : Committed commits nd.snapshot
  state : ∀ st, nd.state = some st → catalogState lib nd.snapshot = .ok st
  host : nd.host = none ∨ nd.host = nd.state
  phase : PhaseOk documents store commits nd.snapshot nd.phase

/-- The invariant of the catalog. -/
structure Consistent (documents : Set String) (uuid : ℕ → String) (w : World lib) : Prop where
  store : StoreOk lib documents uuid w.drawn w.store
  first : ⟨0, []⟩ ∈ w.commits
  latest : ∃ older, w.commits = w.store.contents :: older
  count : w.commits.length = w.store.revision + 1
  chain : w.commits.Pairwise fun newer older =>
    older.revision < newer.revision ∧ Extends older.packages newer.packages
  valid : ∀ c ∈ w.commits, ∃ st, catalogState lib c = .ok st
  known : ∀ c ∈ w.commits, Known documents c.packages
  nodes : ∀ n, NodeOk documents w.store w.commits (w.nodes n)

theorem contents_committed {w : World lib} (h : Consistent documents uuid w) :
    w.store.contents ∈ w.commits := by
  obtain ⟨older, hlatest⟩ := h.latest
  rw [hlatest]
  exact List.mem_cons_self

/-- The current revision is the highest, and extends all others. -/
theorem revision_le {w : World lib} (h : Consistent documents uuid w) {c : CatalogSnapshot}
    (hc : c ∈ w.commits) :
    c.revision ≤ w.store.revision ∧ Extends c.packages (rowsOf w.store.rows) := by
  obtain ⟨older, hlatest⟩ := h.latest
  have hchain := h.chain
  rw [hlatest] at hchain hc
  rcases List.mem_cons.mp hc with rfl | hc
  · exact ⟨le_refl _, Extends.refl _⟩
  · obtain ⟨hlt, hext⟩ := List.rel_of_pairwise_cons hchain hc
    exact ⟨hlt.le, hext⟩

/-- A revision determines its packages. -/
theorem eq_of_revision {w : World lib} (h : Consistent documents uuid w) {c c' : CatalogSnapshot}
    (hc : c ∈ w.commits) (hc' : c' ∈ w.commits) (hrev : c.revision = c'.revision) : c = c' := by
  by_contra hne
  have hdistinct : w.commits.Pairwise fun a b => a.revision ≠ b.revision :=
    h.chain.imp fun hab => hab.1.ne'
  have : Std.Symm fun a b : CatalogSnapshot => a.revision ≠ b.revision := ⟨fun _ _ => Ne.symm⟩
  exact hdistinct.forall hc hc' hne hrev

theorem known_of_committed {w : World lib} (h : Consistent documents uuid w) {s : CatalogSnapshot}
    (hs : Committed w.commits s) : Known documents s.packages := by
  obtain ⟨c, hc, -, hperm⟩ := hs
  exact fun e he => h.known c hc e (hperm.mem_iff.mp he)

/-! ### Nodes -/

section nodes

variable {store : Store} {commits : List CatalogSnapshot} {nd : Node lib} {phase : Phase lib}

theorem nodeOk_new (h : Committed commits ⟨0, []⟩)
    (hphase : PhaseOk documents store commits ⟨0, []⟩ phase) :
    NodeOk documents store commits ((Node.new lib).in phase) := by
  refine ⟨h, ?_, .inl rfl, hphase⟩
  intro st hst
  simp [Node.new, Node.in] at hst

theorem NodeOk.suspend (h : NodeOk documents store commits nd) :
    NodeOk documents store commits nd.suspend :=
  ⟨h.snapshot, h.state, .inl rfl, h.phase⟩

theorem NodeOk.in (h : NodeOk documents store commits nd)
    (hphase : PhaseOk documents store commits nd.snapshot phase) :
    NodeOk documents store commits (nd.in phase) :=
  ⟨h.snapshot, h.state, h.host, hphase⟩

theorem phaseOk_idle {snapshot : CatalogSnapshot} :
    PhaseOk documents store commits snapshot (Phase.idle : Phase lib) :=
  ⟨trivial, fun _ ht => absurd ht (by simp [Phase.task])⟩

/-- A node whose call has returned. -/
theorem NodeOk.idle (h : NodeOk documents store commits nd) :
    NodeOk documents store commits (nd.in .idle) := h.in phaseOk_idle

/-- A call of which only the task is known. -/
theorem phaseOk_of_sends {snapshot : CatalogSnapshot} {task : Task lib}
    (hsends : task.Sends documents) (htask : phase.task = some task)
    (hsees : Sees store commits snapshot phase) :
    PhaseOk documents store commits snapshot phase := by
  refine ⟨hsees, fun t ht => ?_⟩
  rw [htask] at ht
  obtain rfl := Option.some.inj ht
  exact hsends

theorem nodeOk_publish {snapshot : CatalogSnapshot} {st : HostState lib}
    (h : Committed commits snapshot) (hst : catalogState lib snapshot = .ok st)
    (hphase : PhaseOk documents store commits snapshot phase) :
    NodeOk documents store commits ((nd.publish snapshot st).in phase) := by
  refine ⟨h, ?_, .inr rfl, hphase⟩
  intro st' hst'
  obtain rfl : st = st' := Option.some.inj hst'
  exact hst

/-- What a node has seen stays true when another revision is committed. -/
theorem Sees.commit {store' : Store} {snapshot : CatalogSnapshot}
    (hrev : store.revision < store'.revision) (h : Sees store commits snapshot phase) :
    Sees store' (store'.contents :: commits) snapshot phase := by
  cases phase with
  | idle => trivial
  | starting task attempt => trivial
  | reading task attempt head => exact le_of_lt (lt_of_le_of_lt h hrev)
  | read task attempt head packages =>
      have hlt := lt_of_le_of_lt h.1 hrev
      exact ⟨hlt.le, fun heq => absurd heq hlt.ne⟩
  | loaded task attempt result =>
      cases result with
      | error e => trivial
      | ok s => exact Committed.cons _ h
  | swapping task next state => exact h
  | swapped task next state result =>
      cases result with
      | error e => trivial
      | ok revision => exact fun heq => ⟨(h heq).1.cons _, (h heq).2⟩

theorem NodeOk.commit {store' : Store} (hrev : store.revision < store'.revision)
    (h : NodeOk documents store commits nd) :
    NodeOk documents store' (store'.contents :: commits) nd :=
  ⟨h.snapshot.cons _, h.state, h.host, h.phase.sees.commit hrev, h.phase.sends⟩

end nodes

/-! ### Transactions -/

section world

variable {w : World lib}

theorem nodes_set (w : World lib) (n : ℕ) (nd : Node lib) : (w.set n nd).nodes n = nd :=
  Function.update_self _ _ _

theorem nodes_set_of_ne (w : World lib) {m n : ℕ} (hm : m ≠ n) (nd : Node lib) :
    (w.set n nd).nodes m = w.nodes m := Function.update_of_ne hm _ _

theorem Consistent.set (h : Consistent documents uuid w) {n : ℕ} {nd : Node lib}
    (hnd : NodeOk documents w.store w.commits nd) : Consistent documents uuid (w.set n nd) := by
  refine ⟨h.store, h.first, h.latest, h.count, h.chain, h.valid, h.known, fun m => ?_⟩
  show NodeOk documents w.store w.commits ((w.set n nd).nodes m)
  by_cases hm : m = n
  · rw [hm, nodes_set]
    exact hnd
  · rw [nodes_set_of_ne w hm]
    exact h.nodes m

theorem Consistent.finish (h : Consistent documents uuid w) {n : ℕ} {nd : Node lib}
    {task : Task lib} {result : Except CatalogError Unit}
    (hnd : NodeOk documents w.store w.commits (nd.in .idle)) :
    Consistent documents uuid (w.finish n nd task result) := by
  have hset := h.set (n := n) hnd
  exact ⟨hset.store, hset.first, hset.latest, hset.count, hset.chain, hset.valid, hset.known,
    hset.nodes⟩

theorem StoreOk.draw {drawn : ℕ} {s : Store} (h : StoreOk lib documents uuid drawn s) :
    StoreOk lib documents uuid (drawn + 1) s := by
  refine ⟨h.keyed, h.known, h.empty, h.positive, fun head hhead => ?_, h.state⟩
  obtain ⟨k, hk, hid⟩ := h.drawnID head hhead
  exact ⟨k, Nat.lt_succ_of_lt hk, hid⟩

theorem Consistent.draw (h : Consistent documents uuid w) : Consistent documents uuid w.draw :=
  ⟨h.store.draw, h.first, h.latest, h.count, h.chain, h.valid, h.known, h.nodes⟩

/-- What a transaction does to the world. -/
structure Transacted (documents : Set String) (uuid : ℕ → String) (w w' : World lib) (revision : ℤ)
    (packages : List StoredPackage) (result : Except CatalogError ℤ) : Prop where
  consistent : Consistent documents uuid w'
  nodes : w'.nodes = w.nodes
  returned : w'.returned = w.returned
  commits : w.commits <:+ w'.commits
  kept : ∀ n, NodeOk documents w'.store w'.commits (w.nodes n)
  result : ∀ r, result = .ok r → w.store.revision = revision ∧ r = revision + 1 ∧
    w'.store.revision = r ∧ packages.Perm (rowsOf w'.store.rows)

theorem commit_transacted (hfree : CollisionFree lib documents) (huuid : Function.Injective uuid)
    (h : Consistent documents uuid w) {revision : ℤ} {packages : List StoredPackage} {s : Store}
    {result : Except CatalogError ℤ} (hsent : Known documents packages)
    (hresult : ∀ r, result = .ok r → r = revision + 1)
    (hs : compareAndSwap lib revision packages (uuid w.drawn) w.store = .ok s) :
    Transacted documents uuid w (w.draw.commit s) revision packages result := by
  obtain ⟨hrev, hrev', hperm, hext, hok⟩ := compareAndSwap_spec hfree huuid h.store hsent hs
  have hlt : w.store.revision < s.revision := by omega
  have hnodes : ∀ n, NodeOk documents s (s.contents :: w.commits) (w.nodes n) :=
    fun n => (h.nodes n).commit hlt
  have hcount : ((s.contents :: w.commits).length : ℤ) = s.revision + 1 := by
    have := h.count
    rw [List.length_cons]
    omega
  have hconsistent : Consistent documents uuid (w.draw.commit s) := by
    refine ⟨hok, List.mem_cons_of_mem _ h.first, ⟨w.commits, rfl⟩, hcount, ?_, ?_, ?_, hnodes⟩
    · refine List.pairwise_cons.mpr ⟨fun c hc => ?_, h.chain⟩
      obtain ⟨hle, hext'⟩ := revision_le h hc
      exact ⟨lt_of_le_of_lt hle hlt, hext'.trans hext⟩
    · intro c hc
      rcases List.mem_cons.mp hc with rfl | hc
      · exact hok.state
      · exact h.valid c hc
    · intro c hc
      rcases List.mem_cons.mp hc with rfl | hc
      · exact hok.known
      · exact h.known c hc
  refine ⟨hconsistent, rfl, rfl, List.suffix_cons _ _, hnodes, ?_⟩
  intro r hr
  have heq := hresult r hr
  exact ⟨hrev, heq, hrev'.trans heq.symm, hperm.symm⟩

theorem transact_spec (hfree : CollisionFree lib documents) (huuid : Function.Injective uuid)
    (h : Consistent documents uuid w) (revision : ℤ) {packages : List StoredPackage}
    (hsent : Known documents packages) (fault : Fault) :
    Transacted documents uuid w (transact lib uuid w revision packages fault).1 revision packages
      (transact lib uuid w revision packages fault).2 := by
  have hsame : ∀ (w' : World lib) (e : CatalogError), Consistent documents uuid w' →
      w'.nodes = w.nodes → w'.returned = w.returned → w'.commits = w.commits →
        w'.store = w.store → Transacted documents uuid w w' revision packages (.error e) := by
    intro w' e hw' hn hr hc hs
    refine ⟨hw', hn, hr, hc ▸ List.suffix_refl _, fun n => ?_, fun r hr => by simp at hr⟩
    rw [hc, hs]
    exact h.nodes n
  unfold transact
  cases fault with
  | fails => exact hsame w _ h rfl rfl rfl rfl
  | canceled => exact hsame w _ h rfl rfl rfl rfl
  | none =>
      cases hs : compareAndSwap lib revision packages (uuid w.drawn) w.store with
      | error e => exact hsame w.draw _ h.draw rfl rfl rfl rfl
      | ok s =>
          exact commit_transacted hfree huuid h hsent (fun r hr => (Except.ok.inj hr).symm) hs
  | replyLost =>
      cases hs : compareAndSwap lib revision packages (uuid w.drawn) w.store with
      | error e => exact hsame w.draw _ h.draw rfl rfl rfl rfl
      | ok s => exact commit_transacted hfree huuid h hsent (fun r hr => by simp at hr) hs

/-! ### One step -/

/-- A snapshot whose head is still there at the end of the load is the current revision. -/
theorem contents_of_recheck {head : Option TaskPluginCatalogHead} {packages : List StoredPackage}
    {s : CatalogSnapshot}
    (hread : headRevision head = w.store.revision → packages = rowsOf w.store.rows)
    (hs : recheck w.store head packages = .ok s) : s = w.store.contents := by
  unfold recheck at hs
  simp only [ok_bind, ok_require] at hs
  obtain ⟨-, hhead, hs⟩ := hs
  have hrev : headRevision head = w.store.revision := by
    rw [← hhead]
    rfl
  have hpackages := hread hrev
  cases head with
  | none =>
      simp only [ok_bind, ok_require, ok_pure] at hs
      obtain ⟨-, -, rfl⟩ := hs
      rw [hpackages]
      show (⟨0, _⟩ : CatalogSnapshot) = ⟨w.store.revision, _⟩
      rw [revision_none hhead]
      rfl
  | some head =>
      simp only [ok_pure] at hs
      rw [← hs, hpackages]
      show (⟨head.revision, _⟩ : CatalogSnapshot) = ⟨w.store.revision, _⟩
      rw [revision_some hhead]
      rfl

theorem prepareUpdate_ok {current next : CatalogSnapshot} {expected : Option ℤ}
    {change : Change lib} {st : HostState lib}
    (h : prepareUpdate lib current expected change = .ok (next, st)) :
    next.revision = current.revision + 1 ∧ catalogState lib next = .ok st ∧
      change.apply lib current.packages = .ok next.packages := by
  unfold prepareUpdate at h
  simp only [ok_bind, ok_require, ok_pure, Prod.mk.injEq] at h
  obtain ⟨-, -, -, -, packages, happly, state, hstate, rfl, rfl⟩ := h
  exact ⟨rfl, catalogState_of_build hstate, happly⟩

theorem loadFailed_consistent (h : Consistent documents uuid w) (n : ℕ) (fault : Fault)
    {task : Task lib} (hsends : task.Sends documents) (attempt : ℕ) (e : CatalogError) :
    Consistent documents uuid (loadFailed lib w n fault task attempt e) := by
  unfold loadFailed
  split
  · exact h.set ((h.nodes n).suspend.in (phaseOk_of_sends hsends rfl trivial))
  · exact h.finish (h.nodes n).suspend.idle

theorem afterRefresh_consistent (h : Consistent documents uuid w) (n : ℕ) {nd : Node lib}
    (hnd : ∀ phase, PhaseOk documents w.store w.commits nd.snapshot phase →
      NodeOk documents w.store w.commits (nd.in phase)) {task : Task lib}
    (hsends : task.Sends documents) : Consistent documents uuid (afterRefresh lib w n nd task) := by
  cases task with
  | refresh => exact h.finish (hnd .idle phaseOk_idle)
  | update expected change =>
      simp only [afterRefresh]
      split
      · exact h.finish (hnd .idle phaseOk_idle)
      · next next state hprep =>
        exact h.set (hnd _ (phaseOk_of_sends hsends rfl ⟨expected, change, rfl, hprep⟩))

theorem loadDone_consistent (h : Consistent documents uuid w) (n : ℕ) (fault : Fault)
    {task : Task lib} (hsends : task.Sends documents) {snapshot : CatalogSnapshot}
    (hs : Committed w.commits snapshot) :
    Consistent documents uuid (loadDone lib w n fault task snapshot) := by
  unfold loadDone
  simp only
  split
  · exact h.finish (h.nodes n).suspend.idle
  · split
    · exact h.finish (h.nodes n).suspend.idle
    · next st hst =>
      exact afterRefresh_consistent h n
        (fun _ hphase => nodeOk_publish hs (catalogState_of_build hst) hphase) hsends

theorem swapDone_consistent (h : Consistent documents uuid w) (n : ℕ) (task : Task lib)
    {next : CatalogSnapshot} {state : HostState lib} {result : Except CatalogError ℤ}
    (hs : Sees w.store w.commits (w.nodes n).snapshot (.swapped task next state result)) :
    Consistent documents uuid (swapDone lib w n task next state result) := by
  cases result with
  | error e => exact h.finish (h.nodes n).suspend.idle
  | ok revision =>
      simp only [swapDone]
      split
      · next heq =>
        obtain ⟨hnext, expected, change, -, hprep⟩ := hs heq
        exact h.finish (nodeOk_publish hnext (prepareUpdate_ok hprep).2.1 phaseOk_idle)
      · exact h.finish (h.nodes n).suspend.idle

/-- What a call sends to the store is known. -/
theorem known_of_swapping (h : Consistent documents uuid w) {n : ℕ} {task : Task lib}
    {next : CatalogSnapshot} {state : HostState lib}
    (hphase : (w.nodes n).phase = .swapping task next state) : Known documents next.packages := by
  have hp := (h.nodes n).phase
  rw [hphase] at hp
  obtain ⟨expected, change, rfl, hprep⟩ := hp.sees
  have hknown := known_of_committed h (h.nodes n).snapshot
  exact known_apply hknown (hp.sends _ rfl) (prepareUpdate_ok hprep).2.2

theorem proceed_consistent (hfree : CollisionFree lib documents) (huuid : Function.Injective uuid)
    (h : Consistent documents uuid w) (n : ℕ) (fault : Fault) :
    Consistent documents uuid (proceed lib uuid w n fault) := by
  have hnd := h.nodes n
  have hp := hnd.phase
  unfold proceed
  cases hphase : (w.nodes n).phase with
  | idle => exact h
  | starting task attempt =>
      rw [hphase] at hp
      have hsends := hp.sends task rfl
      simp only
      split_ifs
      · exact h.finish hnd.suspend.idle
      · split
        · exact h.set (hnd.in (phaseOk_of_sends hsends rfl trivial))
        · next head hhead =>
          refine h.set (hnd.in (phaseOk_of_sends hsends rfl ?_))
          exact le_of_eq (headRevision_readHead hhead)
      · exact h.set (hnd.in (phaseOk_of_sends hsends rfl trivial))
  | reading task attempt head =>
      rw [hphase] at hp
      have hsends := hp.sends task rfl
      simp only
      split_ifs
      · split
        · exact h.set (hnd.in (phaseOk_of_sends hsends rfl trivial))
        · next packages hpackages =>
          rw [loadTaskPluginVersions_ok h.store.keyed] at hpackages
          refine h.set (hnd.in (phaseOk_of_sends hsends rfl ⟨hp.sees, fun _ => ?_⟩))
          exact (Except.ok.inj hpackages).symm
      · exact h.set (hnd.in (phaseOk_of_sends hsends rfl trivial))
  | read task attempt head packages =>
      rw [hphase] at hp
      refine h.set (hnd.in (phaseOk_of_sends (hp.sends task rfl) rfl ?_))
      split_ifs
      · cases hs : recheck w.store head packages with
        | error e => trivial
        | ok s =>
            rw [contents_of_recheck hp.sees.2 hs]
            exact ⟨w.store.contents, contents_committed h, rfl, List.Perm.refl _⟩
      · trivial
      · trivial
  | loaded task attempt result =>
      rw [hphase] at hp
      cases result with
      | error e => exact loadFailed_consistent h n fault (hp.sends task rfl) attempt e
      | ok snapshot => exact loadDone_consistent h n fault (hp.sends task rfl) hp.sees
  | swapping task next state =>
      have hknown := known_of_swapping h hphase
      have ht := transact_spec hfree huuid h (w.nodes n).snapshot.revision hknown fault
      rw [hphase] at hp
      obtain ⟨expected, change, rfl, hprep⟩ := hp.sees
      refine ht.consistent.set ((ht.kept n).in (phaseOk_of_sends (hp.sends _ rfl) rfl ?_))
      cases hr : (transact lib uuid w (w.nodes n).snapshot.revision next.packages fault).2 with
      | error e => trivial
      | ok revision =>
          intro heq
          obtain ⟨-, hnext, hstore, hperm⟩ := ht.result revision hr
          refine ⟨⟨_, contents_committed ht.consistent, ?_, hperm⟩, expected, change, rfl, hprep⟩
          exact hstore.trans heq
  | swapped task next state result =>
      rw [hphase] at hp
      exact swapDone_consistent h n task hp.sees

theorem step_consistent (hfree : CollisionFree lib documents) (huuid : Function.Injective uuid)
    (h : Consistent documents uuid w) {op : Op lib} (hop : op.Sends documents) :
    Consistent documents uuid (step lib uuid w op) := by
  cases op with
  | begin n task =>
      simp only [step]
      split
      · split
        · exact h.finish (h.nodes n).idle
        · exact h.set ((h.nodes n).in (phaseOk_of_sends hop rfl trivial))
      · exact h
  | proceed n fault => exact proceed_consistent hfree huuid h n fault
  | restart n =>
      have hsends : (Task.refresh : Task lib).Sends documents := trivial
      refine h.set (nodeOk_new ⟨_, h.first, rfl, List.Perm.refl _⟩ ?_)
      exact phaseOk_of_sends hsends rfl trivial
  | storeCall revision packages => exact (transact_spec hfree huuid h revision hop .none).consistent

end world

theorem start_consistent : Consistent documents uuid (World.start lib) := by
  have hrows : rowsOf (World.start lib).store.rows = [] := rfl
  have hstate : ∃ st, catalogState lib ⟨0, []⟩ = .ok st := ⟨_, rfl⟩
  constructor
  · constructor
    · intro id e he
      simp [World.start] at he
    · rw [hrows]
      exact fun e he => absurd he List.not_mem_nil
    · exact fun _ => hrows
    · intro head hhead
      simp [World.start] at hhead
    · intro head hhead
      simp [World.start] at hhead
    · exact hstate
  · exact List.mem_singleton_self _
  · exact ⟨[], rfl⟩
  · rfl
  · exact List.pairwise_singleton _ _
  · intro c hc
    rw [List.mem_singleton.mp hc]
    exact hstate
  · intro c hc
    rw [List.mem_singleton.mp hc]
    exact fun e he => absurd he List.not_mem_nil
  · exact fun n => nodeOk_new ⟨_, List.mem_singleton_self _, rfl, List.Perm.refl _⟩ phaseOk_idle

/-- The state after a list of operations, from an empty store on. -/
def history (lib : Library) (uuid : ℕ → String) (ops : List (Op lib)) : World lib :=
  Transition.run (step lib uuid) (World.start lib) ops

theorem history_consistent (hfree : CollisionFree lib documents) (huuid : Function.Injective uuid)
    {ops : List (Op lib)} (hops : ∀ op ∈ ops, op.Sends documents) :
    Consistent documents uuid (history lib uuid ops) := by
  refine Transition.run_invariant_mem _ ops ?_ _ start_consistent
  exact fun w op hop h => step_consistent hfree huuid h (hops op hop)

theorem history_append (ops ops' : List (Op lib)) : history lib uuid (ops ++ ops') =
    Transition.run (step lib uuid) (history lib uuid ops) ops' := Transition.run_append _ _ _ _

/-- What the steps of consistent worlds keep, a longer run keeps. -/
theorem history_invariant (hfree : CollisionFree lib documents) (huuid : Function.Injective uuid)
    {P : World lib → Prop} (hstep : ∀ w op, Consistent documents uuid w → P w →
      op.Sends documents → P (step lib uuid w op)) {ops ops' : List (Op lib)}
    (hops : ∀ op ∈ ops ++ ops', op.Sends documents) (h : P (history lib uuid ops)) :
    P (history lib uuid (ops ++ ops')) := by
  rw [List.forall_mem_append] at hops
  have hrun : Consistent documents uuid (history lib uuid (ops ++ ops')) ∧
      P (history lib uuid (ops ++ ops')) := by
    rw [history_append]
    refine Transition.run_invariant_mem (step lib uuid)
      (I := fun w => Consistent documents uuid w ∧ P w) ops' ?_ _
      ⟨history_consistent hfree huuid hops.1, h⟩
    exact fun w op hop hw => ⟨step_consistent hfree huuid hw.1 (hops.2 op hop),
      hstep w op hw.1 hw.2 (hops.2 op hop)⟩
  exact hrun.2

end MaxApi.TaskPlugin
