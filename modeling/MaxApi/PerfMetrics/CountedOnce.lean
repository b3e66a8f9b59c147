import MaxApi.Lib.Receipts
import MaxApi.PerfMetrics.Recorder

/-! # Performance metrics: every sample is counted once

What is stored for a row and what still waits for it, in buckets and in calls under way, are
together what has been accepted (`Accounted`).  A flush keeps the account because the receipt of a
bucket appears together with its counters.  It fails for a sample that is late: one that joins a
bucket of a key whose receipt exists, or will exist before the sample is drained, waits under a
receipt and is dropped.  `samples_counted_once` is about the runs without late samples, and
`late_sample_dropped` is a run with one. -/

namespace MaxApi.PerfMetrics

open Relational Receipts

variable (digest : String → String)

/-! ### What waits -/

def Bucket.waiting (b : Bucket) : Waiting String RowKey Counters :=
  ⟨perfMetricReceiptKey digest b.key, b.key.row, b.counters⟩

/-- The counters a call carries. -/
def Call.waiting : Call → Waiting String RowKey Counters
  | .detach key _ value | .commit key value | .requeue key value | .readd key value _
  | .revict key value _ => ⟨perfMetricReceiptKey digest key, key.row, value⟩
  | .load _ _ _ | .add _ _ _ _ | .evict _ _ _ _ | .project _ _ _ | .finish _ _ | .drain _ _
  | .cleanup _ _ | .done => ⟨"", ⟨"", "", 0⟩, 0⟩

/-- Everything that waits to be committed. -/
def World.waiting (w : World) : List (Waiting String RowKey Counters) :=
  w.heap.map (Bucket.waiting digest) ++ w.calls.map (Call.waiting digest)

/-- What is still to be added to a row. -/
def World.outstanding (w : World) (row : RowKey) : Counters :=
  Receipts.outstanding w.db.Receipted row (w.waiting digest)

/-- What the samples accepted for a row add up to. -/
def World.acceptedAt (w : World) (row : RowKey) : Counters :=
  (w.accepted.map fun a => if a.1 = row then a.2 else 0).sum

/-- What is stored and what waits is what was stored at the start and has been accepted since. -/
def Accounted (base : RowKey → Counters) (w : World) : Prop :=
  ∀ row, stored w.db.perfMetrics row + w.outstanding digest row = base row + w.acceptedAt row

/-- Every bucket has been flushed: the map is empty and no call is under way. -/
def Flushed (w : World) : Prop := w.hot.rows = [] ∧ ∀ c ∈ w.calls, c = .done

instance (w : World) : Decidable (Flushed w) := inferInstanceAs (Decidable (_ ∧ _))

section waiting

variable {digest : String → String} {w : World} {row : RowKey} {i p : ℕ} {call call' : Call}

theorem outstanding_become (h : w.calls[i]? = some call) :
    (w.become i call').outstanding digest row = w.outstanding digest row -
      due w.db.Receipted row (call.waiting digest) +
      due w.db.Receipted row (call'.waiting digest) := by
  have hmap : (w.calls.map (Call.waiting digest))[i]? = some (call.waiting digest) := by
    rw [List.getElem?_map, h]
    rfl
  unfold World.outstanding World.waiting World.become
  dsimp only
  rw [outstanding_append, outstanding_append, List.map_set, outstanding_set hmap]
  abel

theorem outstanding_put {b b' : Bucket} (h : w.heap[p]? = some b) :
    (w.put p b').outstanding digest row = w.outstanding digest row -
      due w.db.Receipted row (b.waiting digest) + due w.db.Receipted row (b'.waiting digest) := by
  have hmap : (w.heap.map (Bucket.waiting digest))[p]? = some (b.waiting digest) := by
    rw [List.getElem?_map, h]
    rfl
  unfold World.outstanding World.waiting World.put
  dsimp only
  rw [outstanding_append, outstanding_append, List.map_set, outstanding_set hmap]
  abel

theorem outstanding_start (calls : List Call) :
    (w.start calls).outstanding digest row = w.outstanding digest row +
      Receipts.outstanding w.db.Receipted row (calls.map (Call.waiting digest)) := by
  unfold World.outstanding World.waiting World.start
  dsimp only
  rw [List.map_append, outstanding_append, outstanding_append, outstanding_append]
  abel

theorem outstanding_store (key : BucketKey) (c : Counters) :
    (w.store key c).outstanding digest row = w.outstanding digest row +
      due w.db.Receipted row (Bucket.waiting digest ⟨key, false, 0, c⟩) := by
  unfold World.outstanding World.waiting World.store
  dsimp only
  rw [List.map_append, outstanding_append, outstanding_append, outstanding_append, List.map_cons,
    List.map_nil, outstanding_cons, outstanding_nil]
  abel

/-- An empty bucket waits for nothing. -/
theorem due_bucket_zero (key : BucketKey) (closed : Bool) (n : ℕ) :
    due w.db.Receipted row (Bucket.waiting digest ⟨key, closed, n, 0⟩) = 0 := due_zero

theorem loadOrStore_outstanding (key : BucketKey) :
    (w.loadOrStore key).1.outstanding digest row = w.outstanding digest row := by
  unfold World.loadOrStore
  split
  · rfl
  · rw [outstanding_store, due_bucket_zero, add_zero]

theorem loadOrStore_calls (key : BucketKey) : (w.loadOrStore key).1.calls = w.calls := by
  unfold World.loadOrStore
  split
  · rfl
  · rfl

theorem loadOrStore_db (key : BucketKey) : (w.loadOrStore key).1.db = w.db := by
  unfold World.loadOrStore
  split
  · rfl
  · rfl

theorem loadOrStore_accepted (key : BucketKey) : (w.loadOrStore key).1.accepted = w.accepted := by
  unfold World.loadOrStore
  split
  · rfl
  · rfl

end waiting

/-! ### The state of memory -/

/-- Counters of samples: they are all zero when no request is counted. -/
def Proper (c : Counters) : Prop := c = 0 ∨ 0 < c .requestCount

theorem Proper.add {c c' : Counters} (h : Proper c) (h' : Proper c') : Proper (c + c') := by
  rcases h with rfl | h
  · rw [zero_add]
    exact h'
  · right
    rw [Pi.add_apply]
    rcases h' with rfl | h'
    · rw [Pi.zero_apply]
      omega
    · omega

theorem Sample.counters_proper (sample : Sample) : Proper sample.counters := by
  right
  show (0 : ℤ) < 1
  omega

/-- The bucket at `p` is one of the key. -/
def HoldsAt (heap : List Bucket) (key : BucketKey) (p : ℕ) : Prop :=
  ∃ b, heap[p]? = some b ∧ b.key = key

/-- The bucket at `p` is one of the key, and closed. -/
def ClosedAt (heap : List Bucket) (key : BucketKey) (p : ℕ) : Prop :=
  ∃ b, heap[p]? = some b ∧ b.key = key ∧ b.closed = true

/-- What a call has read of memory is still so. -/
def Call.Fits (heap : List Bucket) : Call → Prop
  | .load _ _ _ | .cleanup _ _ | .done => True
  | .add key _ _ p | .project key p _ | .finish key p => HoldsAt heap key p
  | .evict key _ _ p | .drain key p => ClosedAt heap key p
  | .detach key p drained => ClosedAt heap key p ∧ Proper drained
  | .commit _ value | .requeue _ value => 0 < value .requestCount
  | .readd key value p => HoldsAt heap key p ∧ 0 < value .requestCount
  | .revict key value p => ClosedAt heap key p ∧ 0 < value .requestCount

/-- Open buckets are in the map, and closed ones are empty or being drained. -/
structure Sound (w : World) : Prop where
  proper : ∀ (p : ℕ) (b : Bucket), w.heap[p]? = some b → Proper b.counters
  opened : ∀ (p : ℕ) (b : Bucket), w.heap[p]? = some b → b.closed = false → ⟨b.key, p⟩ ∈ w.hot
  shut : ∀ (p : ℕ) (b : Bucket), w.heap[p]? = some b → b.closed = true →
    b.counters = 0 ∨ .drain b.key p ∈ w.calls
  hot : ∀ e ∈ w.hot, HoldsAt w.heap e.key e.bucket
  calls : ∀ c ∈ w.calls, c.Fits w.heap

section sound

variable {digest : String → String} {w w' : World} {i p : ℕ} {b b' : Bucket} {call call' : Call}
variable {key : BucketKey}

/-- Buckets keep their key and never open again. -/
def HeapGrows (heap heap' : List Bucket) : Prop :=
  ∀ (p : ℕ) (b : Bucket), heap[p]? = some b →
    ∃ b', heap'[p]? = some b' ∧ b'.key = b.key ∧ (b.closed = true → b'.closed = true)

theorem HoldsAt.grows {heap heap' : List Bucket} (h : HoldsAt heap key p)
    (hg : HeapGrows heap heap') : HoldsAt heap' key p := by
  obtain ⟨b, hb, hkey⟩ := h
  obtain ⟨b', hb', hkey', _⟩ := hg p b hb
  exact ⟨b', hb', hkey'.trans hkey⟩

theorem ClosedAt.grows {heap heap' : List Bucket} (h : ClosedAt heap key p)
    (hg : HeapGrows heap heap') : ClosedAt heap' key p := by
  obtain ⟨b, hb, hkey, hclosed⟩ := h
  obtain ⟨b', hb', hkey', hshut⟩ := hg p b hb
  exact ⟨b', hb', hkey'.trans hkey, hshut hclosed⟩

theorem Call.Fits.grows {heap heap' : List Bucket} (h : call.Fits heap)
    (hg : HeapGrows heap heap') : call.Fits heap' := by
  cases call with
  | load | cleanup | done => trivial
  | add | project | finish => exact HoldsAt.grows h hg
  | evict | drain => exact ClosedAt.grows h hg
  | detach | revict => exact ⟨h.1.grows hg, h.2⟩
  | readd => exact ⟨h.1.grows hg, h.2⟩
  | commit | requeue => exact h

theorem heapGrows_set (b' : Bucket) (hb : w.heap[p]? = some b) (hkey : b'.key = b.key)
    (hclosed : b.closed = true → b'.closed = true) : HeapGrows w.heap (w.heap.set p b') := by
  intro q a ha
  by_cases hq : p = q
  · subst hq
    obtain rfl : a = b := Option.some.inj (ha.symm.trans hb)
    have hlt := (List.getElem?_eq_some_iff.mp hb).1
    exact ⟨b', List.getElem?_set_self hlt, hkey, hclosed⟩
  · exact ⟨a, (List.getElem?_set_ne hq).trans ha, rfl, id⟩

theorem heapGrows_append (heap : List Bucket) (new : List Bucket) :
    HeapGrows heap (heap ++ new) := by
  intro q a ha
  have hlt := (List.getElem?_eq_some_iff.mp ha).1
  exact ⟨a, (List.getElem?_append_left hlt).trans ha, rfl, id⟩

/-- `Sound` is about the map, the buckets and the calls. -/
theorem Sound.congr (h : Sound w) (hheap : w'.heap = w.heap) (hhot : w'.hot = w.hot)
    (hcalls : w'.calls = w.calls) : Sound w' := by
  constructor
  · rw [hheap]
    exact h.proper
  · rw [hheap, hhot]
    exact h.opened
  · rw [hheap, hcalls]
    exact h.shut
  · rw [hheap, hhot]
    exact h.hot
  · rw [hheap, hcalls]
    exact h.calls

/-- A call that was not draining goes on. -/
theorem Sound.become (h : Sound w) (hcall : w.calls[i]? = some call)
    (hd : ∀ key p, call = .drain key p → ∀ b, w.heap[p]? = some b → b.counters = 0)
    (hf : call'.Fits w.heap) : Sound (w.become i call') := by
  refine ⟨h.proper, h.opened, fun p b hb hclosed => ?_, h.hot, fun c hc => ?_⟩
  · refine (h.shut p b hb hclosed).elim .inl fun hdrain => ?_
    obtain ⟨j, hj⟩ := List.mem_iff_getElem?.mp hdrain
    by_cases hij : i = j
    · subst hij
      exact .inl (hd _ _ (Option.some.inj (hcall.symm.trans hj)) b hb)
    · exact .inr (List.mem_iff_getElem?.mpr ⟨j, (List.getElem?_set_ne hij).trans hj⟩)
  · rcases List.mem_or_eq_of_mem_set hc with hc | rfl
    · exact h.calls c hc
    · exact hf

theorem Sound.start (h : Sound w) {calls : List Call} (hf : ∀ c ∈ calls, c.Fits w.heap) :
    Sound (w.start calls) := by
  refine ⟨h.proper, h.opened, fun p b hb hclosed => ?_, h.hot, fun c hc => ?_⟩
  · exact (h.shut p b hb hclosed).imp id fun hdrain => List.mem_append_left calls hdrain
  · rcases List.mem_append.mp hc with hc | hc
    · exact h.calls c hc
    · exact hf c hc

/-- A bucket is overwritten by one that is open as before, or by one that is empty. -/
theorem Sound.put (h : Sound w) (b' : Bucket) (hb : w.heap[p]? = some b) (hkey : b'.key = b.key)
    (hclosed : b'.closed = b.closed) (hproper : Proper b'.counters)
    (hshut : b.closed = true → b'.counters = 0 ∨ b'.counters = b.counters) :
    Sound (w.put p b') := by
  have hgrows := heapGrows_set b' hb hkey fun hc => hclosed.trans hc
  have hlt := (List.getElem?_eq_some_iff.mp hb).1
  have hcases : ∀ (q : ℕ) (a : Bucket), (w.put p b').heap[q]? = some a →
      (q = p ∧ a = b') ∨ w.heap[q]? = some a := by
    intro q a ha
    by_cases hq : p = q
    · subst hq
      exact .inl ⟨rfl, (Option.some.inj ((List.getElem?_set_self hlt).symm.trans ha)).symm⟩
    · exact .inr ((List.getElem?_set_ne hq).symm.trans ha)
  constructor
  · intro q a ha
    rcases hcases q a ha with ⟨_, rfl⟩ | ha
    · exact hproper
    · exact h.proper q a ha
  · intro q a ha hopen
    rcases hcases q a ha with ⟨rfl, rfl⟩ | ha
    · rw [hkey]
      exact h.opened _ b hb (hclosed.symm.trans hopen)
    · exact h.opened q a ha hopen
  · intro q a ha hc
    rcases hcases q a ha with ⟨rfl, rfl⟩ | ha
    · have hbc := hclosed.symm.trans hc
      rcases hshut hbc with h0 | heq
      · exact .inl h0
      · rw [heq, hkey]
        exact h.shut _ b hb hbc
    · exact h.shut q a ha hc
  · intro e he
    exact (h.hot e he).grows hgrows
  · intro c hc
    exact (h.calls c hc).grows hgrows

/-- A new bucket of a key that has none in the map. -/
theorem Sound.store (h : Sound w) (hfree : ∀ e ∈ w.hot, e.key ≠ key) {c : Counters}
    (hc : Proper c) : Sound (w.store key c) := by
  have hgrows := heapGrows_append w.heap [(⟨key, false, 0, c⟩ : Bucket)]
  have hcases : ∀ (q : ℕ) (a : Bucket), (w.store key c).heap[q]? = some a →
      (q = w.heap.length ∧ a = ⟨key, false, 0, c⟩) ∨ w.heap[q]? = some a := by
    intro q a ha
    by_cases hlt : q < w.heap.length
    · exact .inr ((List.getElem?_append_left hlt).symm.trans ha)
    · have hge : w.heap.length ≤ q := by omega
      have ha' := (List.getElem?_append_right hge).symm.trans ha
      have hlt' := (List.getElem?_eq_some_iff.mp ha').1
      have hq : q - w.heap.length = 0 := by
        simp only [List.length_singleton] at hlt'
        omega
      rw [hq] at ha'
      exact .inl ⟨by omega, (Option.some.inj ha').symm⟩
  have hdelete : ∀ e ∈ w.hot, e ∈ w.hot.delete (·.key = key) := fun e he =>
    Table.mem_delete.mpr ⟨he, hfree e he⟩
  have hkeep : ∀ e ∈ w.hot, e ∈ (w.store key c).hot := fun e he =>
    Table.mem_insert_of_mem (hdelete e he)
  constructor
  · intro q a ha
    rcases hcases q a ha with ⟨_, rfl⟩ | ha
    · exact hc
    · exact h.proper q a ha
  · intro q a ha hopen
    rcases hcases q a ha with ⟨rfl, rfl⟩ | ha
    · exact Table.mem_insert_self fun e he hclash => hfree e (Table.mem_delete.mp he).1 hclash
    · exact hkeep _ (h.opened q a ha hopen)
  · intro q a ha hshut
    rcases hcases q a ha with ⟨rfl, rfl⟩ | ha
    · exact absurd hshut (by simp)
    · exact h.shut q a ha hshut
  · intro e he
    rcases Table.mem_insert he with he | ⟨rfl, _⟩
    · exact (h.hot e (Table.mem_delete.mp he).1).grows hgrows
    · exact ⟨⟨key, false, 0, c⟩, by
        show (w.heap ++ [(⟨key, false, 0, c⟩ : Bucket)])[w.heap.length]? = _
        rw [List.getElem?_append_right (le_refl _), Nat.sub_self]
        rfl, rfl⟩
  · intro a ha
    exact (h.calls a ha).grows hgrows

/-- A closed bucket is taken out of the map. -/
theorem Sound.compareAndDelete (h : Sound w) (hclosed : ClosedAt w.heap key p) :
    Sound (w.compareAndDelete key p) := by
  refine ⟨h.proper, fun q a ha hopen => ?_, h.shut, fun e he => ?_, h.calls⟩
  · refine Table.mem_delete.mpr ⟨h.opened q a ha hopen, ?_⟩
    rintro ⟨_, rfl⟩
    obtain ⟨b, hb, _, hc⟩ := hclosed
    obtain rfl : a = b := Option.some.inj (ha.symm.trans hb)
    rw [hopen] at hc
    exact absurd hc (by decide)
  · exact h.hot e (Table.mem_delete.mp he).1

theorem Sound.removeClosedBucket (h : Sound w) (key : BucketKey) :
    Sound (w.removeClosedBucket key) := by
  unfold World.removeClosedBucket
  split
  · exact h
  · next e he =>
      split
      · exact h
      · next b hb =>
          split_ifs with hc
          · obtain ⟨hmem, hkey⟩ := Table.first?_mem he
            obtain ⟨a, ha, hak⟩ := h.hot e hmem
            obtain rfl : a = b := Option.some.inj (ha.symm.trans hb)
            exact h.compareAndDelete ⟨a, ha, hak.trans hkey, hc⟩
          · exact h

theorem Sound.loadOrStore (h : Sound w) (key : BucketKey) :
    Sound (w.loadOrStore key).1 ∧
      HoldsAt (w.loadOrStore key).1.heap key (w.loadOrStore key).2 := by
  unfold World.loadOrStore
  split
  · next e he =>
      obtain ⟨hmem, hkey⟩ := Table.first?_mem he
      exact ⟨h, hkey ▸ h.hot e hmem⟩
  · next hnone =>
      have hfree := Table.first?_eq_none.mp hnone
      have hs := h.store hfree (c := 0) (.inl rfl)
      refine ⟨hs, hs.hot ⟨key, w.heap.length⟩ ?_⟩
      exact Table.mem_insert_self fun e he hclash => hfree e (Table.mem_delete.mp he).1 hclash

/-- The flush closes a bucket and begins to drain it. -/
theorem Sound.close (h : Sound w) (hb : w.heap[p]? = some b) :
    Sound ((w.put p { b with closed := true }).start [.drain b.key p]) := by
  have hlt := (List.getElem?_eq_some_iff.mp hb).1
  have hgrows := heapGrows_set { b with closed := true } hb rfl fun _ => rfl
  have hself : (w.heap.set p { b with closed := true })[p]? = some { b with closed := true } :=
    List.getElem?_set_self hlt
  have hcases : ∀ (q : ℕ) (a : Bucket), (w.heap.set p { b with closed := true })[q]? = some a →
      (q = p ∧ a = { b with closed := true }) ∨ w.heap[q]? = some a := by
    intro q a ha
    by_cases hq : p = q
    · subst hq
      exact .inl ⟨rfl, (Option.some.inj (hself.symm.trans ha)).symm⟩
    · exact .inr ((List.getElem?_set_ne hq).symm.trans ha)
  constructor
  · intro q a ha
    rcases hcases q a ha with ⟨_, rfl⟩ | ha
    · exact h.proper p b hb
    · exact h.proper q a ha
  · intro q a ha hopen
    rcases hcases q a ha with ⟨_, rfl⟩ | ha
    · exact absurd hopen (by simp)
    · exact h.opened q a ha hopen
  · intro q a ha hc
    rcases hcases q a ha with ⟨rfl, rfl⟩ | ha
    · exact .inr (List.mem_append_right _ (List.mem_singleton_self _))
    · exact (h.shut q a ha hc).imp id fun hd => List.mem_append_left _ hd
  · intro e he
    exact (h.hot e he).grows hgrows
  · intro c hc
    rcases List.mem_append.mp hc with hc | hc
    · exact (h.calls c hc).grows hgrows
    · rw [List.mem_singleton.mp hc]
      exact ⟨_, hself, rfl, rfl⟩

/-- The memory of a node is gone. -/
theorem Sound.forgetNode (h : Sound w) (node : String) : Sound (forgetNode w node) := by
  have hget : ∀ (q : ℕ) (a : Bucket), (PerfMetrics.forgetNode w node).heap[q]? = some a →
      ∃ b, w.heap[q]? = some b ∧ a = if b.key.node = node then b.lost else b := by
    intro q a ha
    obtain ⟨b, hb, rfl⟩ := Option.map_eq_some_iff.mp (List.getElem?_map.symm.trans ha)
    exact ⟨b, hb, rfl⟩
  have hgrows : HeapGrows w.heap (PerfMetrics.forgetNode w node).heap := by
    intro q a ha
    refine ⟨if a.key.node = node then a.lost else a, ?_, ?_⟩
    · exact List.getElem?_map.trans (Option.map_eq_some_iff.mpr ⟨a, ha, rfl⟩)
    · split_ifs
      · exact ⟨rfl, fun _ => rfl⟩
      · exact ⟨rfl, id⟩
  constructor
  · intro q a ha
    obtain ⟨b, hb, rfl⟩ := hget q a ha
    split_ifs
    · exact .inl rfl
    · exact h.proper q b hb
  · intro q a ha hopen
    obtain ⟨b, hb, rfl⟩ := hget q a ha
    split_ifs at hopen ⊢ with hnode
    · exact absurd hopen (by simp [Bucket.lost])
    · exact Table.mem_delete.mpr ⟨h.opened q b hb hopen, hnode⟩
  · intro q a ha hc
    obtain ⟨b, hb, rfl⟩ := hget q a ha
    split_ifs at hc ⊢ with hnode
    · exact .inl rfl
    · refine (h.shut q b hb hc).imp id fun hd => ?_
      refine List.mem_map.mpr ⟨_, hd, ?_⟩
      rw [if_neg]
      exact fun heq => hnode (Option.some.inj heq)
  · intro e he
    exact (h.hot e (Table.mem_delete.mp he).1).grows hgrows
  · intro c hc
    obtain ⟨c', hc', rfl⟩ := List.mem_map.mp hc
    split_ifs
    · trivial
    · exact (h.calls c' hc').grows hgrows

/-- The recovery finds each key once, and none of them in the map. -/
theorem Sound.recover {kept : List BucketKey} :
    ∀ {rs : List RedisBucket} {w : World}, Sound w →
      (∀ r ∈ rs, ∀ e ∈ w.hot, e.key ≠ r.key) → rs.Pairwise (fun a b => a.key ≠ b.key) →
      (∀ r ∈ rs, 0 < r.counters .requestCount) →
      Sound (rs.foldl (recoverBucket digest kept) w)
  | [], _, h, _, _, _ => h
  | r :: rs, w, h, hfree, hpair, hpos => by
      obtain ⟨hr, hrest⟩ := List.pairwise_cons.mp hpair
      have hnext : Sound (recoverBucket digest kept w r) ∧
          ∀ a ∈ rs, ∀ e ∈ (recoverBucket digest kept w r).hot, e.key ≠ a.key := by
        unfold recoverBucket
        split_ifs
        · exact ⟨h.congr rfl rfl rfl, fun a ha => hfree a (List.mem_cons_of_mem r ha)⟩
        · exact ⟨h.congr rfl rfl rfl, fun a ha => hfree a (List.mem_cons_of_mem r ha)⟩
        · refine ⟨h.store (hfree r List.mem_cons_self) (.inr (hpos r List.mem_cons_self)), ?_⟩
          intro a ha e he
          rcases Table.mem_insert he with he | ⟨rfl, _⟩
          · exact hfree a (List.mem_cons_of_mem r ha) e (Table.mem_delete.mp he).1
          · exact hr a ha
      show Sound (rs.foldl (recoverBucket digest kept) (recoverBucket digest kept w r))
      exact Sound.recover hnext.1 hnext.2 hrest fun a ha => hpos a (List.mem_cons_of_mem r ha)

theorem mem_recoverable {node : String} {r : RedisBucket} (h : r ∈ recoverable w node) :
    r.key.node = node ∧ 0 < r.counters .requestCount := by
  obtain ⟨_, h⟩ := List.mem_filter.mp h
  have h := of_decide_eq_true h
  exact ⟨h.1, h.2.2.2.2.2.2⟩

theorem Sound.restartNode (h : Sound w) (node : String) (recovers : Bool) (kept : List BucketKey) :
    Sound (restartNode digest w node recovers kept) := by
  unfold PerfMetrics.restartNode
  split_ifs
  · refine Sound.recover (h.forgetNode node) ?_ ?_ ?_
    · intro r hr e he hkey
      exact (Table.mem_delete.mp he).2 ((congrArg BucketKey.node hkey).trans (mem_recoverable hr).1)
    · exact (w.redis.distinct.sublist List.filter_sublist).imp fun hne hkey => hne hkey
    · exact fun r hr => (mem_recoverable hr).2
  · exact h.forgetNode node

theorem cleanupRedis_sound (h : Sound w) (key : BucketKey) (deletion : Deletion) :
    Sound (cleanupRedis w key deletion) := by
  unfold cleanupRedis
  split
  · exact h.congr rfl rfl rfl
  · refine Sound.removeClosedBucket ?_ key
    exact h.congr rfl rfl rfl

theorem cleanupRedis_keeps (w : World) (key : BucketKey) (deletion : Deletion) :
    (cleanupRedis w key deletion).db = w.db ∧ (cleanupRedis w key deletion).accepted = w.accepted ∧
      (cleanupRedis w key deletion).heap = w.heap ∧
      (cleanupRedis w key deletion).calls = w.calls := by
  unfold cleanupRedis World.removeClosedBucket
  split
  · exact ⟨rfl, rfl, rfl, rfl⟩
  · split
    · exact ⟨rfl, rfl, rfl, rfl⟩
    · split
      · exact ⟨rfl, rfl, rfl, rfl⟩
      · split_ifs
        · exact ⟨rfl, rfl, rfl, rfl⟩
        · exact ⟨rfl, rfl, rfl, rfl⟩

/-- The next step of a call. -/
theorem Sound.proceed (h : Sound w) {outcome : Outcome} {deletion : Deletion} {claimToken : String}
    {now : ℤ} (hcall : w.calls[i]? = some call) :
    Sound (proceedStep digest w i outcome deletion claimToken now call) := by
  have hfits := h.calls call (List.mem_of_getElem? hcall)
  have hload : ∀ key, (w.loadOrStore key).1.calls[i]? = some call := fun key => by
    rw [loadOrStore_calls]
    exact hcall
  cases call with
  | load key sample projects =>
      obtain ⟨hs, hholds⟩ := h.loadOrStore key
      exact hs.become (hload key) (by simp) hholds
  | add key sample projects p =>
      obtain ⟨b, hb, rfl⟩ := hfits
      unfold proceedStep addStep
      dsimp only
      rw [hb]
      dsimp only
      by_cases hclosed : b.closed = true
      · rw [if_pos hclosed]
        exact h.become hcall (by simp) ⟨b, hb, rfl, hclosed⟩
      · rw [if_neg hclosed]
        have hcounted : Sound { w with
            accepted := w.accepted ++ [(b.key.row, sample.counters)] } := by
          exact h.congr rfl rfl rfl
        have hadded := hcounted.put { b with
            counters := b.counters + sample.counters
            inFlight := b.inFlight + if projects then 1 else 0 } hb rfl rfl
          ((h.proper p b hb).add sample.counters_proper) fun hc => absurd hc hclosed
        refine hadded.become hcall (by simp) ?_
        split_ifs
        · have hlt := (List.getElem?_eq_some_iff.mp hb).1
          exact ⟨_, List.getElem?_set_self hlt, rfl⟩
        · trivial
  | evict key sample projects p =>
      exact (h.compareAndDelete hfits).become hcall (by simp) trivial
  | project key p snapshot =>
      exact Sound.become (h.congr rfl rfl rfl) hcall (by simp) hfits
  | finish key p =>
      obtain ⟨b, hb, _⟩ := hfits
      unfold proceedStep finishStep
      dsimp only
      rw [hb]
      have hput := h.put { b with inFlight := b.inFlight - 1 } hb rfl rfl
        (h.proper p b hb) fun _ => .inr rfl
      exact hput.become hcall (by simp) trivial
  | drain key p =>
      obtain ⟨b, hb, hkey, hclosed⟩ := hfits
      unfold proceedStep drainStep
      dsimp only
      rw [hb]
      dsimp only
      split_ifs
      · have hlt := (List.getElem?_eq_some_iff.mp hb).1
        have hself : (w.heap.set p { b with counters := 0 })[p]? = some { b with counters := 0 } :=
          List.getElem?_set_self hlt
        have hput := h.put { b with counters := 0 } hb rfl rfl (.inl rfl) fun _ => .inl rfl
        refine hput.become hcall ?_ ⟨⟨_, hself, hkey, hclosed⟩, h.proper p b hb⟩
        intro key' q heq a ha
        obtain ⟨rfl, rfl⟩ := Call.drain.inj heq
        obtain rfl := Option.some.inj (hself.symm.trans ha)
        rfl
      · exact h
  | detach key p drained =>
      refine (h.compareAndDelete hfits.1).become hcall (by simp) ?_
      split_ifs with h0
      · trivial
      · refine hfits.2.resolve_left fun hz => h0 ?_
        rw [hz]
        rfl
  | commit key value =>
      unfold proceedStep commitStep
      dsimp only
      split_ifs
      · exact h
      · split
        · exact Sound.become (h.congr rfl rfl rfl) hcall (by simp) trivial
        · exact Sound.become (h.congr rfl rfl rfl) hcall (by simp) hfits
        · exact h.become hcall (by simp) hfits
  | requeue key value =>
      obtain ⟨hs, hholds⟩ := h.loadOrStore key
      exact hs.become (hload key) (by simp) ⟨hholds, hfits⟩
  | readd key value p =>
      obtain ⟨⟨b, hb, rfl⟩, hpos⟩ := hfits
      unfold proceedStep readdStep
      dsimp only
      rw [hb]
      dsimp only
      split_ifs with hclosed
      · exact h.become hcall (by simp) ⟨⟨b, hb, rfl, hclosed⟩, hpos⟩
      · have hput := h.put { b with counters := b.counters + value } hb rfl rfl
          ((h.proper p b hb).add (.inr hpos)) fun hc => absurd hc hclosed
        exact hput.become hcall (by simp) trivial
  | revict key value p =>
      exact (h.compareAndDelete hfits.1).become hcall (by simp) hfits.2
  | cleanup key committed =>
      unfold proceedStep
      set w1 : World := { w with
        committed := if committed then key :: w.committed else w.committed } with hw1
      have hclean : Sound (cleanupRedis w1 key deletion) := by
        refine cleanupRedis_sound ?_ key deletion
        exact h.congr rfl rfl rfl
      have hcall1 : (cleanupRedis w1 key deletion).calls[i]? = some (.cleanup key committed) := by
        rw [(cleanupRedis_keeps w1 key deletion).2.2.2]
        exact hcall
      exact hclean.become hcall1 (by simp) trivial
  | done => exact h

/-- **The state of memory stays sound.** -/
theorem Sound.step (h : Sound w) (op : Op) : Sound (step digest w op) := by
  cases op with
  | record sample enabled bucketSeconds node now projects =>
      unfold PerfMetrics.step
      dsimp only
      split_ifs
      · exact h
      · refine h.start fun c hc => ?_
        rw [List.mem_singleton.mp hc]
        trivial
  | flush key bucketSeconds now =>
      unfold PerfMetrics.step flushStep
      dsimp only
      split
      · exact h
      · next e he =>
          obtain ⟨hmem, hkey⟩ := Table.first?_mem he
          obtain ⟨b, hb, hbk⟩ := h.hot e hmem
          rw [hb]
          dsimp only
          by_cases hdue : completed key bucketSeconds now
          · rw [if_neg (not_not.mpr hdue)]
            by_cases hclosed : b.closed = true
            · rw [if_pos hclosed]
              refine h.start fun c hc => ?_
              rw [List.mem_singleton.mp hc]
              exact ⟨⟨b, hb, hbk.trans hkey, hclosed⟩, .inl rfl⟩
            · rw [if_neg hclosed, ← hkey, ← hbk]
              exact h.close hb
          · rw [if_pos hdue]
            exact h
  | proceed i outcome deletion claimToken now =>
      unfold PerfMetrics.step
      dsimp only
      split
      · next call hcall => exact h.proceed hcall
      · exact h
  | cleanupCommitted key deletion =>
      unfold PerfMetrics.step
      dsimp only
      split_ifs
      · exact cleanupRedis_sound h key deletion
      · exact h
  | purge cutoff =>
      unfold PerfMetrics.step
      dsimp only
      split_ifs
      · exact h
      · exact h.congr rfl rfl rfl
  | expire key => exact h.congr rfl rfl rfl
  | restart node recovers kept => exact h.restartNode node recovers kept

end sound

/-! ### Late samples -/

/-- What waits besides call `i`. -/
def World.others (w : World) (i : ℕ) : List (Waiting String RowKey Counters) :=
  w.heap.map (Bucket.waiting digest) ++ (w.calls.eraseIdx i).map (Call.waiting digest)

/-- What waits in the memory of a node. -/
def nodeWaiting (w : World) (node : String) : List (Waiting String RowKey Counters) :=
  (w.heap.filter (·.key.node = node)).map (Bucket.waiting digest) ++
    (w.calls.filter (·.node = some node)).map (Call.waiting digest)

/-- What a restart of the node brings back from Redis. -/
def restoredWaiting (w : World) (node : String) (recovers : Bool) :
    List (Waiting String RowKey Counters) :=
  if recovers then
    (recoverable w node).map fun r => Bucket.waiting digest ⟨r.key, false, 0, r.counters⟩
  else []

/-- The operation loses no counters.  A sample is added only under a key without a receipt; when a
commit creates the receipt of a key, nothing else waits for that receipt; receipts are purged only
when nothing waits under them; and when a process restarts, Redis holds what is in its memory. -/
def OnTime (w : World) : Op → Prop
  | .proceed i outcome _ _ _ =>
      match w.calls[i]? with
      | some (.add key _ _ p) =>
          (w.heap[p]?).map Bucket.closed = some false → ¬ Committed digest w key
      | some (.commit key _) =>
          outcome ≠ Outcome.failed → ¬ Committed digest w key → ∀ v ∈ w.others digest i,
            v.receipt = perfMetricReceiptKey digest key → v.amount = 0
      | _ => True
  | .purge cutoff =>
      0 < cutoff → ∀ r ∈ w.db.receipts.rows, r.createdAt < cutoff →
        ∀ v ∈ w.waiting digest, v.receipt = r.receiptKey → v.amount = 0
  | .restart node recovers _ =>
      ∀ row ∈ (nodeWaiting digest w node ++ restoredWaiting digest w node recovers).map (·.key),
        Receipts.outstanding w.db.Receipted row (nodeWaiting digest w node) =
          Receipts.outstanding w.db.Receipted row (restoredWaiting digest w node recovers)
  | _ => True

instance (w : World) (op : Op) : Decidable (OnTime digest w op) := by
  unfold OnTime
  split
  · split
    · infer_instance
    · infer_instance
    · infer_instance
  · infer_instance
  · infer_instance
  · infer_instance

section account

variable {digest : String → String} {w w' : World} {i p : ℕ} {b : Bucket} {call call' : Call}
variable {key : BucketKey} {row : RowKey} {base : RowKey → Counters}

/-- Call `i` and the others. -/
theorem outstanding_others {done : String → Prop} [DecidablePred done]
    (h : w.calls[i]? = some call) :
    Receipts.outstanding done row (w.waiting digest) =
      Receipts.outstanding done row (call.waiting digest :: w.others digest i) := by
  obtain ⟨hi, hcall⟩ := List.getElem?_eq_some_iff.mp h
  have hperm := List.getElem_cons_eraseIdx_perm hi
  rw [hcall] at hperm
  unfold World.waiting World.others
  refine outstanding_perm (((hperm.map (Call.waiting digest)).symm.append_left _).trans ?_)
  exact List.perm_middle

theorem others_become : (w.become i call').others digest i = w.others digest i := by
  unfold World.others World.become
  dsimp only
  rw [List.eraseIdx_set_eq]

/-- A step that adds nothing to a row and changes nothing that waits. -/
theorem Accounted.congr (h : Accounted digest base w)
    (hstored : w'.db.perfMetrics = w.db.perfMetrics)
    (haccepted : w'.accepted = w.accepted)
    (hout : ∀ row, w'.outstanding digest row = w.outstanding digest row) :
    Accounted digest base w' := by
  intro row
  unfold World.acceptedAt
  rw [hstored, haccepted, hout]
  exact h row

/-- A call goes on with the counters it carried. -/
theorem Accounted.become (h : Accounted digest base w) (hcall : w.calls[i]? = some call)
    (hsame : ∀ row, due w.db.Receipted row (call'.waiting digest) =
      due w.db.Receipted row (call.waiting digest)) : Accounted digest base (w.become i call') := by
  refine h.congr rfl rfl fun row => ?_
  rw [outstanding_become hcall, hsame row]
  abel

/-- A receipt is inserted. -/
theorem receipted_insert {s s' : Tables} {receipt : PerfMetricFlushReceipt}
    (hs : s'.receipts = s.receipts.insert receipt) (k : String) :
    s'.Receipted k ↔ s.Receipted k ∨ receipt.receiptKey = k := by
  unfold Tables.Receipted
  rw [hs]
  exact Table.exists_insert_iff (fun _ hclash => hclash) k

/-- The counters of a call are added and their receipt appears, while nothing else waits for it. -/
theorem Accounted.receipted (h : Accounted digest base w) {value : Counters} {db : Tables}
    {claimToken : String} {now : ℤ} (hpos : value .requestCount ≠ 0)
    (hcall : w.calls[i]? = some (.commit key value)) (hnew : ¬ Committed digest w key)
    (hdb : db = { w.db with
      receipts := w.db.receipts.insert ⟨perfMetricReceiptKey digest key, claimToken, now⟩
      perfMetrics := upsertPerfMetric w.db.perfMetrics ⟨key.row, value⟩ })
    (hothers : ∀ v ∈ w.others digest i, v.receipt = perfMetricReceiptKey digest key → v.amount = 0)
    (hnext : ∀ row, due db.Receipted row (call'.waiting digest) = 0) :
    Accounted digest base ({ w with db := db }.become i call') := by
  have hreceipts : db.receipts =
      w.db.receipts.insert ⟨perfMetricReceiptKey digest key, claimToken, now⟩ := by rw [hdb]
  have hmem : ∀ k, db.Receipted k ↔ w.db.Receipted k ∨ perfMetricReceiptKey digest key = k :=
    fun k => receipted_insert hreceipts k
  intro row
  have hrow := h row
  -- before the commit, the counters of the call were due
  have hbefore : w.outstanding digest row = Receipts.outstanding db.Receipted row
      (w.others digest i) + if key.row = row then value else 0 :=
    (outstanding_others hcall).trans (outstanding_commit hnew hmem hothers)
  -- after it they are not
  have hafter : ({ w with db := db }.become i call').outstanding digest row =
      Receipts.outstanding db.Receipted row (w.others digest i) := by
    have hcall' : ({ w with db := db }.become i call').calls[i]? = some call' :=
      List.getElem?_set_self (List.getElem?_eq_some_iff.mp hcall).1
    refine (outstanding_others hcall').trans ?_
    rw [others_become, outstanding_cons]
    show due db.Receipted row (call'.waiting digest) + _ = _
    rw [hnext row, zero_add]
    rfl
  have hstored : stored db.perfMetrics row =
      stored w.db.perfMetrics row + if key.row = row then value else 0 := by
    rw [hdb]
    exact stored_upsertPerfMetric hpos row
  show stored db.perfMetrics row + _ = base row + w.acceptedAt row
  rw [hafter, hstored, ← hrow, hbefore]
  abel

/-- The commit of a bucket. -/
theorem Accounted.commit (h : Accounted digest base w) {outcome : Outcome} {deletion : Deletion}
    {claimToken : String} {now : ℤ} {value : Counters} (hpos : 0 < value .requestCount)
    (hcall : w.calls[i]? = some (.commit key value))
    (htime : OnTime digest w (.proceed i outcome deletion claimToken now)) :
    Accounted digest base (commitStep digest w i key value outcome claimToken now) := by
  have hback : Accounted digest base (w.become i (.requeue key value)) := by
    refine h.become hcall fun row => rfl
  have hok : ∀ (a : Bool) (db : Tables) (next : Call), outcome ≠ Outcome.failed →
      (∀ r ∈ w.db.receipts, r.claimToken ≠ claimToken) →
      (next = .cleanup key true ∨ next = .requeue key value) →
      (commitPerfMetricBucket (perfMetricReceiptKey digest key) ⟨key.row, value⟩ claimToken
        now).Ok w.db a db → Accounted digest base ({ w with db := db }.become i next) := by
    intro a db next hout hfresh hnext hexec
    have hnz : value .requestCount ≠ 0 := by omega
    have hzero : ∀ (s : Tables) (row : RowKey), s.Receipted (perfMetricReceiptKey digest key) →
        due s.Receipted row (next.waiting digest) = 0 := by
      intro s row hdone
      rcases hnext with rfl | rfl
      · exact due_zero
      · exact due_of_done hdone
    rcases commitPerfMetricBucket_ok hfresh hnz hexec with ⟨hdone, rfl⟩ | ⟨hnew, hdb⟩
    · refine h.become hcall fun row => ?_
      rw [hzero _ _ hdone]
      exact (due_of_done hdone).symm
    · unfold OnTime at htime
      simp only [hcall] at htime
      refine h.receipted hnz hcall hnew hdb (htime hout hnew) fun row => hzero _ row ?_
      have hreceipts : db.receipts =
          w.db.receipts.insert ⟨perfMetricReceiptKey digest key, claimToken, now⟩ := by rw [hdb]
      exact (receipted_insert hreceipts _).mpr (.inr rfl)
  unfold commitStep
  split_ifs with hused
  · exact h
  · have hfresh : ∀ r ∈ w.db.receipts, r.claimToken ≠ claimToken :=
      fun r hr htoken => hused ⟨r, hr, htoken⟩
    rcases transaction_cases (commitPerfMetricBucket (perfMetricReceiptKey digest key)
      ⟨key.row, value⟩ claimToken now) w.db with ⟨a, db, hexec, ht⟩ | ⟨e, ht⟩
    · rw [ht]
      cases outcome with
      | done => exact hok a db _ (by simp) hfresh (.inl rfl) hexec
      | unacknowledged => exact hok a db _ (by simp) hfresh (.inr rfl) hexec
      | failed => exact hback
    · rw [ht]
      cases outcome with
      | done => exact hback
      | unacknowledged => exact hback
      | failed => exact hback

/-- A bucket takes over what a call carries, or gives to it. -/
theorem Accounted.hand (h : Accounted digest base w) {b' : Bucket} (hb : w.heap[p]? = some b)
    (hcall : w.calls[i]? = some call)
    (hsame : ∀ row, due w.db.Receipted row (b'.waiting digest) +
        due w.db.Receipted row (call'.waiting digest) =
      due w.db.Receipted row (b.waiting digest) + due w.db.Receipted row (call.waiting digest)) :
    Accounted digest base ((w.put p b').become i call') := by
  refine h.congr rfl rfl fun row => ?_
  have hcall' : (w.put p b').calls[i]? = some call := hcall
  rw [outstanding_become hcall', outstanding_put hb]
  have hrow := hsame row
  show w.outstanding digest row - due w.db.Receipted row (b.waiting digest) +
    due w.db.Receipted row (b'.waiting digest) - due w.db.Receipted row (call.waiting digest) +
    due w.db.Receipted row (call'.waiting digest) = w.outstanding digest row
  have hsplit : due w.db.Receipted row (call'.waiting digest) =
      due w.db.Receipted row (b.waiting digest) + due w.db.Receipted row (call.waiting digest) -
        due w.db.Receipted row (b'.waiting digest) := by
    rw [← hrow]
    abel
  rw [hsplit]
  abel

/-- A sample is accepted under a key without a receipt. -/
theorem Accounted.accept (h : Accounted digest base w) {sample : Sample} {projects : Bool}
    (hb : w.heap[p]? = some b) (hcall : w.calls[i]? = some (.add b.key sample projects p))
    (hnew : b.closed = false → ¬ Committed digest w b.key) :
    Accounted digest base (addStep w i b.key sample projects p) := by
  unfold addStep
  rw [hb]
  dsimp only
  by_cases hclosed : b.closed = true
  · rw [if_pos hclosed]
    exact h.become hcall fun row => rfl
  · rw [if_neg hclosed]
    have hopen : ¬ Committed digest w b.key := hnew (by simpa using hclosed)
    intro row
    have hrow := h row
    set b' : Bucket := { b with
      counters := b.counters + sample.counters
      inFlight := b.inFlight + if projects then 1 else 0 } with hb'
    set next : Call := if projects then .project b.key p b'.counters else .done with hnext
    have hzero : due w.db.Receipted row (next.waiting digest) = 0 := by
      rw [hnext]
      split_ifs
      · exact due_zero
      · exact due_zero
    have hadded : due w.db.Receipted row (b'.waiting digest) =
        due w.db.Receipted row (b.waiting digest) +
          if b.key.row = row then sample.counters else 0 := by
      have hdue : due w.db.Receipted row ⟨perfMetricReceiptKey digest b.key, b.key.row,
          sample.counters⟩ = if b.key.row = row then sample.counters else 0 := if_neg hopen
      rw [← hdue]
      exact due_add
    set w1 : World := { w with accepted := w.accepted ++ [(b.key.row, sample.counters)] } with hw1
    have hout : ((w1.put p b').become i next).outstanding digest row =
        w.outstanding digest row + if b.key.row = row then sample.counters else 0 := by
      have hcall1 : (w1.put p b').calls[i]? = some (.add b.key sample projects p) := hcall
      have hb1 : w1.heap[p]? = some b := hb
      rw [outstanding_become hcall1, outstanding_put hb1]
      show w.outstanding digest row - due w.db.Receipted row (b.waiting digest) +
        due w.db.Receipted row (b'.waiting digest) -
        due w.db.Receipted row ((Call.add b.key sample projects p).waiting digest) +
        due w.db.Receipted row (next.waiting digest) = _
      have hadd : due w.db.Receipted row ((Call.add b.key sample projects p).waiting digest) = 0 :=
        due_zero
      rw [hadded, hzero, hadd]
      abel
    have haccepted : ((w1.put p b').become i next).acceptedAt row =
        w.acceptedAt row + if b.key.row = row then sample.counters else 0 := by
      show ((w.accepted ++ [(b.key.row, sample.counters)]).map fun a =>
        if a.1 = row then a.2 else 0).sum = _
      rw [List.map_append, List.sum_append, List.map_singleton, List.sum_singleton]
      rfl
    rw [hout, haccepted]
    show stored w.db.perfMetrics row + _ = _
    rw [← add_assoc, ← add_assoc, hrow]

/-- A bucket for a key is found or made. -/
theorem Accounted.loadOrStore (h : Accounted digest base w) (key : BucketKey) :
    Accounted digest base (w.loadOrStore key).1 := by
  refine h.congr ?_ ?_ fun row => loadOrStore_outstanding key
  · rw [loadOrStore_db]
  · rw [loadOrStore_accepted]

theorem Accounted.cleanup (h : Accounted digest base w) (key : BucketKey) (deletion : Deletion) :
    Accounted digest base (cleanupRedis w key deletion) := by
  obtain ⟨hdb, haccepted, hheap, hcalls⟩ := cleanupRedis_keeps w key deletion
  refine h.congr (by rw [hdb]) haccepted fun row => ?_
  unfold World.outstanding World.waiting
  rw [hdb, hheap, hcalls]

/-- The next step of a call. -/
theorem Accounted.proceed (h : Accounted digest base w) (hsound : Sound w) {outcome : Outcome}
    {deletion : Deletion} {claimToken : String} {now : ℤ} (hcall : w.calls[i]? = some call)
    (htime : OnTime digest w (.proceed i outcome deletion claimToken now)) :
    Accounted digest base (proceedStep digest w i outcome deletion claimToken now call) := by
  have hfits := hsound.calls call (List.mem_of_getElem? hcall)
  have hload : ∀ key, (w.loadOrStore key).1.calls[i]? = some call := fun key => by
    rw [loadOrStore_calls]
    exact hcall
  cases call with
  | load key sample projects =>
      exact (h.loadOrStore key).become (hload key) fun row => rfl
  | add key sample projects p =>
      obtain ⟨b, hb, rfl⟩ := hfits
      refine h.accept hb hcall fun hopen => ?_
      unfold OnTime at htime
      simp only [hcall] at htime
      refine htime ?_
      rw [hb, ← hopen]
      rfl
  | evict key sample projects p =>
      have hdelete : Accounted digest base (w.compareAndDelete key p) := by
        exact h.congr rfl rfl fun row => rfl
      exact hdelete.become hcall fun row => rfl
  | project key p snapshot =>
      have hredis : ∀ t, Accounted digest base { w with redis := t } := fun t => by
        exact h.congr rfl rfl fun row => rfl
      exact (hredis _).become hcall fun row => rfl
  | finish key p =>
      obtain ⟨b, hb, _⟩ := hfits
      unfold proceedStep finishStep
      dsimp only
      rw [hb]
      exact h.hand hb hcall fun row => rfl
  | drain key p =>
      obtain ⟨b, hb, rfl, _⟩ := hfits
      unfold proceedStep drainStep
      dsimp only
      rw [hb]
      dsimp only
      split_ifs
      · -- the counters go from the bucket to the call
        refine h.hand hb hcall fun row => ?_
        have hbucket : due w.db.Receipted row
            (Bucket.waiting digest { b with counters := 0 }) = 0 := due_zero
        have hdrain : due w.db.Receipted row ((Call.drain b.key p).waiting digest) = 0 := due_zero
        rw [hbucket, hdrain, zero_add, add_zero]
        rfl
      · exact h
  | detach key p drained =>
      have hdelete : Accounted digest base (w.compareAndDelete key p) := by
        exact h.congr rfl rfl fun row => rfl
      refine hdelete.become hcall fun row => ?_
      split_ifs with h0
      · -- nothing was drained
        have hnone : drained = 0 := hfits.2.resolve_right (by rw [h0]; omega)
        rw [hnone]
        exact due_zero.trans due_zero.symm
      · rfl
  | commit key value => exact h.commit hfits hcall htime
  | requeue key value =>
      exact (h.loadOrStore key).become (hload key) fun row => rfl
  | readd key value p =>
      obtain ⟨⟨b, hb, rfl⟩, _⟩ := hfits
      unfold proceedStep readdStep
      dsimp only
      rw [hb]
      dsimp only
      split_ifs
      · exact h.become hcall fun row => rfl
      · -- the counters go back from the call to a bucket
        refine h.hand hb hcall fun row => ?_
        have hdone : due w.db.Receipted row (Call.done.waiting digest) = 0 := due_zero
        rw [hdone, add_zero]
        exact due_add
  | revict key value p =>
      have hdelete : Accounted digest base (w.compareAndDelete key p) := by
        exact h.congr rfl rfl fun row => rfl
      exact hdelete.become hcall fun row => rfl
  | cleanup key committed =>
      unfold proceedStep
      set w1 : World := { w with
        committed := if committed then key :: w.committed else w.committed } with hw1
      have hmark : Accounted digest base w1 := by
        exact h.congr rfl rfl fun row => rfl
      have hcall1 : (cleanupRedis w1 key deletion).calls[i]? = some (.cleanup key committed) := by
        rw [(cleanupRedis_keeps w1 key deletion).2.2.2]
        exact hcall
      exact (hmark.cleanup key deletion).become hcall1 fun row => rfl
  | done => exact h

/-- A call that carries nothing begins. -/
theorem Accounted.start (h : Accounted digest base w)
    (hzero : ∀ row, due w.db.Receipted row (call.waiting digest) = 0) :
    Accounted digest base (w.start [call]) := by
  refine h.congr rfl rfl fun row => ?_
  rw [outstanding_start, List.map_singleton, outstanding_cons, hzero row, outstanding_nil, add_zero,
    add_zero]

/-- The flush visits a bucket. -/
theorem Accounted.flush (h : Accounted digest base w) (bucketSeconds now : ℤ) :
    Accounted digest base (flushStep w key bucketSeconds now) := by
  unfold flushStep
  split
  · exact h
  · next e _ =>
      split
      · exact h
      · next b hb =>
          split_ifs
          · exact h.start fun row => due_zero
          · -- the bucket is closed; its counters stay until it is drained
            refine Accounted.start (h.congr rfl rfl fun row => ?_) fun row => due_zero
            rw [outstanding_put hb]
            show _ - due w.db.Receipted row (b.waiting digest) +
              due w.db.Receipted row (b.waiting digest) = _
            abel
          · exact h

/-- Receipts are purged under which nothing waits. -/
theorem Accounted.purge (h : Accounted digest base w) {cutoff : ℤ} (hcut : 0 < cutoff)
    (htime : OnTime digest w (.purge cutoff)) :
    Accounted digest base { w with
      db := { w.db with receipts := w.db.receipts.delete (·.createdAt < cutoff) } } := by
  refine h.congr rfl rfl fun row => (outstanding_congr fun v hv => ?_).symm
  by_cases hgone : ∃ r ∈ w.db.receipts.rows, r.createdAt < cutoff ∧ v.receipt = r.receiptKey
  · obtain ⟨r, hr, hold, hreceipt⟩ := hgone
    exact .inl (htime hcut r hr hold v hv hreceipt)
  · right
    constructor
    · rintro ⟨r, hr, hkey⟩
      exact ⟨r, Table.mem_delete.mpr ⟨hr, fun hold => hgone ⟨r, hr, hold, hkey.symm⟩⟩, hkey⟩
    · rintro ⟨r, hr, hkey⟩
      exact ⟨r, (Table.mem_delete.mp hr).1, hkey⟩

/-! ### Restarts -/

/-- What the memory of a node held no longer waits. -/
theorem forgetNode_outstanding (node : String) :
    (forgetNode w node).outstanding digest row +
      Receipts.outstanding w.db.Receipted row (nodeWaiting digest w node) =
        w.outstanding digest row := by
  have hheap : Receipts.outstanding w.db.Receipted row
        (w.heap.map fun b => Bucket.waiting digest (if b.key.node = node then b.lost else b)) +
      Receipts.outstanding w.db.Receipted row
        ((w.heap.filter (·.key.node = node)).map (Bucket.waiting digest)) =
      Receipts.outstanding w.db.Receipted row (w.heap.map (Bucket.waiting digest)) := by
    refine outstanding_discard (fun b hnode => ?_) (fun b hnode => ?_) w.heap
    · rw [if_pos hnode]
      exact due_zero
    · rw [if_neg hnode]
  have hcalls : Receipts.outstanding w.db.Receipted row
        (w.calls.map fun c => Call.waiting digest (if c.node = some node then .done else c)) +
      Receipts.outstanding w.db.Receipted row
        ((w.calls.filter (·.node = some node)).map (Call.waiting digest)) =
      Receipts.outstanding w.db.Receipted row (w.calls.map (Call.waiting digest)) := by
    refine outstanding_discard (fun c hnode => ?_) (fun c hnode => ?_) w.calls
    · rw [if_pos hnode]
      exact due_zero
    · rw [if_neg hnode]
  unfold World.outstanding World.waiting nodeWaiting PerfMetrics.forgetNode
  dsimp only
  rw [outstanding_append, outstanding_append, outstanding_append, ← hheap, ← hcalls, List.map_map,
    List.map_map]
  unfold Function.comp
  abel

/-- The recovery adds what it restores. -/
theorem recover_outstanding (digest : String → String) (kept : List BucketKey) (row : RowKey) :
    ∀ (rs : List RedisBucket) (w : World),
      (rs.foldl (recoverBucket digest kept) w).db = w.db ∧
      (rs.foldl (recoverBucket digest kept) w).accepted = w.accepted ∧
      (rs.foldl (recoverBucket digest kept) w).outstanding digest row =
        w.outstanding digest row + Receipts.outstanding w.db.Receipted row
          (rs.map fun r => Bucket.waiting digest ⟨r.key, false, 0, r.counters⟩)
  | [], w => ⟨rfl, rfl, (add_zero _).symm⟩
  | r :: rs, w => by
      have hturn : (recoverBucket digest kept w r).db = w.db ∧
          (recoverBucket digest kept w r).accepted = w.accepted ∧
          (recoverBucket digest kept w r).outstanding digest row = w.outstanding digest row +
            due w.db.Receipted row (Bucket.waiting digest ⟨r.key, false, 0, r.counters⟩) := by
        unfold recoverBucket
        by_cases hdone : Committed digest w r.key
        · have hzero : due w.db.Receipted row
              (Bucket.waiting digest ⟨r.key, false, 0, r.counters⟩) = 0 := due_of_done hdone
          rw [if_pos hdone, hzero, add_zero]
          split_ifs
          · exact ⟨rfl, rfl, rfl⟩
          · exact ⟨rfl, rfl, rfl⟩
        · rw [if_neg hdone]
          exact ⟨rfl, rfl, outstanding_store r.key r.counters⟩
      obtain ⟨hdb, haccepted, hout⟩ := hturn
      obtain ⟨hdb', haccepted', hout'⟩ :=
        recover_outstanding digest kept row rs (recoverBucket digest kept w r)
      rw [hdb] at hdb' hout'
      rw [haccepted] at haccepted'
      rw [hout] at hout'
      refine ⟨hdb', haccepted', hout'.trans ?_⟩
      rw [List.map_cons, outstanding_cons]
      abel

/-- A process restarts while Redis holds what is in its memory. -/
theorem Accounted.restart (h : Accounted digest base w) {node : String} {recovers : Bool}
    {kept : List BucketKey} (htime : OnTime digest w (.restart node recovers kept)) :
    Accounted digest base (restartNode digest w node recovers kept) := by
  have hequal : ∀ row, Receipts.outstanding w.db.Receipted row (nodeWaiting digest w node) =
      Receipts.outstanding w.db.Receipted row (restoredWaiting digest w node recovers) := by
    intro row
    by_cases hrow : row ∈ (nodeWaiting digest w node ++
        restoredWaiting digest w node recovers).map (·.key)
    · exact htime row hrow
    · rw [List.map_append, List.mem_append, not_or] at hrow
      rw [outstanding_of_not_mem hrow.1, outstanding_of_not_mem hrow.2]
  have hforget : ∀ row, (forgetNode w node).outstanding digest row +
      Receipts.outstanding w.db.Receipted row (restoredWaiting digest w node recovers) =
        w.outstanding digest row := by
    intro row
    rw [← hequal row]
    exact forgetNode_outstanding node
  unfold restartNode
  unfold restoredWaiting at hforget
  cases recovers with
  | false =>
      refine h.congr rfl rfl fun row => ?_
      rw [← hforget row]
      exact (add_zero _).symm
  | true =>
      have hrecover := fun row =>
        recover_outstanding digest kept row (recoverable w node) (forgetNode w node)
      refine h.congr ?_ ?_ fun row => ?_
      · rw [if_pos rfl, (hrecover ⟨"", "", 0⟩).1]
        rfl
      · rw [if_pos rfl, (hrecover ⟨"", "", 0⟩).2.1]
        rfl
      · rw [if_pos rfl, (hrecover row).2.2]
        exact hforget row

/-- **A step on time keeps the account.** -/
theorem Accounted.step (h : Accounted digest base w) (hsound : Sound w) {op : Op}
    (htime : OnTime digest w op) : Accounted digest base (step digest w op) := by
  cases op with
  | record sample enabled bucketSeconds node now projects =>
      unfold PerfMetrics.step
      dsimp only
      split_ifs
      · exact h
      · exact h.start fun row => due_zero
  | flush key bucketSeconds now => exact h.flush bucketSeconds now
  | proceed i outcome deletion claimToken now =>
      unfold PerfMetrics.step
      dsimp only
      split
      · next call hcall => exact h.proceed hsound hcall htime
      · exact h
  | cleanupCommitted key deletion =>
      unfold PerfMetrics.step
      dsimp only
      split_ifs
      · exact h.cleanup key deletion
      · exact h
  | purge cutoff =>
      unfold PerfMetrics.step
      dsimp only
      split_ifs with hcut
      · exact h
      · exact h.purge (by omega) htime
  | expire key => exact h.congr rfl rfl fun row => rfl
  | restart node recovers kept => exact h.restart htime

/-- Nothing waits once every bucket has been flushed. -/
theorem Flushed.outstanding (h : Flushed w) (hsound : Sound w) (row : RowKey) :
    w.outstanding digest row = 0 := by
  obtain ⟨hhot, hcalls⟩ := h
  have hheap : ∀ (p : ℕ) (b : Bucket), w.heap[p]? = some b → b.counters = 0 := by
    intro p b hb
    cases hclosed : b.closed with
    | false =>
        have hmem : (⟨b.key, p⟩ : HotEntry) ∈ w.hot.rows := hsound.opened p b hb hclosed
        rw [hhot] at hmem
        exact absurd hmem List.not_mem_nil
    | true =>
        refine (hsound.shut p b hb hclosed).resolve_right fun hdrain => ?_
        exact Call.noConfusion (hcalls _ hdrain)
  unfold World.outstanding World.waiting
  rw [outstanding_append]
  have hbuckets : Receipts.outstanding w.db.Receipted row (w.heap.map (Bucket.waiting digest)) =
      0 := by
    refine outstanding_eq_zero fun v hv => ?_
    obtain ⟨b, hb, rfl⟩ := List.mem_map.mp hv
    obtain ⟨p, hp⟩ := List.mem_iff_getElem?.mp hb
    unfold Bucket.waiting
    rw [hheap p b hp]
    exact due_zero
  have hdone : Receipts.outstanding w.db.Receipted row (w.calls.map (Call.waiting digest)) = 0 := by
    refine outstanding_eq_zero fun v hv => ?_
    obtain ⟨c, hc, rfl⟩ := List.mem_map.mp hv
    rw [hcalls c hc]
    exact due_zero
  rw [hbuckets, hdone, add_zero]

end account

/-! ### Runs -/

/-- Nothing is in memory yet, and no sample has been counted. -/
structure Started (w : World) : Prop where
  hot : w.hot.rows = []
  heap : w.heap = []
  calls : w.calls = []
  accepted : w.accepted = []

theorem Started.sound {w : World} (h : Started w) : Sound w := by
  obtain ⟨hhot, hheap, hcalls, _⟩ := h
  constructor
  · rw [hheap]
    exact fun p b hb => absurd hb (by simp)
  · rw [hheap]
    exact fun p b hb => absurd hb (by simp)
  · rw [hheap]
    exact fun p b hb => absurd hb (by simp)
  · intro e he
    have he : e ∈ w.hot.rows := he
    rw [hhot] at he
    exact absurd he List.not_mem_nil
  · rw [hcalls]
    exact fun c hc => absurd hc List.not_mem_nil

theorem Started.accounted {w : World} (h : Started w) :
    Accounted digest (stored w.db.perfMetrics) w := by
  obtain ⟨_, hheap, hcalls, haccepted⟩ := h
  intro row
  unfold World.outstanding World.waiting World.acceptedAt
  rw [hheap, hcalls, haccepted]
  rfl

/-- **Samples are counted once.**  In every state of a run without late samples, what is stored and
what waits is what was stored at the start and has been accepted since; so once every bucket has
been flushed, the stored rows have grown by exactly the samples. -/
theorem samples_counted_once (w : World) (hstart : Started w) (ops : List Op)
    (hops : Transition.Throughout (step digest) (OnTime digest) w ops) :
    Accounted digest (stored w.db.perfMetrics) (runs digest w ops) ∧
      (Flushed (runs digest w ops) → ∀ row, stored (runs digest w ops).db.perfMetrics row =
        stored w.db.perfMetrics row + (runs digest w ops).acceptedAt row) := by
  have hinv : ∀ (v : World) (op : Op), OnTime digest v op →
      Sound v ∧ Accounted digest (stored w.db.perfMetrics) v →
      Sound (step digest v op) ∧ Accounted digest (stored w.db.perfMetrics) (step digest v op) :=
    fun v op htime h => ⟨h.1.step op, h.2.step h.1 htime⟩
  obtain ⟨hsound, haccounted⟩ := Transition.throughout_invariant (step digest) hinv ops w hops
    ⟨hstart.sound, hstart.accounted digest⟩
  refine ⟨haccounted, fun hflushed row => ?_⟩
  rw [← haccounted row, hflushed.outstanding hsound row, add_zero]

/-! ### A sample that is late -/

/-- No rows, and nothing in memory. -/
def emptyWorld : World := ⟨⟨Table.empty, Table.empty⟩, Table.empty, Table.empty, [], [], [], []⟩

def demoSample : Sample := ⟨"gpt-4o", "default", 120, 0, false, true, 0, 0⟩

def demoKey : BucketKey := ⟨"gpt-4o", "default", "node-1", 3600, 3600⟩

/-- The call takes its next steps, and no statement fails. -/
def advance (i n : ℕ) : List Op := List.replicate n (.proceed i .done .removed "" 0)

/-- A sample is counted and published; the process crashes and restores it; the commit of its
bucket reports an error after it has taken effect, and is repeated. -/
def ambiguousCommit : List Op :=
  [.record demoSample true 3600 "node-1" 3610 true] ++ advance 0 4 ++
    [.restart "node-1" true [], .flush demoKey 3600 7200] ++ advance 1 2 ++
    [.proceed 1 .unacknowledged .removed "first" 7201] ++ advance 1 2 ++
    [.flush demoKey 3600 7260] ++ advance 2 2 ++ [.proceed 2 .done .removed "second" 7261] ++
    advance 2 1

/-- The sample is stored once. -/
theorem samples_counted_once_ambiguous :
    (Accounted id (stored emptyWorld.db.perfMetrics) (runs id emptyWorld ambiguousCommit) ∧
      (Flushed (runs id emptyWorld ambiguousCommit) → ∀ row,
        stored (runs id emptyWorld ambiguousCommit).db.perfMetrics row =
          stored emptyWorld.db.perfMetrics row +
            (runs id emptyWorld ambiguousCommit).acceptedAt row)) ∧
    Flushed (runs id emptyWorld ambiguousCommit) ∧
    stored (runs id emptyWorld ambiguousCommit).db.perfMetrics demoKey.row = demoSample.counters :=
  ⟨samples_counted_once id emptyWorld ⟨rfl, rfl, rfl, rfl⟩ ambiguousCommit (by decide +kernel),
    by decide +kernel, by decide +kernel⟩

/-- Two requests end at the same time.  The second has found the bucket when the flush closes it,
and adds its sample to a new bucket after the old one has been committed. -/
def lateSample : List Op :=
  List.replicate 2 (.record demoSample true 3600 "node-1" 7199 false) ++ advance 0 2 ++
    advance 1 1 ++ [.flush demoKey 3600 7200] ++ advance 2 2 ++
    [.proceed 2 .done .removed "first" 7200] ++ advance 2 1 ++ advance 1 4 ++
    [.flush demoKey 3600 7260] ++ advance 3 2 ++ [.proceed 3 .done .removed "second" 7260] ++
    advance 3 1

/-- **The second sample is dropped.** -/
theorem late_sample_dropped :
    ¬ ∀ (digest : String → String) (w : World) (ops : List Op), Started w →
      Flushed (runs digest w ops) → ∀ row, stored (runs digest w ops).db.perfMetrics row =
        stored w.db.perfMetrics row + (runs digest w ops).acceptedAt row := by
  intro h
  have hflushed : Flushed (runs id emptyWorld lateSample) := by decide +kernel
  have hrow := h id emptyWorld lateSample ⟨rfl, rfl, rfl, rfl⟩ hflushed demoKey.row
  have hcount := congrFun hrow Metric.requestCount
  revert hcount
  decide +kernel

end MaxApi.PerfMetrics
