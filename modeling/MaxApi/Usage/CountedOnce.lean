import MaxApi.Lib.Receipts
import MaxApi.Usage.Flush

/-! # Dashboard usage: every call is counted once

What is stored for some dimensions and what the process still holds for them, in its cache and in
its flush, are together what has been logged (`Accounted`).  A save keeps the account because the
marker of a snapshot appears together with its amounts.  It fails for usage that joins a snapshot
whose marker exists: `requeueQuotaDataCache` puts an entry back under the key at which new usage
arrives, also when the save of the entry took effect and only reported an error.
`usage_counted_once` is about the runs without such usage, and `joined_usage_dropped` is a run
with it. -/

namespace MaxApi.Usage

open Relational Receipts

/-! ### What the process holds -/

def Entry.waiting (e : Entry) : Waiting String Dimensions Amounts :=
  ⟨e.snapshotID, e.dims, e.amounts⟩

/-- What is still to be added to some dimensions. -/
def World.outstanding (w : World) (dims : Dimensions) : Amounts :=
  Receipts.outstanding w.db.Marked dims (w.entries.map Entry.waiting)

/-- What the calls of `LogQuotaData` for some dimensions add up to. -/
def World.loggedAt (w : World) (dims : Dimensions) : Amounts :=
  (w.logged.map fun a => if a.1 = dims then a.2 else 0).sum

/-- What is stored and what is held is what was stored at the start and has been logged since. -/
def Accounted (base : Dimensions → Amounts) (w : World) : Prop :=
  ∀ dims, stored w.db.quotaData dims + w.outstanding dims = base dims + w.loggedAt dims

/-- No flush is under way, and the cache is empty. -/
def Quiet (w : World) : Prop := w.flush = .idle ∧ w.cache.rows = []

instance (w : World) : Decidable (Quiet w) := inferInstanceAs (Decidable (_ ∧ _))

/-- The entries a flush has saved. -/
def Flush.savedEntries : Flush → List Entry
  | .check _ saved _ | .recheck _ saved _ | .save _ _ saved _ | .mark _ _ saved _
  | .release saved _ => saved
  | .idle | .acquire _ | .remark _ _ | .requeue _ | .cleanup | .expire _ | .purge _ _ => []

/-- The entries have their own snapshots, and what has been saved is marked. -/
structure Sound (w : World) : Prop where
  distinct : (w.entries.map Entry.snapshotID).Nodup
  saved : ∀ e ∈ w.flush.savedEntries, w.db.Marked e.snapshotID

/-! ### The cache -/

/-- No entry of another snapshot is at the key the entry is put back under. -/
def Free (cache : Table Slot) (quotaData : Entry) : Prop :=
  ∀ s ∈ cache.rows, s.key = requeueKey cache quotaData → s.entry.snapshotID = quotaData.snapshotID

instance (cache : Table Slot) (quotaData : Entry) : Decidable (Free cache quotaData) :=
  inferInstanceAs (Decidable (∀ s ∈ cache.rows, _))

section cache

variable {cache : Table Slot} {e : Entry}

theorem requeueQuotaDataCache_rows (hfree : Free cache e)
    (hnew : ∀ s ∈ cache, s.entry.snapshotID ≠ e.snapshotID) :
    (requeueQuotaDataCache cache e).rows = cache.rows ++ [⟨requeueKey cache e, e⟩] := by
  have hnone : ∀ s ∈ cache, s.key ≠ requeueKey cache e := fun s hs hkey =>
    hnew s hs (hfree s hs hkey)
  unfold requeueQuotaDataCache
  dsimp only
  rw [Table.first?_eq_none.mpr hnone]
  exact Table.rows_insert hnone

/-- Entries that are put back are all there, with what was in the cache. -/
theorem requeue_entries :
    ∀ (failed : List Entry) (cache : Table Slot),
      ((cache.rows.map Slot.entry ++ failed).map Entry.snapshotID).Nodup →
      Transition.Throughout requeueQuotaDataCache Free cache failed →
      (failed.foldl requeueQuotaDataCache cache).rows.map Slot.entry =
        cache.rows.map Slot.entry ++ failed
  | [], cache, _, _ => (List.append_nil _).symm
  | e :: failed, cache, hnd, hfree => by
      have hnew : ∀ s ∈ cache, s.entry.snapshotID ≠ e.snapshotID := by
        intro s hs heq
        rw [List.map_append, List.nodup_append] at hnd
        exact hnd.2.2 _ (List.mem_map_of_mem (List.mem_map_of_mem hs)) _
          (List.mem_map_of_mem List.mem_cons_self) heq
      have hrows := requeueQuotaDataCache_rows hfree.1 hnew
      have hentries : (requeueQuotaDataCache cache e).rows.map Slot.entry =
          cache.rows.map Slot.entry ++ [e] := by
        rw [hrows, List.map_append]
        rfl
      have hsplit : cache.rows.map Slot.entry ++ e :: failed =
          (requeueQuotaDataCache cache e).rows.map Slot.entry ++ failed := by
        rw [hentries, List.append_assoc]
        rfl
      rw [hsplit] at hnd ⊢
      exact requeue_entries failed (requeueQuotaDataCache cache e) hnd hfree.2

/-- Usage joins the entry at its key. -/
theorem logQuotaDataCache_joins {s : Slot} (hs : s ∈ cache)
    (hkey : s.key = quotaDataCacheKey e.dims) :
    ∃ l l', cache.rows = l ++ s :: l' ∧ (logQuotaDataCache cache e).rows = l ++
      { s with entry := { s.entry with amounts := s.entry.amounts + e.amounts } } :: l' := by
  have hone : ∀ a ∈ cache, a.key = quotaDataCacheKey e.dims → a = s := fun a ha hak =>
    Table.eq_of_clash ha hs (hak.trans hkey.symm)
  have haffected : cache.affected (·.key = quotaDataCacheKey e.dims) ≠ 0 := fun h0 =>
    Table.affected_eq_zero.mp h0 s hs hkey
  unfold logQuotaDataCache
  dsimp only
  rw [if_neg haffected]
  exact Table.rows_update_single hs hkey hone

/-- Usage gets an entry of its own. -/
theorem logQuotaDataCache_new (hnone : ∀ s ∈ cache, s.key ≠ quotaDataCacheKey e.dims) :
    (logQuotaDataCache cache e).rows = cache.rows ++ [⟨quotaDataCacheKey e.dims, e⟩] := by
  unfold logQuotaDataCache
  dsimp only
  rw [if_pos (Table.affected_eq_zero.mpr hnone)]
  exact Table.rows_insert hnone

end cache

/-! ### The condition -/

variable (digest : String → String)

/-- The operation loses no usage.  Usage joins an entry of the cache only if the entry is one of its
dimensions and has not been saved; the row of an aggregate key is one of the dimensions of the key;
an entry is not put back over one of another snapshot; and the marker of an entry in the cache is
not deleted. -/
def OnTime (w : World) : Op → Prop
  | .log params snapshotID =>
      ∀ s ∈ w.cache.rows, s.key = quotaDataCacheKey (params.entry snapshotID).dims →
        s.entry.dims = (params.entry snapshotID).dims ∧ ¬ w.db.Marked s.entry.snapshotID
  | .flush => True
  | .proceed _ outcome _ =>
      match w.flush with
      | .save entry _ _ _ =>
          outcome ≠ Outcome.failed → ¬ w.db.Marked entry.snapshotID →
            quotaDataAggregateKeyIndexAvailable w = true → ∀ r ∈ w.db.quotaData.rows,
              r.aggregateKey = some (quotaDataAggregateKey digest entry.dims) →
                r.dims = entry.dims
      | .requeue failed => Transition.Throughout requeueQuotaDataCache Free w.cache failed
      | .purge cutoff started =>
          outcome ≠ Outcome.failed → ∀ s ∈ w.cache.rows,
            s.entry.snapshotID ∉ oldMarkers w.db cutoff started
      | _ => True

instance (w : World) (op : Op) : Decidable (OnTime digest w op) := by
  unfold OnTime
  split
  · infer_instance
  · infer_instance
  · split
    · infer_instance
    · infer_instance
    · infer_instance
    · infer_instance

section account

variable {digest : String → String} {w w' : World} {base : Dimensions → Amounts}

/-- The same entries are held, in any order, and nothing else changes that the account is about. -/
structure Same (w w' : World) : Prop where
  entries : w'.entries.Perm w.entries
  quotaData : w'.db.quotaData = w.db.quotaData
  snapshots : w'.db.snapshots = w.db.snapshots
  logged : w'.logged = w.logged

theorem Same.marked (h : Same w w') : w'.db.Marked = w.db.Marked := by
  unfold Tables.Marked
  rw [h.snapshots]

theorem Same.distinct (h : Same w w') (hs : Sound w) :
    (w'.entries.map Entry.snapshotID).Nodup :=
  (h.entries.map Entry.snapshotID).nodup_iff.mpr hs.distinct

theorem Same.outstanding (h : Same w w') (dims : Dimensions) :
    w'.outstanding dims = w.outstanding dims := by
  unfold World.outstanding
  rw [outstanding_perm (h.entries.map Entry.waiting)]
  refine outstanding_congr fun v _ => .inr ?_
  rw [h.marked]

theorem Same.accounted (h : Same w w') (ha : Accounted base w) : Accounted base w' := by
  intro dims
  unfold World.loggedAt
  rw [h.quotaData, h.logged, h.outstanding dims]
  exact ha dims

theorem markStep_same (w : World) (outcome : Outcome) (now : ℤ) (entry : Entry) (flush : Flush)
    (hperm : flush.entries.Perm w.flush.entries) :
    Same w { markStep w outcome now entry with flush := flush } := by
  unfold markStep markQuotaDataSnapshotRetryable
  split_ifs
  · exact ⟨hperm.append_left _, rfl, rfl, rfl⟩
  · exact ⟨hperm.append_left _, rfl, rfl, rfl⟩
  · exact ⟨hperm.append_left _, rfl, rfl, rfl⟩
  · exact ⟨hperm.append_left _, rfl, rfl, rfl⟩

/-- The entry that is picked is one of those to do. -/
theorem pick_perm {todo : List Entry} {pick : ℕ} {entry : Entry} (h : todo[pick]? = some entry) :
    (entry :: todo.eraseIdx pick).Perm todo := by
  obtain ⟨hlt, hget⟩ := List.getElem?_eq_some_iff.mp h
  rw [← hget]
  exact List.getElem_cons_eraseIdx_perm hlt

/-- The state is sound and accounted for. -/
structure Good (base : Dimensions → Amounts) (w : World) : Prop where
  sound : Sound w
  accounted : Accounted base w

theorem Good.same (h : Good base w) (hsame : Same w w')
    (hsaved : ∀ e ∈ w'.flush.savedEntries, e ∈ w.flush.savedEntries) : Good base w' := by
  refine ⟨⟨hsame.distinct h.sound, fun e he => ?_⟩, hsame.accounted h.accounted⟩
  rw [hsame.marked]
  exact h.sound.saved e (hsaved e he)

/-- The flush goes on with the entries it holds. -/
theorem Good.become (h : Good base w) {flush : Flush} (hperm : flush.entries.Perm w.flush.entries)
    (hsaved : ∀ e ∈ flush.savedEntries, e ∈ w.flush.savedEntries) :
    Good base { w with flush := flush } :=
  h.same ⟨hperm.append_left _, rfl, rfl, rfl⟩ hsaved

/-- The save of an entry. -/
theorem Good.save (h : Good base w) {entry : Entry} {todo saved failed : List Entry} {now : ℤ}
    {available : Bool} {db : Tables} {indexCache : Option Bool} {next : Flush}
    (hflush : w.flush = .save entry todo saved failed)
    (hok : (saveQuotaDataLocked digest available entry now).Ok w.db () db)
    (hkeys : ¬ w.db.Marked entry.snapshotID → available = true → ∀ r ∈ w.db.quotaData,
      r.aggregateKey = some (quotaDataAggregateKey digest entry.dims) → r.dims = entry.dims)
    (hperm : next.entries.Perm w.flush.entries)
    (hsaved : ∀ e ∈ next.savedEntries, e = entry ∨ e ∈ saved) :
    Good base { w with db := db, indexCache := indexCache, flush := next } := by
  obtain ⟨_, hsnapshots, hdone⟩ := saveQuotaDataLocked_ok hok
  have hmarked : ∀ k, db.Marked k ↔ w.db.Marked k ∨ entry.snapshotID = k := marked_insert hsnapshots
  have hentries : (w.cache.rows.map Slot.entry ++ next.entries).Perm w.entries :=
    hperm.append_left _
  -- the entry and the others
  have hsplit : w.entries.Perm
      (entry :: (w.cache.rows.map Slot.entry ++ (todo ++ (saved ++ failed)))) := by
    unfold World.entries
    rw [hflush]
    exact List.perm_middle
  have hnodup := (hsplit.map Entry.snapshotID).nodup_iff.mp h.sound.distinct
  rw [List.map_cons, List.nodup_cons] at hnodup
  refine ⟨⟨?_, fun e he => ?_⟩, fun dims => ?_⟩
  · exact (hentries.map Entry.snapshotID).nodup_iff.mpr h.sound.distinct
  · rw [hmarked]
    rcases hsaved e he with rfl | he
    · exact .inr rfl
    · refine .inl (h.sound.saved e ?_)
      rw [hflush]
      exact he
  · have hdims := h.accounted dims
    have hout :
        World.outstanding { w with db := db, indexCache := indexCache, flush := next } dims =
        Receipts.outstanding db.Marked dims ((entry :: (w.cache.rows.map Slot.entry ++
          (todo ++ (saved ++ failed)))).map Entry.waiting) :=
      outstanding_perm ((hentries.trans hsplit).map Entry.waiting)
    have hbefore : w.outstanding dims = Receipts.outstanding w.db.Marked dims
        ((entry :: (w.cache.rows.map Slot.entry ++ (todo ++ (saved ++ failed)))).map
          Entry.waiting) := outstanding_perm (hsplit.map Entry.waiting)
    show stored db.quotaData dims + _ = base dims + w.loggedAt dims
    rw [hout, ← hdims, hbefore]
    rcases hdone with ⟨hold, hquota⟩ | ⟨hnew, hincreased⟩
    · -- the marker was there, and nothing happens
      rw [hquota]
      congr 1
      refine outstanding_congr fun v _ => .inr ?_
      rw [hmarked]
      exact ⟨fun hor => hor.elim id fun heq => heq ▸ hold, .inl⟩
    · -- the marker appears together with the amounts
      have halone : ∀ v ∈ (w.cache.rows.map Slot.entry ++ (todo ++ (saved ++ failed))).map
          Entry.waiting, v.receipt = entry.waiting.receipt → v.amount = 0 := by
        intro v hv heq
        obtain ⟨e, he, rfl⟩ := List.mem_map.mp hv
        exact absurd (List.mem_map.mpr ⟨e, he, heq⟩) hnodup.1
      have hcommit := outstanding_commit (k := dims) (w := entry.waiting) hnew hmarked halone
      have hzero : due db.Marked dims entry.waiting = 0 :=
        due_of_done ((hmarked entry.snapshotID).mpr (.inr rfl))
      rw [hincreased.stored (hkeys hnew) dims, List.map_cons, hcommit, outstanding_cons, hzero,
        zero_add]
      show _ + (if entry.dims = dims then entry.amounts else 0) + _ =
        _ + (_ + if entry.dims = dims then entry.amounts else 0)
      abel

/-- Usage is logged. -/
theorem Good.log (h : Good base w) {params : QuotaDataLogParams} {snapshotID : String}
    (htime : OnTime digest w (.log params snapshotID)) :
    Good base (step digest w (.log params snapshotID)) := by
  unfold step
  dsimp only
  by_cases hused : w.Used snapshotID
  · rw [if_pos hused]
    exact h
  · rw [if_neg hused]
    obtain ⟨hheld, hunmarked⟩ := not_or.mp hused
    set e : Entry := params.entry snapshotID with he
    have hid : e.snapshotID = snapshotID := rfl
    have hlogged : ∀ dims, World.loggedAt { w with
        cache := logQuotaDataCache w.cache e
        logged := w.logged ++ [(e.dims, e.amounts)] } dims =
          w.loggedAt dims + if e.dims = dims then e.amounts else 0 := by
      intro dims
      unfold World.loggedAt
      rw [List.map_append, List.sum_append, List.map_singleton, List.sum_singleton]
    by_cases hjoin : ∃ s ∈ w.cache, s.key = quotaDataCacheKey e.dims
    · obtain ⟨s, hs, hkey⟩ := hjoin
      obtain ⟨hdims, hnew⟩ := htime s hs hkey
      obtain ⟨l, l', hrows, hrows'⟩ := logQuotaDataCache_joins hs hkey
      refine ⟨⟨?_, h.sound.saved⟩, fun dims => ?_⟩
      · have hnd := h.sound.distinct
        unfold World.entries at hnd ⊢
        dsimp only
        rw [hrows']
        rw [hrows] at hnd
        simpa only [List.map_append, List.map_cons] using hnd
      · have hbase := h.accounted dims
        rw [hlogged dims]
        show stored w.db.quotaData dims + _ = _
        have hadd : due w.db.Marked dims (Entry.waiting { s.entry with
            amounts := s.entry.amounts + e.amounts }) =
            due w.db.Marked dims s.entry.waiting + if e.dims = dims then e.amounts else 0 := by
          have hdue : due w.db.Marked dims ⟨s.entry.snapshotID, s.entry.dims, e.amounts⟩ =
              if e.dims = dims then e.amounts else 0 := by
            rw [hdims]
            exact if_neg hnew
          rw [← hdue]
          exact due_add
        have hout : World.outstanding { w with
            cache := logQuotaDataCache w.cache e
            logged := w.logged ++ [(e.dims, e.amounts)] } dims =
              w.outstanding dims + if e.dims = dims then e.amounts else 0 := by
          unfold World.outstanding World.entries
          dsimp only
          rw [hrows', hrows]
          simp only [List.map_append, List.map_cons, outstanding_append, outstanding_cons, hadd]
          abel
        rw [hout, ← add_assoc, ← add_assoc, hbase]
    · have hnone : ∀ s ∈ w.cache, s.key ≠ quotaDataCacheKey e.dims := fun s hs hkey =>
        hjoin ⟨s, hs, hkey⟩
      have hrows := logQuotaDataCache_new hnone
      have hentries : World.entries { w with
          cache := logQuotaDataCache w.cache e
          logged := w.logged ++ [(e.dims, e.amounts)] } =
            w.cache.rows.map Slot.entry ++ e :: w.flush.entries := by
        unfold World.entries
        dsimp only
        rw [hrows, List.map_append, List.append_assoc]
        rfl
      have hperm : (World.entries { w with
          cache := logQuotaDataCache w.cache e
          logged := w.logged ++ [(e.dims, e.amounts)] }).Perm (e :: w.entries) := by
        rw [hentries]
        exact List.perm_middle
      refine ⟨⟨?_, h.sound.saved⟩, fun dims => ?_⟩
      · rw [(hperm.map Entry.snapshotID).nodup_iff, List.map_cons, List.nodup_cons]
        exact ⟨hheld, h.sound.distinct⟩
      · have hbase := h.accounted dims
        rw [hlogged dims]
        show stored w.db.quotaData dims + Receipts.outstanding w.db.Marked dims _ = _
        have hdue : due w.db.Marked dims e.waiting = if e.dims = dims then e.amounts else 0 :=
          if_neg hunmarked
        rw [outstanding_perm (hperm.map Entry.waiting), List.map_cons, outstanding_cons, hdue,
          ← add_assoc, ← add_assoc, ← hbase]
        show _ = stored w.db.quotaData dims + Receipts.outstanding w.db.Marked dims
          (w.entries.map Entry.waiting) + _
        abel

/-- Old markers are deleted, of no entry that is held. -/
theorem Good.purge (h : Good base w) {outcome : Outcome} {pick : ℕ} {cutoff started now : ℤ}
    (hflush : w.flush = .purge cutoff started)
    (htime : OnTime digest w (.proceed pick outcome now)) :
    Good base (purgeStep w outcome cutoff started) := by
  have hentries : (purgeStep w outcome cutoff started).entries = w.entries := by
    unfold purgeStep World.entries
    rw [hflush]
    rfl
  have hcache : w.entries = w.cache.rows.map Slot.entry := by
    unfold World.entries
    rw [hflush]
    exact List.append_nil _
  unfold OnTime at htime
  rw [hflush] at htime
  refine ⟨⟨?_, fun e he => absurd he List.not_mem_nil⟩, fun dims => ?_⟩
  · rw [hentries]
    exact h.sound.distinct
  · have hquota : (purgeStep w outcome cutoff started).db.quotaData = w.db.quotaData := by
      unfold purgeStep
      dsimp only
      split_ifs
      · rfl
      · rfl
    have hout : (purgeStep w outcome cutoff started).outstanding dims = w.outstanding dims := by
      unfold World.outstanding
      rw [hentries]
      refine outstanding_congr fun v hv => .inr ?_
      obtain ⟨e, he, rfl⟩ := List.mem_map.mp hv
      rw [hcache] at he
      obtain ⟨s, hs, rfl⟩ := List.mem_map.mp he
      unfold purgeStep
      dsimp only
      by_cases hfailed : outcome = Outcome.failed
      · rw [if_pos hfailed]
      · rw [if_neg hfailed]
        constructor
        · rintro ⟨r, hr, hid⟩
          exact ⟨r, (Table.mem_delete.mp hr).1, hid⟩
        · rintro ⟨r, hr, hid⟩
          refine ⟨r, Table.mem_delete.mpr ⟨hr, ?_⟩, hid⟩
          rw [hid]
          exact htime hfailed s hs
    rw [hquota, hout]
    exact h.accounted dims

/-- The flush ends without an error: what it has saved is let go. -/
theorem Good.drop (h : Good base w) {saved failed : List Entry}
    (hflush : w.flush = .release saved failed) :
    Good base { w with flush := .requeue failed } := by
  have hperm : w.entries.Perm (saved ++ (w.cache.rows.map Slot.entry ++ failed)) := by
    unfold World.entries
    rw [hflush]
    show (w.cache.rows.map Slot.entry ++ (saved ++ failed)).Perm _
    rw [← List.append_assoc, ← List.append_assoc]
    exact List.perm_append_comm.append_right failed
  have hnd := (hperm.map Entry.snapshotID).nodup_iff.mp h.sound.distinct
  rw [List.map_append] at hnd
  refine ⟨⟨hnd.of_append_right, fun e he => absurd he List.not_mem_nil⟩, fun dims => ?_⟩
  have hmarked : ∀ e ∈ saved, w.db.Marked e.snapshotID := by
    have hsaved := h.sound.saved
    rw [hflush] at hsaved
    exact hsaved
  have hzero : Receipts.outstanding w.db.Marked dims (saved.map Entry.waiting) = 0 := by
    refine outstanding_eq_zero fun v hv => ?_
    obtain ⟨e, he, rfl⟩ := List.mem_map.mp hv
    exact due_of_done (hmarked e he)
  have hout : w.outstanding dims =
      World.outstanding { w with flush := .requeue failed } dims := by
    unfold World.outstanding
    rw [outstanding_perm (hperm.map Entry.waiting), List.map_append, outstanding_append, hzero,
      zero_add]
    rfl
  show stored w.db.quotaData dims + _ = base dims + w.loggedAt dims
  rw [← hout]
  exact h.accounted dims

/-- The next step of the flush. -/
theorem Good.proceed (h : Good base w) {pick : ℕ} {outcome : Outcome} {now : ℤ}
    (htime : OnTime digest w (.proceed pick outcome now)) :
    Good base (proceedStep digest w pick outcome now w.flush) := by
  have hnone : ∀ e ∈ ([] : List Entry), e ∈ w.flush.savedEntries := fun e he =>
    absurd he List.not_mem_nil
  cases hflush : w.flush with
  | idle => exact h
  | acquire todo =>
      unfold proceedStep
      dsimp only
      split_ifs
      · refine h.become ?_ hnone
        rw [hflush]
        exact .of_eq (List.append_nil todo)
      · refine h.become ?_ hnone
        rw [hflush]
        exact .of_eq (List.append_nil todo)
  | check todo saved failed =>
      unfold proceedStep
      dsimp only
      by_cases htodo : todo = []
      · rw [if_pos htodo]
        refine h.become ?_ fun e he => ?_
        · rw [hflush, htodo]
          exact List.Perm.refl _
        · rw [hflush]
          exact he
      · rw [if_neg htodo]
        by_cases hlost : outcome ≠ Outcome.done
        · rw [if_pos hlost]
          refine h.become ?_ hnone
          rw [hflush]
          exact .of_eq (List.append_nil (todo ++ (saved ++ failed)))
        · rw [if_neg hlost]
          split
          · next entry hpick =>
              refine h.become ?_ fun e he => ?_
              · rw [hflush]
                exact (pick_perm hpick).append_right (saved ++ failed)
              · rw [hflush]
                exact he
          · exact h
  | save entry todo saved failed =>
      unfold OnTime at htime
      rw [hflush] at htime
      have hback : Good base { w with flush := .mark entry todo saved failed } := by
        refine h.become ?_ fun e he => ?_
        · rw [hflush]
          exact List.Perm.refl _
        · rw [hflush]
          exact he
      unfold proceedStep saveStep
      dsimp only
      rcases transaction_cases (saveQuotaDataLocked digest (quotaDataAggregateKeyIndexAvailable w)
        entry now) w.db with ⟨a, db, hok, ht⟩ | ⟨error, ht⟩
      · rw [ht]
        cases outcome with
        | done =>
            refine h.save hflush hok (htime (by simp)) ?_ fun e he => List.mem_cons.mp he
            rw [hflush]
            exact List.perm_middle
        | unacknowledged =>
            refine h.save hflush hok (htime (by simp)) ?_ fun e he => .inr he
            rw [hflush]
            exact List.Perm.refl _
        | failed => exact hback
      · rw [ht]
        cases outcome with
        | done => exact hback
        | unacknowledged => exact hback
        | failed => exact hback
  | mark entry todo saved failed =>
      refine h.same (markStep_same w outcome now entry _ ?_) fun e he => ?_
      · rw [hflush]
        show (todo ++ (saved ++ (failed ++ [entry]))).Perm (entry :: (todo ++ (saved ++ failed)))
        rw [← List.append_assoc, ← List.append_assoc, ← List.append_assoc]
        exact List.perm_append_singleton entry _
      · rw [hflush]
        exact he
  | recheck todo saved failed =>
      unfold proceedStep
      dsimp only
      split_ifs
      · refine h.become ?_ fun e he => ?_
        · rw [hflush]
          exact List.Perm.refl _
        · rw [hflush]
          exact he
      · refine h.become ?_ hnone
        rw [hflush]
        exact .of_eq (List.append_nil (todo ++ (saved ++ failed)))
  | release saved failed =>
      unfold proceedStep
      dsimp only
      by_cases hdone : outcome = Outcome.done
      · rw [if_pos hdone]
        exact h.drop hflush
      · rw [if_neg hdone]
        refine h.become ?_ hnone
        rw [hflush]
        exact .of_eq (List.append_nil (saved ++ failed))
  | remark todo failed =>
      unfold proceedStep
      dsimp only
      by_cases htodo : todo = []
      · rw [if_pos htodo]
        refine h.become ?_ hnone
        rw [hflush, htodo]
        exact List.Perm.refl _
      · rw [if_neg htodo]
        split
        · next entry hpick =>
            refine h.same (markStep_same w outcome now entry _ ?_) hnone
            rw [hflush]
            show (todo.eraseIdx pick ++ (failed ++ [entry])).Perm (todo ++ failed)
            rw [← List.append_assoc]
            refine (List.perm_append_singleton entry _).trans ?_
            exact (pick_perm hpick).append_right failed
        · exact h
  | requeue failed =>
      unfold OnTime at htime
      rw [hflush] at htime
      refine h.same ⟨?_, rfl, rfl, rfl⟩ hnone
      have hnd := h.sound.distinct
      unfold World.entries at hnd ⊢
      rw [hflush] at hnd ⊢
      have hentries := requeue_entries failed w.cache hnd htime
      unfold proceedStep
      dsimp only
      rw [hentries]
      exact .of_eq (List.append_nil (w.cache.rows.map Slot.entry ++ failed))
  | cleanup =>
      unfold proceedStep
      dsimp only
      split_ifs
      · refine h.become ?_ hnone
        rw [hflush]
        exact List.Perm.refl _
      · refine h.same ⟨?_, rfl, rfl, rfl⟩ hnone
        unfold World.entries
        rw [hflush]
        exact List.Perm.refl _
  | expire cutoff =>
      unfold proceedStep expireStep
      dsimp only
      have hperm : ∀ flush : Flush, flush = .purge cutoff now ∨ flush = .idle →
          flush.entries.Perm w.flush.entries ∧ flush.savedEntries = [] := by
        rintro flush (rfl | rfl)
        · exact ⟨hflush ▸ List.Perm.refl _, rfl⟩
        · exact ⟨hflush ▸ List.Perm.refl _, rfl⟩
      obtain ⟨hentries, hsaved⟩ :=
        hperm (if outcome = Outcome.done then .purge cutoff now else .idle) (ite_eq_or_eq _ _ _)
      refine h.same ⟨hentries.append_left _, ?_, ?_, rfl⟩ fun e he => ?_
      · dsimp only
        split_ifs
        · rfl
        · rfl
      · dsimp only
        split_ifs
        · rfl
        · rfl
      · dsimp only at he
        rw [hsaved] at he
        exact absurd he List.not_mem_nil
  | purge cutoff started => exact h.purge hflush htime

/-- **A step on time keeps the account.** -/
theorem Good.step (h : Good base w) {op : Op} (htime : OnTime digest w op) :
    Good base (step digest w op) := by
  cases op with
  | log params snapshotID => exact h.log htime
  | flush =>
      unfold Usage.step
      dsimp only
      by_cases hidle : w.flush ≠ .idle
      · rw [if_pos hidle]
        exact h
      · rw [if_neg hidle]
        have hflush : w.flush = .idle := not_not.mp hidle
        refine h.same ⟨?_, rfl, rfl, rfl⟩ fun e he => ?_
        · unfold World.entries
          rw [hflush]
          split_ifs with hcache
          · rw [hcache]
            exact List.Perm.refl _
          · exact .of_eq (List.append_nil (w.cache.rows.map Slot.entry)).symm
        · dsimp only at he
          split_ifs at he
          · exact absurd he List.not_mem_nil
          · exact absurd he List.not_mem_nil
  | proceed pick outcome now => exact h.proceed htime

end account

/-! ### Runs -/

/-- Nothing is in memory yet, and nothing has been logged. -/
structure Started (w : World) : Prop where
  cache : w.cache.rows = []
  flush : w.flush = .idle
  logged : w.logged = []

theorem Started.good {w : World} (h : Started w) : Good (stored w.db.quotaData) w := by
  obtain ⟨hcache, hflush, hlogged⟩ := h
  refine ⟨⟨?_, fun e he => ?_⟩, fun dims => ?_⟩
  · unfold World.entries
    rw [hcache, hflush]
    exact List.nodup_nil
  · rw [hflush] at he
    exact absurd he List.not_mem_nil
  · unfold World.outstanding World.entries World.loggedAt
    rw [hcache, hflush, hlogged]
    rfl

/-- Nothing is held when the process is quiet. -/
theorem Quiet.outstanding {w : World} (h : Quiet w) (dims : Dimensions) :
    w.outstanding dims = 0 := by
  unfold World.outstanding World.entries
  rw [h.1, h.2]
  rfl

/-- **Usage is counted once.**  In every state of a run in which no usage joins a saved snapshot,
what is stored and what is held is what was stored at the start and has been logged since; so once
a flush has ended with an empty cache, the stored usage has grown by exactly the calls. -/
theorem usage_counted_once (w : World) (hstart : Started w) (ops : List Op)
    (hops : Transition.Throughout (step digest) (OnTime digest) w ops) :
    Accounted (stored w.db.quotaData) (runs digest w ops) ∧
      (Quiet (runs digest w ops) → ∀ dims, stored (runs digest w ops).db.quotaData dims =
        stored w.db.quotaData dims + (runs digest w ops).loggedAt dims) := by
  have hgood := Transition.throughout_invariant (step digest)
    (fun (v : World) op htime (h : Good (stored w.db.quotaData) v) => h.step htime) ops w hops
    hstart.good
  refine ⟨hgood.accounted, fun hquiet dims => ?_⟩
  rw [← hgood.accounted dims, hquiet.outstanding dims, add_zero]

/-! ### Usage that joins a saved snapshot -/

/-- No rows, and nothing in memory. -/
def emptyWorld : World :=
  ⟨⟨Table.empty, true, Table.empty, Table.empty⟩, none, Table.empty, .idle, 0, []⟩

def demoParams : QuotaDataLogParams :=
  ⟨1, "alice", "gpt-4o", 100, 7300, 50, "default", 1, 1, "node-1"⟩

/-- The flush takes its next steps, and nothing fails. -/
def advance (n : ℕ) : List Op := List.replicate n (.proceed 0 .done 0)

/-- The save of an entry takes effect and reports an error, so the entry is put back. -/
def ambiguousFlush : List Op :=
  [.log demoParams "first", .flush] ++ advance 2 ++ [.proceed 0 .unacknowledged 0] ++ advance 8

/-- The entry is saved again. -/
def retriedFlush : List Op := ambiguousFlush ++ [.flush] ++ advance 10

/-- After an ambiguous save the next flush finds the marker, and the usage is stored once. -/
theorem usage_counted_once_ambiguous :
    (Accounted (stored emptyWorld.db.quotaData)
        (runs id emptyWorld retriedFlush) ∧
      (Quiet (runs id emptyWorld retriedFlush) → ∀ dims,
        stored (runs id emptyWorld retriedFlush).db.quotaData dims =
          stored emptyWorld.db.quotaData dims +
            (runs id emptyWorld retriedFlush).loggedAt dims)) ∧
    Quiet (runs id emptyWorld retriedFlush) ∧
    stored (runs id emptyWorld retriedFlush).db.quotaData
      (demoParams.entry "first").dims = (demoParams.entry "first").amounts :=
  ⟨usage_counted_once id emptyWorld ⟨rfl, rfl, rfl⟩ retriedFlush
    (by decide +kernel), by decide +kernel, by decide +kernel⟩

/-- Usage of the same dimensions is logged while the entry is in the cache again. -/
def joinedUsage : List Op :=
  ambiguousFlush ++ [.log demoParams "second", .flush] ++ advance 10

/-- **The second usage is dropped** with the marker of the first. -/
theorem joined_usage_dropped :
    ¬ ∀ (digest : String → String) (w : World) (ops : List Op), Started w →
      Quiet (runs digest w ops) → ∀ dims, stored (runs digest w ops).db.quotaData dims =
        stored w.db.quotaData dims + (runs digest w ops).loggedAt dims := by
  intro h
  have hquiet : Quiet (runs id emptyWorld joinedUsage) := by decide +kernel
  have hdims := h id emptyWorld joinedUsage ⟨rfl, rfl, rfl⟩ hquiet (demoParams.entry "first").dims
  have hcount := congrFun hdims Counter.count
  revert hcount
  decide +kernel

end MaxApi.Usage
