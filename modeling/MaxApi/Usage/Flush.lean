import MaxApi.Lib.System
import MaxApi.Usage.Store

/-! # Dashboard usage: the cache and its flush

Usage is added to a cached entry of its dimensions, under a snapshot identifier that the entry got
when it was made.  A flush takes the whole cache away and saves its entries one by one under the
operation lock.  Entries whose save reports an error, and all of them when the lock is lost or
cannot be released, are put back into the cache, under their own key or, where that is taken, under
a key of their snapshot.

The state is the one of a process: its cache, its flush and the database.  A process runs one flush
at a time, and usage may be logged between any two steps of it. -/

namespace MaxApi.Usage

open Relational

/-! ### The cache -/

/-- An entry of `CacheQuotaData`. -/
structure Slot where
  key : String
  entry : Entry
  deriving DecidableEq

instance : Keyed Slot where
  Key := String
  key := Slot.key
  Clash a b := a = b
  clashDec := inferInstance
  clash_refl _ := rfl
  clash_symm := Eq.symm

/-- `existing.Count += …`, for every counter. -/
def addToEntry (c : Amounts) : SetClause Slot :=
  ⟨fun s => { s with entry := { s.entry with amounts := s.entry.amounts + c } }, keeps fun _ => rfl⟩

/-- `logQuotaDataCache`. -/
def logQuotaDataCache (cache : Table Slot) (quotaData : Entry) : Table Slot :=
  let key := quotaDataCacheKey quotaData.dims
  if cache.affected (·.key = key) = 0 then cache.insert ⟨key, quotaData⟩
  else cache.update (·.key = key) (addToEntry quotaData.amounts)

/-- `sameQuotaDataSnapshot`. -/
def sameQuotaDataSnapshot (left right : Entry) : Bool := left.snapshotID = right.snapshotID

/-- The key `requeueQuotaDataCache` puts an entry back under. -/
def requeueKey (cache : Table Slot) (quotaData : Entry) : String :=
  let baseKey := quotaDataCacheKey quotaData.dims
  match cache.first? (·.key = baseKey) with
  | some existing =>
      if sameQuotaDataSnapshot existing.entry quotaData then baseKey
      else baseKey ++ "\x00retry\x00" ++ quotaData.snapshotID
  | none => baseKey

/-- `requeueQuotaDataCache`. -/
def requeueQuotaDataCache (cache : Table Slot) (quotaData : Entry) : Table Slot :=
  let key := requeueKey cache quotaData
  match cache.first? (·.key = key) with
  | some existing =>
      if sameQuotaDataSnapshot existing.entry quotaData then
        cache.update (·.key = key) (addToEntry quotaData.amounts)
      else cache.update (·.key = key) ⟨fun s => { s with entry := quotaData }, keeps fun _ => rfl⟩
  | none => cache.insert ⟨key, quotaData⟩

/-- `QuotaDataLogParams`. -/
structure QuotaDataLogParams where
  userID : ℤ
  username : String
  modelName : String
  quota : ℤ
  createdAt : ℤ
  tokenUsed : ℤ
  useGroup : String
  tokenID : ℤ
  channelID : ℤ
  nodeName : String
  deriving DecidableEq, Repr

/-- The entry `LogQuotaData` makes; only the hour of the time is kept. -/
def QuotaDataLogParams.entry (params : QuotaDataLogParams) (snapshotID : String) : Entry where
  snapshotID := snapshotID
  dims := ⟨params.userID, params.username, params.modelName,
    params.createdAt - params.createdAt.tmod 3600, params.useGroup, params.tokenID,
    params.channelID, params.nodeName⟩
  amounts
    | .count => 1
    | .quota => params.quota
    | .tokenUsed => params.tokenUsed

/-! ### Markers -/

def quotaDataSnapshotRetentionSeconds : ℤ := 7 * 24 * 60 * 60

def quotaDataSnapshotCleanupBatchDefault : ℕ := 1000

def quotaDataSnapshotCleanupIntervalSeconds : ℤ := 60 * 60

/-- `markQuotaDataSnapshotRetryable`. -/
def markQuotaDataSnapshotRetryable (db : Tables) (quotaData : Entry) (now : ℤ) : Tables :=
  if quotaData.snapshotID = "" then db
  else { db with
    retries :=
      if db.retries.affected (·.snapshotID = quotaData.snapshotID) = 0 then
        db.retries.insert ⟨quotaData.snapshotID, now + quotaDataSnapshotRetentionSeconds, now⟩
      else db.retries.update (·.snapshotID = quotaData.snapshotID)
        ⟨fun r => { r with
          retryUntil := now + quotaDataSnapshotRetentionSeconds
          updatedAt := now }, keeps fun _ => rfl⟩ }

/-- The retries `cleanupExpiredQuotaDataSnapshotRetries` deletes. -/
def expiredRetries (db : Tables) (now : ℤ) : List String :=
  (((db.retries.rows.filter (·.retryUntil < now)).insertionSort (·.retryUntil ≤ ·.retryUntil)).take
    quotaDataSnapshotCleanupBatchDefault).map (·.snapshotID)

/-- The markers `cleanupQuotaDataSnapshotMarkers` deletes: old ones that are not to be retried. -/
def oldMarkers (db : Tables) (cutoff now : ℤ) : List String :=
  let activeRetries := (db.retries.rows.filter (now ≤ ·.retryUntil)).map (·.snapshotID)
  (((db.snapshots.rows.filter fun r => r.createdAt < cutoff ∧ r.snapshotID ∉ activeRetries)
    |>.insertionSort (·.createdAt ≤ ·.createdAt)).take
      quotaDataSnapshotCleanupBatchDefault).map (·.snapshotID)

/-! ### State -/

/-- `SaveQuotaDataCache`, by the step it takes next.  Of the snapshot it has taken, `todo` has not
been visited, `saved` has been saved without an error, and `failed` is to be put back. -/
inductive Flush where
  | idle
  /-- The operation lock is acquired. -/
  | acquire (todo : List Entry)
  /-- `lock.Check` before the next entry. -/
  | check (todo saved failed : List Entry)
  | save (entry : Entry) (todo saved failed : List Entry)
  /-- The save has reported an error. -/
  | mark (entry : Entry) (todo saved failed : List Entry)
  /-- `lock.Check` after an entry. -/
  | recheck (todo saved failed : List Entry)
  /-- All entries have been visited. -/
  | release (saved failed : List Entry)
  /-- After an error of the lock, all entries are marked. -/
  | remark (todo failed : List Entry)
  | requeue (failed : List Entry)
  /-- `maybeCleanupQuotaDataSnapshots`. -/
  | cleanup
  | expire (cutoff : ℤ)
  | purge (cutoff now : ℤ)
  deriving DecidableEq

/-- The entries a flush holds. -/
def Flush.entries : Flush → List Entry
  | .idle | .cleanup | .expire _ | .purge _ _ => []
  | .acquire todo => todo
  | .check todo saved failed | .recheck todo saved failed => todo ++ (saved ++ failed)
  | .save entry todo saved failed | .mark entry todo saved failed =>
      entry :: (todo ++ (saved ++ failed))
  | .release saved failed => saved ++ failed
  | .remark todo failed => todo ++ failed
  | .requeue failed => failed

/-- The state of a process and its database; `logged` lists what `LogQuotaData` has been called
with. -/
structure World where
  db : Tables
  indexCache : Option Bool
  cache : Table Slot
  flush : Flush
  cleanupLastRun : ℤ
  logged : List (Dimensions × Amounts)

/-- How a statement or an operation of the lock ends. -/
inductive Outcome where
  | done
  | failed
  /-- It took effect, but its caller sees an error. -/
  | unacknowledged
  deriving DecidableEq

/-- What can happen next. -/
inductive Op where
  /-- `LogQuotaData`; a new entry gets a fresh snapshot identifier. -/
  | log (params : QuotaDataLogParams) (snapshotID : String)
  /-- `SaveQuotaDataCache` takes the save lock and the cache. -/
  | flush
  /-- The flush takes its next step; the order of a map is arbitrary, so it picks an entry. -/
  | proceed (pick : ℕ) (outcome : Outcome) (now : ℤ)
  deriving DecidableEq

/-- Every entry the process holds. -/
def World.entries (w : World) : List Entry := w.cache.rows.map Slot.entry ++ w.flush.entries

/-- The snapshot identifier is in use. -/
def World.Used (w : World) (snapshotID : String) : Prop :=
  snapshotID ∈ w.entries.map Entry.snapshotID ∨ w.db.Marked snapshotID

instance (w : World) : DecidablePred w.Used := fun _ => inferInstanceAs (Decidable (_ ∨ _))

/-! ### Steps -/

/-- `quotaDataAggregateKeyIndexAvailable`. -/
def quotaDataAggregateKeyIndexAvailable (w : World) : Bool := w.indexCache.getD w.db.indexed

variable (digest : String → String)

/-- The save of an entry; an error lets it be marked as retryable. -/
def saveStep (w : World) (outcome : Outcome) (now : ℤ) (entry : Entry)
    (todo saved failed : List Entry) : World :=
  let available := quotaDataAggregateKeyIndexAvailable w
  let indexCache := if w.db.Marked entry.snapshotID then w.indexCache else some available
  match outcome, transaction (saveQuotaDataLocked digest available entry now) w.db with
  | .done, (.ok _, db) =>
      { w with db := db, indexCache := indexCache, flush := .recheck todo (entry :: saved) failed }
  | .unacknowledged, (.ok _, db) =>
      { w with db := db, indexCache := indexCache, flush := .mark entry todo saved failed }
  | _, _ => { w with flush := .mark entry todo saved failed }

/-- A statement that marks an entry as retryable. -/
def markStep (w : World) (outcome : Outcome) (now : ℤ) (entry : Entry) : World :=
  if outcome = Outcome.failed then w
  else { w with db := markQuotaDataSnapshotRetryable w.db entry now }

/-- The deletion of old markers, and the end of the flush; after an error it is tried again by the
next flush. -/
def purgeStep (w : World) (outcome : Outcome) (cutoff now : ℤ) : World :=
  let ids := oldMarkers w.db cutoff now
  { w with
    db :=
      if outcome = Outcome.failed then w.db
      else { w.db with snapshots := w.db.snapshots.delete (·.snapshotID ∈ ids) }
    cleanupLastRun := if outcome = Outcome.done then w.cleanupLastRun else 0
    flush := .idle }

/-- The deletion of retries whose time is over. -/
def expireStep (w : World) (outcome : Outcome) (cutoff now : ℤ) : World :=
  let ids := expiredRetries w.db now
  { w with
    db :=
      if outcome = Outcome.failed then w.db
      else { w.db with retries := w.db.retries.delete (·.snapshotID ∈ ids) }
    cleanupLastRun := if outcome = Outcome.done then w.cleanupLastRun else 0
    flush := if outcome = Outcome.done then .purge cutoff now else .idle }

/-- The next step of the flush. -/
def proceedStep (w : World) (pick : ℕ) (outcome : Outcome) (now : ℤ) : Flush → World
  | .idle => w
  | .acquire todo =>
      { w with flush := if outcome = Outcome.done then .check todo [] [] else .remark todo [] }
  | .check todo saved failed =>
      if todo = [] then { w with flush := .release saved failed }
      else if outcome ≠ Outcome.done then { w with flush := .remark (todo ++ (saved ++ failed)) [] }
      else match todo[pick]? with
        | some entry => { w with flush := .save entry (todo.eraseIdx pick) saved failed }
        | none => w
  | .save entry todo saved failed => saveStep digest w outcome now entry todo saved failed
  | .mark entry todo saved failed =>
      { markStep w outcome now entry with flush := .recheck todo saved (failed ++ [entry]) }
  | .recheck todo saved failed =>
      { w with flush := if outcome = Outcome.done then .check todo saved failed
                        else .remark (todo ++ (saved ++ failed)) [] }
  | .release saved failed =>
      { w with flush := if outcome = Outcome.done then .requeue failed
                        else .remark (saved ++ failed) [] }
  | .remark todo failed =>
      if todo = [] then { w with flush := .requeue failed }
      else match todo[pick]? with
        | some entry => { markStep w outcome now entry with
            flush := .remark (todo.eraseIdx pick) (failed ++ [entry]) }
        | none => w
  | .requeue failed =>
      { w with cache := failed.foldl requeueQuotaDataCache w.cache, flush := .cleanup }
  | .cleanup =>
      if 0 < w.cleanupLastRun ∧
          now - w.cleanupLastRun < quotaDataSnapshotCleanupIntervalSeconds then
        { w with flush := .idle }
      else { w with
        cleanupLastRun := now
        flush := .expire (now - quotaDataSnapshotRetentionSeconds) }
  | .expire cutoff => expireStep w outcome cutoff now
  | .purge cutoff started => purgeStep w outcome cutoff started

/-- What an operation makes of the state. -/
def step (w : World) : Op → World
  | .log params snapshotID =>
      let quotaData := params.entry snapshotID
      if w.Used snapshotID then w
      else { w with
        cache := logQuotaDataCache w.cache quotaData
        logged := w.logged ++ [(quotaData.dims, quotaData.amounts)] }
  | .flush =>
      if w.flush ≠ .idle then w
      else { w with
        cache := Table.empty
        flush := if w.cache.rows = [] then .cleanup else .acquire (w.cache.rows.map Slot.entry) }
  | .proceed pick outcome now => proceedStep digest w pick outcome now w.flush

/-- The state after a list of operations. -/
abbrev runs (w : World) (ops : List Op) : World := Transition.run (step digest) w ops

end MaxApi.Usage
