import MaxApi.Lib.System
import MaxApi.PerfMetrics.Store

/-! # Performance metrics: buckets in memory, their journal and the flush

Samples are added to a bucket in memory under its lock.  Where Redis is enabled, the absolute
counters of the bucket are then published there, so that a restarted process can restore them.  A
completed bucket is closed and drained, committed with its receipt, and put back when the commit
reports an error.  A sample that finds its bucket closed goes to a new bucket of the same key.

The state is the database, Redis, and the memory of all processes, one for each node name; every
bucket of a process carries its node.  A call is a `Record` or the flush of one bucket, by the step
it takes next. -/

namespace MaxApi.PerfMetrics

open Relational

/-! ### State -/

/-- An `atomicBucket`: `inFlight` counts the samples whose publication has not ended. -/
structure Bucket where
  key : BucketKey
  closed : Bool
  inFlight : ℕ
  counters : Counters
  deriving DecidableEq

/-- An entry of `hotBuckets`: the bucket of a key, by its place in memory. -/
structure HotEntry where
  key : BucketKey
  bucket : ℕ
  deriving DecidableEq, Repr

/-- The hash of a bucket in Redis. -/
structure RedisBucket where
  key : BucketKey
  counters : Counters
  flushed : Bool
  deriving DecidableEq

instance : Keyed HotEntry where
  Key := BucketKey
  key := HotEntry.key
  Clash a b := a = b
  clashDec := inferInstance
  clash_refl _ := rfl
  clash_symm := Eq.symm

instance : Keyed RedisBucket where
  Key := BucketKey
  key := RedisBucket.key
  Clash a b := a = b
  clashDec := inferInstance
  clash_refl _ := rfl
  clash_symm := Eq.symm

/-- A call under way, by the step it takes next. -/
inductive Call where
  /-- `Record`, before `LoadOrStore`. -/
  | load (key : BucketKey) (sample : Sample) (projects : Bool)
  /-- The bucket has been found; the sample is added next. -/
  | add (key : BucketKey) (sample : Sample) (projects : Bool) (bucket : ℕ)
  /-- The bucket was closed; it is taken out of the map next. -/
  | evict (key : BucketKey) (sample : Sample) (projects : Bool) (bucket : ℕ)
  /-- The sample is counted; the counters are published next. -/
  | project (key : BucketKey) (bucket : ℕ) (snapshot : Counters)
  /-- The publication has ended. -/
  | finish (key : BucketKey) (bucket : ℕ)
  /-- A flush has closed the bucket and waits for its publications. -/
  | drain (key : BucketKey) (bucket : ℕ)
  /-- The bucket is drained; it is taken out of the map next. -/
  | detach (key : BucketKey) (bucket : ℕ) (drained : Counters)
  /-- The drained counters are committed next. -/
  | commit (key : BucketKey) (value : Counters)
  /-- The commit reported an error; `requeueCounters` begins. -/
  | requeue (key : BucketKey) (value : Counters)
  /-- A bucket for the counters has been found. -/
  | readd (key : BucketKey) (value : Counters) (bucket : ℕ)
  /-- That bucket was closed. -/
  | revict (key : BucketKey) (value : Counters) (bucket : ℕ)
  /-- `cleanupFlushedBucket`, after a commit or without one. -/
  | cleanup (key : BucketKey) (committed : Bool)
  /-- The call has ended. -/
  | done
  deriving DecidableEq

/-- The node a call runs on. -/
def Call.node : Call → Option String
  | .load key _ _ | .add key _ _ _ | .evict key _ _ _ | .project key _ _ | .finish key _
  | .drain key _ | .detach key _ _ | .commit key _ | .requeue key _ | .readd key _ _
  | .revict key _ _ | .cleanup key _ => some key.node
  | .done => none

/-- The state of the system; `accepted` lists the samples that have been counted in a bucket. -/
structure World where
  db : Tables
  redis : Table RedisBucket
  hot : Table HotEntry
  committed : List BucketKey
  heap : List Bucket
  calls : List Call
  accepted : List (RowKey × Counters)

/-- How a statement sent to Redis or the database ends. -/
inductive Outcome where
  | done
  | failed
  /-- It took effect, but its caller sees an error. -/
  | unacknowledged
  deriving DecidableEq

/-- How `deleteRedisBucket` ends: it marks the hash as flushed and then deletes it. -/
inductive Deletion where
  | removed
  | failed
  /-- The hash is marked, and the deletion fails. -/
  | marked
  /-- The hash is deleted, but the caller sees an error. -/
  | unacknowledged
  deriving DecidableEq

/-- What can happen next. -/
inductive Op where
  /-- A request ends and `Record` is called. -/
  | record (sample : Sample) (enabled : Bool) (bucketSeconds : ℤ) (node : String) (now : ℤ)
      (projects : Bool)
  /-- `flushCompletedBuckets` visits the bucket of a key. -/
  | flush (key : BucketKey) (bucketSeconds now : ℤ)
  /-- Call `i` takes its next step; a commit claims its receipt under a fresh token. -/
  | proceed (i : ℕ) (outcome : Outcome) (deletion : Deletion) (claimToken : String) (now : ℤ)
  /-- `cleanupCommittedRedisBuckets` visits a key. -/
  | cleanupCommitted (key : BucketKey) (deletion : Deletion)
  /-- `DeletePerfMetricFlushReceiptsBefore`. -/
  | purge (cutoff : ℤ)
  /-- Redis forgets a hash. -/
  | expire (key : BucketKey)
  /-- A process ends and starts again; it restores its buckets unless Redis or the database fails.
  The hashes in `kept` cannot be deleted. -/
  | restart (node : String) (recovers : Bool) (kept : List BucketKey)

/-! ### Memory -/

namespace World

/-- Start calls. -/
def start (w : World) (calls : List Call) : World := { w with calls := w.calls ++ calls }

/-- Call `i` goes on as `call`. -/
def become (w : World) (i : ℕ) (call : Call) : World := { w with calls := w.calls.set i call }

/-- Overwrite the bucket at a place. -/
def put (w : World) (p : ℕ) (b : Bucket) : World := { w with heap := w.heap.set p b }

/-- `hotBuckets.Store(key, bucket)`, of a new bucket. -/
def store (w : World) (key : BucketKey) (counters : Counters) : World :=
  { w with
    heap := w.heap ++ [⟨key, false, 0, counters⟩]
    hot := (w.hot.delete (·.key = key)).insert ⟨key, w.heap.length⟩ }

/-- `hotBuckets.LoadOrStore(key, &atomicBucket{})`. -/
def loadOrStore (w : World) (key : BucketKey) : World × ℕ :=
  match w.hot.first? (·.key = key) with
  | some e => (w, e.bucket)
  | none => (w.store key 0, w.heap.length)

/-- `hotBuckets.CompareAndDelete(key, bucket)`. -/
def compareAndDelete (w : World) (key : BucketKey) (bucket : ℕ) : World :=
  { w with hot := w.hot.delete fun e => e.key = key ∧ e.bucket = bucket }

/-- `removeClosedBucket`. -/
def removeClosedBucket (w : World) (key : BucketKey) : World :=
  match w.hot.first? (·.key = key) with
  | none => w
  | some e =>
      match w.heap[e.bucket]? with
      | none => w
      | some b => if b.closed then w.compareAndDelete key e.bucket else w

end World

/-! ### Redis -/

/-- `redisBucketSnapshotScript`: every counter only grows. -/
def publish (t : Table RedisBucket) (key : BucketKey) (snapshot : Counters) : Table RedisBucket :=
  if t.affected (·.key = key) = 0 then t.insert ⟨key, fun m => max 0 (snapshot m), false⟩
  else t.update (·.key = key)
    ⟨fun r => { r with counters := fun m => max (r.counters m) (snapshot m) }, keeps fun _ => rfl⟩

/-- `markRedisBucketFlushed`. -/
def markRedisBucketFlushed (t : Table RedisBucket) (key : BucketKey) : Table RedisBucket :=
  if t.affected (·.key = key) = 0 then t.insert ⟨key, 0, true⟩
  else t.update (·.key = key) ⟨fun r => { r with flushed := true }, keeps fun _ => rfl⟩

/-- `deleteRedisBucket`: Redis afterwards, and whether the caller sees an error. -/
def deleteRedisBucket (t : Table RedisBucket) (key : BucketKey) :
    Deletion → Table RedisBucket × Bool
  | .removed => (t.delete (·.key = key), false)
  | .failed => (t, true)
  | .marked => (markRedisBucketFlushed t key, true)
  | .unacknowledged => (t.delete (·.key = key), true)

/-- The tail of `cleanupFlushedBucket` and `cleanupCommittedRedisBuckets`. -/
def cleanupRedis (w : World) (key : BucketKey) (deletion : Deletion) : World :=
  match deleteRedisBucket w.redis key deletion with
  | (redis, true) => { w with redis := redis }
  | (redis, false) =>
      { w with redis := redis, committed := w.committed.filter (· ≠ key) }.removeClosedBucket key

/-! ### Recovery -/

/-- What `recoverRedisBucketsForNode` finds: the hashes of the node that are not marked as flushed
and can be decoded. -/
def recoverable (w : World) (node : String) : List RedisBucket :=
  w.redis.rows.filter fun r => decide (r.key.node = node ∧ r.flushed = false ∧ r.key.model ≠ "" ∧
    r.key.group ≠ "" ∧ r.key.node ≠ "" ∧ 0 < r.key.bucketTs ∧ 0 < r.counters .requestCount)

variable (digest : String → String)

/-- The bucket has been committed. -/
def Committed (w : World) (key : BucketKey) : Prop :=
  w.db.Receipted (perfMetricReceiptKey digest key)

instance (w : World) : DecidablePred (Committed digest w) := fun key =>
  inferInstanceAs (Decidable (w.db.Receipted (perfMetricReceiptKey digest key)))

/-- One turn of the loop of `recoverRedisBucketsForNode`. -/
def recoverBucket (kept : List BucketKey) (w : World) (r : RedisBucket) : World :=
  if Committed digest w r.key then
    if r.key ∈ kept then { w with committed := r.key :: w.committed }
    else { w with redis := w.redis.delete (·.key = r.key) }
  else w.store r.key r.counters

/-- A bucket of a process that has ended. -/
def Bucket.lost (b : Bucket) : Bucket := { b with closed := true, inFlight := 0, counters := 0 }

/-- The memory of a node is gone. -/
def forgetNode (w : World) (node : String) : World :=
  { w with
    hot := w.hot.delete (·.key.node = node)
    committed := w.committed.filter (·.node ≠ node)
    heap := w.heap.map fun b => if b.key.node = node then b.lost else b
    calls := w.calls.map fun c => if c.node = some node then .done else c }

/-- A process ends, and `Init` of its successor restores the buckets from Redis. -/
def restartNode (w : World) (node : String) (recovers : Bool) (kept : List BucketKey) : World :=
  if recovers then
    (recoverable w node).foldl (recoverBucket digest kept) (forgetNode w node)
  else forgetNode w node

/-! ### Steps -/

/-- `bucketStartFor`. -/
def bucketStartFor (ts bucketSeconds : ℤ) : ℤ :=
  ts - ts.tmod (if bucketSeconds ≤ 0 then 3600 else bucketSeconds)

/-- What `Record` makes of a sample before it is counted. -/
def Sample.normalized (sample : Sample) : Sample :=
  { sample with
    group := if sample.group = "" then "default" else sample.group
    latencyMs := if sample.latencyMs < 0 then 0 else sample.latencyMs }

/-- The key `Record` counts a sample under. -/
def sampleKey (sample : Sample) (bucketSeconds : ℤ) (node : String) (now : ℤ) : BucketKey :=
  let seconds := if bucketSeconds ≤ 0 then 3600 else bucketSeconds
  ⟨sample.model, sample.group, node, bucketStartFor now seconds, seconds⟩

/-- The bucket's span of time is over. -/
def completed (key : BucketKey) (bucketSeconds now : ℤ) : Prop :=
  let seconds := if 0 < key.bucketSeconds then key.bucketSeconds
    else if 0 < bucketSeconds then bucketSeconds else 3600
  key.bucketTs + seconds ≤ now

instance (key : BucketKey) (bucketSeconds now : ℤ) : Decidable (completed key bucketSeconds now) :=
  inferInstanceAs (Decidable (_ ≤ _))

/-- `addSample`, and what `Record` does next. -/
def addStep (w : World) (i : ℕ) (key : BucketKey) (sample : Sample) (projects : Bool) (p : ℕ) :
    World :=
  match w.heap[p]? with
  | none => w
  | some b =>
      if b.closed then w.become i (.evict key sample projects p)
      else
        let counters := b.counters + sample.counters
        let w := { w with accepted := w.accepted ++ [(key.row, sample.counters)] }.put p
          { b with counters := counters, inFlight := b.inFlight + if projects then 1 else 0 }
        w.become i (if projects then .project key p counters else .done)

/-- `addCounters`, and what `requeueCounters` does next. -/
def readdStep (w : World) (i : ℕ) (key : BucketKey) (value : Counters) (p : ℕ) : World :=
  match w.heap[p]? with
  | none => w
  | some b =>
      if b.closed then w.become i (.revict key value p)
      else (w.put p { b with counters := b.counters + value }).become i .done

/-- `finishProjection`. -/
def finishStep (w : World) (i : ℕ) (p : ℕ) : World :=
  match w.heap[p]? with
  | none => w
  | some b => (w.put p { b with inFlight := b.inFlight - 1 }).become i .done

/-- `closeAndDrain`, after the bucket has been closed. -/
def drainStep (w : World) (i : ℕ) (key : BucketKey) (p : ℕ) : World :=
  match w.heap[p]? with
  | none => w
  | some b =>
      if b.inFlight = 0 then (w.put p { b with counters := 0 }).become i (.detach key p b.counters)
      else w

/-- `persistBucket`; an error puts the counters back. -/
def commitStep (w : World) (i : ℕ) (key : BucketKey) (value : Counters) (outcome : Outcome)
    (claimToken : String) (now : ℤ) : World :=
  if ∃ r ∈ w.db.receipts.rows, r.claimToken = claimToken then w
  else match outcome, transaction (commitPerfMetricBucket (perfMetricReceiptKey digest key)
      ⟨key.row, value⟩ claimToken now) w.db with
    | .done, (.ok _, db) => { w with db := db }.become i (.cleanup key true)
    | .unacknowledged, (.ok _, db) => { w with db := db }.become i (.requeue key value)
    | _, _ => w.become i (.requeue key value)

/-- The next step of a call. -/
def proceedStep (w : World) (i : ℕ) (outcome : Outcome) (deletion : Deletion) (claimToken : String)
    (now : ℤ) : Call → World
  | .load key sample projects =>
      (w.loadOrStore key).1.become i (.add key sample projects (w.loadOrStore key).2)
  | .add key sample projects p => addStep w i key sample projects p
  | .evict key sample projects p => (w.compareAndDelete key p).become i (.load key sample projects)
  | .project key p snapshot =>
      { w with
          redis := if outcome = Outcome.failed then w.redis else publish w.redis key snapshot
        }.become
        i (.finish key p)
  | .finish _ p => finishStep w i p
  | .drain key p => drainStep w i key p
  | .detach key p drained =>
      (w.compareAndDelete key p).become i
        (if drained .requestCount = 0 then .cleanup key false else .commit key drained)
  | .commit key value => commitStep digest w i key value outcome claimToken now
  | .requeue key value => (w.loadOrStore key).1.become i (.readd key value (w.loadOrStore key).2)
  | .readd key value p => readdStep w i key value p
  | .revict key value p => (w.compareAndDelete key p).become i (.requeue key value)
  | .cleanup key committed =>
      (cleanupRedis
        { w with committed := if committed then key :: w.committed else w.committed } key
        deletion).become i .done
  | .done => w

/-- The flush visits the bucket of a key: a completed one is closed. -/
def flushStep (w : World) (key : BucketKey) (bucketSeconds now : ℤ) : World :=
  match w.hot.first? (·.key = key) with
  | none => w
  | some e =>
      match w.heap[e.bucket]? with
      | none => w
      | some b =>
          if ¬ completed key bucketSeconds now then w
          else if b.closed then w.start [.detach key e.bucket 0]
          else (w.put e.bucket { b with closed := true }).start [.drain key e.bucket]

/-- What an operation makes of the state. -/
def step (w : World) : Op → World
  | .record sample enabled bucketSeconds node now projects =>
      if ¬ enabled ∨ sample.model = "" then w
      else w.start [.load (sampleKey sample.normalized bucketSeconds node now) sample.normalized
        projects]
  | .flush key bucketSeconds now => flushStep w key bucketSeconds now
  | .proceed i outcome deletion claimToken now =>
      match w.calls[i]? with
      | some call => proceedStep digest w i outcome deletion claimToken now call
      | none => w
  | .cleanupCommitted key deletion => if key ∈ w.committed then cleanupRedis w key deletion else w
  | .purge cutoff =>
      if cutoff ≤ 0 then w
      else { w with db := { w.db with receipts := w.db.receipts.delete (·.createdAt < cutoff) } }
  | .expire key => { w with redis := w.redis.delete (·.key = key) }
  | .restart node recovers kept => restartNode digest w node recovers kept

/-- The state after a list of operations. -/
abbrev runs (w : World) (ops : List Op) : World := Transition.run (step digest) w ops

end MaxApi.PerfMetrics
