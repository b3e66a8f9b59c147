import MaxApi.Lib.Table
import MaxApi.Lib.Txn
import Mathlib.Data.Fintype.Pi

/-! # Performance metrics: samples and the durable commit

A relay sample is counted in a bucket for its model, group, node and time.  A completed bucket is
committed to `perf_metrics` in one transaction with a receipt for the bucket: a repeated commit
finds the receipt and adds nothing. -/

namespace MaxApi.PerfMetrics

open Relational

/-! ### Counters -/

/-- The counters of a bucket. -/
inductive Metric where
  | requestCount
  | successCount
  | totalLatencyMs
  | ttftSumMs
  | ttftCount
  | outputTokens
  | generationMs
  deriving DecidableEq, Repr

instance : Fintype Metric where
  elems := {.requestCount, .successCount, .totalLatencyMs, .ttftSumMs, .ttftCount, .outputTokens,
    .generationMs}
  complete m := by cases m <;> decide

/-- The value of every counter. -/
abbrev Counters := Metric → ℤ

/-- One relay request. -/
structure Sample where
  model : String
  group : String
  latencyMs : ℤ
  ttftMs : ℤ
  hasTtft : Bool
  success : Bool
  outputTokens : ℤ
  generationMs : ℤ
  deriving DecidableEq, Repr

/-- What a sample adds to the counters (`addSample`). -/
def Sample.counters (sample : Sample) : Counters
  | .requestCount => 1
  | .successCount => if sample.success then 1 else 0
  | .totalLatencyMs => if 0 < sample.latencyMs then sample.latencyMs else 0
  | .ttftSumMs => if sample.hasTtft ∧ 0 ≤ sample.ttftMs then sample.ttftMs else 0
  | .ttftCount => if sample.hasTtft ∧ 0 ≤ sample.ttftMs then 1 else 0
  | .outputTokens =>
      if 0 < sample.outputTokens ∧ 0 < sample.generationMs then sample.outputTokens else 0
  | .generationMs =>
      if 0 < sample.outputTokens ∧ 0 < sample.generationMs then sample.generationMs else 0

/-- What a bucket counts: the samples of one model, group and node in one span of time. -/
structure BucketKey where
  model : String
  group : String
  node : String
  bucketTs : ℤ
  bucketSeconds : ℤ
  deriving DecidableEq, Repr

/-- The row of `perf_metrics` a bucket is added to; nodes and spans of one start share it. -/
structure RowKey where
  modelName : String
  group : String
  bucketTs : ℤ
  deriving DecidableEq, Repr

def BucketKey.row (key : BucketKey) : RowKey := ⟨key.model, key.group, key.bucketTs⟩

/-- `perfMetricReceiptKey`: the digest of the fields of the bucket. -/
def perfMetricReceiptKey (digest : String → String) (key : BucketKey) : String :=
  digest (key.node ++ "\x00" ++ key.model ++ "\x00" ++ key.group ++ "\x00" ++
    toString key.bucketTs ++ "\x00" ++ toString key.bucketSeconds)

/-! ### Tables -/

/-- A row of `perf_metrics`. -/
structure PerfMetric where
  row : RowKey
  counters : Counters
  deriving DecidableEq

/-- A row of `perf_metric_flush_receipts`. -/
structure PerfMetricFlushReceipt where
  receiptKey : String
  claimToken : String
  createdAt : ℤ
  deriving DecidableEq, Repr

instance : Keyed PerfMetric where
  Key := RowKey
  key := PerfMetric.row
  Clash a b := a = b
  clashDec := inferInstance
  clash_refl _ := rfl
  clash_symm := Eq.symm

instance : Keyed PerfMetricFlushReceipt where
  Key := String
  key := PerfMetricFlushReceipt.receiptKey
  Clash a b := a = b
  clashDec := inferInstance
  clash_refl _ := rfl
  clash_symm := Eq.symm

/-- The tables of the metrics. -/
structure Tables where
  perfMetrics : Table PerfMetric
  receipts : Table PerfMetricFlushReceipt

/-- The counters stored for a row. -/
def stored (t : Table PerfMetric) (row : RowKey) : Counters :=
  match t.first? (·.row = row) with
  | some r => r.counters
  | none => 0

/-- The bucket with this receipt key has been committed. -/
def Tables.Receipted (s : Tables) (receiptKey : String) : Prop :=
  ∃ r ∈ s.receipts.rows, r.receiptKey = receiptKey

instance (s : Tables) : DecidablePred s.Receipted := fun _ =>
  inferInstanceAs (Decidable (∃ r ∈ s.receipts.rows, _))

/-! ### The commit of a bucket -/

/-- `SET request_count = request_count + …`, for every counter. -/
def addCounters (c : Counters) : SetClause PerfMetric :=
  ⟨fun r => { r with counters := r.counters + c }, keeps fun _ => rfl⟩

/-- `upsertPerfMetric`: add to the row, or create it. -/
def upsertPerfMetric (t : Table PerfMetric) (metric : PerfMetric) : Table PerfMetric :=
  if metric.counters .requestCount = 0 then t
  else if t.affected (·.row = metric.row) = 0 then t.insert metric
  else t.update (·.row = metric.row) (addCounters metric.counters)

/-- `CommitPerfMetricBucket`: the result says whether the counters were added.  Whose receipt is
stored is proven by the claim token. -/
def commitPerfMetricBucket (receiptKey : String) (metric : PerfMetric) (claimToken : String)
    (now : ℤ) : Txn Tables String Bool :=
  if metric.counters .requestCount = 0 then pure false
  else do
    Txn.require (receiptKey ≠ "") "invalid data"
    modify fun db => { db with receipts := db.receipts.insert ⟨receiptKey, claimToken, now⟩ }
    let db ← get
    let storedReceipt ← Txn.orThrow (db.receipts.first? (·.receiptKey = receiptKey))
      "record not found"
    if storedReceipt.claimToken ≠ claimToken then pure false
    else
      modify fun db => { db with perfMetrics := upsertPerfMetric db.perfMetrics metric }
      pure true

section stored

variable {t : Table PerfMetric} {row : RowKey}

theorem stored_eq {r : PerfMetric} (hr : r ∈ t) : stored t r.row = r.counters := by
  unfold stored
  have hfirst : t.first? (·.row = r.row) = some r :=
    Table.first?_eq_some hr rfl fun a ha hrow => Table.eq_of_clash ha hr hrow
  rw [hfirst]

theorem stored_eq_zero (h : ∀ r ∈ t, r.row ≠ row) : stored t row = 0 := by
  unfold stored
  rw [Table.first?_eq_none.mpr h]

/-- The row is there, or nothing is stored for it. -/
theorem stored_cases (t : Table PerfMetric) (row : RowKey) :
    (∃ r ∈ t, r.row = row ∧ stored t row = r.counters) ∨
      ((∀ r ∈ t, r.row ≠ row) ∧ stored t row = 0) := by
  by_cases h : ∃ r ∈ t, r.row = row
  · obtain ⟨r, hr, rfl⟩ := h
    exact .inl ⟨r, hr, rfl, stored_eq hr⟩
  · have hnone : ∀ r ∈ t, r.row ≠ row := fun r hr hrow => h ⟨r, hr, hrow⟩
    exact .inr ⟨hnone, stored_eq_zero hnone⟩

/-- Inserting a row whose key is free. -/
theorem stored_insert {metric : PerfMetric} (h : ∀ r ∈ t, r.row ≠ metric.row) (row : RowKey) :
    stored (t.insert metric) row =
      stored t row + if metric.row = row then metric.counters else 0 := by
  have hself : metric ∈ t.insert metric :=
    Table.mem_insert_self fun a ha hclash => h a ha hclash
  by_cases hrow : metric.row = row
  · rw [if_pos hrow, ← hrow, stored_eq_zero h, zero_add]
    exact stored_eq hself
  · rw [if_neg hrow, add_zero]
    rcases stored_cases t row with ⟨r, hr, rfl, hs⟩ | ⟨hnone, hs⟩
    · rw [hs]
      exact stored_eq (Table.mem_insert_of_mem hr)
    · rw [hs]
      refine stored_eq_zero fun a ha => ?_
      rcases Table.mem_insert ha with ha | ⟨rfl, _⟩
      · exact hnone a ha
      · exact hrow

/-- Adding to the row of a key. -/
theorem stored_update {k : RowKey} (c : Counters) (hk : ∃ r ∈ t, r.row = k) (row : RowKey) :
    stored (t.update (·.row = k) (addCounters c)) row =
      stored t row + if k = row then c else 0 := by
  rcases stored_cases t row with ⟨r, hr, rfl, hs⟩ | ⟨hnone, hs⟩
  · have hmem := Table.mem_update (p := (·.row = k)) (m := addCounters c) |>.mpr ⟨r, hr, rfl⟩
    have hval := stored_eq hmem
    by_cases hrow : r.row = k
    · rw [if_pos hrow] at hval
      rw [hs, if_pos hrow.symm]
      exact hval
    · rw [if_neg hrow] at hval
      rw [hs, if_neg fun h => hrow h.symm, add_zero]
      exact hval
  · obtain ⟨a, ha, rfl⟩ := hk
    rw [hs, if_neg (hnone a ha), add_zero]
    refine stored_eq_zero fun b hb => ?_
    obtain ⟨r, hr, rfl⟩ := Table.mem_update.mp hb
    split
    · exact hnone r hr
    · exact hnone r hr

/-- An upsert adds the counters to the row. -/
theorem stored_upsertPerfMetric {metric : PerfMetric} (h : metric.counters .requestCount ≠ 0)
    (row : RowKey) :
    stored (upsertPerfMetric t metric) row =
      stored t row + if metric.row = row then metric.counters else 0 := by
  unfold upsertPerfMetric
  rw [if_neg h]
  by_cases haff : t.affected (·.row = metric.row) = 0
  · rw [if_pos haff]
    exact stored_insert (Table.affected_eq_zero.mp haff) row
  · rw [if_neg haff]
    exact stored_update metric.counters (Table.exists_of_affected_ne_zero haff) row

end stored

/-- What a committed transaction has done: nothing when there is nothing to add or the receipt is
there, and else it has written the receipt and added the counters. -/
theorem commitPerfMetricBucket_ok {receiptKey claimToken : String} {metric : PerfMetric} {now : ℤ}
    {s s' : Tables} {applied : Bool} (hfresh : ∀ r ∈ s.receipts, r.claimToken ≠ claimToken)
    (hcount : metric.counters .requestCount ≠ 0)
    (h : (commitPerfMetricBucket receiptKey metric claimToken now).Ok s applied s') :
    (s.Receipted receiptKey ∧ s' = s) ∨
      (¬ s.Receipted receiptKey ∧ s' = { s with
        receipts := s.receipts.insert ⟨receiptKey, claimToken, now⟩
        perfMetrics := upsertPerfMetric s.perfMetrics metric }) := by
  unfold commitPerfMetricBucket at h
  rw [if_neg hcount] at h
  simp only [Txn.ok_bind, Txn.ok_require, Txn.ok_modify, Txn.ok_get, Txn.ok_orThrow, Txn.ok_ite,
    Txn.ok_pure] at h
  obtain ⟨_, _, ⟨_, rfl⟩, _, _, rfl, _, _, ⟨rfl, rfl⟩, receipt, _, ⟨hfirst, rfl⟩, h⟩ := h
  obtain ⟨hmem, hkey⟩ := Table.first?_mem hfirst
  dsimp only at hmem
  by_cases hdone : s.Receipted receiptKey
  · obtain ⟨a, ha, hak⟩ := hdone
    have hclash : Keyed.Clash (Keyed.key a)
        (Keyed.key (⟨receiptKey, claimToken, now⟩ : PerfMetricFlushReceipt)) := hak
    have hsame := Table.insert_of_clash ha hclash
    rw [hsame] at hmem h
    rcases h with ⟨_, _, rfl⟩ | ⟨heq, _⟩
    · exact .inl ⟨⟨a, ha, hak⟩, rfl⟩
    · exact absurd (not_not.mp heq) (hfresh receipt hmem)
  · have hself : (⟨receiptKey, claimToken, now⟩ : PerfMetricFlushReceipt) ∈
        s.receipts.insert ⟨receiptKey, claimToken, now⟩ :=
      Table.mem_insert_self fun a ha hclash => hdone ⟨a, ha, hclash⟩
    obtain rfl := Table.eq_of_clash hmem hself hkey
    rcases h with ⟨hne, _⟩ | ⟨_, _, _, rfl, _, rfl⟩
    · exact absurd rfl hne
    · exact .inr ⟨hdone, rfl⟩

end MaxApi.PerfMetrics
