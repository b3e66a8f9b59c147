import MaxApi.Lib.Table
import MaxApi.Lib.Txn
import Mathlib.Data.Fintype.Pi
import Mathlib.Data.List.Sort

/-! # Dashboard usage: rows and the durable save

What a user has used is stored in `quota_data`, in one row for each user, model, hour and so on,
which is found by its aggregate key where the unique index exists, and else by its dimensions.
A cached entry is added to its row in one transaction with a marker for the snapshot: a repeated
save finds the marker and adds nothing. -/

namespace MaxApi.Usage

open Relational

/-! ### Usage -/

/-- What is counted. -/
inductive Counter where
  | count
  | quota
  | tokenUsed
  deriving DecidableEq, Repr

instance : Fintype Counter where
  elems := {.count, .quota, .tokenUsed}
  complete u := by cases u <;> decide

/-- The value of every counter. -/
abbrev Amounts := Counter → ℤ

/-- What usage is counted by. -/
structure Dimensions where
  userID : ℤ
  username : String
  modelName : String
  createdAt : ℤ
  useGroup : String
  tokenID : ℤ
  channelID : ℤ
  nodeName : String
  deriving DecidableEq, Repr

/-- A `QuotaData` of the cache. -/
structure Entry where
  snapshotID : String
  dims : Dimensions
  amounts : Amounts
  deriving DecidableEq

/-- `quotaDataCacheKey`. -/
def quotaDataCacheKey (dims : Dimensions) : String :=
  toString dims.userID ++ "\x00" ++ dims.username ++ "\x00" ++ dims.modelName ++ "\x00" ++
    toString dims.createdAt ++ "\x00" ++ dims.useGroup ++ "\x00" ++ toString dims.tokenID ++
    "\x00" ++ toString dims.channelID ++ "\x00" ++ dims.nodeName

/-- `quotaDataAggregateKey`: the digest of the cache key. -/
def quotaDataAggregateKey (digest : String → String) (dims : Dimensions) : String :=
  digest (quotaDataCacheKey dims)

/-! ### Tables -/

/-- A row of `quota_data`. -/
structure QuotaData where
  id : ℤ
  aggregateKey : Option String
  dims : Dimensions
  amounts : Amounts
  deriving DecidableEq

/-- A row of `quota_data_snapshots`: the snapshot has been saved. -/
structure QuotaDataSnapshot where
  snapshotID : String
  createdAt : ℤ
  deriving DecidableEq, Repr

/-- A row of `quota_data_snapshot_retries`: the snapshot may be saved again. -/
structure QuotaDataSnapshotRetry where
  snapshotID : String
  retryUntil : ℤ
  updatedAt : ℤ
  deriving DecidableEq, Repr

instance : Keyed QuotaData where
  Key := ℤ
  key := QuotaData.id
  Clash a b := a = b
  clashDec := inferInstance
  clash_refl _ := rfl
  clash_symm := Eq.symm

instance : Keyed QuotaDataSnapshot where
  Key := String
  key := QuotaDataSnapshot.snapshotID
  Clash a b := a = b
  clashDec := inferInstance
  clash_refl _ := rfl
  clash_symm := Eq.symm

instance : Keyed QuotaDataSnapshotRetry where
  Key := String
  key := QuotaDataSnapshotRetry.snapshotID
  Clash a b := a = b
  clashDec := inferInstance
  clash_refl _ := rfl
  clash_symm := Eq.symm

/-- The tables of the usage data; `indexed` says that the unique index of the aggregate keys
exists. -/
structure Tables where
  quotaData : Table QuotaData
  indexed : Bool
  snapshots : Table QuotaDataSnapshot
  retries : Table QuotaDataSnapshotRetry

/-- The usage stored for some dimensions, in whatever rows. -/
def stored (t : Table QuotaData) (dims : Dimensions) : Amounts := fun u =>
  t.sum fun r => if r.dims = dims then r.amounts u else 0

/-- The snapshot has been saved. -/
def Tables.Marked (s : Tables) (snapshotID : String) : Prop :=
  ∃ r ∈ s.snapshots.rows, r.snapshotID = snapshotID

instance (s : Tables) : DecidablePred s.Marked := fun _ =>
  inferInstanceAs (Decidable (∃ r ∈ s.snapshots.rows, _))

/-! ### The save of an entry -/

/-- `SET count = count + …`, for every counter. -/
def addAmounts (c : Amounts) : SetClause QuotaData :=
  ⟨fun r => { r with amounts := r.amounts + c }, keeps fun _ => rfl⟩

/-- Add to a row. -/
def increaseRow (id : ℤ) (c : Amounts) : Txn Tables String Unit :=
  modify fun db => { db with quotaData := db.quotaData.update (·.id = id) (addAmounts c) }

/-- Create a row, unless the unique index refuses its aggregate key. -/
def createRow (aggregateKey : String) (e : Entry) : Txn Tables String Unit := do
  let db ← get
  Txn.require (¬ (db.indexed ∧ ∃ r ∈ db.quotaData.rows, r.aggregateKey = some aggregateKey))
    "duplicate key value violates unique constraint"
  modify fun db => { db with
    quotaData := db.quotaData.insert
      ⟨db.quotaData.nextID QuotaData.id, some aggregateKey, e.dims, e.amounts⟩ }

/-- The first row of the dimensions in the order of identifiers. -/
def quotaDataDimensionQuery (t : Table QuotaData) (dims : Dimensions) : Option QuotaData :=
  ((t.rows.filter (·.dims = dims)).insertionSort (·.id ≤ ·.id)).head?

variable (digest : String → String)

/-- `increaseQuotaDataByDimensionsTx`. -/
def increaseQuotaDataByDimensionsTx (e : Entry) : Txn Tables String Unit := do
  let db ← get
  match quotaDataDimensionQuery db.quotaData e.dims with
  | some existing =>
      if 0 < existing.id then increaseRow existing.id e.amounts
      else createRow (quotaDataAggregateKey digest e.dims) e
  | none => createRow (quotaDataAggregateKey digest e.dims) e

/-- `quotaDataUpsert`: `ON CONFLICT (aggregate_key) DO UPDATE`, which needs the index. -/
def quotaDataUpsert (e : Entry) : Txn Tables String Unit := do
  let db ← get
  Txn.require (db.indexed = true) "there is no unique constraint matching the conflict target"
  match db.quotaData.first? (·.aggregateKey = some (quotaDataAggregateKey digest e.dims)) with
  | some existing => increaseRow existing.id e.amounts
  | none => createRow (quotaDataAggregateKey digest e.dims) e

/-- `increaseQuotaDataTx`; `available` is the answer of `quotaDataAggregateKeyIndexAvailable`. -/
def increaseQuotaDataTx (available : Bool) (e : Entry) : Txn Tables String Unit :=
  if available then quotaDataUpsert digest e else increaseQuotaDataByDimensionsTx digest e

/-- `retireQuotaDataSnapshotRetryTx`. -/
def retireQuotaDataSnapshotRetryTx (snapshotID : String) : Txn Tables String Unit :=
  modify fun db => { db with retries := db.retries.delete (·.snapshotID = snapshotID) }

/-- `saveQuotaDataLocked`: the marker is created, or it is there and nothing is added. -/
def saveQuotaDataLocked (available : Bool) (e : Entry) (now : ℤ) : Txn Tables String Unit := do
  let db ← get
  modify fun db => { db with snapshots := db.snapshots.insert ⟨e.snapshotID, now⟩ }
  if db.Marked e.snapshotID then retireQuotaDataSnapshotRetryTx e.snapshotID
  else do
    increaseQuotaDataTx digest available e
    retireQuotaDataSnapshotRetryTx e.snapshotID

/-! ### What a save has done -/

section save

variable {digest : String → String} {t t' : Table QuotaData} {e : Entry} {available : Bool}

theorem stored_insert {r : QuotaData} (h : ∀ a ∈ t, a.id ≠ r.id) (dims : Dimensions) :
    stored (t.insert r) dims = stored t dims + if r.dims = dims then r.amounts else 0 := by
  funext u
  unfold stored
  rw [Pi.add_apply, Table.sum_insert_new h]
  split_ifs
  · rfl
  · rfl

theorem stored_update {r : QuotaData} (hr : r ∈ t) (c : Amounts) (dims : Dimensions) :
    stored (t.update (·.id = r.id) (addAmounts c)) dims =
      stored t dims + if r.dims = dims then c else 0 := by
  have hone : ∀ a ∈ t, a.id = r.id → a = r := fun a ha hid => Table.eq_of_clash ha hr hid
  funext u
  unfold stored
  have hsum := Table.sum_update_single (m := addAmounts c)
    (g := fun a => if a.dims = dims then a.amounts u else 0) hr (p := (·.id = r.id)) rfl hone
  rw [Pi.add_apply, hsum]
  unfold addAmounts
  dsimp only
  split_ifs
  · rw [Pi.add_apply]
    omega
  · rw [Pi.zero_apply]
    omega

/-- The amounts of an entry have been added to `t`: to the row that has the aggregate key where
the index is available, and else to a row of the dimensions; or to a new row. -/
inductive Increased (digest : String → String) (available indexed : Bool) (e : Entry)
    (t : Table QuotaData) : Table QuotaData → Prop
  | byKey (r : QuotaData) (havailable : available = true) (hr : r ∈ t)
      (hkey : r.aggregateKey = some (quotaDataAggregateKey digest e.dims)) :
      Increased digest available indexed e t (t.update (·.id = r.id) (addAmounts e.amounts))
  | byDimensions (r : QuotaData) (havailable : available = false) (hr : r ∈ t)
      (hdims : r.dims = e.dims) :
      Increased digest available indexed e t (t.update (·.id = r.id) (addAmounts e.amounts))
  | created
      (hfree : indexed = true → ∀ r ∈ t,
        r.aggregateKey ≠ some (quotaDataAggregateKey digest e.dims))
      (hnone : available = false → (∀ r ∈ t, 0 < r.id) → ∀ r ∈ t, r.dims ≠ e.dims) :
      Increased digest available indexed e t (t.insert ⟨t.nextID QuotaData.id,
        some (quotaDataAggregateKey digest e.dims), e.dims, e.amounts⟩)

theorem quotaDataDimensionQuery_some {dims : Dimensions} {r : QuotaData}
    (h : quotaDataDimensionQuery t dims = some r) :
    r ∈ t ∧ r.dims = dims := by
  unfold quotaDataDimensionQuery at h
  have hperm := List.perm_insertionSort (fun a b : QuotaData => a.id ≤ b.id)
    (t.rows.filter (·.dims = dims))
  have hmem := hperm.mem_iff.mp (List.mem_of_mem_head? (Option.mem_def.mpr h))
  obtain ⟨hr, hdims⟩ := List.mem_filter.mp hmem
  exact ⟨hr, of_decide_eq_true hdims⟩

theorem quotaDataDimensionQuery_none {dims : Dimensions}
    (h : quotaDataDimensionQuery t dims = none) : ∀ a ∈ t, a.dims ≠ dims := by
  unfold quotaDataDimensionQuery at h
  intro a ha had
  have hperm := List.perm_insertionSort (fun a b : QuotaData => a.id ≤ b.id)
    (t.rows.filter (·.dims = dims))
  have hamem := hperm.mem_iff.mpr (List.mem_filter.mpr ⟨ha, decide_eq_true had⟩)
  rw [List.head?_eq_none_iff.mp h] at hamem
  exact List.not_mem_nil hamem

theorem createRow_ok {key : String} {s s' : Tables} (h : (createRow key e).Ok s () s') :
    (s.indexed = true → ∀ r ∈ s.quotaData, r.aggregateKey ≠ some key) ∧
      s' = { s with quotaData := (s.quotaData.insert
        ⟨s.quotaData.nextID QuotaData.id, some key, e.dims, e.amounts⟩) } := by
  unfold createRow at h
  simp only [Txn.ok_bind, Txn.ok_get, Txn.ok_require, Txn.ok_modify] at h
  obtain ⟨_, _, ⟨rfl, rfl⟩, _, _, ⟨hfree, rfl⟩, hs⟩ := h
  exact ⟨fun hi r hr hk => hfree ⟨hi, r, hr, hk⟩, hs.symm⟩

/-- What `increaseQuotaDataTx` has done when it succeeds. -/
theorem increaseQuotaDataTx_ok {s s' : Tables}
    (h : (increaseQuotaDataTx digest available e).Ok s () s') :
    ∃ t', Increased digest available s.indexed e s.quotaData t' ∧
      s' = { s with quotaData := t' } := by
  unfold increaseQuotaDataTx at h
  cases available with
  | true =>
      rw [if_pos rfl] at h
      unfold quotaDataUpsert at h
      simp only [Txn.ok_bind, Txn.ok_get, Txn.ok_require] at h
      obtain ⟨_, _, ⟨rfl, rfl⟩, _, _, ⟨_, rfl⟩, h⟩ := h
      cases hfirst : s.quotaData.first?
          (·.aggregateKey = some (quotaDataAggregateKey digest e.dims)) with
      | some existing =>
          rw [hfirst] at h
          obtain ⟨hmem, hkey⟩ := Table.first?_mem hfirst
          unfold increaseRow at h
          exact ⟨_, .byKey existing rfl hmem hkey, (Txn.ok_modify.mp h).symm⟩
      | none =>
          rw [hfirst] at h
          obtain ⟨hfree, hs⟩ := createRow_ok h
          exact ⟨_, .created hfree (fun hf => absurd hf (by decide)), hs⟩
  | false =>
      rw [if_neg (by decide)] at h
      unfold increaseQuotaDataByDimensionsTx at h
      simp only [Txn.ok_bind, Txn.ok_get] at h
      obtain ⟨_, _, ⟨rfl, rfl⟩, h⟩ := h
      cases hquery : quotaDataDimensionQuery s.quotaData e.dims with
      | some existing =>
          rw [hquery] at h
          dsimp only at h
          obtain ⟨hmem, hdims⟩ := quotaDataDimensionQuery_some hquery
          by_cases hpos : 0 < existing.id
          · rw [if_pos hpos] at h
            unfold increaseRow at h
            exact ⟨_, .byDimensions existing rfl hmem hdims, (Txn.ok_modify.mp h).symm⟩
          · rw [if_neg hpos] at h
            obtain ⟨hfree, hs⟩ := createRow_ok h
            exact ⟨_, .created hfree fun _ hids => absurd (hids existing hmem) hpos, hs⟩
      | none =>
          rw [hquery] at h
          obtain ⟨hfree, hs⟩ := createRow_ok h
          exact ⟨_, .created hfree fun _ _ => quotaDataDimensionQuery_none hquery, hs⟩

/-- What `saveQuotaDataLocked` has done when it succeeds. -/
theorem saveQuotaDataLocked_ok {s s' : Tables} {now : ℤ}
    (h : (saveQuotaDataLocked digest available e now).Ok s () s') :
    s'.indexed = s.indexed ∧ s'.snapshots = s.snapshots.insert ⟨e.snapshotID, now⟩ ∧
      ((s.Marked e.snapshotID ∧ s'.quotaData = s.quotaData) ∨
        (¬ s.Marked e.snapshotID ∧
          Increased digest available s.indexed e s.quotaData s'.quotaData)) := by
  unfold saveQuotaDataLocked retireQuotaDataSnapshotRetryTx at h
  simp only [Txn.ok_bind, Txn.ok_get, Txn.ok_modify, Txn.ok_ite] at h
  obtain ⟨_, _, ⟨rfl, rfl⟩, _, _, rfl, ⟨hmarked, rfl⟩ | ⟨hnew, _, _, hincrease, rfl⟩⟩ := h
  · exact ⟨rfl, rfl, .inl ⟨hmarked, rfl⟩⟩
  · obtain ⟨t', ht', rfl⟩ := increaseQuotaDataTx_ok hincrease
    exact ⟨rfl, rfl, .inr ⟨hnew, ht'⟩⟩

/-- The amounts are added to their dimensions, if the row of their aggregate key is one of these
dimensions. -/
theorem Increased.stored {indexed : Bool} (h : Increased digest available indexed e t t')
    (hkeys : available = true → ∀ r ∈ t,
      r.aggregateKey = some (quotaDataAggregateKey digest e.dims) → r.dims = e.dims)
    (dims : Dimensions) :
    stored t' dims = Usage.stored t dims + if e.dims = dims then e.amounts else 0 := by
  cases h with
  | byKey r havailable hr hkey =>
      rw [stored_update hr, hkeys havailable r hr hkey]
  | byDimensions r havailable hr hdims =>
      rw [stored_update hr, hdims]
  | created hfree hnone =>
      refine stored_insert (fun a ha => ?_) dims
      have hlt : a.id < t.nextID QuotaData.id := Table.lt_nextID ha
      show a.id ≠ t.nextID QuotaData.id
      omega

/-- A marker is created. -/
theorem marked_insert {s s' : Tables} {marker : QuotaDataSnapshot}
    (hs : s'.snapshots = s.snapshots.insert marker) (k : String) :
    s'.Marked k ↔ s.Marked k ∨ marker.snapshotID = k := by
  unfold Tables.Marked
  rw [hs]
  exact Table.exists_insert_iff (fun _ hclash => hclash) k

end save

end MaxApi.Usage
