import MaxApi.Settlement.Ledger

/-! # Settlement effects happen exactly once

The effect of an applied settlement is a log entry in one database and usage counters in another.
The log entry is unique because only the attempt whose claim token is on the receipt writes it;
the counters are raised in the transaction that turns `effect_status` from pending to applied.
What an attempt read before that transaction is still true in it, since an applied record no
longer changes (`Snapshot`), and so every counter is its initial value plus what the records with
an applied effect contribute. -/

namespace MaxApi.Settlement

open Relational MaxApi.Billing

/-! ### Counters -/

/-- The counters that effects raise. -/
inductive Counter where
  | userQuota (userID : ℤ)
  | userRequests (userID : ℤ)
  | channelQuota (channelID : ℤ)
  deriving DecidableEq

/-- The value of a counter. -/
def Counter.read (s : Tables) : Counter → ℤ
  | .userQuota k => s.users.sumAt User.id k User.usedQuota
  | .userRequests k => s.users.sumAt User.id k User.requestCount
  | .channelQuota k => s.channels.sumAt Channel.id k Channel.usedQuota

/-- The counter belongs to a row of the database. -/
def Counter.Exists (s : Tables) : Counter → Prop
  | .userQuota k => ∃ u ∈ s.users, u.id = k
  | .userRequests k => ∃ u ∈ s.users, u.id = k
  | .channelQuota k => 0 < k ∧ ∃ c ∈ s.channels, c.id = k

/-- What an effect adds to a counter when it counts towards the usage. -/
def Counter.share (record : BillingSettlement) (effect : BillingSettlementEffect) : Counter → ℤ
  | .userQuota k => if record.userID = k then effectQuota record effect else 0
  | .userRequests k => if record.userID = k then 1 else 0
  | .channelQuota k => if effect.channelID = k then effectQuota record effect else 0

/-- What the effect of a record adds to a counter once it is processed. -/
def Counter.due (host : Host) (counter : Counter) (record : BillingSettlement) : ℤ :=
  match decodeBillingSettlementEffect host record.effectPayload with
  | .ok (some effect) => if countsUsage record effect then counter.share record effect else 0
  | _ => 0

/-- What a record has added to a counter. -/
def Counter.counted (host : Host) (counter : Counter) (r : BillingSettlement) : ℤ :=
  if r.effectStatus = .applied then counter.due host r else 0

/-- What the records with an applied effect have added to a counter. -/
def Counter.total (host : Host) (counter : Counter) (s : Tables) : ℤ :=
  s.billingSettlements.sum (counter.counted host)

/-- An effect is never left half processed, and only those of applied records are processed. -/
def EffectsSettled (s : Tables) : Prop :=
  ∀ r ∈ s.billingSettlements, r.effectStatus ≠ .applying ∧
    (r.effectStatus = .applied → r.status = .applied)

section counters

variable {A : BillingSettlementInput → Prop} {C : ChangeKind → Prop} {host : Host}
variable {s s' : Tables} {counter : Counter}

theorem effectStatusAfterSettlement_ne (payload : String) :
    effectStatusAfterSettlement payload ≠ .applied ∧
      effectStatusAfterSettlement payload ≠ .applying := by
  unfold effectStatusAfterSettlement
  split
  · decide
  · decide

theorem counted_of_ne {r : BillingSettlement} (h : r.effectStatus ≠ .applied) :
    counter.counted host r = 0 := if_neg h

/-- An edit processes no effect: it is a review, or the effect was not processed before either. -/
theorem RecordEdit.effect {r r' : BillingSettlement} (h : RecordEdit C s r r')
    (hr : r.effectStatus ≠ .applying ∧ (r.effectStatus = .applied → r.status = .applied)) :
    (r'.effectStatus ≠ .applying ∧ (r'.effectStatus = .applied → r'.status = .applied)) ∧
      ((r.effectStatus ≠ .applied ∧ r'.effectStatus ≠ .applied) ∨
        ∃ reviewerID blockUser note now, r' = reviewedRecord reviewerID blockUser note now r) := by
  have hopen : r.status ≠ .applied → r.effectStatus ≠ .applied := fun h h' => h (hr.2 h')
  cases h with
  | failed record cause now hC hp =>
      have hne := hopen (by rw [hp]; decide)
      obtain ⟨_, _, _, _, h⟩ := failedRecord_eq record cause now r
      rw [h]
      exact ⟨⟨hr.1, fun h => absurd h hne⟩, .inl ⟨hne, hne⟩⟩
  | reviewed reviewerID blockUser note now =>
      exact ⟨hr, .inr ⟨reviewerID, blockUser, note, now, rfl⟩⟩
  | reapproved reviewerID note now hC hm =>
      have hne := hopen (by rw [hm]; decide)
      exact ⟨⟨hr.1, fun h => absurd h hne⟩, .inl ⟨hne, hne⟩⟩
  | resolved completion reviewerID note now hC hm =>
      have hne := hopen (by rw [hm]; decide)
      exact ⟨⟨hr.1, fun _ => rfl⟩, .inl ⟨hne, hne⟩⟩
  | promoted input payload recoveryNote auditNote now hC hm =>
      have hne := hopen (by rw [hm]; decide)
      obtain ⟨h1, h2⟩ := effectStatusAfterSettlement_ne payload
      exact ⟨⟨h2, fun h => absurd h h1⟩, .inl ⟨hne, h1⟩⟩

theorem RecordEdit.counted_eq {r r' : BillingSettlement} (h : RecordEdit C s r r')
    (hr : r.effectStatus ≠ .applying ∧ (r.effectStatus = .applied → r.status = .applied)) :
    counter.counted host r' = counter.counted host r := by
  rcases (h.effect hr).2 with ⟨h1, h2⟩ | ⟨_, _, _, _, rfl⟩
  · rw [counted_of_ne h1, counted_of_ne h2]
  · cases counter <;> rfl

theorem EffectsSettled.change (h : Change A C s s') (hs : EffectsSettled s) :
    EffectsSettled s' := by
  intro r' hr'
  cases h with
  | createPending | createManual =>
      rcases Table.mem_insert hr' with hr | ⟨rfl, _⟩
      · exact hs r' hr
      · exact ⟨by simp [pendingRecord, manualRecord], by simp [pendingRecord, manualRecord]⟩
  | select | deleteToken => exact hs r' hr'
  | edit p dec m hedit =>
      dsimp only at hr'
      obtain ⟨r, hr, rfl⟩ := Table.mem_update.mp hr'
      split
      · next hp => exact ((hedit r hr hp).effect (hs r hr)).1
      · exact hs r hr
  | apply input now current applied appliedToken s' hA hC happ =>
      obtain ⟨r, hr, rfl⟩ := happ.mem_settlements.mp hr'
      split
      · exact ⟨(effectStatusAfterSettlement_ne _).2, fun _ => rfl⟩
      · exact hs r hr
  | effect record a effect now hC ha hc hu =>
      obtain ⟨r, hr, rfl⟩ := mem_setEffectStatus.mp hr'
      rw [countUsage_billingSettlements] at hr
      split
      · next hp => exact ⟨by simp [withEffectStatus], fun _ => hp.2.1⟩
      · exact hs r hr

/-! ### Every change but the processing of an effect -/

theorem countUsage_exists (record : BillingSettlement) (effect : BillingSettlementEffect) :
    (countUsage record effect s).users.keys = s.users.keys ∧
      (countUsage record effect s).channels.keys = s.channels.keys := by
  unfold countUsage addChannelUsage
  split_ifs
  · exact ⟨Table.keys_update, Table.keys_update⟩
  · exact ⟨Table.keys_update, rfl⟩
  · exact ⟨rfl, rfl⟩

/-- The channels are never added or removed. -/
theorem channels_keys_change (h : Change A C s s') : s'.channels.keys = s.channels.keys := by
  cases h with
  | apply input now current applied appliedToken s' hA hC happ =>
      obtain ⟨_, _, _, _, _, hchannels, _⟩ := happ.tables
      rw [hchannels]
  | effect record a effect now hC ha hc hu => exact (countUsage_exists record effect).2
  | _ => rfl

theorem Counter.Exists.change (hc : Change A C s s') (hs : Unposted s) (h : counter.Exists s) :
    counter.Exists s' := by
  cases counter with
  | userQuota k | userRequests k =>
      obtain ⟨u, hu, hk⟩ := h
      obtain ⟨u', hu', hk'⟩ := Table.mem_keys (users_keys_change hc hs) hu
      exact ⟨u', hu', Eq.trans hk' hk⟩
  | channelQuota k =>
      obtain ⟨hpos, c, hch, hk⟩ := h
      obtain ⟨c', hc', hk'⟩ := Table.mem_keys (channels_keys_change hc) hch
      exact ⟨hpos, c', hc', Eq.trans hk' hk⟩

/-- A change that processes no effect raises no counter. -/
theorem Counter.change (host : Host) (counter : Counter) (hc : Change A C s s') (hC : ¬ C .effect)
    (hs : EffectsSettled s) :
    counter.read s' = counter.read s ∧ counter.total host s' = counter.total host s := by
  cases hc with
  | createPending | createManual =>
      refine ⟨by cases counter <;> rfl, Table.sum_insert (counted_of_ne ?_)⟩
      simp [pendingRecord, manualRecord]
  | select | deleteToken => exact ⟨by cases counter <;> rfl, rfl⟩
  | edit p dec m hedit =>
      refine ⟨by cases counter <;> rfl, ?_⟩
      exact Table.sum_update_eq fun r hr hp => (hedit r hr hp).counted_eq (hs r hr)
  | apply input now current applied appliedToken s' hA hC happ =>
      obtain ⟨t, _, hf, husers, _, hchannels, _, _, hset⟩ := happ.tables
      constructor
      · have hread : ∀ g : User → ℤ, (∀ u q, g { u with quota := q } = g u) → ∀ k,
            s'.users.sumAt User.id k g = s.users.sumAt User.id k g := by
          intro g hg k
          rw [husers]
          cases hf with
          | wallet => exact Table.sumAt_update_eq (fun _ => rfl) fun u => hg u _
          | subscription _ hf => rw [hf.subscriptions.2]
        cases counter with
        | userQuota k => exact hread _ (fun _ _ => rfl) k
        | userRequests k => exact hread _ (fun _ _ => rfl) k
        | channelQuota k =>
            unfold Counter.read
            rw [hchannels]
      · unfold Counter.total
        rw [hset]
        refine Table.sum_update_eq fun r hr hp => ?_
        have hne : r.effectStatus ≠ .applied := by
          intro h
          have := (hs r hr).2 h
          rw [hp.2] at this
          exact absurd this (by decide)
        rw [counted_of_ne hne]
        exact counted_of_ne (effectStatusAfterSettlement_ne _).1
  | effect record a effect now hC' => exact absurd hC' hC

end counters

/-! ### Processing an effect -/

/-- What an attempt has read of a record and its effect still holds in the database. -/
def Snapshot (host : Host) (s : Tables) (record : BillingSettlement)
    (effect : BillingSettlementEffect) : Prop :=
  ∃ r ∈ s.billingSettlements, r.id = record.id ∧ r.operationKey = record.operationKey ∧
    r.status = .applied ∧ r.userID = record.userID ∧
    r.appliedFundingDelta = record.appliedFundingDelta ∧
    decodeBillingSettlementEffect host r.effectPayload = .ok (some effect)

section processing

variable {A : BillingSettlementInput → Prop} {C : ChangeKind → Prop} {host : Host}
variable {s s' : Tables} {counter : Counter} {record : BillingSettlement}
variable {effect : BillingSettlementEffect}

/-- The record of an applied settlement is not touched any more, but for its review fields and its
effect status. -/
theorem Change.applied_stays (h : Change A C s s') {r : BillingSettlement}
    (hr : r ∈ s.billingSettlements) (hst : r.status = .applied) :
    ∃ r' ∈ s'.billingSettlements, r'.id = r.id ∧ r'.operationKey = r.operationKey ∧
      r'.status = .applied ∧ r'.userID = r.userID ∧
      r'.appliedFundingDelta = r.appliedFundingDelta ∧ r'.effectPayload = r.effectPayload := by
  have hne : r.status ≠ .pending ∧ r.status ≠ .manual := by
    rw [hst]
    decide
  cases h with
  | createPending | createManual =>
      exact ⟨r, Table.mem_insert_of_mem hr, rfl, rfl, hst, rfl, rfl, rfl⟩
  | select | deleteToken => exact ⟨r, hr, rfl, rfl, hst, rfl, rfl, rfl⟩
  | edit p dec m hedit =>
      refine ⟨_, Table.mem_update.mpr ⟨r, hr, rfl⟩, ?_⟩
      by_cases hp : p r
      · rw [if_pos hp]
        have he := hedit r hr hp
        generalize m.set r = r' at he
        cases he with
        | failed _ _ _ _ hp => exact absurd hp hne.1
        | reviewed => exact ⟨rfl, rfl, hst, rfl, rfl, rfl⟩
        | reapproved _ _ _ _ hm => exact absurd hm hne.2
        | resolved _ _ _ _ _ hm => exact absurd hm hne.2
        | promoted _ _ _ _ _ _ hm => exact absurd hm hne.2
      · rw [if_neg hp]
        exact ⟨rfl, rfl, hst, rfl, rfl, rfl⟩
  | apply input now current applied appliedToken s' hA hC happ =>
      refine ⟨_, happ.mem_settlements.mpr ⟨r, hr, rfl⟩, ?_⟩
      rw [if_neg fun h => hne.1 h.2]
      exact ⟨rfl, rfl, hst, rfl, rfl, rfl⟩
  | effect record a effect now hC ha hc hu =>
      have hr' : r ∈ (countUsage record effect s).billingSettlements := by
        rw [countUsage_billingSettlements]
        exact hr
      refine ⟨_, mem_setEffectStatus.mpr ⟨r, hr', rfl⟩, ?_⟩
      split
      · exact ⟨rfl, rfl, hst, rfl, rfl, rfl⟩
      · exact ⟨rfl, rfl, hst, rfl, rfl, rfl⟩

theorem Snapshot.change (hc : Change A C s s') (h : Snapshot host s record effect) :
    Snapshot host s' record effect := by
  obtain ⟨r, hr, hid, hkey, hst, huser, hdelta, hdecode⟩ := h
  obtain ⟨r', hr', hid', hkey', hst', huser', hdelta', hpayload⟩ := hc.applied_stays hr hst
  exact ⟨r', hr', hid'.trans hid, hkey'.trans hkey, hst', huser'.trans huser,
    hdelta'.trans hdelta, hpayload ▸ hdecode⟩

/-- What the first reads of an attempt return is a snapshot. -/
theorem loadSettlementEffect_snapshot {operationKey : String}
    (h : (transaction (loadSettlementEffect host operationKey) s).1 = .ok (some (record, effect))) :
    Snapshot host s record effect := by
  rcases transaction_cases (loadSettlementEffect host operationKey) s with
    ⟨a, s', hok, ht⟩ | ⟨e, ht⟩
  · rw [ht] at h
    obtain rfl : a = some (record, effect) := by simpa using h
    simp only [loadSettlementEffect, Txn.ok_bind, Txn.ok_require, settlementByKey_ok] at hok
    obtain ⟨_, _, ⟨_, rfl⟩, r, _, ⟨hfirst, rfl⟩, hok⟩ := hok
    obtain ⟨hmem, _⟩ := Table.first?_mem hfirst
    rw [Txn.ok_ite] at hok
    rcases hok with ⟨_, hok⟩ | ⟨_, hok⟩
    · exact absurd (Txn.ok_pure.mp hok).1 (by simp)
    · simp only [Txn.ok_bind, Txn.ok_require, Txn.ok_ofExcept] at hok
      obtain ⟨_, _, ⟨⟨hst, _⟩, rfl⟩, decoded, _, ⟨hdecode, rfl⟩, hok⟩ := hok
      cases decoded with
      | none => exact absurd (Txn.ok_pure.mp hok).1 (by simp)
      | some effect' =>
          simp only [Txn.ok_bind, Txn.ok_require, Txn.ok_pure, Option.some.injEq,
            Prod.mk.injEq] at hok
          obtain ⟨_, _, _, ⟨rfl, rfl⟩, _⟩ := hok
          exact ⟨_, hmem, rfl, rfl, hst, rfl, rfl, hdecode⟩
  · rw [ht] at h
    simp at h

/-- The counters of an existing row grow by the share of the effect. -/
theorem countUsage_read (hex : counter.Exists s) :
    counter.read (countUsage record effect s) = counter.read s +
      if countsUsage record effect then counter.share record effect else 0 := by
  unfold countUsage
  split
  · cases counter with
    | userQuota k =>
        have h : (addUserUsage record.userID (effectQuota record effect) s).users.sumAt User.id k
            User.usedQuota = _ :=
          Table.sumAt_update (d := effectQuota record effect)
            (fun a ha b hb hab => Table.eq_of_clash ha hb hab) (fun _ => rfl) (fun _ => rfl)
            fun hk _ => hk ▸ hex
        unfold Counter.read addChannelUsage Counter.share
        dsimp only
        split
        · exact h
        · exact h
    | userRequests k =>
        have h : (addUserUsage record.userID (effectQuota record effect) s).users.sumAt User.id k
            User.requestCount = _ :=
          Table.sumAt_update (d := 1)
            (fun a ha b hb hab => Table.eq_of_clash ha hb hab) (fun _ => rfl) (fun _ => rfl)
            fun hk _ => hk ▸ hex
        unfold Counter.read addChannelUsage Counter.share
        dsimp only
        split
        · exact h
        · exact h
    | channelQuota k =>
        obtain ⟨hpos, hex⟩ := hex
        unfold Counter.read addChannelUsage Counter.share
        dsimp only
        split
        · exact Table.sumAt_update (d := effectQuota record effect)
            (fun a ha b hb hab => Table.eq_of_clash ha hb hab) (fun _ => rfl) (fun _ => rfl)
            fun hk _ => hk ▸ hex
        · next hneg =>
          rw [if_neg (by omega), add_zero]
          rfl
  · rw [add_zero]

/-- Processing an effect raises each counter by what the record then counts for. -/
theorem Counter.process (hex : counter.Exists s) (hsnap : Snapshot host s record effect)
    {r : BillingSettlement} (hr : r ∈ s.billingSettlements) (hc : claimable record r) (now : ℤ) :
    counter.read (setEffectStatus (claimable record) .applied now (countUsage record effect s)) -
        counter.total host
          (setEffectStatus (claimable record) .applied now (countUsage record effect s)) =
      counter.read s - counter.total host s := by
  obtain ⟨a, ha, hid, _, _, huser, hdelta, hdecode⟩ := hsnap
  obtain rfl : a = r := Table.eq_of_clash ha hr (.inl (hid.trans hc.1.symm))
  have hread : counter.read
      (setEffectStatus (claimable record) .applied now (countUsage record effect s)) =
      counter.read (countUsage record effect s) := by
    cases counter <;> rfl
  have hquota : effectQuota a effect = effectQuota record effect := by
    unfold effectQuota
    rw [hdelta]
  have hcounts : countsUsage a effect ↔ countsUsage record effect := by
    unfold countsUsage
    rw [hquota]
  have hdue : counter.due host a =
      if countsUsage record effect then counter.share record effect else 0 := by
    unfold Counter.due
    rw [hdecode]
    dsimp only
    simp only [hcounts]
    congr 1
    cases counter <;> simp only [Counter.share, hquota, huser]
  have htotal : counter.total host
      (setEffectStatus (claimable record) .applied now (countUsage record effect s)) =
      counter.total host s + counter.due host a := by
    unfold Counter.total setEffectStatus
    rw [countUsage_billingSettlements]
    rw [Table.sum_update_single hr hc fun b hb hcb =>
      Table.eq_of_clash hb hr (.inl (hcb.1.trans hc.1.symm))]
    rw [counted_of_ne (r := a) (by rw [hc.2.2]; decide), sub_zero]
    rfl
  rw [hread, countUsage_read hex, htotal, hdue]
  ring

end processing

/-! ### The log entry -/

/-- Every operation has one log entry at most, an entry has a receipt, and a receipt an applied
record. -/
structure LogsOnce (db : Tables) (logDb : LogTables) : Prop where
  nodup : (logDb.logs.map Prod.fst).Nodup
  receipt : ∀ e ∈ logDb.logs, ∃ c ∈ logDb.billingLogReceipts, c.operationKey = e.1
  applied : ∀ c ∈ logDb.billingLogReceipts, ∃ r ∈ db.billingSettlements,
    r.operationKey = c.operationKey ∧ r.status = .applied

section log

variable {A : BillingSettlementInput → Prop} {C : ChangeKind → Prop} {s s' : Tables}
variable {l l' : LogTables} {operationKey claimToken : String} {entry : Log} {now : ℤ} {u : PUnit}

/-- Under a fresh claim token the log step finds the receipt of another attempt and writes nothing,
or it writes the first receipt and the log entry. -/
theorem recordTaskBillingLogTx_ok (hfresh : ∀ c ∈ l.billingLogReceipts, c.claimToken ≠ claimToken)
    (h : (recordTaskBillingLogTx operationKey claimToken entry now).Ok l u l') :
    l' = l ∨ ((∀ c ∈ l.billingLogReceipts, c.operationKey ≠ operationKey) ∧
      l' = ⟨l.logs ++ [(operationKey, entry)],
        l.billingLogReceipts.insert ⟨operationKey, claimToken, now⟩⟩) := by
  simp only [recordTaskBillingLogTx, Txn.ok_bind, Txn.ok_modify, Txn.ok_get, Txn.ok_orThrow] at h
  obtain ⟨_, _, rfl, _, _, ⟨rfl, rfl⟩, stored, _, ⟨hfirst, rfl⟩, h⟩ := h
  obtain ⟨hmem, hkey⟩ := Table.first?_mem hfirst
  by_cases hex : ∃ c ∈ l.billingLogReceipts, c.operationKey = operationKey
  · obtain ⟨c, hc, hck⟩ := hex
    have hsame : l.billingLogReceipts.insert ⟨operationKey, claimToken, now⟩ =
        l.billingLogReceipts := Table.insert_of_clash hc hck
    dsimp only at hmem h
    rw [hsame] at hmem h
    rw [if_pos (hfresh stored hmem)] at h
    exact .inl (Txn.ok_pure.mp h).2.symm
  · have hfree : ∀ c ∈ l.billingLogReceipts, c.operationKey ≠ operationKey := fun c hc hck =>
      hex ⟨c, hc, hck⟩
    rcases Table.mem_insert hmem with hold | ⟨rfl, _⟩
    · exact absurd hkey (hfree stored hold)
    · rw [if_neg (by simp), Txn.ok_modify] at h
      exact .inr ⟨hfree, h.symm⟩

/-- The log step keeps the entries unique. -/
theorem LogsOnce.log (h : LogsOnce s l)
    (hfresh : ∀ c ∈ l.billingLogReceipts, c.claimToken ≠ claimToken)
    (happlied : ∃ r ∈ s.billingSettlements, r.operationKey = operationKey ∧ r.status = .applied)
    (hlog : (recordTaskBillingLogTx operationKey claimToken entry now).Ok l u l') :
    LogsOnce s l' := by
  rcases recordTaskBillingLogTx_ok hfresh hlog with rfl | ⟨hfree, rfl⟩
  · exact h
  · refine ⟨?_, ?_, ?_⟩
    · dsimp only
      rw [List.map_append, List.nodup_append]
      refine ⟨h.nodup, List.nodup_singleton _, ?_⟩
      intro k hk k' hk' hkk
      obtain ⟨e, he, rfl⟩ := List.mem_map.mp hk
      obtain ⟨c, hc, hck⟩ := h.receipt e he
      rw [List.map_singleton, List.mem_singleton] at hk'
      exact hfree c hc (hck.trans (hkk.trans hk'))
    · intro e he
      rcases List.mem_append.mp he with he | he
      · obtain ⟨c, hc, hck⟩ := h.receipt e he
        exact ⟨c, Table.mem_insert_of_mem hc, hck⟩
      · rw [List.mem_singleton.mp he]
        exact ⟨_, Table.mem_insert_self hfree, rfl⟩
    · intro c hc
      rcases Table.mem_insert hc with hc | ⟨rfl, _⟩
      · exact h.applied c hc
      · exact happlied

theorem LogsOnce.change (hc : Change A C s s') (h : LogsOnce s l) : LogsOnce s' l where
  nodup := h.nodup
  receipt := h.receipt
  applied c hmem := by
    obtain ⟨r, hr, hkey, hst⟩ := h.applied c hmem
    obtain ⟨r', hr', _, hkey', hst', _⟩ := hc.applied_stays hr hst
    exact ⟨r', hr', hkey'.trans hkey, hst'⟩

end log

/-! ### Every run -/

/-- What a call under way has read of an effect still holds. -/
def Call.Holds (host : Host) (s : Tables) : Call → Prop
  | .log record e => Snapshot host s record e
  | .usage record e => Snapshot host s record e
  | _ => True

/-- The state of a run that started with the counters of `s₀`. -/
structure EffectsInvariant (host : Host) (s₀ : Tables) (w : World) : Prop where
  unposted : Unposted w.db
  settled : EffectsSettled w.db
  counters : ∀ counter : Counter, counter.Exists s₀ → counter.Exists w.db ∧
    counter.read w.db - counter.total host w.db = counter.read s₀ - counter.total host s₀
  calls : ∀ c ∈ w.calls, c.Holds host w.db
  logs : LogsOnce w.db w.logDb

/-- Every counter is its initial value plus what the records with an applied effect contribute,
every operation has one log entry and one receipt at most, nothing has happened for a record whose
funding is not applied, and no effect is left half processed. -/
structure EffectsOnce (host : Host) (s₀ : Tables) (w : World) : Prop where
  users : ∀ u₀ ∈ s₀.users, ∃ u ∈ w.db.users, u.id = u₀.id ∧
    u.usedQuota = u₀.usedQuota + (Counter.userQuota u₀.id).total host w.db ∧
    u.requestCount = u₀.requestCount + (Counter.userRequests u₀.id).total host w.db
  channels : ∀ c₀ ∈ s₀.channels, 0 < c₀.id → ∃ c ∈ w.db.channels, c.id = c₀.id ∧
    c.usedQuota = c₀.usedQuota + (Counter.channelQuota c₀.id).total host w.db
  logs : (w.logDb.logs.map Prod.fst).Nodup
  receipts : (w.logDb.billingLogReceipts.rows.map (·.operationKey)).Nodup
  notBefore : ∀ r ∈ w.db.billingSettlements, r.status ≠ .applied →
    r.effectStatus ≠ .applied ∧ (∀ e ∈ w.logDb.logs, e.1 ≠ r.operationKey) ∧
      ∀ c ∈ w.logDb.billingLogReceipts, c.operationKey ≠ r.operationKey
  neverApplying : ∀ r ∈ w.db.billingSettlements, r.effectStatus ≠ .applying

section run

variable {host : Host} {w : World} {op : Op}

theorem Op.Kinds.effect (h : op.Kinds w .effect) : ∃ i now fault claimToken record effect,
    op = .proceed i now fault claimToken ∧ w.calls[i]? = some (.usage record effect) := by
  cases op with
  | proceed i now fault claimToken =>
      unfold Op.Kinds at h
      cases hcall : w.calls[i]? with
      | some call =>
          cases call with
          | usage record effect => exact ⟨i, now, fault, claimToken, record, effect, rfl, hcall⟩
          | _ => simp [hcall, Call.kind] at h
      | none => simp [hcall] at h
  | _ => simp [Op.Kinds] at h

theorem proceedStep_logDb (host : Host) (w : World) (i : ℕ) (now : ℤ) (fault : Fault)
    (claimToken : String) (call : Call) :
    (proceedStep host w i now fault claimToken call).logDb = w.logDb ∨
      ∃ record effect log u, call = .log record effect ∧
        (∀ c ∈ w.logDb.billingLogReceipts, c.claimToken ≠ claimToken) ∧
        (recordTaskBillingLogTx record.operationKey claimToken log now).Ok w.logDb u
          (proceedStep host w i now fault claimToken call).logDb := by
  cases call with
  | claim | mark | review | usage | done => exact .inl rfl
  | ensure input =>
      unfold proceedStep ensureStep
      dsimp only
      split
      · exact .inl rfl
      · split
        · exact .inl rfl
        · exact .inl rfl
  | settle input recordID =>
      unfold proceedStep settleStep
      dsimp only
      split
      · exact .inl rfl
      · exact .inl rfl
      · exact .inl rfl
      · exact .inl rfl
  | fail operationKey cause =>
      unfold proceedStep failStep
      dsimp only
      split
      · exact .inl rfl
      · split
        · exact .inl rfl
        · exact .inl rfl
  | effect operationKey =>
      unfold proceedStep effectStep
      dsimp only
      split
      · exact .inl rfl
      · exact .inl rfl
  | log record effect =>
      unfold proceedStep logStep
      dsimp only
      split
      · exact .inl rfl
      · next hfresh =>
        have hfresh : ∀ c ∈ w.logDb.billingLogReceipts, c.claimToken ≠ claimToken :=
          fun c hc hct => hfresh ⟨c, hc, hct⟩
        rcases transaction_cases
          (recordTaskBillingLogOnce host w.db record effect claimToken now) w.logDb with
          ⟨u, l, hok, ht⟩ | ⟨e, ht⟩
        · rw [ht]
          dsimp only [World.become]
          unfold recordTaskBillingLogOnce at hok
          rw [Txn.ok_ite, Txn.ok_ite] at hok
          rcases hok with ⟨_, ⟨_, hok⟩ | ⟨_, hok⟩⟩ | ⟨_, hok⟩
          · exact .inl (Txn.ok_pure.mp hok).2.symm
          · exact .inr ⟨record, effect, _, u, rfl, hfresh, hok⟩
          · exact .inl (Txn.ok_pure.mp hok).2.symm
        · rw [ht]
          exact .inl rfl

/-- The log database changes by the log step of a call only, under a fresh claim token. -/
theorem step_logDb (host : Host) (w : World) (op : Op) :
    (step host w op).logDb = w.logDb ∨ ∃ record effect claimToken log now u,
      .log record effect ∈ w.calls ∧
      (∀ c ∈ w.logDb.billingLogReceipts, c.claimToken ≠ claimToken) ∧
      (recordTaskBillingLogTx record.operationKey claimToken log now).Ok w.logDb u
        (step host w op).logDb := by
  cases op with
  | proceed i now fault claimToken =>
      cases hcall : w.calls[i]? with
      | some call =>
          rw [step_proceed host hcall]
          rcases proceedStep_logDb host w i now fault claimToken call with
            h | ⟨record, effect, log, u, rfl, hfresh, hok⟩
          · exact .inl h
          · exact .inr ⟨record, effect, claimToken, log, now, u, List.mem_of_getElem? hcall,
              hfresh, hok⟩
      | none =>
          rw [step_proceed_none host hcall]
          exact .inl rfl
  | review id reviewerID blockUser note =>
      unfold step
      dsimp only
      split
      · exact .inl rfl
      · exact .inl rfl
  | _ => exact .inl rfl

theorem EffectsInvariant.counters_step {s₀ : Tables} (h : EffectsInvariant host s₀ w) (op : Op)
    {counter : Counter} (hex : counter.Exists s₀) :
    counter.Exists (step host w op).db ∧
      counter.read (step host w op).db - counter.total host (step host w op).db =
        counter.read s₀ - counter.total host s₀ := by
  obtain ⟨hexw, hlaw⟩ := h.counters counter hex
  obtain ⟨kind, hk, hc⟩ := step_changes_any host w op
  have hexw' : counter.Exists (step host w op).db :=
    (hc.preserve (P := fun s => Unposted s ∧ counter.Exists s)
      (fun hc ⟨hs, he⟩ => ⟨hs.change hc, he.change hc hs⟩) ⟨h.unposted, hexw⟩).2
  refine ⟨hexw', ?_⟩
  by_cases hkind : kind = .effect
  · -- the effect is processed on what its call has read
    rw [hkind] at hk
    obtain ⟨i, now, fault, claimToken, record, effect, rfl, hcall⟩ := hk.effect
    have hsnap : Snapshot host w.db record effect := h.calls _ (List.mem_of_getElem? hcall)
    rw [step_proceed host hcall]
    rcases transaction_cases (processBillingSettlementEffectTx record effect now) w.db with
      ⟨u, s', hok, ht⟩ | ⟨e, ht⟩
    · have hdb : (proceedStep host w i now fault claimToken (.usage record effect)).db = s' :=
        congrArg Prod.snd ht
      rw [hdb]
      rcases processBillingSettlementEffectTx_ok hok with rfl | ⟨r, hr, hcl, _, rfl⟩
      · exact hlaw
      · exact (Counter.process hexw hsnap hr hcl now).trans hlaw
    · have hdb : (proceedStep host w i now fault claimToken (.usage record effect)).db = w.db :=
        congrArg Prod.snd ht
      rw [hdb]
      exact hlaw
  · have hC : ¬ kind.orCreation .effect := by
      rintro (he | he)
      · exact absurd he (by decide)
      · exact hkind he.symm
    exact (hc.preserve (P := fun s => EffectsSettled s ∧ counter.read s - counter.total host s =
        counter.read s₀ - counter.total host s₀)
      (fun hc ⟨hs, hl⟩ => by
        obtain ⟨h1, h2⟩ := Counter.change host counter hc hC hs
        exact ⟨hs.change hc, by rw [h1, h2, hl]⟩) ⟨h.settled, hlaw⟩).2

/-- What the calls under way have read is still true after a step. -/
theorem step_holds (h : ∀ c ∈ w.calls, c.Holds host w.db) (op : Op) :
    ∀ c ∈ (step host w op).calls, c.Holds host (step host w op).db := by
  obtain ⟨_, _, hc⟩ := step_changes_any host w op
  have hkeep : ∀ c : Call, c.Holds host w.db → c.Holds host (step host w op).db := by
    intro c hold
    cases c with
    | log record effect => exact hc.preserve Snapshot.change hold
    | usage record effect => exact hc.preserve Snapshot.change hold
    | _ => trivial
  intro c hmem
  apply hkeep
  rcases step_calls hmem with hmem | hstart | rfl | ⟨call, hcall, hnext⟩
  · exact h c hmem
  · cases hstart with
    | apply | effect | review => trivial
    | replay now record hdue =>
        unfold runnerCall
        split
        · trivial
        · trivial
  · trivial
  · have hold := h call hcall
    cases hnext with
    | ends | claims | settles | fails | marks => trivial
    | logs operationKey record effect hload => exact loadSettlementEffect_snapshot hload
    | counts => exact hold

theorem EffectsInvariant.step {s₀ : Tables} (h : EffectsInvariant host s₀ w) (op : Op) :
    EffectsInvariant host s₀ (step host w op) where
  unposted := by
    obtain ⟨_, _, hc⟩ := step_changes_any host w op
    exact hc.preserve (fun hc hs => Unposted.change hc hs) h.unposted
  settled := by
    obtain ⟨_, _, hc⟩ := step_changes_any host w op
    exact hc.preserve EffectsSettled.change h.settled
  counters counter hex := h.counters_step op hex
  calls := step_holds h.calls op
  logs := by
    obtain ⟨_, _, hc⟩ := step_changes_any host w op
    have hlogs : LogsOnce w.db (Settlement.step host w op).logDb := by
      rcases step_logDb host w op with
        hl | ⟨record, effect, claimToken, log, now, u, hcall, hfresh, hok⟩
      · rw [hl]
        exact h.logs
      · obtain ⟨r, hr, _, hkey, hst, _⟩ := h.calls _ hcall
        exact h.logs.log hfresh ⟨r, hr, hkey, hst⟩ hok
    exact hc.preserve LogsOnce.change hlogs

theorem Counter.total_eq_zero {s : Tables} (h : s.billingSettlements = .empty)
    (counter : Counter) : counter.total host s = 0 := by
  unfold Counter.total
  rw [h]
  rfl

theorem EffectsInvariant.effectsOnce {s₀ : Tables} (h : EffectsInvariant host s₀ w)
    (h₀ : s₀.billingSettlements = .empty) : EffectsOnce host s₀ w where
  users u₀ hu₀ := by
    obtain ⟨⟨u, hu, hid⟩, hquota⟩ := h.counters (.userQuota u₀.id) ⟨u₀, hu₀, rfl⟩
    obtain ⟨_, hrequests⟩ := h.counters (.userRequests u₀.id) ⟨u₀, hu₀, rfl⟩
    refine ⟨u, hu, hid, ?_⟩
    rw [Counter.total_eq_zero h₀] at hquota hrequests
    unfold Counter.read at hquota hrequests
    dsimp only at hquota hrequests
    rw [users_sumAt hu₀, ← hid, users_sumAt hu] at hquota hrequests
    rw [← hid]
    constructor
    · omega
    · omega
  channels c₀ hc₀ hpos := by
    obtain ⟨⟨_, c, hc, hid⟩, hquota⟩ := h.counters (.channelQuota c₀.id) ⟨hpos, c₀, hc₀, rfl⟩
    refine ⟨c, hc, hid, ?_⟩
    rw [Counter.total_eq_zero h₀] at hquota
    unfold Counter.read at hquota
    dsimp only at hquota
    rw [channels_sumAt hc₀, ← hid, channels_sumAt hc] at hquota
    rw [← hid]
    omega
  logs := h.logs.nodup
  receipts := List.pairwise_map.mpr w.logDb.billingLogReceipts.distinct
  notBefore r hr hst := by
    have hreceipt : ∀ c ∈ w.logDb.billingLogReceipts, c.operationKey ≠ r.operationKey := by
      intro c hc hkey
      obtain ⟨a, ha, hak, hast⟩ := h.logs.applied c hc
      obtain rfl : a = r := Table.eq_of_clash ha hr (.inr (hak.trans hkey))
      exact hst hast
    refine ⟨fun he => hst ((h.settled r hr).2 he), fun e he hkey => ?_, hreceipt⟩
    obtain ⟨c, hc, hck⟩ := h.logs.receipt e he
    exact hreceipt c hc (hck.trans hkey)
  neverApplying r hr := (h.settled r hr).1

/-- **Settlement effects exactly once.**  However many attempts process the effects of a store, in
whatever order, and wherever they crash: every counter is raised once by every record whose effect
is applied and by no other, and an operation has one log entry at most. -/
theorem effects_once (host : Host) (w : World) (h₀ : w.db.billingSettlements = .empty)
    (hlog : w.logDb = .empty) (hcalls : w.calls = []) (ops : List Op) :
    EffectsOnce host w.db (runs host w ops) := by
  have hempty : ∀ r, r ∉ w.db.billingSettlements := by
    intro r hr
    rw [h₀] at hr
    cases hr
  have hstart : EffectsInvariant host w.db w := by
    refine ⟨fun r hr => absurd hr (hempty r), fun r hr => absurd hr (hempty r),
      fun counter hex => ⟨hex, rfl⟩, ?_, ?_⟩
    · rw [hcalls]
      intro c hc
      cases hc
    · rw [hlog]
      refine ⟨List.nodup_nil, ?_, ?_⟩
      · intro e he
        cases he
      · intro c hc
        cases hc
  exact (Transition.run_invariant (I := EffectsInvariant host w.db) (Settlement.step host)
    (fun v op hv => hv.step op) ops w hstart).effectsOnce h₀

/-- The charge is applied and two workers race for its effect; both pass the log step, and the one
that claims the effect last finds it gone. -/
def demoEffects : List Op :=
  [.apply (demoCharge 30), .proceed 0 1 .none "", .proceed 0 2 .none "",
    .processEffect "request:r:finalize", .effectRunner,
    .proceed 1 3 .none "", .proceed 2 3 .none "", .proceed 1 4 .none "a", .proceed 2 4 .none "b",
    .proceed 2 5 .none "", .proceed 1 6 .none ""]

/-- The race logs and counts the charge once. -/
theorem effects_once_demoEffects :
    EffectsOnce (plainHost demoEffect) demoWorld.db
        (runs (plainHost demoEffect) demoWorld demoEffects) ∧
      (runs (plainHost demoEffect) demoWorld demoEffects).db.users.rows.map
        (fun u => (u.usedQuota, u.requestCount)) = [(30, 1)] ∧
      (runs (plainHost demoEffect) demoWorld demoEffects).logDb.logs.length = 1 :=
  ⟨effects_once (plainHost demoEffect) demoWorld rfl rfl rfl demoEffects, by decide, by decide⟩

end run

end MaxApi.Settlement
