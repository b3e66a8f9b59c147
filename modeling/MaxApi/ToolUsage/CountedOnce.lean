import MaxApi.ToolUsage.Records
import Mathlib.Data.Set.Card

/-! # Tool usage: each call is counted once

Over the ledger stands the log of an attempt: its observations, nothing else.  Aliases are the
vertices of a graph and the observations its edges, and the calls of a tool are the components all
of whose observations are of that tool.  The ledger's records are these components
(`Accounts`). -/

namespace MaxApi.ToolUsage

open Components

/-! ### The log of an attempt -/

/-- What was observed in the current attempt before its commit. -/
structure AttemptLog where
  started : Bool
  attempt : ℤ
  committed : Bool
  observations : List Observation

namespace AttemptLog

def empty : AttemptLog := ⟨false, 0, false, []⟩

def step (prices : ToolPriceSnapshot) (log : AttemptLog) : Op → AttemptLog
  | .beginAttempt attempt =>
      if log.started ∧ log.attempt = attempt then log else ⟨true, attempt, false, []⟩
  | .observe kind name identity =>
      match considered prices kind name identity with
      | none => log
      | some observation =>
          if log.committed then log
          else { log with started := true, observations := log.observations ++ [observation] }
  | .commitAttempt attempt =>
      if log.started ∧ log.attempt = attempt then { log with committed := true } else log
  | .snapshot => log

/-- The log after a list of operations. -/
def after (prices : ToolPriceSnapshot) (ops : List Op) : AttemptLog :=
  Transition.run (step prices) empty ops

/-- The calls of a custom tool. -/
def calls (log : AttemptLog) (name : String) : Set (Set String) :=
  cells log.observations (name, ToolUsageKind.custom)

/-- The logs differ at most in the order of the observations and in how often each comes. -/
structure Alike (log log' : AttemptLog) : Prop where
  started : log.started = log'.started
  attempt : log.attempt = log'.attempt
  committed : log.committed = log'.committed
  observations : ∀ o, o ∈ log.observations ↔ o ∈ log'.observations

end AttemptLog

/-! ### Records are components -/

/-- The records are the pure components, and the tombstones the spoiled vertices. -/
structure Accounts (l : ToolUsageLedger) (observations : List Observation) : Prop where
  record_iff : ∀ label C, C ∈ cells observations label ↔
    ∃ recordID record, l.records.lookup recordID = some record ∧
      (record.name, record.kind) = label ∧ C = {a | a ∈ record.aliases}
  ambiguous_iff : ∀ a, a ∈ l.ambiguous ↔ a ∈ spoiled observations
  indexed : l.Indexed
  numbered : l.Numbered

section accounts

variable {l : ToolUsageLedger} {observations : List Observation} {observation : Observation}

theorem Accounts.empty {l : ToolUsageLedger} (hrecords : l.records = ∅) (haliases : l.aliases = ∅)
    (hambiguous : l.ambiguous = ∅) : Accounts l [] := by
  have hnone : ∀ i, l.records.lookup i = none := fun i => by
    rw [hrecords]
    exact AList.lookup_empty i
  refine ⟨fun label C => ?_, fun a => ?_, fun a i => ?_, fun i record h => ?_⟩
  · refine iff_of_false ?_ ?_
    · rintro ⟨a, ⟨e, he, -⟩, -⟩
      exact absurd he List.not_mem_nil
    · rintro ⟨i, record, h, -⟩
      rw [hnone i] at h
      exact nomatch h
  · rw [hambiguous]
    refine iff_of_false (Finset.notMem_empty a) ?_
    rintro ⟨⟨e, he, -⟩, -⟩
    exact absurd he List.not_mem_nil
  · rw [haliases, AList.lookup_empty]
    exact iff_of_false nofun (ToolUsageLedger.not_holds (hnone i))
  · rw [hnone i] at h
    exact nomatch h

/-- A component that the observation touches is a matched record. -/
theorem Accounts.touched (h : Accounts l observations) {recordID : ℕ} {record : ToolUsageRecord}
    (hrecord : l.records.lookup recordID = some record) {aliases : List String} :
    (∃ x ∈ aliases, x ∈ {a | a ∈ record.aliases}) ↔ recordID ∈ l.matchedRecords aliases := by
  rw [ToolUsageLedger.mem_matchedRecords h.indexed]
  exact exists_congr fun x => and_congr_right fun _ => (ToolUsageLedger.holds_iff hrecord).symm

/-- What the observation touches is held by the matched records. -/
theorem Accounts.reached (h : Accounts l observations) {aliases : List String} {a : String} :
    (∃ label, ∃ C ∈ cells observations label, a ∈ C ∧ ∃ x ∈ aliases, x ∈ C) ↔
      ∃ i ∈ l.matchedRecords aliases, l.Holds i a := by
  constructor
  · rintro ⟨label, C, hC, ha, hx⟩
    obtain ⟨i, record, hrecord, -, rfl⟩ := (h.record_iff label C).mp hC
    exact ⟨i, (h.touched hrecord).mp hx, record, hrecord, ha⟩
  · rintro ⟨i, hi, record, hrecord, ha⟩
    exact ⟨_, _, (h.record_iff _ _).mpr ⟨i, record, hrecord, rfl, rfl⟩, ha,
      (h.touched hrecord).mpr hi⟩

theorem Accounts.clashes (h : Accounts l observations) :
    l.Clashes observation ↔ Conflict observations observation := by
  unfold ToolUsageLedger.Clashes Conflict
  refine or_congr (exists_congr fun a => and_congr_right fun _ => h.ambiguous_iff a) ?_
  constructor
  · rintro ⟨i, hi, hdiffers⟩
    obtain ⟨a, ha, record, hrecord, har⟩ := (ToolUsageLedger.mem_matchedRecords h.indexed).mp hi
    refine ⟨_, _, (h.record_iff _ _).mpr ⟨i, record, hrecord, rfl, rfl⟩, ⟨a, ha, har⟩, ?_⟩
    intro hlabel
    rcases hdiffers record hrecord with hname | hkind
    · exact hname (congrArg Prod.fst hlabel)
    · exact hkind (congrArg Prod.snd hlabel)
  · rintro ⟨label, C, hC, hx, hne⟩
    obtain ⟨i, record, hrecord, rfl, rfl⟩ := (h.record_iff label C).mp hC
    refine ⟨i, (h.touched hrecord).mp hx, fun r hr => ?_⟩
    rw [hrecord] at hr
    rw [← Option.some.inj hr]
    by_contra hsame
    obtain ⟨hname, hkind⟩ := not_or.mp hsame
    exact hne (Prod.ext (not_not.mp hname) (not_not.mp hkind))

/-- A clash spoils the components that the observation touches. -/
theorem Accounts.invalidate (h : Accounts l observations)
    (hconflict : Conflict observations observation) :
    Accounts ((l.invalidateAll (l.matchedRecords observation.vertices)).tombstone
      observation.vertices) (observations ++ [observation]) := by
  have hlookup : ∀ i, (l.invalidateAll (l.matchedRecords observation.vertices)).records.lookup i =
      if i ∈ l.matchedRecords observation.vertices then none else l.records.lookup i :=
    fun i => ToolUsageLedger.invalidateAll_lookup
  have hsome : ∀ {i record},
      (l.invalidateAll (l.matchedRecords observation.vertices)).records.lookup i = some record ↔
        i ∉ l.matchedRecords observation.vertices ∧ l.records.lookup i = some record := by
    intro i record
    rw [hlookup i]
    by_cases hi : i ∈ l.matchedRecords observation.vertices
    · rw [if_pos hi]
      exact iff_of_false nofun fun h => h.1 hi
    · rw [if_neg hi]
      exact (and_iff_right hi).symm
  refine ⟨fun label C => ?_, fun a => ?_, ?_, fun i record hrecord => ?_⟩
  · rw [cells_concat_conflict hconflict, h.record_iff]
    constructor
    · rintro ⟨⟨i, record, hrecord, hlabel, rfl⟩, hx⟩
      refine ⟨i, record, hsome.mpr ⟨fun hi => ?_, hrecord⟩, hlabel, rfl⟩
      obtain ⟨x, hxo, hxr⟩ := (h.touched hrecord).mpr hi
      exact hx x hxo hxr
    · rintro ⟨i, record, hrecord, hlabel, rfl⟩
      obtain ⟨hi, hrecord⟩ := hsome.mp hrecord
      exact ⟨⟨i, record, hrecord, hlabel, rfl⟩,
        fun x hxo hxr => hi ((h.touched hrecord).mp ⟨x, hxo, hxr⟩)⟩
  · show a ∈ (l.invalidateAll _).ambiguous ∪ observation.vertices.toFinset ↔ _
    rw [spoiled_concat_conflict hconflict, Finset.mem_union, List.mem_toFinset,
      ToolUsageLedger.invalidateAll_ambiguous, h.ambiguous_iff, h.reached, or_assoc]
    exact or_congr_right or_comm
  · refine ToolUsageLedger.tombstone_indexed (ToolUsageLedger.invalidateAll_indexed h.indexed) ?_
    rintro a ha i ⟨record, hrecord, har⟩
    obtain ⟨hi, hrecord⟩ := hsome.mp hrecord
    exact hi ((h.touched hrecord).mp ⟨a, ha, har⟩)
  · show 0 < i ∧ i ≤ (l.invalidateAll _).nextRecordID
    rw [ToolUsageLedger.invalidateAll_frame.2]
    exact h.numbered i record (hsome.mp hrecord).2

/-- Without a clash the observation joins the components that it touches. -/
theorem Accounts.join (h : Accounts l observations)
    (hpure : ¬Conflict observations observation) (hne : observation.vertices ≠ [])
    {l' : ToolUsageLedger} {primary : ℕ} (hjoined : l.Joined l' observation primary) :
    Accounts l' (observations ++ [observation]) := by
  obtain ⟨joint, hjoint, hlabel, haliases⟩ := hjoined.joint
  have hmeets : {b | Meets observations observation b} = {a | a ∈ joint.aliases} := by
    ext b
    show Meets observations observation b ↔ b ∈ joint.aliases
    rw [meets_iff, h.reached, haliases b]
    refine or_congr_right (or_iff_right ?_)
    rintro ⟨x, hx, hspoiled, -⟩
    exact hpure (.inl ⟨x, hx, hspoiled⟩)
  have hsome : ∀ {i record}, i ≠ primary → (l'.records.lookup i = some record ↔
      i ∉ l.matchedRecords observation.vertices ∧ l.records.lookup i = some record) := by
    intro i record hi
    rw [hjoined.others i hi]
    by_cases hmem : i ∈ l.matchedRecords observation.vertices
    · rw [if_pos hmem]
      exact iff_of_false nofun fun h => h.1 hmem
    · rw [if_neg hmem]
      exact (and_iff_right hmem).symm
  refine ⟨fun label C => ?_, fun a => ?_, hjoined.indexed, fun i record hrecord => ?_⟩
  · rw [cells_concat_pure hpure hne, h.record_iff, hmeets]
    constructor
    · rintro (⟨⟨i, record, hrecord, hname, rfl⟩, hx⟩ | ⟨rfl, rfl⟩)
      · have hi : i ∉ l.matchedRecords observation.vertices := fun hi => by
          obtain ⟨x, hxo, hxr⟩ := (h.touched hrecord).mpr hi
          exact hx x hxo hxr
        have hprimary : i ≠ primary := by
          rintro rfl
          exact hi (hjoined.fresh record hrecord)
        exact ⟨i, record, (hsome hprimary).mpr ⟨hi, hrecord⟩, hname, rfl⟩
      · exact ⟨primary, joint, hjoint, hlabel, rfl⟩
    · rintro ⟨i, record, hrecord, hname, rfl⟩
      by_cases hi : i = primary
      · rw [hi, hjoint] at hrecord
        obtain rfl := Option.some.inj hrecord
        exact .inr ⟨hname.symm.trans hlabel, rfl⟩
      · obtain ⟨hmem, hrecord⟩ := (hsome hi).mp hrecord
        exact .inl ⟨⟨i, record, hrecord, hname, rfl⟩,
          fun x hxo hxr => hmem ((h.touched hrecord).mp ⟨x, hxo, hxr⟩)⟩
  · rw [spoiled_concat_pure hpure, hjoined.ambiguous]
    exact h.ambiguous_iff a
  · by_cases hi : i = primary
    · rw [hi]
      exact ⟨hjoined.positive, hjoined.bounded.1⟩
    · obtain ⟨hpos, hle⟩ := h.numbered i record ((hsome hi).mp hrecord).2
      exact ⟨hpos, hle.trans hjoined.bounded.2⟩

/-- **Observations.** The records stay the components. -/
theorem Accounts.record (h : Accounts l observations) (hne : observation.vertices ≠ []) :
    Accounts (l.record observation).1 (observations ++ [observation]) ∧
      (l.record observation).1.frame = l.frame := by
  rcases ToolUsageLedger.record_cases observation h.indexed h.numbered with
    ⟨hclash, heq⟩ | ⟨hclash, primary, hjoined⟩
  · rw [heq]
    exact ⟨h.invalidate (h.clashes.mp hclash), ToolUsageLedger.invalidateAll_frame.1⟩
  · exact ⟨h.join (fun hconflict => hclash (h.clashes.mpr hconflict)) hne hjoined, hjoined.frame⟩

end accounts

/-! ### Runs -/

section runs

variable {modelName : String} {prices : ToolPriceSnapshot} {l : ToolUsageLedger} {log : AttemptLog}

theorem considered_vertices {kind : ToolUsageKind} {name : String} {identity : ToolCallIdentity}
    {observation : Observation} (h : considered prices kind name identity = some observation) :
    observation.vertices ≠ [] := by
  unfold considered at h
  dsimp only at h
  generalize Text.trimSpace identity.scope = scope at h
  generalize Text.trimSpace identity.callID = callID at h
  generalize Text.trimSpace identity.position = position at h
  split_ifs at h with hname hreserved hprice hidentity
  obtain rfl := Option.some.inj h
  unfold callAliases
  dsimp only
  intro hnil
  obtain ⟨hid, hposition⟩ := List.append_eq_nil_iff.mp hnil
  by_cases hcallID : callID = ""
  · by_cases hpos : position = ""
    · exact hidentity (.inr ⟨hcallID, hpos⟩)
    · rw [if_pos hpos] at hposition
      exact List.cons_ne_nil _ _ hposition
  · rw [if_pos hcallID] at hid
    exact List.cons_ne_nil _ _ hid

/-- The ledger has the accounts of the log. -/
structure Tracks (modelName : String) (prices : ToolPriceSnapshot) (l : ToolUsageLedger)
    (log : AttemptLog) : Prop where
  frame : l.frame = (modelName, prices, log.attempt, log.started, log.committed)
  accounts : Accounts l log.observations
  idle : log.started = false → log = AttemptLog.empty

theorem Tracks.fields (h : Tracks modelName prices l log) : l.modelName = modelName ∧
    l.prices = prices ∧ l.attempt = log.attempt ∧ l.attemptStarted = log.started ∧
    l.committed = log.committed := by
  have hframe := h.frame
  unfold ToolUsageLedger.frame at hframe
  simpa only [Prod.mk.injEq] using hframe

theorem Tracks.beginAttempt (h : Tracks modelName prices l log) (attempt : ℤ) :
    Tracks modelName prices (l.beginAttempt attempt)
      (AttemptLog.step prices log (.beginAttempt attempt)) := by
  obtain ⟨hmodel, hprices, hattempt, hstarted, -⟩ := h.fields
  unfold ToolUsageLedger.beginAttempt AttemptLog.step
  dsimp only
  rw [hattempt, hstarted]
  by_cases hsame : log.started = true ∧ log.attempt = attempt
  · rw [if_pos hsame, if_pos hsame]
    exact h
  · rw [if_neg hsame, if_neg hsame]
    refine ⟨?_, Accounts.empty rfl rfl rfl, nofun⟩
    unfold ToolUsageLedger.frame
    rw [hmodel, hprices]

theorem Tracks.commitAttempt (h : Tracks modelName prices l log) (attempt : ℤ) :
    Tracks modelName prices (l.commitAttempt attempt)
      (AttemptLog.step prices log (.commitAttempt attempt)) := by
  obtain ⟨hmodel, hprices, hattempt, hstarted, -⟩ := h.fields
  unfold ToolUsageLedger.commitAttempt AttemptLog.step
  dsimp only
  rw [hattempt, hstarted]
  by_cases hsame : log.started = true ∧ log.attempt = attempt
  · have hno : ¬(log.started = false ∨ log.attempt ≠ attempt) := by
      rintro (hidle | hother)
      · rw [hsame.1] at hidle
        exact absurd hidle (by decide)
      · exact hother hsame.2
    rw [if_neg hno, if_pos hsame]
    refine ⟨?_, ⟨h.accounts.record_iff, h.accounts.ambiguous_iff, h.accounts.indexed,
      h.accounts.numbered⟩, fun hidle => ?_⟩
    · unfold ToolUsageLedger.frame
      rw [hmodel, hprices]
    · rw [hsame.1] at hidle
      exact absurd hidle (by decide)
  · have hno : log.started = false ∨ log.attempt ≠ attempt := by
      cases hs : log.started with
      | false => exact .inl rfl
      | true => exact .inr fun ha => hsame ⟨hs, ha⟩
    rw [if_pos hno, if_neg hsame]
    exact h

theorem Tracks.observe (h : Tracks modelName prices l log) (kind : ToolUsageKind) (name : String)
    (identity : ToolCallIdentity) :
    Tracks modelName prices (l.observe kind name identity).1
      (AttemptLog.step prices log (.observe kind name identity)) := by
  obtain ⟨hmodel, hprices, hattempt, hstarted, hcommitted⟩ := h.fields
  unfold ToolUsageLedger.observe AttemptLog.step
  dsimp only
  rw [hprices]
  cases hconsidered : considered prices kind name identity with
  | none => exact h
  | some observation =>
      have hne := considered_vertices hconsidered
      dsimp only
      cases hs : log.started with
      | true =>
          have hsame : (if l.attemptStarted = true then l else l.beginAttempt 0) = l :=
            if_pos (hstarted.trans hs)
          rw [hsame, hcommitted]
          cases hc : log.committed with
          | true => exact h
          | false =>
              rw [if_neg (by decide), if_neg (by decide)]
              obtain ⟨haccounts, hframe⟩ := h.accounts.record hne
              refine ⟨hframe.trans (h.frame.trans ?_), haccounts, nofun⟩
              rw [hs, hc]
      | false =>
          rw [hs] at hstarted
          obtain rfl := h.idle hs
          have hfirst : (if l.attemptStarted = true then l else l.beginAttempt 0) =
              l.beginAttempt 0 := if_neg fun h => absurd (hstarted.symm.trans h) (by decide)
          have hbegin : l.beginAttempt 0 =
              { l with
                attempt := 0
                attemptStarted := true
                committed := false
                nextRecordID := 0
                records := ∅
                aliases := ∅
                ambiguous := ∅ } := by
            unfold ToolUsageLedger.beginAttempt
            rw [if_neg fun h => absurd (hstarted.symm.trans h.1) (by decide)]
          have hcommitted : (l.beginAttempt 0).committed = false := by rw [hbegin]
          have hempty : Accounts (l.beginAttempt 0) [] := by
            rw [hbegin]
            exact Accounts.empty rfl rfl rfl
          have hframe : (l.beginAttempt 0).frame = (modelName, prices, 0, true, false) := by
            rw [hbegin, ← hmodel, ← hprices]
            rfl
          rw [hfirst, hcommitted, if_neg (by decide), if_neg (by decide)]
          obtain ⟨haccounts, hframe'⟩ := hempty.record hne
          exact ⟨hframe'.trans hframe, haccounts, nofun⟩

theorem Tracks.step (h : Tracks modelName prices l log) (op : Op) :
    Tracks modelName prices (ToolUsage.step l op) (AttemptLog.step prices log op) := by
  cases op with
  | beginAttempt attempt => exact h.beginAttempt attempt
  | observe kind name identity => exact h.observe kind name identity
  | commitAttempt attempt => exact h.commitAttempt attempt
  | snapshot => exact h

theorem tracks_run (modelName : String) (prices : ToolPriceSnapshot) (ops : List Op) :
    Tracks modelName prices (Transition.run step (newToolUsageLedger modelName prices) ops)
      (AttemptLog.after prices ops) := by
  have hrun : ∀ (ops : List Op) (l : ToolUsageLedger) (log : AttemptLog),
      Tracks modelName prices l log →
      Tracks modelName prices (Transition.run ToolUsage.step l ops)
        (Transition.run (AttemptLog.step prices) log ops) := by
    intro ops
    induction ops with
    | nil => exact fun l log h => h
    | cons op ops ih => exact fun l log h => ih _ _ (h.step op)
  exact hrun ops _ _ ⟨rfl, Accounts.empty rfl rfl rfl, fun _ => rfl⟩

end runs

/-! ### Snapshots -/

section snapshots

variable {l : ToolUsageLedger} {observations : List Observation}

/-- The entries of the records of a custom tool. -/
def customEntries (l : ToolUsageLedger) (name : String) :
    List (Sigma fun _ : ℕ => ToolUsageRecord) :=
  l.records.entries.filter fun entry => entry.2.kind = .custom ∧ entry.2.name = name

theorem count_customNames (l : ToolUsageLedger) (name : String) :
    l.customNames.count name = (customEntries l name).length := by
  unfold ToolUsageLedger.customNames customEntries
  induction l.records.entries with
  | nil => rfl
  | cons entry entries ih =>
      rw [List.filterMap_cons, List.filter_cons]
      by_cases hkind : entry.2.kind = .custom
      · by_cases hname : entry.2.name = name
        · simp [hkind, hname, ih]
        · simp [hkind, hname, ih]
      · simp [hkind, ih]

/-- The calls of a name are as many as its records. -/
theorem Accounts.encard (h : Accounts l observations) (name : String) :
    (cells observations (name, ToolUsageKind.custom)).encard = l.customNames.count name := by
  classical
  have hmem : ∀ entry, entry ∈ customEntries l name ↔
      l.records.lookup entry.1 = some entry.2 ∧ entry.2.kind = .custom ∧ entry.2.name = name := by
    intro entry
    unfold customEntries
    rw [List.mem_filter, decide_eq_true_eq]
    exact and_congr_left fun _ => AList.mem_lookup_iff.symm
  have hcells : cells observations (name, ToolUsageKind.custom) =
      ((customEntries l name).map fun entry => {a | a ∈ entry.2.aliases}).toFinset := by
    ext C
    rw [h.record_iff, List.coe_toFinset, Set.mem_ofPred_eq, List.mem_map]
    constructor
    · rintro ⟨i, record, hrecord, hlabel, rfl⟩
      obtain ⟨hname, hkind⟩ := Prod.mk.inj hlabel
      exact ⟨⟨i, record⟩, (hmem _).mpr ⟨hrecord, hkind, hname⟩, rfl⟩
    · rintro ⟨⟨i, record⟩, hentry, rfl⟩
      obtain ⟨hrecord, hkind, hname⟩ := (hmem _).mp hentry
      exact ⟨i, record, hrecord, Prod.ext hname hkind, rfl⟩
  have hnodup : ((customEntries l name).map fun entry => {a | a ∈ entry.2.aliases}).Nodup := by
    refine List.Nodup.map_on ?_ (l.records.nodupKeys.nodup.filter _)
    rintro ⟨i, record⟩ hi ⟨j, record'⟩ hj heq
    obtain ⟨hrecord, hkind, hname⟩ := (hmem _).mp hi
    obtain ⟨hrecord', -, -⟩ := (hmem _).mp hj
    dsimp only at hrecord hrecord' heq
    obtain ⟨a, ha⟩ := cells_nonempty ((h.record_iff (record.name, record.kind) _).mpr
      ⟨i, record, hrecord, rfl, rfl⟩)
    have ha' : a ∈ {a | a ∈ record'.aliases} := heq ▸ ha
    obtain rfl : i = j := h.indexed.unique ⟨record, hrecord, ha⟩ ⟨record', hrecord', ha'⟩
    rw [hrecord] at hrecord'
    rw [Option.some.inj hrecord']
  rw [hcells, Set.encard_coe_eq_coe_finsetCard, List.toFinset_card_of_nodup hnodup,
    List.length_map, count_customNames]

theorem mem_items (l : ToolUsageLedger) (hcommitted : l.committed = true) (item : ToolUsageItem) :
    item ∈ l.snapshot.items ↔ 0 < item.callCount ∧
      l.customNames.count item.name = item.callCount ∧
      item.pricePer1K = l.prices.priceFor item.name := by
  unfold ToolUsageLedger.snapshot
  rw [if_pos hcommitted]
  dsimp only
  rw [List.mem_map]
  simp only [Finset.mem_sort, List.mem_toFinset]
  constructor
  · rintro ⟨name, hname, rfl⟩
    exact ⟨List.count_pos_iff.mpr hname, rfl, rfl⟩
  · rintro ⟨hpos, hcount, hprice⟩
    refine ⟨item.name, List.count_pos_iff.mp (hcount ▸ hpos), ?_⟩
    rw [hcount, ← hprice]

theorem items_sorted (l : ToolUsageLedger) :
    (l.snapshot.items.map (·.name)).Pairwise (· < ·) := by
  unfold ToolUsageLedger.snapshot
  dsimp only
  rw [List.map_map]
  show List.Pairwise (· < ·) (List.map id _)
  rw [List.map_id]
  exact (Finset.sortedLT_sort _).pairwise

theorem snapshot_congr {l' : ToolUsageLedger} (hmodel : l.modelName = l'.modelName)
    (hprices : l.prices = l'.prices) (hattempt : l.attempt = l'.attempt)
    (hcommitted : l.committed = l'.committed)
    (hcount : ∀ name, l.customNames.count name = l'.customNames.count name) :
    l.snapshot = l'.snapshot := by
  have hnames : l.customNames.toFinset = l'.customNames.toFinset := by
    ext name
    rw [List.mem_toFinset, List.mem_toFinset, ← List.count_pos_iff, ← List.count_pos_iff,
      hcount name]
  unfold ToolUsageLedger.snapshot
  rw [hmodel, hprices, hattempt, hcommitted]
  cases l'.committed with
  | false => rfl
  | true =>
      dsimp only
      rw [if_pos rfl, if_pos rfl, hnames]
      simp only [hcount]

end snapshots

/-! ### Permutations and repetitions -/

section alike

variable {prices : ToolPriceSnapshot} {log log' : AttemptLog}

theorem AttemptLog.Alike.step (h : log.Alike log') (op : Op) :
    (AttemptLog.step prices log op).Alike (AttemptLog.step prices log' op) := by
  cases op with
  | beginAttempt attempt =>
      unfold AttemptLog.step
      dsimp only
      rw [h.started, h.attempt]
      by_cases hsame : log'.started = true ∧ log'.attempt = attempt
      · rw [if_pos hsame, if_pos hsame]
        exact h
      · rw [if_neg hsame, if_neg hsame]
        exact ⟨rfl, rfl, rfl, fun _ => Iff.rfl⟩
  | observe kind name identity =>
      unfold AttemptLog.step
      dsimp only
      cases considered prices kind name identity with
      | none => exact h
      | some observation =>
          dsimp only
          rw [h.committed]
          cases hc : log'.committed with
          | true => exact h
          | false =>
              refine ⟨rfl, h.attempt, rfl, fun o => ?_⟩
              show o ∈ log.observations ++ [observation] ↔ o ∈ log'.observations ++ [observation]
              rw [List.mem_append, List.mem_append, h.observations o]
  | commitAttempt attempt =>
      unfold AttemptLog.step
      dsimp only
      rw [h.started, h.attempt]
      by_cases hsame : log'.started = true ∧ log'.attempt = attempt
      · rw [if_pos hsame, if_pos hsame]
        exact ⟨rfl, rfl, rfl, h.observations⟩
      · rw [if_neg hsame, if_neg hsame]
        exact h
  | snapshot => exact h

theorem AttemptLog.Alike.run (ops : List Op) : ∀ {log log' : AttemptLog}, log.Alike log' →
    (Transition.run (AttemptLog.step prices) log ops).Alike
      (Transition.run (AttemptLog.step prices) log' ops) := by
  induction ops with
  | nil => exact fun h => h
  | cons op ops ih => exact fun h => ih (h.step op)

/-- A call of `ObserveCustom` or `ObserveBuiltIn`. -/
structure Call where
  kind : ToolUsageKind
  name : String
  identity : ToolCallIdentity

def Call.op (call : Call) : Op := .observe call.kind call.name call.identity

/-- The observation of a call, if it is considered. -/
def Call.observation (prices : ToolPriceSnapshot) (call : Call) : Option Observation :=
  considered prices call.kind call.name call.identity

/-- What a sequence of calls adds to the log. -/
theorem AttemptLog.run_calls (calls : List Call) : ∀ log : AttemptLog,
    Transition.run (AttemptLog.step prices) log (calls.map Call.op) =
      if log.committed = true ∨ calls.filterMap (Call.observation prices) = [] then log
      else
        { log with
          started := true
          observations := log.observations ++ calls.filterMap (Call.observation prices) } := by
  induction calls with
  | nil => intro log; simp
  | cons call calls ih =>
      intro log
      rw [List.map_cons, Transition.run_cons, ih]
      have hstep : AttemptLog.step prices log call.op =
          match call.observation prices with
          | none => log
          | some observation =>
              if log.committed then log
              else
                { log with started := true, observations := log.observations ++ [observation] } :=
        rfl
      rw [hstep, List.filterMap_cons]
      cases call.observation prices with
      | none => rfl
      | some observation =>
          dsimp only
          by_cases hc : log.committed = true
          · simp [hc]
          · by_cases hnil : calls.filterMap (Call.observation prices) = []
            · simp [hc, hnil]
            · simp [hc, hnil]

theorem AttemptLog.alike_calls {calls calls' : List Call} (h : ∀ c, c ∈ calls ↔ c ∈ calls')
    (log : AttemptLog) :
    (Transition.run (AttemptLog.step prices) log (calls.map Call.op)).Alike
      (Transition.run (AttemptLog.step prices) log (calls'.map Call.op)) := by
  have hmem : ∀ o, o ∈ calls.filterMap (Call.observation prices) ↔
      o ∈ calls'.filterMap (Call.observation prices) := by
    intro o
    rw [List.mem_filterMap, List.mem_filterMap]
    exact exists_congr fun c => and_congr_left fun _ => h c
  have hnil : calls.filterMap (Call.observation prices) = [] ↔
      calls'.filterMap (Call.observation prices) = [] := by
    rw [List.eq_nil_iff_forall_not_mem, List.eq_nil_iff_forall_not_mem]
    exact forall_congr' fun o => not_congr (hmem o)
  rw [run_calls, run_calls]
  by_cases hidle : log.committed = true ∨ calls.filterMap (Call.observation prices) = []
  · rw [if_pos hidle, if_pos (hidle.imp_right hnil.mp)]
    exact ⟨rfl, rfl, rfl, fun _ => Iff.rfl⟩
  · rw [if_neg hidle, if_neg fun h => hidle (h.imp_right hnil.mpr)]
    refine ⟨rfl, rfl, rfl, fun o => ?_⟩
    dsimp only
    rw [List.mem_append, List.mem_append, hmem o]

end alike

/-! ### Main result -/

/-- **Main.** A snapshot lists the custom tools of the attempt with the number of their calls, once
the attempt is committed; a call is a component of the observations that are all of one tool.
Neither the order of the observations nor repetitions matter. -/
theorem snapshot_counts_calls (modelName : String) (prices : ToolPriceSnapshot) (ops : List Op) :
    let snapshotAfter := fun ops : List Op =>
      (Transition.run step (newToolUsageLedger modelName prices) ops).snapshot
    let log := AttemptLog.after prices ops
    (snapshotAfter ops).attempt = log.attempt ∧
      (log.committed = false → (snapshotAfter ops).items = []) ∧
      (log.committed = true → ∀ item, item ∈ (snapshotAfter ops).items ↔
        0 < item.callCount ∧ (log.calls item.name).encard = item.callCount ∧
          item.pricePer1K = prices.priceFor item.name) ∧
      ((snapshotAfter ops).items.map (·.name)).Pairwise (· < ·) ∧
      (∀ ops', log.Alike (AttemptLog.after prices ops') →
        snapshotAfter ops' = snapshotAfter ops) ∧
      ∀ calls calls' : List Call, (∀ c, c ∈ calls ↔ c ∈ calls') → ∀ later,
        snapshotAfter (ops ++ calls.map Call.op ++ later) =
          snapshotAfter (ops ++ calls'.map Call.op ++ later) := by
  intro snapshotAfter log
  have htracks := tracks_run modelName prices
  have halike : ∀ ops ops', (AttemptLog.after prices ops).Alike (AttemptLog.after prices ops') →
      snapshotAfter ops' = snapshotAfter ops := by
    intro ops ops' h
    obtain ⟨hmodel, hprices, hattempt, -, hcommitted⟩ := (htracks ops).fields
    obtain ⟨hmodel', hprices', hattempt', -, hcommitted'⟩ := (htracks ops').fields
    refine snapshot_congr (hmodel'.trans hmodel.symm) (hprices'.trans hprices.symm) ?_ ?_ ?_
    · rw [hattempt', hattempt, h.attempt]
    · rw [hcommitted', hcommitted, h.committed]
    · intro name
      have hcells := cells_congr h.observations (name, ToolUsageKind.custom)
      have hcount := (htracks ops).accounts.encard name
      rw [hcells, (htracks ops').accounts.encard name] at hcount
      exact_mod_cast hcount
  obtain ⟨-, hprices, hattempt, -, hcommitted⟩ := (htracks ops).fields
  refine ⟨hattempt, fun hno => ?_, fun hyes item => ?_, items_sorted _, halike ops, ?_⟩
  · show ToolUsageSnapshot.items (ToolUsageLedger.snapshot _) = []
    unfold ToolUsageLedger.snapshot
    rw [hcommitted, if_neg (by rw [hno]; decide)]
    simp
  · rw [mem_items _ (hcommitted.trans hyes), hprices]
    unfold AttemptLog.calls
    rw [(htracks ops).accounts.encard item.name, Nat.cast_inj]
  · intro calls calls' h later
    refine halike _ _ ?_
    unfold AttemptLog.after
    rw [Transition.run_append, Transition.run_append, Transition.run_append,
      Transition.run_append]
    exact AttemptLog.Alike.run later (AttemptLog.alike_calls (fun c => (h c).symm) _)

end MaxApi.ToolUsage
