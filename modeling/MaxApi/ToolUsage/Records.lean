import MaxApi.ToolUsage.Ledger

/-! # Tool usage: records and their aliases

What the two ways to change the records do: giving up records (`invalidated_lookup`,
`invalidated_ambiguous`), and joining them with an observation (`Joined`), be it by a new record or
by a merge.  Both keep the alias map the index of the records (`Indexed`). -/

namespace MaxApi.ToolUsage

/-! ### Maps -/

theorem lookup_eraseAll (aliases : List String) (a : String) :
    ∀ m : Dict ℕ, (eraseAll aliases m).lookup a = if a ∈ aliases then none else m.lookup a := by
  unfold eraseAll
  induction aliases with
  | nil => intro m; rfl
  | cons b aliases ih =>
      intro m
      rw [List.foldl_cons, ih]
      by_cases hmem : a ∈ aliases
      · rw [if_pos hmem, if_pos (List.mem_cons_of_mem b hmem)]
      · rw [if_neg hmem]
        by_cases hab : a = b
        · rw [if_pos (List.mem_cons.mpr (.inl hab)), hab, AList.lookup_erase]
        · have hnot : a ∉ b :: aliases := fun h => (List.mem_cons.mp h).elim hab hmem
          rw [if_neg hnot, AList.lookup_erase_ne hab]

theorem lookup_setAll (aliases : List String) (recordID : ℕ) (a : String) :
    ∀ m : Dict ℕ, (setAll aliases recordID m).lookup a =
      if a ∈ aliases then some recordID else m.lookup a := by
  unfold setAll
  induction aliases with
  | nil => intro m; rfl
  | cons b aliases ih =>
      intro m
      rw [List.foldl_cons, ih]
      by_cases hmem : a ∈ aliases
      · rw [if_pos hmem, if_pos (List.mem_cons_of_mem b hmem)]
      · rw [if_neg hmem]
        by_cases hab : a = b
        · rw [if_pos (List.mem_cons.mpr (.inl hab)), hab, AList.lookup_insert]
        · have hnot : a ∉ b :: aliases := fun h => (List.mem_cons.mp h).elim hab hmem
          rw [if_neg hnot, AList.lookup_insert_ne hab]

namespace ToolUsageLedger

variable {l : ToolUsageLedger} {recordID primary : ℕ} {aliases : List String}

/-- The record is there and the alias is one of its aliases. -/
def Holds (l : ToolUsageLedger) (recordID : ℕ) (a : String) : Prop :=
  ∃ record, l.records.lookup recordID = some record ∧ a ∈ record.aliases

/-- The alias map is the index of the records. -/
def Indexed (l : ToolUsageLedger) : Prop :=
  ∀ a recordID, l.aliases.lookup a = some recordID ↔ l.Holds recordID a

/-- What is not about the records. -/
def frame (l : ToolUsageLedger) : String × ToolPriceSnapshot × ℤ × Bool × Bool :=
  (l.modelName, l.prices, l.attempt, l.attemptStarted, l.committed)

theorem holds_iff {record : ToolUsageRecord} (h : l.records.lookup recordID = some record)
    {a : String} : l.Holds recordID a ↔ a ∈ record.aliases := by
  refine ⟨?_, fun ha => ⟨record, h, ha⟩⟩
  rintro ⟨r, hr, ha⟩
  rw [h] at hr
  exact Option.some.inj hr ▸ ha

theorem not_holds (h : l.records.lookup recordID = none) {a : String} :
    ¬l.Holds recordID a := by
  rintro ⟨r, hr, -⟩
  rw [h] at hr
  exact nomatch hr

/-- An alias belongs to one record. -/
theorem Indexed.unique (h : l.Indexed) {a : String} {i j : ℕ} (hi : l.Holds i a)
    (hj : l.Holds j a) : i = j := by
  have hlookup := (h a i).mpr hi
  rw [(h a j).mpr hj] at hlookup
  exact (Option.some.inj hlookup).symm

theorem mem_matchedRecords (h : l.Indexed) :
    recordID ∈ l.matchedRecords aliases ↔ ∃ a ∈ aliases, l.Holds recordID a := by
  unfold matchedRecords
  rw [List.mem_dedup, List.mem_filterMap]
  exact exists_congr fun a => and_congr_right fun _ => h a recordID

/-! ### Giving up records -/

section invalidate

theorem tombstone_indexed (h : l.Indexed) (hfree : ∀ a ∈ aliases, ∀ i, ¬l.Holds i a) :
    (l.tombstone aliases).Indexed := by
  intro a i
  show (eraseAll aliases l.aliases).lookup a = some i ↔ l.Holds i a
  rw [lookup_eraseAll]
  by_cases ha : a ∈ aliases
  · rw [if_pos ha]
    exact ⟨nofun, fun hheld => absurd hheld (hfree a ha i)⟩
  · rw [if_neg ha]
    exact h a i

theorem invalidateRecord_lookup (i : ℕ) :
    (l.invalidateRecord recordID).records.lookup i =
      if i = recordID then none else l.records.lookup i := by
  unfold invalidateRecord
  cases hrecord : l.records.lookup recordID with
  | none =>
      by_cases hi : i = recordID
      · rw [if_pos hi, hi]
        exact hrecord
      · rw [if_neg hi]
  | some record =>
      show (l.records.erase recordID).lookup i = _
      by_cases hi : i = recordID
      · rw [if_pos hi, hi, AList.lookup_erase]
      · rw [if_neg hi, AList.lookup_erase_ne hi]

theorem invalidateRecord_holds {i : ℕ} {a : String} :
    (l.invalidateRecord recordID).Holds i a ↔ i ≠ recordID ∧ l.Holds i a := by
  unfold Holds
  rw [invalidateRecord_lookup]
  by_cases hi : i = recordID
  · rw [if_pos hi]
    refine ⟨?_, fun h => absurd hi h.1⟩
    rintro ⟨_, h, -⟩
    exact nomatch h
  · rw [if_neg hi]
    exact (and_iff_right hi).symm

theorem invalidateRecord_ambiguous {a : String} :
    a ∈ (l.invalidateRecord recordID).ambiguous ↔ a ∈ l.ambiguous ∨ l.Holds recordID a := by
  unfold invalidateRecord
  cases hrecord : l.records.lookup recordID with
  | none => exact (or_iff_left (not_holds hrecord)).symm
  | some record =>
      show a ∈ l.ambiguous ∪ record.aliases.toFinset ↔ _
      rw [Finset.mem_union, List.mem_toFinset, holds_iff hrecord]

theorem invalidateRecord_indexed (h : l.Indexed) : (l.invalidateRecord recordID).Indexed := by
  intro a i
  rw [invalidateRecord_holds, ← h a i]
  unfold invalidateRecord
  cases hrecord : l.records.lookup recordID with
  | none =>
      refine ⟨fun hi => ⟨?_, hi⟩, And.right⟩
      rintro rfl
      exact not_holds hrecord ((h a i).mp hi)
  | some record =>
      show (eraseAll record.aliases l.aliases).lookup a = some i ↔ _
      rw [lookup_eraseAll]
      by_cases ha : a ∈ record.aliases
      · rw [if_pos ha]
        refine ⟨nofun, fun ⟨hne, hi⟩ => absurd ?_ hne⟩
        exact h.unique ((h a i).mp hi) ⟨record, hrecord, ha⟩
      · rw [if_neg ha]
        refine ⟨fun hi => ⟨?_, hi⟩, And.right⟩
        rintro rfl
        exact ha ((holds_iff hrecord).mp ((h a i).mp hi))

theorem invalidateRecord_frame (l : ToolUsageLedger) (recordID : ℕ) :
    (l.invalidateRecord recordID).frame = l.frame ∧
    (l.invalidateRecord recordID).nextRecordID = l.nextRecordID := by
  unfold invalidateRecord
  cases l.records.lookup recordID with
  | none => exact ⟨rfl, rfl⟩
  | some record => exact ⟨rfl, rfl⟩

end invalidate

/-- The records are given up, one after the other. -/
def invalidateAll (l : ToolUsageLedger) (recordIDs : List ℕ) : ToolUsageLedger :=
  recordIDs.foldl invalidateRecord l

section invalidateAll

variable {recordIDs : List ℕ}

theorem invalidateAll_lookup {i : ℕ} : ∀ {l : ToolUsageLedger},
    (l.invalidateAll recordIDs).records.lookup i =
      if i ∈ recordIDs then none else l.records.lookup i := by
  induction recordIDs with
  | nil => intro l; rfl
  | cons j recordIDs ih =>
      intro l
      show ((l.invalidateRecord j).invalidateAll recordIDs).records.lookup i = _
      rw [ih, invalidateRecord_lookup]
      by_cases hmem : i ∈ recordIDs
      · rw [if_pos hmem, if_pos (List.mem_cons_of_mem j hmem)]
      · rw [if_neg hmem]
        by_cases hij : i = j
        · rw [if_pos hij, if_pos (List.mem_cons.mpr (.inl hij))]
        · have hnot : i ∉ j :: recordIDs := fun h => (List.mem_cons.mp h).elim hij hmem
          rw [if_neg hij, if_neg hnot]

theorem invalidateAll_ambiguous {a : String} : ∀ {l : ToolUsageLedger},
    a ∈ (l.invalidateAll recordIDs).ambiguous ↔
      a ∈ l.ambiguous ∨ ∃ i ∈ recordIDs, l.Holds i a := by
  induction recordIDs with
  | nil => exact ⟨.inl, fun h => h.elim id fun ⟨_, hi, _⟩ => absurd hi List.not_mem_nil⟩
  | cons j recordIDs ih =>
      intro l
      show a ∈ ((l.invalidateRecord j).invalidateAll recordIDs).ambiguous ↔ _
      rw [ih, invalidateRecord_ambiguous]
      constructor
      · rintro ((ha | hj) | ⟨i, hi, hheld⟩)
        · exact .inl ha
        · exact .inr ⟨j, List.mem_cons_self, hj⟩
        · exact .inr ⟨i, List.mem_cons_of_mem j hi, (invalidateRecord_holds.mp hheld).2⟩
      · rintro (ha | ⟨i, hi, hheld⟩)
        · exact .inl (.inl ha)
        · by_cases hij : i = j
          · exact .inl (.inr (hij ▸ hheld))
          · have hi := (List.mem_cons.mp hi).resolve_left hij
            exact .inr ⟨i, hi, invalidateRecord_holds.mpr ⟨hij, hheld⟩⟩

theorem invalidateAll_indexed : ∀ {l : ToolUsageLedger}, l.Indexed →
    (l.invalidateAll recordIDs).Indexed := by
  induction recordIDs with
  | nil => exact fun h => h
  | cons j recordIDs ih => exact fun h => ih (invalidateRecord_indexed h)

theorem invalidateAll_frame : ∀ {l : ToolUsageLedger},
    (l.invalidateAll recordIDs).frame = l.frame ∧
      (l.invalidateAll recordIDs).nextRecordID = l.nextRecordID := by
  induction recordIDs with
  | nil => exact ⟨rfl, rfl⟩
  | cons j recordIDs ih =>
      intro l
      obtain ⟨hframe, hnext⟩ := invalidateRecord_frame l j
      exact ⟨ih.1.trans hframe, ih.2.trans hnext⟩

end invalidateAll

/-! ### Joining records -/

/-- The alias is one of the observation or of a record that it matches. -/
def Reached (l : ToolUsageLedger) (aliases : List String) (a : String) : Prop :=
  a ∈ aliases ∨ ∃ i ∈ l.matchedRecords aliases, l.Holds i a

/-- A record with what the observation reaches takes the place of the matched ones. -/
structure Joined (l l' : ToolUsageLedger) (observation : Observation) (primary : ℕ) : Prop where
  joint : ∃ record, l'.records.lookup primary = some record ∧
    (record.name, record.kind) = observation.label ∧
    ∀ a, a ∈ record.aliases ↔ l.Reached observation.vertices a
  others : ∀ i, i ≠ primary → l'.records.lookup i =
    if i ∈ l.matchedRecords observation.vertices then none else l.records.lookup i
  fresh : ∀ record, l.records.lookup primary = some record →
    primary ∈ l.matchedRecords observation.vertices
  indexed : l'.Indexed
  ambiguous : l'.ambiguous = l.ambiguous
  frame : l'.frame = l.frame
  positive : 0 < primary
  bounded : primary ≤ l'.nextRecordID ∧ l.nextRecordID ≤ l'.nextRecordID

section join

variable {record : ToolUsageRecord} {i : ℕ}

theorem addAliases_eq (aliases : List String)
    (h : l.records.lookup recordID = some record) :
    l.addAliases recordID aliases =
      { l with
        records := l.records.insert recordID { record with aliases := record.aliases ∪ aliases }
        aliases := setAll aliases recordID l.aliases } := by
  unfold addAliases
  rw [h]

theorem addAliases_holds (h : l.records.lookup recordID = some record) {a : String} :
    (l.addAliases recordID aliases).Holds i a ↔ (i = recordID ∧ a ∈ aliases) ∨ l.Holds i a := by
  rw [addAliases_eq _ h]
  unfold Holds
  dsimp only
  by_cases hi : i = recordID
  · rw [hi, AList.lookup_insert, h]
    simp [or_comm]
  · rw [AList.lookup_insert_ne hi]
    simp [hi]

/-- The index is kept if no other record has the aliases. -/
theorem addAliases_indexed (h : l.records.lookup recordID = some record) (hl : l.Indexed)
    (hown : ∀ a ∈ aliases, ∀ i, l.Holds i a → i = recordID) :
    (l.addAliases recordID aliases).Indexed := by
  intro a i
  rw [addAliases_holds h, addAliases_eq _ h]
  dsimp only
  rw [lookup_setAll]
  by_cases ha : a ∈ aliases
  · rw [if_pos ha, Option.some.injEq]
    constructor
    · exact fun hi => .inl ⟨hi.symm, ha⟩
    · rintro (⟨hi, -⟩ | hheld)
      · exact hi.symm
      · exact (hown a ha i hheld).symm
  · rw [if_neg ha, hl a i]
    exact ⟨.inr, fun h => h.resolve_left fun h => ha h.2⟩

theorem absorb_eq (h : l.records.lookup primary = some record) {duplicate : ToolUsageRecord}
    (hne : recordID ≠ primary) (hduplicate : l.records.lookup recordID = some duplicate) :
    l.absorb primary recordID =
      { l with
        records := (l.records.insert primary
          { record with aliases := record.aliases ∪ duplicate.aliases }).erase recordID
        aliases := setAll duplicate.aliases primary l.aliases } := by
  unfold absorb
  rw [if_neg hne, hduplicate]
  dsimp only
  rw [addAliases_eq _ h]

theorem absorb_frame (l : ToolUsageLedger) (primary recordID : ℕ) :
    (l.absorb primary recordID).frame = l.frame ∧
    (l.absorb primary recordID).nextRecordID = l.nextRecordID ∧
    (l.absorb primary recordID).ambiguous = l.ambiguous := by
  unfold absorb addAliases
  by_cases hne : recordID = primary
  · rw [if_pos hne]
    exact ⟨rfl, rfl, rfl⟩
  · rw [if_neg hne]
    cases l.records.lookup recordID with
    | none => exact ⟨rfl, rfl, rfl⟩
    | some duplicate =>
        cases l.records.lookup primary with
        | none => exact ⟨rfl, rfl, rfl⟩
        | some record => exact ⟨rfl, rfl, rfl⟩

theorem absorb_lookup (recordID : ℕ) (h : l.records.lookup primary = some record)
    (hi : i ≠ primary) :
    (l.absorb primary recordID).records.lookup i =
      if i = recordID then none else l.records.lookup i := by
  by_cases hne : recordID = primary
  · unfold absorb
    rw [if_pos hne, if_neg fun h => hi (h.trans hne)]
  · cases hduplicate : l.records.lookup recordID with
    | none =>
        unfold absorb
        rw [if_neg hne, hduplicate]
        by_cases hir : i = recordID
        · rw [if_pos hir, hir]
          exact hduplicate
        · rw [if_neg hir]
    | some duplicate =>
        rw [absorb_eq h hne hduplicate]
        dsimp only
        by_cases hir : i = recordID
        · rw [if_pos hir, hir, AList.lookup_erase]
        · rw [if_neg hir, AList.lookup_erase_ne hir, AList.lookup_insert_ne hi]

theorem absorb_primary (recordID : ℕ) (h : l.records.lookup primary = some record) :
    ∃ merged, (l.absorb primary recordID).records.lookup primary = some merged ∧
      merged.name = record.name ∧ merged.kind = record.kind ∧
      ∀ a, a ∈ merged.aliases ↔ a ∈ record.aliases ∨ l.Holds recordID a := by
  by_cases hne : recordID = primary
  · refine ⟨record, ?_, rfl, rfl, fun a => ?_⟩
    · unfold absorb
      rwa [if_pos hne]
    · rw [hne, holds_iff h, or_self]
  · cases hduplicate : l.records.lookup recordID with
    | none =>
        refine ⟨record, ?_, rfl, rfl, fun a => (or_iff_left (not_holds hduplicate)).symm⟩
        unfold absorb
        rwa [if_neg hne, hduplicate]
    | some duplicate =>
        rw [absorb_eq h hne hduplicate]
        refine ⟨{ record with aliases := record.aliases ∪ duplicate.aliases }, ?_, rfl, rfl, ?_⟩
        · dsimp only
          rw [AList.lookup_erase_ne (Ne.symm hne), AList.lookup_insert]
        · intro a
          rw [List.mem_union_iff, holds_iff hduplicate]

/-- The primary record holds what it and the other one held. -/
theorem absorb_holds (h : l.records.lookup primary = some record) {a : String} :
    (l.absorb primary recordID).Holds i a ↔
      (i = primary ∧ (l.Holds primary a ∨ l.Holds recordID a)) ∨
        (i ≠ primary ∧ i ≠ recordID ∧ l.Holds i a) := by
  by_cases hi : i = primary
  · obtain ⟨merged, hmerged, -, -, haliases⟩ := absorb_primary recordID h
    rw [hi, holds_iff hmerged, haliases a, holds_iff h]
    simp
  · have hlookup := absorb_lookup recordID h hi
    by_cases hir : i = recordID
    · rw [if_pos hir] at hlookup
      refine iff_of_false (not_holds hlookup) ?_
      rintro (⟨hp, -⟩ | ⟨-, hne, -⟩)
      · exact hi hp
      · exact hne hir
    · rw [if_neg hir] at hlookup
      unfold Holds
      rw [hlookup]
      simp [hi, hir]

theorem absorb_aliases (h : l.records.lookup primary = some record) (hl : l.Indexed)
    {a : String} : (l.absorb primary recordID).aliases.lookup a =
      if recordID ≠ primary ∧ l.aliases.lookup a = some recordID then some primary
      else l.aliases.lookup a := by
  by_cases hne : recordID = primary
  · unfold absorb
    rw [if_pos hne, if_neg fun h => h.1 hne]
  · have hheld := hl a recordID
    cases hduplicate : l.records.lookup recordID with
    | none =>
        unfold absorb
        rw [if_neg hne, hduplicate]
        rw [if_neg fun h => not_holds hduplicate (hheld.mp h.2)]
    | some duplicate =>
        rw [holds_iff hduplicate] at hheld
        rw [absorb_eq h hne hduplicate]
        dsimp only
        rw [lookup_setAll]
        by_cases ha : a ∈ duplicate.aliases
        · rw [if_pos ha, if_pos ⟨hne, hheld.mpr ha⟩]
        · rw [if_neg ha, if_neg fun h => ha (hheld.mp h.2)]

theorem absorb_indexed (h : l.records.lookup primary = some record) (hl : l.Indexed) :
    (l.absorb primary recordID).Indexed := by
  intro a i
  rw [absorb_holds h, absorb_aliases h hl]
  by_cases hmoved : recordID ≠ primary ∧ l.aliases.lookup a = some recordID
  · have hheld := (hl a recordID).mp hmoved.2
    rw [if_pos hmoved, Option.some.injEq]
    constructor
    · exact fun hi => .inl ⟨hi.symm, .inr hheld⟩
    · rintro (⟨hi, -⟩ | ⟨-, hne, hother⟩)
      · exact hi.symm
      · exact absurd (hl.unique hother hheld) hne
  · rw [if_neg hmoved, hl a i]
    constructor
    · intro hheld
      by_cases hi : i = primary
      · exact .inl ⟨hi, .inl (hi ▸ hheld)⟩
      · refine .inr ⟨hi, ?_, hheld⟩
        rintro rfl
        exact hmoved ⟨hi, (hl a i).mpr hheld⟩
    · rintro (⟨rfl, hheld | hheld⟩ | ⟨-, -, hheld⟩)
      · exact hheld
      · by_cases hne : recordID = i
        · exact hne ▸ hheld
        · exact absurd ⟨hne, (hl a recordID).mpr hheld⟩ hmoved
      · exact hheld

end join

/-- The records are absorbed by the primary one, one after the other. -/
def absorbAll (l : ToolUsageLedger) (primary : ℕ) (recordIDs : List ℕ) : ToolUsageLedger :=
  recordIDs.foldl (fun l recordID => l.absorb primary recordID) l

section absorbAll

variable {recordIDs : List ℕ}

theorem absorbAll_primary (recordIDs : List ℕ) : ∀ {l : ToolUsageLedger} {record : ToolUsageRecord},
    l.records.lookup primary = some record →
    ∃ merged, (l.absorbAll primary recordIDs).records.lookup primary = some merged ∧
      merged.name = record.name ∧ merged.kind = record.kind ∧
      ∀ a, a ∈ merged.aliases ↔ a ∈ record.aliases ∨ ∃ i ∈ recordIDs, l.Holds i a := by
  induction recordIDs with
  | nil => exact fun {l record} h => ⟨record, h, rfl, rfl, fun a => by simp⟩
  | cons j recordIDs ih =>
      intro l record h
      obtain ⟨first, hfirst, hname, hkind, haliases⟩ := absorb_primary j h
      obtain ⟨merged, hmerged, hname', hkind', haliases'⟩ := ih hfirst
      refine ⟨merged, hmerged, hname'.trans hname, hkind'.trans hkind, fun a => ?_⟩
      rw [haliases' a, haliases a]
      constructor
      · rintro ((ha | hj) | ⟨i, hi, hheld⟩)
        · exact .inl ha
        · exact .inr ⟨j, List.mem_cons_self, hj⟩
        · rcases (absorb_holds h).mp hheld with ⟨rfl, hp | hj⟩ | ⟨-, -, hheld⟩
          · exact .inl ((holds_iff h).mp hp)
          · exact .inr ⟨j, List.mem_cons_self, hj⟩
          · exact .inr ⟨i, List.mem_cons_of_mem j hi, hheld⟩
      · rintro (ha | ⟨i, hi, hheld⟩)
        · exact .inl (.inl ha)
        · by_cases hij : i = j
          · exact .inl (.inr (hij ▸ hheld))
          · by_cases hip : i = primary
            · exact .inl (.inl ((holds_iff h).mp (hip ▸ hheld)))
            · have hi := (List.mem_cons.mp hi).resolve_left hij
              exact .inr ⟨i, hi, (absorb_holds h).mpr (.inr ⟨hip, hij, hheld⟩)⟩

theorem absorbAll_lookup {i : ℕ} (hi : i ≠ primary) :
    ∀ {l : ToolUsageLedger} {record : ToolUsageRecord},
      l.records.lookup primary = some record →
      (l.absorbAll primary recordIDs).records.lookup i =
        if i ∈ recordIDs then none else l.records.lookup i := by
  induction recordIDs with
  | nil => exact fun _ => rfl
  | cons j recordIDs ih =>
      intro l record h
      obtain ⟨first, hfirst, -⟩ := absorb_primary j h
      show ((l.absorb primary j).absorbAll primary recordIDs).records.lookup i = _
      rw [ih hfirst, absorb_lookup j h hi]
      by_cases hmem : i ∈ recordIDs
      · rw [if_pos hmem, if_pos (List.mem_cons_of_mem j hmem)]
      · rw [if_neg hmem]
        by_cases hij : i = j
        · rw [if_pos hij, if_pos (List.mem_cons.mpr (.inl hij))]
        · have hnot : i ∉ j :: recordIDs := fun h => (List.mem_cons.mp h).elim hij hmem
          rw [if_neg hij, if_neg hnot]

theorem absorbAll_indexed : ∀ {l : ToolUsageLedger} {record : ToolUsageRecord},
    l.records.lookup primary = some record → l.Indexed →
      (l.absorbAll primary recordIDs).Indexed := by
  induction recordIDs with
  | nil => exact fun _ hl => hl
  | cons j recordIDs ih =>
      intro l record h hl
      obtain ⟨first, hfirst, -⟩ := absorb_primary j h
      exact ih hfirst (absorb_indexed h hl)

theorem absorbAll_frame (primary : ℕ) (recordIDs : List ℕ) : ∀ l : ToolUsageLedger,
    (l.absorbAll primary recordIDs).frame = l.frame ∧
      (l.absorbAll primary recordIDs).nextRecordID = l.nextRecordID ∧
      (l.absorbAll primary recordIDs).ambiguous = l.ambiguous := by
  induction recordIDs with
  | nil => exact fun _ => ⟨rfl, rfl, rfl⟩
  | cons j recordIDs ih =>
      intro l
      obtain ⟨hframe, hnext, hambiguous⟩ := absorb_frame l primary j
      obtain ⟨hframe', hnext', hambiguous'⟩ := ih (l.absorb primary j)
      exact ⟨hframe'.trans hframe, hnext'.trans hnext, hambiguous'.trans hambiguous⟩

end absorbAll

/-- The primary record is one of the records. -/
theorem primaryID_mem {recordIDs : List ℕ} (hne : recordIDs ≠ []) :
    primaryID recordIDs ∈ recordIDs := by
  have hfold : ∀ (ids : List ℕ) (first : ℕ),
      ids.foldl (fun primary id => if primary = 0 ∨ id < primary then id else primary) first ∈
        first :: ids := by
    intro ids
    induction ids with
    | nil => exact fun first => List.mem_singleton.mpr rfl
    | cons id ids ih =>
        intro first
        rw [List.foldl_cons]
        have hmem := ih (if first = 0 ∨ id < first then id else first)
        split_ifs at hmem ⊢ <;> simp only [List.mem_cons] at hmem ⊢ <;> tauto
  cases recordIDs with
  | nil => exact absurd rfl hne
  | cons id ids =>
      have hmem := hfold ids id
      unfold primaryID
      rwa [List.foldl_cons, if_pos (.inl rfl)]

/-! ### The ledger after an observation -/

section record

variable {observation : Observation}

/-- Every record has a number that is in use. -/
def Numbered (l : ToolUsageLedger) : Prop :=
  ∀ recordID record, l.records.lookup recordID = some record →
    0 < recordID ∧ recordID ≤ l.nextRecordID

theorem joined_new (hl : l.Indexed) (hnumbered : l.Numbered)
    (hmatched : l.matchedRecords observation.vertices = []) :
    Joined l
      { l with
        nextRecordID := l.nextRecordID + 1
        records := l.records.insert (l.nextRecordID + 1)
          ⟨observation.label.1, observation.label.2, observation.vertices⟩
        aliases := setAll observation.vertices (l.nextRecordID + 1) l.aliases }
      observation (l.nextRecordID + 1) := by
  have hnone : l.records.lookup (l.nextRecordID + 1) = none := by
    cases hrecord : l.records.lookup (l.nextRecordID + 1) with
    | none => rfl
    | some record =>
        have hbound := (hnumbered _ record hrecord).2
        omega
  have hfree : ∀ a ∈ observation.vertices, ∀ i, ¬l.Holds i a := by
    intro a ha i hheld
    have hmem := (mem_matchedRecords hl).mpr ⟨a, ha, hheld⟩
    rw [hmatched] at hmem
    exact absurd hmem List.not_mem_nil
  refine ⟨⟨_, AList.lookup_insert _, rfl, fun a => ?_⟩, fun i hi => ?_, fun r hr => ?_, ?_, rfl,
    rfl, ?_, ?_⟩
  · unfold Reached
    rw [hmatched]
    simp
  · rw [hmatched, if_neg List.not_mem_nil]
    exact AList.lookup_insert_ne hi
  · rw [hnone] at hr
    exact nomatch hr
  · intro a i
    unfold Holds
    dsimp only
    rw [lookup_setAll]
    by_cases hi : i = l.nextRecordID + 1
    · rw [hi, AList.lookup_insert]
      by_cases ha : a ∈ observation.vertices
      · simp [ha]
      · rw [if_neg ha]
        refine iff_of_false (fun h => not_holds hnone ((hl a _).mp h)) ?_
        rintro ⟨r, hr, har⟩
        rw [← Option.some.inj hr] at har
        exact ha har
    · rw [AList.lookup_insert_ne hi]
      by_cases ha : a ∈ observation.vertices
      · rw [if_pos ha]
        exact iff_of_false (fun h => hi (Option.some.inj h).symm) (hfree a ha i)
      · rw [if_neg ha]
        exact hl a i
  · exact Nat.succ_pos l.nextRecordID
  · exact ⟨Nat.le_refl _, Nat.le_succ _⟩

theorem joined_merge (hl : l.Indexed) (hnumbered : l.Numbered)
    (hmatched : l.matchedRecords observation.vertices ≠ [])
    (hsame : ∀ i ∈ l.matchedRecords observation.vertices,
      ¬l.Differs observation.label.1 observation.label.2 i) :
    Joined l
      ((l.absorbAll (primaryID (l.matchedRecords observation.vertices))
          (l.matchedRecords observation.vertices)).addAliases
        (primaryID (l.matchedRecords observation.vertices)) observation.vertices)
      observation (primaryID (l.matchedRecords observation.vertices)) := by
  have hprimary := primaryID_mem hmatched
  generalize primaryID (l.matchedRecords observation.vertices) = primary at hprimary ⊢
  obtain ⟨record, hrecord, hsimilar⟩ : ∃ record, l.records.lookup primary = some record ∧
      ¬(record.name ≠ observation.label.1 ∨ record.kind ≠ observation.label.2) := by
    by_contra hnone
    exact hsame primary hprimary fun r hr => by_contra fun h => hnone ⟨r, hr, h⟩
  obtain ⟨hname, hkind⟩ := not_or.mp hsimilar
  obtain ⟨merged, hmerged, hname', hkind', haliases⟩ :=
    absorbAll_primary (l.matchedRecords observation.vertices) hrecord
  obtain ⟨hframe, hnext, hambiguous⟩ := absorbAll_frame primary
    (l.matchedRecords observation.vertices) l
  have hindexed : (l.absorbAll primary (l.matchedRecords observation.vertices)).Indexed :=
    absorbAll_indexed hrecord hl
  have hothers : ∀ i, i ≠ primary →
      (l.absorbAll primary (l.matchedRecords observation.vertices)).records.lookup i =
        if i ∈ l.matchedRecords observation.vertices then none else l.records.lookup i :=
    fun i hi => absorbAll_lookup hi hrecord
  generalize l.absorbAll primary (l.matchedRecords observation.vertices) = joined at *
  have hown : ∀ a ∈ observation.vertices, ∀ i, joined.Holds i a → i = primary := by
    intro a ha i hheld
    by_contra hi
    have hlookup := hothers i hi
    by_cases hmem : i ∈ l.matchedRecords observation.vertices
    · rw [if_pos hmem] at hlookup
      exact not_holds hlookup hheld
    · rw [if_neg hmem] at hlookup
      obtain ⟨r, hr, har⟩ := hheld
      rw [hlookup] at hr
      exact hmem ((mem_matchedRecords hl).mpr ⟨a, ha, r, hr, har⟩)
  have heq := addAliases_eq observation.vertices hmerged
  have hbound := hnumbered primary record hrecord
  refine ⟨⟨{ merged with aliases := merged.aliases ∪ observation.vertices }, ?_, ?_, fun a => ?_⟩,
    fun i hi => ?_, fun _ _ => hprimary, addAliases_indexed hmerged hindexed hown, ?_, ?_,
    hbound.1, ?_⟩
  · rw [heq]
    exact AList.lookup_insert _
  · exact Prod.ext (hname'.trans (not_not.mp hname)) (hkind'.trans (not_not.mp hkind))
  · unfold Reached
    rw [List.mem_union_iff, haliases a]
    constructor
    · rintro ((ha | hheld) | ha)
      · exact .inr ⟨primary, hprimary, (holds_iff hrecord).mpr ha⟩
      · exact .inr hheld
      · exact .inl ha
    · rintro (ha | hheld)
      · exact .inr ha
      · exact .inl (.inr hheld)
  · rw [heq, ← hothers i hi]
    exact AList.lookup_insert_ne hi
  · rw [heq]
    exact hambiguous
  · rw [heq]
    exact hframe
  · rw [heq]
    show primary ≤ joined.nextRecordID ∧ l.nextRecordID ≤ joined.nextRecordID
    rw [hnext]
    exact ⟨hbound.2, Nat.le_refl _⟩

/-- The observation meets a tombstone, or a record of another tool. -/
def Clashes (l : ToolUsageLedger) (observation : Observation) : Prop :=
  (∃ a ∈ observation.vertices, a ∈ l.ambiguous) ∨
    ∃ i ∈ l.matchedRecords observation.vertices,
      l.Differs observation.label.1 observation.label.2 i

/-- **Observations.** A clash gives up what the observation meets, and otherwise it is joined. -/
theorem record_cases (observation : Observation) (hl : l.Indexed) (hnumbered : l.Numbered) :
    (l.Clashes observation ∧ (l.record observation).1 =
        (l.invalidateAll (l.matchedRecords observation.vertices)).tombstone
          observation.vertices) ∨
      (¬l.Clashes observation ∧ ∃ primary, Joined l (l.record observation).1 observation
        primary) := by
  unfold record Clashes
  dsimp only
  by_cases hambiguous : ∃ a ∈ observation.vertices, a ∈ l.ambiguous
  · rw [if_pos hambiguous]
    exact .inl ⟨.inl hambiguous, rfl⟩
  · rw [if_neg hambiguous]
    by_cases hmatched : l.matchedRecords observation.vertices = []
    · rw [if_pos hmatched]
      refine .inr ⟨?_, _, joined_new hl hnumbered hmatched⟩
      rintro (h | ⟨i, hi, -⟩)
      · exact hambiguous h
      · rw [hmatched] at hi
        exact absurd hi List.not_mem_nil
    · rw [if_neg hmatched]
      by_cases hdiffers : ∃ i ∈ l.matchedRecords observation.vertices,
          l.Differs observation.label.1 observation.label.2 i
      · rw [if_pos hdiffers]
        exact .inl ⟨.inr hdiffers, rfl⟩
      · rw [if_neg hdiffers]
        refine .inr ⟨fun h => h.elim hambiguous hdiffers, _, joined_merge hl hnumbered hmatched ?_⟩
        exact fun i hi hd => hdiffers ⟨i, hi, hd⟩

end record

end ToolUsageLedger

end MaxApi.ToolUsage
