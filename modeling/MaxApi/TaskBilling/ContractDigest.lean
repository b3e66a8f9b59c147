import MaxApi.Lib.Decimal
import MaxApi.Lib.Lines
import MaxApi.TaskBilling.UsageContract

/-! # Contract digests

The text under the digest of a usage contract consists of lines.  The source stands first and may
contain line breaks itself, so the text is read from its end: the last line that begins like that of
the version is that of the version, and the fields behind it are read line by line
(`contractDigest_eq_iff`). -/

namespace MaxApi.TaskBilling

open Checked

/-! ### Valid contracts -/

/-- A contract as `validateContract` accepts it. -/
structure TaskUsageContract.Valid (contract : TaskUsageContract) : Prop where
  units : ∀ f ∈ contract.fields, canonicalFieldUnits.lookup f.key = some f.unit
  keys : (contract.fields.map TaskUsageFieldContract.key).Nodup

/-- The loop accepts the fields in any order. -/
theorem validateFields_iff (seen : List String) (fields : List TaskUsageFieldContract) :
    validateFields seen fields = .ok () ↔
      (∀ f ∈ fields, canonicalFieldUnits.lookup f.key = some f.unit ∧ f.key ∉ seen ∧
        ∀ lo ∈ f.minValue, ∀ hi ∈ f.maxValue, lo ≤ hi) ∧
        (fields.map TaskUsageFieldContract.key).Nodup := by
  induction fields generalizing seen with
  | nil => simp [validateFields]
  | cons f fields ih =>
      unfold validateFields
      simp only [ok_bind, ok_require, ih, List.map_cons, List.nodup_cons, List.mem_cons,
        forall_eq_or_imp, not_or, exists_const, List.mem_map, not_exists, not_and]
      constructor
      · rintro ⟨hunit, hseen, hrange, hrest, hnodup⟩
        exact ⟨⟨⟨hunit, hseen, hrange⟩, fun g hg => ⟨(hrest g hg).1, (hrest g hg).2.1.2,
          (hrest g hg).2.2⟩⟩, fun g hg => (hrest g hg).2.1.1, hnodup⟩
      · rintro ⟨⟨⟨hunit, hseen, hrange⟩, hrest⟩, hkey, hnodup⟩
        exact ⟨hunit, hseen, hrange, fun g hg => ⟨(hrest g hg).1, ⟨hkey g hg, (hrest g hg).2.1⟩,
          (hrest g hg).2.2⟩, hnodup⟩

theorem validateContract_iff (contract : TaskUsageContract) :
    validateContract contract = .ok () ↔
      (¬ Text.isBlank contract.sourceID ∧ contract.sourceID = Text.trimSpace contract.sourceID) ∧
        0 < contract.schemaVersion ∧ contract.fields ≠ [] ∧
          validateFields [] contract.fields = .ok () := by
  unfold validateContract
  simp only [ok_bind, ok_require, exists_const]

theorem validateContract_valid {contract : TaskUsageContract}
    (h : validateContract contract = .ok ()) : contract.Valid := by
  obtain ⟨hunits, hkeys⟩ := (validateFields_iff _ _).mp ((validateContract_iff contract).mp h).2.2.2
  exact ⟨fun f hf => (hunits f hf).1, hkeys⟩

/-- Two contracts that differ in the order of their fields only. -/
structure TaskUsageContract.Reorders (c c' : TaskUsageContract) : Prop where
  sourceID : c.sourceID = c'.sourceID
  schemaVersion : c.schemaVersion = c'.schemaVersion
  fields : c.fields.Perm c'.fields

theorem validateContract_reorders {c c' : TaskUsageContract} (h : c.Reorders c')
    (hc : validateContract c = .ok ()) : validateContract c' = .ok () := by
  rw [validateContract_iff, validateFields_iff] at hc ⊢
  obtain ⟨hsource, hversion, hne, hfields, hkeys⟩ := hc
  rw [← h.sourceID, ← h.schemaVersion]
  refine ⟨hsource, hversion, fun hnil => hne ?_, ?_, ?_⟩
  · exact List.Perm.eq_nil (hnil ▸ h.fields)
  · intro f hf
    exact hfields f (h.fields.mem_iff.mpr hf)
  · exact (h.fields.map TaskUsageFieldContract.key).nodup_iff.mp hkeys

/-! ### Orders of fields -/

/-- The fields as they are digested. -/
def sortedFields (fields : List TaskUsageFieldContract) : List TaskUsageFieldContract :=
  fields.insertionSort fun a b => a.key ≤ b.key

theorem mem_sortedFields {fields : List TaskUsageFieldContract} {f : TaskUsageFieldContract} :
    f ∈ sortedFields fields ↔ f ∈ fields := (List.perm_insertionSort _ fields).mem_iff

instance : Std.Total fun a b : TaskUsageFieldContract => a.key ≤ b.key :=
  ⟨fun a b => String.le_total a.key b.key⟩

instance : IsTrans TaskUsageFieldContract fun a b => a.key ≤ b.key :=
  ⟨fun _ _ _ => String.le_trans⟩

theorem sortedFields_sorted (fields : List TaskUsageFieldContract) :
    (sortedFields fields).Pairwise fun a b => a.key ≤ b.key := List.pairwise_insertionSort _ fields

/-- Fields with distinct keys are sorted to the same list exactly if they differ in their order
only. -/
theorem sortedFields_eq_iff {fields fields' : List TaskUsageFieldContract}
    (hkeys : (fields.map TaskUsageFieldContract.key).Nodup) :
    sortedFields fields = sortedFields fields' ↔ fields.Perm fields' := by
  have hperm := List.perm_insertionSort (fun a b : TaskUsageFieldContract => a.key ≤ b.key) fields
  have hperm' := List.perm_insertionSort (fun a b : TaskUsageFieldContract => a.key ≤ b.key) fields'
  constructor
  · intro h
    have heq : (sortedFields fields).Perm (sortedFields fields') := h ▸ List.Perm.refl _
    exact hperm.symm.trans (heq.trans hperm')
  · intro h
    refine List.Perm.eq_of_pairwise ?_ (sortedFields_sorted fields) (sortedFields_sorted fields')
      (hperm.trans (h.trans hperm'.symm))
    intro a b ha hb hab hba
    have hkey : a.key = b.key := String.le_antisymm hab hba
    exact List.inj_on_of_nodup_map hkeys (mem_sortedFields.mp ha)
      (h.mem_iff.mpr (mem_sortedFields.mp hb)) hkey

/-! ### The digested text -/

theorem pointerString_injective {x y : Option ℤ} (h : pointerString x = pointerString y) :
    x = y := by
  have habsent : ∀ n : ℤ, "absent" ≠ toString n := by
    intro n hn
    have hmem : 'a' ∈ (toString n).toList := by
      rw [← hn]
      decide
    rcases Decimal.isDigit_or_sign hmem with hc | hc
    · exact absurd hc (by decide)
    · exact absurd hc (by decide)
  cases x with
  | none =>
      cases y with
      | none => rfl
      | some n => exact absurd h (habsent n)
  | some m =>
      cases y with
      | none => exact absurd h.symm (habsent m)
      | some n => rw [Decimal.int_injective h]

theorem break_notMem_pointerString (x : Option ℤ) : '\n' ∉ (pointerString x).toList := by
  cases x with
  | none => decide
  | some n =>
      intro hmem
      rcases Decimal.isDigit_or_sign hmem with hc | hc
      · exact absurd hc (by decide)
      · exact absurd hc (by decide)

/-- The lines of a field. -/
def TaskUsageFieldContract.lines (f : TaskUsageFieldContract) : List (List Char) :=
  ["field=".toList ++ f.key.toList, "unit=".toList ++ f.unit.toList,
    "required=".toList ++ (toString f.requiredForTerminal).toList,
    "min=".toList ++ (pointerString f.minValue).toList,
    "max=".toList ++ (pointerString f.maxValue).toList]

theorem TaskUsageFieldContract.lines_injective {f g : TaskUsageFieldContract}
    (h : f.lines = g.lines) : f = g := by
  unfold TaskUsageFieldContract.lines at h
  simp only [List.cons.injEq, List.append_cancel_left_eq, String.toList_inj, and_true] at h
  obtain ⟨hkey, hunit, hrequired, hmin, hmax⟩ := h
  have hbool : f.requiredForTerminal = g.requiredForTerminal := by
    cases hf : f.requiredForTerminal <;> cases hg : g.requiredForTerminal <;>
      simp_all [toString]
  cases f
  cases g
  simp only [TaskUsageFieldContract.mk.injEq]
  exact ⟨hkey, hunit, hbool, pointerString_injective hmin, pointerString_injective hmax⟩

theorem fieldLines_injective {fields fields' : List TaskUsageFieldContract}
    (h : fields.flatMap TaskUsageFieldContract.lines =
      fields'.flatMap TaskUsageFieldContract.lines) : fields = fields' := by
  induction fields generalizing fields' with
  | nil =>
      cases fields' with
      | nil => rfl
      | cons g fields' =>
          rw [List.flatMap_cons] at h
          exact absurd (congrArg List.length h) (by simp [TaskUsageFieldContract.lines])
  | cons f fields ih =>
      cases fields' with
      | nil =>
          rw [List.flatMap_cons] at h
          exact absurd (congrArg List.length h) (by simp [TaskUsageFieldContract.lines])
      | cons g fields' =>
          rw [List.flatMap_cons, List.flatMap_cons] at h
          obtain ⟨hlines, hrest⟩ := List.append_inj h rfl
          rw [TaskUsageFieldContract.lines_injective hlines, ih hrest]

theorem mem_of_lookup {α β : Type} [DecidableEq α] {l : List (α × β)} {a : α} {b : β}
    (h : l.lookup a = some b) : (a, b) ∈ l := by
  induction l with
  | nil => simp at h
  | cons p l ih =>
      rw [List.lookup_cons] at h
      split at h
      next heq =>
        rw [beq_iff_eq] at heq
        have hb : p.2 = b := Option.some_inj.mp h
        rw [heq, ← hb]
        exact List.mem_cons_self
      · exact List.mem_cons_of_mem _ (ih h)

/-- The lines of a field are lines, and none begins like that of the version. -/
theorem fieldLines_ok {f : TaskUsageFieldContract}
    (hunit : canonicalFieldUnits.lookup f.key = some f.unit) :
    ∀ l ∈ f.lines, '\n' ∉ l ∧ l.head? ≠ some 's' := by
  have hall : ∀ p ∈ canonicalFieldUnits, '\n' ∉ p.1.toList ∧ '\n' ∉ p.2.toList := by decide
  obtain ⟨hkey, hunit⟩ := hall _ (mem_of_lookup hunit)
  have hrequired : '\n' ∉ (toString f.requiredForTerminal).toList := by
    cases f.requiredForTerminal <;> decide
  intro l hl
  unfold TaskUsageFieldContract.lines at hl
  simp only [List.mem_cons, List.not_mem_nil, or_false] at hl
  rcases hl with rfl | rfl | rfl | rfl | rfl
  · exact ⟨List.not_mem_append (by decide) hkey, by simp⟩
  · exact ⟨List.not_mem_append (by decide) hunit, by simp⟩
  · exact ⟨List.not_mem_append (by decide) hrequired, by simp⟩
  · exact ⟨List.not_mem_append (by decide) (break_notMem_pointerString _), by simp⟩
  · exact ⟨List.not_mem_append (by decide) (break_notMem_pointerString _), by simp⟩

theorem canonical_toList (f : TaskUsageFieldContract) :
    f.canonical.toList = Lines.unlines f.lines := by
  unfold TaskUsageFieldContract.canonical TaskUsageFieldContract.lines Lines.unlines
  simp [String.toList_append]

/-- The text that `contractDigest` hashes. -/
def TaskUsageContract.canonical (c : TaskUsageContract) : String :=
  "source_id=" ++ c.sourceID ++ "\nschema_version=" ++ toString c.schemaVersion ++ "\n" ++
    String.join ((sortedFields c.fields).map TaskUsageFieldContract.canonical)

theorem contractDigest_ok {sha256Hex : String → String} {c : TaskUsageContract} {digest : String} :
    contractDigest sha256Hex c = .ok digest ↔
      validateContract c = .ok () ∧ sha256Hex c.canonical = digest := by
  unfold contractDigest
  simp only [ok_bind, ok_pure]
  constructor
  · rintro ⟨_, hvalid, hdigest⟩
    exact ⟨hvalid, hdigest⟩
  · rintro ⟨hvalid, hdigest⟩
    exact ⟨(), hvalid, hdigest⟩

def versionLine (c : TaskUsageContract) : List Char :=
  "schema_version=".toList ++ (toString c.schemaVersion).toList

/-- The text of a contract is that of its source, of its version and of its fields. -/
theorem contract_toList (c : TaskUsageContract) :
    c.canonical.toList = ("source_id=".toList ++ c.sourceID.toList ++ ['\n']) ++
      Lines.unlines (versionLine c ::
        (sortedFields c.fields).flatMap TaskUsageFieldContract.lines) := by
  have hfields : ∀ fields : List TaskUsageFieldContract,
      (String.join (fields.map TaskUsageFieldContract.canonical)).toList =
        Lines.unlines (fields.flatMap TaskUsageFieldContract.lines) := by
    intro fields
    induction fields with
    | nil => rfl
    | cons f fields ih =>
        rw [List.map_cons, String.join_cons, String.toList_append, ih, canonical_toList,
          List.flatMap_cons, Lines.unlines_append]
  unfold TaskUsageContract.canonical versionLine
  rw [Lines.unlines_cons, String.toList_append, hfields]
  simp [String.toList_append]

/-- The text of a valid contract determines it up to the order of its fields. -/
theorem canonical_inj {c c' : TaskUsageContract} (hc : c.Valid) (hc' : c'.Valid)
    (h : c.canonical = c'.canonical) : c.Reorders c' := by
  have hlist := congrArg String.toList h
  rw [contract_toList, contract_toList] at hlist
  obtain ⟨source, hsource, hs⟩ := Lines.exists_unlines ("source_id=".toList ++ c.sourceID.toList)
  obtain ⟨source', hsource', hs'⟩ :=
    Lines.exists_unlines ("source_id=".toList ++ c'.sourceID.toList)
  rw [hs, hs', ← Lines.unlines_append, ← Lines.unlines_append] at hlist
  have hfields : ∀ {d : TaskUsageContract}, d.Valid →
      ∀ l ∈ (sortedFields d.fields).flatMap TaskUsageFieldContract.lines,
        '\n' ∉ l ∧ l.head? ≠ some 's' := by
    intro d hd l hl
    obtain ⟨f, hf, hl⟩ := List.mem_flatMap.mp hl
    exact fieldLines_ok (hd.units f (mem_sortedFields.mp hf)) l hl
  have hversion : ∀ d : TaskUsageContract, '\n' ∉ versionLine d := by
    intro d
    refine List.not_mem_append (by decide) ?_
    exact break_notMem_pointerString (some d.schemaVersion)
  have hlines : ∀ {d : TaskUsageContract}, d.Valid → ∀ {ls : List (List Char)},
      (∀ l ∈ ls, '\n' ∉ l) → ∀ l ∈ ls ++ versionLine d ::
        (sortedFields d.fields).flatMap TaskUsageFieldContract.lines, '\n' ∉ l := by
    intro d hd ls hls l hl
    rcases List.mem_append.mp hl with hl | hl
    · exact hls l hl
    · rcases List.mem_cons.mp hl with rfl | hl
      · exact hversion d
      · exact (hfields hd l hl).1
  have heq := Lines.unlines_inj (hlines hc hsource) (hlines hc' hsource') hlist
  obtain ⟨hss, hvv, hff⟩ := Lines.last_inj (p := fun l => l.head? = some 's') rfl rfl
    (fun l hl => (hfields hc l hl).2) (fun l hl => (hfields hc' l hl).2) heq
  refine ⟨?_, ?_, ?_⟩
  · have htext := hs.trans ((congrArg Lines.unlines hss).trans hs'.symm)
    exact String.toList_inj.mp (List.append_cancel_left (List.append_cancel_right htext))
  · exact Decimal.int_injective (String.toList_inj.mp (List.append_cancel_left hvv))
  · exact (sortedFields_eq_iff hc.keys).mp (fieldLines_injective hff)

theorem canonical_reorders {c c' : TaskUsageContract} (hc : c.Valid) (h : c.Reorders c') :
    c.canonical = c'.canonical := by
  unfold TaskUsageContract.canonical
  rw [h.sourceID, h.schemaVersion, (sortedFields_eq_iff hc.keys).mpr h.fields]

/-- Digests of two contracts are equal exactly if the contracts differ in the order of their fields
only. -/
theorem contractDigest_eq_iff {sha256Hex : String → String} (hinj : Function.Injective sha256Hex)
    {c c' : TaskUsageContract} {digest digest' : String}
    (h : contractDigest sha256Hex c = .ok digest) (h' : contractDigest sha256Hex c' = .ok digest') :
    digest = digest' ↔ c.Reorders c' := by
  obtain ⟨hvalid, rfl⟩ := contractDigest_ok.mp h
  obtain ⟨hvalid', rfl⟩ := contractDigest_ok.mp h'
  have hc := validateContract_valid hvalid
  have hc' := validateContract_valid hvalid'
  exact ⟨fun heq => canonical_inj hc hc' (hinj heq),
    fun hre => congrArg sha256Hex (canonical_reorders hc hre)⟩

theorem contractDigest_reorders {sha256Hex : String → String} {c c' : TaskUsageContract}
    {digest : String} (h : c.Reorders c') (hc : contractDigest sha256Hex c = .ok digest) :
    contractDigest sha256Hex c' = .ok digest := by
  obtain ⟨hvalid, hdigest⟩ := contractDigest_ok.mp hc
  rw [contractDigest_ok, ← canonical_reorders (validateContract_valid hvalid) h]
  exact ⟨validateContract_reorders h hvalid, hdigest⟩

end MaxApi.TaskBilling
