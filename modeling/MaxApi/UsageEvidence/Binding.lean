import MaxApi.UsageEvidence.Envelope

/-! # Usage envelopes bind their facts

What `validateEnvelope` accepts is a property of the contract and the envelope that does not depend
on the order of the fields or of the walk (`validateEnvelope_iff`).  The text under an evidence
digest determines the stage, the classification and the facts, and the keys that it covers, so that
the digest of the contract's fields and the legacy digest are never equal. -/

namespace MaxApi.UsageEvidence

open Checked MaxApi.TaskBilling

/-! ### Facts -/

/-- What the presence and the completeness of facts say about them. -/
inductive Describes (contract : TaskUsageContract) (usage : Option TaskUsage) :
    String → String → Prop where
  | missing (facts : ∀ key, usageValues usage key = none) :
      Describes contract usage "missing" "not_present"
  | partly (facts : ∃ key value, usageValues usage key = some value) :
      Describes contract usage "partial" "partial"
  | invalid : Describes contract usage "invalid" "invalid"
  | ambiguous : Describes contract usage "ambiguous" "ambiguous"
  | zero (required : ∀ f ∈ contract.fields, f.requiredForTerminal → usageValues usage f.key ≠ none)
      (facts : ∃ key value, usageValues usage key = some value)
      (zero : ∀ key value, usageValues usage key = some value → value = 0) :
      Describes contract usage "complete" "present_zero"
  | valid (required : ∀ f ∈ contract.fields, f.requiredForTerminal → usageValues usage f.key ≠ none)
      (facts : ∃ key value, usageValues usage key = some value ∧ value ≠ 0) :
      Describes contract usage "complete" "present_valid"

/-- Facts that a contract admits, with their classification. -/
structure Admits (contract : TaskUsageContract) (usage : Option TaskUsage)
    (completeness presence : String) : Prop where
  declared : ∀ key value, usageValues usage key = some value →
    ∃ f ∈ contract.fields, f.key = key ∧ (Counted completeness → Within f value)
  tokens : Counted completeness → ∀ a ∈ usageValues usage "completion_tokens",
    ∀ b ∈ usageValues usage "total_tokens", a ≤ b
  describes : Describes contract usage completeness presence

theorem usageValues_key {usage : Option TaskUsage} {key : String} {value : ℤ}
    (h : usageValues usage key = some value) : key ∈ legacyEvidenceFieldOrder := by
  unfold usageValues at h
  obtain ⟨u, -, h⟩ := Option.bind_eq_some_iff.mp h
  by_contra hkey
  unfold legacyEvidenceFieldOrder at hkey
  simp only [List.mem_cons, List.not_mem_nil, or_false, not_or] at hkey
  obtain ⟨h1, h2, h3, h4, h5, h6, h7, h8⟩ := hkey
  rw [if_neg h1, if_neg h2, if_neg h3, if_neg h4, if_neg h5, if_neg h6, if_neg h7, if_neg h8] at h
  cases h

theorem Walk.mem_facts {walk : Walk} {usage : Option TaskUsage} {key : String} {value : ℤ} :
    (key, value) ∈ walk.facts usage ↔ usageValues usage key = some value := by
  unfold Walk.facts
  rw [List.mem_filterMap]
  constructor
  · rintro ⟨k, -, h⟩
    obtain ⟨v, hv, heq⟩ := Option.map_eq_some_iff.mp h
    obtain ⟨rfl, rfl⟩ := Prod.mk.inj heq
    exact hv
  · intro h
    refine ⟨key, walk.perm.mem_iff.mpr (usageValues_key h), ?_⟩
    rw [h]
    rfl

theorem Walk.facts_empty {walk : Walk} {usage : Option TaskUsage} :
    (walk.facts usage).length = 0 ↔ ∀ key, usageValues usage key = none := by
  rw [List.length_eq_zero_iff, List.eq_nil_iff_forall_not_mem]
  constructor
  · intro h key
    cases hkey : usageValues usage key with
    | none => rfl
    | some value => exact absurd (Walk.mem_facts.mpr hkey) (h _)
  · rintro h ⟨key, value⟩ hmem
    rw [Walk.mem_facts, h key] at hmem
    cases hmem

theorem Walk.facts_nonempty {walk : Walk} {usage : Option TaskUsage} :
    (walk.facts usage).length ≠ 0 ↔ ∃ key value, usageValues usage key = some value := by
  rw [Ne, Walk.facts_empty, not_forall]
  exact exists_congr fun key => Option.ne_none_iff_exists'

theorem allowed_iff {contract : TaskUsageContract} (hvalid : contract.Valid) {key : String}
    {f : TaskUsageFieldContract} :
    allowed contract key = some f ↔ f ∈ contract.fields ∧ f.key = key := by
  unfold allowed
  constructor
  · intro h
    have hkey := List.find?_some h
    exact ⟨List.mem_reverse.mp (List.mem_of_find?_eq_some h), by simpa using hkey⟩
  · rintro ⟨hf, hkey⟩
    cases hg : contract.fields.reverse.find? (·.key = key) with
    | none =>
        have hnot := List.find?_eq_none.mp hg f (List.mem_reverse.mpr hf)
        simp [hkey] at hnot
    | some g =>
        have hgkey : g.key = key := by simpa using List.find?_some hg
        have hgmem := List.mem_reverse.mp (List.mem_of_find?_eq_some hg)
        rw [List.inj_on_of_nodup_map hvalid.keys hgmem hf (hgkey.trans hkey.symm)]

theorem validateFacts_iff {contract : TaskUsageContract} (hvalid : contract.Valid)
    {completeness : String} {facts : List (String × ℤ)} :
    validateFacts contract completeness facts = .ok () ↔
      ∀ p ∈ facts, ∃ f ∈ contract.fields, f.key = p.1 ∧
        (Counted completeness → Within f p.2) := by
  induction facts with
  | nil => simp [validateFacts]
  | cons p facts ih =>
      obtain ⟨key, value⟩ := p
      unfold validateFacts
      simp only [ok_bind, ok_orThrow, ok_require, ih, allowed_iff hvalid, List.forall_mem_cons]
      constructor
      · rintro ⟨f, ⟨hf, hkey⟩, -, hwithin, hrest⟩
        exact ⟨⟨f, hf, hkey, hwithin⟩, hrest⟩
      · rintro ⟨⟨f, hf, hkey, hwithin⟩, hrest⟩
        exact ⟨f, ⟨hf, hkey⟩, (), hwithin, hrest⟩

theorem validateRequired_iff {usage : Option TaskUsage} {fields : List TaskUsageFieldContract}
    {u : Unit} : validateRequired usage fields = .ok u ↔
      ∀ f ∈ fields, f.requiredForTerminal → usageValues usage f.key ≠ none := by
  induction fields with
  | nil => simp [validateRequired]
  | cons f fields ih =>
      unfold validateRequired
      simp only [ok_bind, ok_require, ih, List.forall_mem_cons]
      constructor
      · rintro ⟨-, hf, hrest⟩
        exact ⟨hf, hrest⟩
      · rintro ⟨hf, hrest⟩
        exact ⟨(), hf, hrest⟩

theorem Walk.allZero_iff {walk : Walk} {usage : Option TaskUsage} :
    (walk.facts usage).all (·.2 = 0) = true ↔
      ∀ key value, usageValues usage key = some value → value = 0 := by
  rw [List.all_eq_true]
  constructor
  · intro h key value hkey
    simpa using h (key, value) (Walk.mem_facts.mpr hkey)
  · rintro h ⟨key, value⟩ hmem
    simpa using h key value (Walk.mem_facts.mp hmem)

/-- The switch returns what describes the facts. -/
theorem usagePresence_describes {walk : Walk} {contract : TaskUsageContract}
    {usage : Option TaskUsage} {completeness presence : String}
    (h : usagePresence contract usage (walk.facts usage) completeness = .ok presence) :
    Describes contract usage completeness presence := by
  unfold usagePresence at h
  dsimp only at h
  split at h
  next hmissing =>
    simp only [ok_bind, ok_require, ok_pure] at h
    obtain ⟨-, hnone, rfl⟩ := h
    rw [hmissing]
    exact .missing (Walk.facts_empty.mp hnone)
  split at h
  next hpart =>
    simp only [ok_bind, ok_require, ok_pure] at h
    obtain ⟨-, hsome, rfl⟩ := h
    rw [hpart]
    exact .partly (Walk.facts_nonempty.mp hsome)
  split at h
  next hinvalid =>
    rw [hinvalid, ← ok_pure.mp h]
    exact .invalid
  split at h
  next hambiguous =>
    rw [hambiguous, ← ok_pure.mp h]
    exact .ambiguous
  split at h
  next hcomplete =>
    simp only [ok_bind, ok_require, ok_pure, validateRequired_iff] at h
    obtain ⟨-, hrequired, -, hsome, rfl⟩ := h
    rw [hcomplete]
    split
    next hzero =>
      exact .zero hrequired (Walk.facts_nonempty.mp hsome) (Walk.allZero_iff.mp hzero)
    next hnonzero =>
      rw [Walk.allZero_iff] at hnonzero
      push Not at hnonzero
      exact .valid hrequired hnonzero
  · exact absurd h ok_throw

theorem usagePresence_of_describes {walk : Walk} {contract : TaskUsageContract}
    {usage : Option TaskUsage} {completeness presence : String}
    (h : Describes contract usage completeness presence) :
    usagePresence contract usage (walk.facts usage) completeness = .ok presence := by
  unfold usagePresence
  cases h with
  | missing facts =>
      rw [if_pos rfl]
      simp only [ok_bind, ok_require, ok_pure]
      exact ⟨(), Walk.facts_empty.mpr facts, trivial⟩
  | partly facts =>
      rw [if_neg (by decide), if_pos rfl]
      simp only [ok_bind, ok_require, ok_pure]
      exact ⟨(), Walk.facts_nonempty.mpr facts, trivial⟩
  | invalid => rfl
  | ambiguous => rfl
  | zero required facts zero =>
      have hall : (walk.facts usage).all (·.2 = 0) = true := Walk.allZero_iff.mpr zero
      rw [if_neg (by decide), if_neg (by decide), if_neg (by decide), if_neg (by decide),
        if_pos rfl]
      simp only [ok_bind, ok_require, ok_pure, validateRequired_iff]
      exact ⟨(), required, (), Walk.facts_nonempty.mpr facts, if_pos hall⟩
  | valid required facts =>
      obtain ⟨key, value, hkey, hne⟩ := facts
      have hall : ¬ (walk.facts usage).all (·.2 = 0) = true := by
        intro h
        exact hne (Walk.allZero_iff.mp h key value hkey)
      rw [if_neg (by decide), if_neg (by decide), if_neg (by decide), if_neg (by decide),
        if_pos rfl]
      simp only [ok_bind, ok_require, ok_pure, validateRequired_iff]
      exact ⟨(), required, (), Walk.facts_nonempty.mpr ⟨key, value, hkey⟩, if_neg hall⟩

/-- `validateUsage` returns a presence exactly if the contract admits the facts with it. -/
theorem validateUsage_iff {walk : Walk} {contract : TaskUsageContract} (hvalid : contract.Valid)
    {usage : Option TaskUsage} {completeness presence : String} :
    validateUsage walk contract usage completeness = .ok presence ↔
      Admits contract usage completeness presence := by
  unfold validateUsage
  simp only [ok_bind, ok_require, validateFacts_iff hvalid]
  constructor
  · rintro ⟨-, hdeclared, -, htokens, hpresence⟩
    refine ⟨fun key value hkey => ?_, htokens, usagePresence_describes hpresence⟩
    exact hdeclared (key, value) (Walk.mem_facts.mpr hkey)
  · intro h
    refine ⟨(), ?_, (), h.tokens, usagePresence_of_describes h.describes⟩
    rintro ⟨key, value⟩ hmem
    exact h.declared key value (Walk.mem_facts.mp hmem)

/-- The order of the fields does not matter. -/
theorem Admits.reorders {c c' : TaskUsageContract} (hre : c.Reorders c') {usage : Option TaskUsage}
    {completeness presence : String} (h : Admits c usage completeness presence) :
    Admits c' usage completeness presence := by
  have hfields : ∀ f ∈ c'.fields, f ∈ c.fields := fun f hf => hre.fields.mem_iff.mpr hf
  refine ⟨fun key value hkey => ?_, h.tokens, ?_⟩
  · obtain ⟨f, hf, hwithin⟩ := h.declared key value hkey
    exact ⟨f, hre.fields.mem_iff.mp hf, hwithin⟩
  · cases h.describes with
    | missing facts => exact .missing facts
    | partly facts => exact .partly facts
    | invalid => exact .invalid
    | ambiguous => exact .ambiguous
    | zero required facts zero => exact .zero (fun f hf => required f (hfields f hf)) facts zero
    | valid required facts => exact .valid (fun f hf => required f (hfields f hf)) facts

/-! ### Envelopes -/

/-- The completeness of a usage; one that is `nil` is missing. -/
def completenessOf (usage : Option TaskUsage) : String :=
  match usage with
  | none => "missing"
  | some u => u.completeness

section digests

variable {sha256Hex : String → String}

/-- An envelope that belongs to a contract. -/
structure Belongs (sha256Hex : String → String) (contract : TaskUsageContract)
    (env : TaskUsageEnvelope) : Prop where
  producer : validProducer env.producerKind = true
  stage : validStage env.stage = true
  sourceID : env.sourceID = contract.sourceID
  schemaVersion : env.schemaVersion = contract.schemaVersion
  digest : contractDigest sha256Hex contract = .ok env.contractDigest
  source : ∀ u ∈ env.usage, u.source = env.stage ∧ validCompleteness u.completeness = true
  completeness : env.completeness = completenessOf env.usage
  admits : Admits contract env.usage env.completeness env.presence

theorem checkedCompleteness_iff {stage completeness : String} {usage : Option TaskUsage} :
    checkedCompleteness stage usage = .ok completeness ↔
      (∀ u ∈ usage, u.source = stage ∧ validCompleteness u.completeness = true) ∧
        completeness = completenessOf usage := by
  unfold checkedCompleteness
  cases usage with
  | none =>
      rw [ok_pure]
      constructor
      · intro h
        exact ⟨by simp, h.symm⟩
      · rintro ⟨-, h⟩
        exact h.symm
  | some u =>
      simp only [ok_bind, ok_require, ok_pure, completenessOf, Option.mem_some_iff,
        forall_eq']
      constructor
      · rintro ⟨-, hsource, -, hvalid, rfl⟩
        exact ⟨⟨hsource, hvalid⟩, rfl⟩
      · rintro ⟨⟨hsource, hvalid⟩, rfl⟩
        exact ⟨(), hsource, (), hvalid, rfl⟩

/-- `buildEnvelope` returns the envelopes that belong to the contract, with the digest of its
fields. -/
theorem buildEnvelope_iff {walk : Walk} {producerKind : String} {contract : TaskUsageContract}
    {stage : String} {usage : Option TaskUsage} {env : TaskUsageEnvelope} :
    buildEnvelope sha256Hex walk producerKind contract stage usage = .ok env ↔
      Belongs sha256Hex contract env ∧ env.producerKind = producerKind ∧ env.stage = stage ∧
        env.usage = usage ∧ env.evidenceDigest =
          evidenceDigest sha256Hex contract stage env.presence env.completeness usage := by
  unfold buildEnvelope
  simp only [ok_bind, ok_require, ok_pure, checkedCompleteness_iff]
  constructor
  · rintro ⟨-, hproducer, -, hstage, digest, hdigest, completeness, ⟨hsource, rfl⟩, presence,
      hpresence, rfl⟩
    have hvalid := validateContract_valid (contractDigest_ok.mp hdigest).1
    rw [validateUsage_iff hvalid] at hpresence
    exact ⟨⟨hproducer, hstage, rfl, rfl, hdigest, hsource, rfl, hpresence⟩, rfl, rfl, rfl, rfl⟩
  · rintro ⟨hbelongs, hproducer, hstage, husage, hevidence⟩
    have hvalid := validateContract_valid (contractDigest_ok.mp hbelongs.digest).1
    subst hproducer hstage husage
    refine ⟨(), hbelongs.producer, (), hbelongs.stage, env.contractDigest, hbelongs.digest,
      env.completeness, ⟨hbelongs.source, hbelongs.completeness⟩, env.presence,
      (validateUsage_iff hvalid).mpr hbelongs.admits, ?_⟩
    rw [← hbelongs.sourceID, ← hbelongs.schemaVersion, ← hevidence]

/-- `validateEnvelope` accepts the envelopes that belong to the contract, with the digest of its
fields or the legacy digest. -/
theorem validateEnvelope_iff {walk : Walk} {contract : TaskUsageContract}
    {env : TaskUsageEnvelope} {expectedProducerKind : String} :
    validateEnvelope sha256Hex walk contract (some env) expectedProducerKind = .ok () ↔
      Belongs sha256Hex contract env ∧ env.producerKind = expectedProducerKind ∧
        (env.evidenceDigest =
            evidenceDigest sha256Hex contract env.stage env.presence env.completeness env.usage ∨
          legacyEvidenceDigestAllowed contract ∧ env.evidenceDigest =
            legacyEvidenceDigest sha256Hex env.stage env.presence env.completeness env.usage) := by
  unfold validateEnvelope
  simp only [ok_bind, ok_orThrow, ok_require, buildEnvelope_iff]
  constructor
  · rintro ⟨_, heq, -, hproducer, -, hexpected, expected, ⟨hbelongs, hkind, hstage, husage,
      hevidence⟩, -, ⟨hsource, hversion, hdigest, hpresence, hcompleteness⟩, hdigests⟩
    obtain rfl := Option.some_inj.mp heq
    refine ⟨⟨?_, ?_, ?_, ?_, ?_, ?_, ?_, ?_⟩, hexpected, ?_⟩
    · rw [hexpected]
      exact hproducer
    · rw [← hstage]
      exact hbelongs.stage
    · rw [hsource, hbelongs.sourceID]
    · rw [hversion, hbelongs.schemaVersion]
    · rw [hdigest]
      exact hbelongs.digest
    · rw [← husage, ← hstage]
      exact hbelongs.source
    · rw [hcompleteness, ← husage]
      exact hbelongs.completeness
    · rw [hcompleteness, hpresence, ← husage]
      exact hbelongs.admits
    · rw [hpresence, hcompleteness, ← hevidence, ← hpresence, ← hcompleteness]
      exact hdigests
  · rintro ⟨hbelongs, hproducer, hdigests⟩
    let digest := evidenceDigest sha256Hex contract env.stage env.presence env.completeness
      env.usage
    refine ⟨env, rfl, (), hproducer ▸ hbelongs.producer, (), hproducer,
      { env with evidenceDigest := digest }, ?_, (), ⟨rfl, rfl, rfl, rfl, rfl⟩, hdigests⟩
    refine ⟨⟨hbelongs.producer, hbelongs.stage, hbelongs.sourceID, hbelongs.schemaVersion,
      hbelongs.digest, hbelongs.source, hbelongs.completeness, hbelongs.admits⟩, hproducer, rfl,
      rfl, rfl⟩

theorem Belongs.reorders {c c' : TaskUsageContract} (hre : c.Reorders c') {env : TaskUsageEnvelope}
    (h : Belongs sha256Hex c env) : Belongs sha256Hex c' env where
  producer := h.producer
  stage := h.stage
  sourceID := h.sourceID.trans hre.sourceID
  schemaVersion := h.schemaVersion.trans hre.schemaVersion
  digest := contractDigest_reorders hre h.digest
  source := h.source
  completeness := h.completeness
  admits := h.admits.reorders hre

theorem Belongs.valid {c : TaskUsageContract} {env : TaskUsageEnvelope}
    (h : Belongs sha256Hex c env) : c.Valid :=
  validateContract_valid (contractDigest_ok.mp h.digest).1

end digests

/-! ### Texts of evidence -/

/-- The keys of the fields, as they are digested. -/
def sortedKeys (contract : TaskUsageContract) : List String :=
  (sortedFields contract.fields).map TaskUsageFieldContract.key

/-- A string without line breaks and `=`. -/
def Plain (s : String) : Prop := '\n' ∉ s.toList ∧ '=' ∉ s.toList

instance (s : String) : Decidable (Plain s) := instDecidableAnd

/-- The line of a fact, without its line break. -/
def factChars (usage : Option TaskUsage) (key : String) : List Char :=
  key.toList ++ '=' :: (pointerString (usageValues usage key)).toList

/-- The lines under an evidence digest. -/
def evidenceLines (keys : List String) (stage presence completeness : String)
    (usage : Option TaskUsage) : List (List Char) :=
  ("stage=".toList ++ stage.toList) :: ("presence=".toList ++ presence.toList) ::
    ("completeness=".toList ++ completeness.toList) :: keys.map (factChars usage)

theorem evidenceText_toList (keys : List String) (stage presence completeness : String)
    (usage : Option TaskUsage) :
    (evidenceText keys stage presence completeness usage).toList =
      Lines.unlines (evidenceLines keys stage presence completeness usage) := by
  have hfacts : (String.join (keys.map (factLine usage))).toList =
      Lines.unlines (keys.map (factChars usage)) := by
    induction keys with
    | nil => rfl
    | cons key keys ih =>
        rw [List.map_cons, List.map_cons, String.join_cons, String.toList_append, ih,
          Lines.unlines_cons]
        simp [factLine, factChars, String.toList_append]
  unfold evidenceText evidenceLines
  rw [String.toList_append, hfacts, Lines.unlines_cons, Lines.unlines_cons, Lines.unlines_cons]
  simp [String.toList_append]

theorem factChars_inj {keys keys' : List String} {usage usage' : Option TaskUsage}
    (hkeys : ∀ key ∈ keys, Plain key) (hkeys' : ∀ key ∈ keys', Plain key)
    (h : keys.map (factChars usage) = keys'.map (factChars usage')) :
    keys = keys' ∧ ∀ key ∈ keys, usageValues usage key = usageValues usage' key := by
  induction keys generalizing keys' with
  | nil =>
      rw [List.map_nil, eq_comm, List.map_eq_nil_iff] at h
      exact ⟨h.symm, by simp⟩
  | cons key keys ih =>
      cases keys' with
      | nil => cases h
      | cons key' keys' =>
          rw [List.map_cons, List.map_cons] at h
          obtain ⟨hline, hrest⟩ := List.cons.inj h
          obtain ⟨hkey, hvalue⟩ := Lines.append_cons_inj (hkeys key List.mem_cons_self).2
            (hkeys' key' List.mem_cons_self).2 hline
          obtain ⟨htail, hvalues⟩ := ih (fun k hk => hkeys k (List.mem_cons_of_mem _ hk))
            (fun k hk => hkeys' k (List.mem_cons_of_mem _ hk)) hrest
          obtain rfl : key = key' := String.toList_inj.mp hkey
          refine ⟨by rw [htail], fun k hk => ?_⟩
          rcases List.mem_cons.mp hk with rfl | hk
          · exact pointerString_injective (String.toList_inj.mp hvalue)
          · exact hvalues k hk

theorem break_notMem_evidenceLines {keys : List String} {stage presence completeness : String}
    {usage : Option TaskUsage} (hkeys : ∀ key ∈ keys, Plain key) (hs : Plain stage)
    (hp : Plain presence) (hc : Plain completeness) :
    ∀ l ∈ evidenceLines keys stage presence completeness usage, '\n' ∉ l := by
  intro l hl
  unfold evidenceLines at hl
  rcases List.mem_cons.mp hl with rfl | hl
  · exact List.not_mem_append (by decide) hs.1
  rcases List.mem_cons.mp hl with rfl | hl
  · exact List.not_mem_append (by decide) hp.1
  rcases List.mem_cons.mp hl with rfl | hl
  · exact List.not_mem_append (by decide) hc.1
  · obtain ⟨key, hkey, rfl⟩ := List.mem_map.mp hl
    refine List.not_mem_append (hkeys key hkey).1 fun hm => ?_
    rcases List.mem_cons.mp hm with heq | hm
    · exact absurd heq (by decide)
    · exact break_notMem_pointerString _ hm

/-- The text under an evidence digest determines the keys that it covers and all that it says. -/
theorem evidenceText_inj {keys keys' : List String} {stage presence completeness stage' presence'
    completeness' : String} {usage usage' : Option TaskUsage}
    (hkeys : ∀ key ∈ keys, Plain key) (hkeys' : ∀ key ∈ keys', Plain key)
    (hs : Plain stage) (hp : Plain presence) (hc : Plain completeness)
    (hs' : Plain stage') (hp' : Plain presence') (hc' : Plain completeness')
    (h : evidenceText keys stage presence completeness usage =
      evidenceText keys' stage' presence' completeness' usage') :
    stage = stage' ∧ presence = presence' ∧ completeness = completeness' ∧ keys = keys' ∧
      ∀ key ∈ keys, usageValues usage key = usageValues usage' key := by
  have hlist := congrArg String.toList h
  rw [evidenceText_toList, evidenceText_toList] at hlist
  have hlines := Lines.unlines_inj (break_notMem_evidenceLines hkeys hs hp hc)
    (break_notMem_evidenceLines hkeys' hs' hp' hc') hlist
  unfold evidenceLines at hlines
  obtain ⟨hstage, hlines⟩ := List.cons.inj hlines
  obtain ⟨hpresence, hlines⟩ := List.cons.inj hlines
  obtain ⟨hcompleteness, hlines⟩ := List.cons.inj hlines
  exact ⟨String.toList_inj.mp (List.append_cancel_left hstage),
    String.toList_inj.mp (List.append_cancel_left hpresence),
    String.toList_inj.mp (List.append_cancel_left hcompleteness),
    factChars_inj hkeys hkeys' hlines⟩

/-! ### Envelopes and their digests -/

theorem plain_of_lookup {key unit : String} (h : canonicalFieldUnits.lookup key = some unit) :
    Plain key := by
  have hall : ∀ p ∈ canonicalFieldUnits, Plain p.1 := by decide
  exact hall _ (mem_of_lookup h)

theorem plain_legacy : ∀ key ∈ legacyEvidenceFieldOrder, Plain key := by decide

theorem plain_sortedKeys {contract : TaskUsageContract} (hvalid : contract.Valid) :
    ∀ key ∈ sortedKeys contract, Plain key := by
  intro key hkey
  obtain ⟨f, hf, rfl⟩ := List.mem_map.mp hkey
  exact plain_of_lookup (hvalid.units f (mem_sortedFields.mp hf))

theorem Describes.plain {contract : TaskUsageContract} {usage : Option TaskUsage}
    {completeness presence : String} (h : Describes contract usage completeness presence) :
    Plain completeness ∧ Plain presence := by
  cases h <;> decide

theorem plain_stage {stage : String} (h : validStage stage = true) : Plain stage := by
  unfold validStage at h
  rw [decide_eq_true_iff] at h
  have hall : ∀ s ∈ ["request_estimate", "provider_response", "callback", "manual_reconcile"],
      Plain s := by decide
  exact hall stage h

/-- The sorted keys of a contract are not in the order of the legacy digest. -/
theorem sortedKeys_ne_legacy (contract : TaskUsageContract) :
    sortedKeys contract ≠ legacyEvidenceFieldOrder := by
  intro h
  have hsorted : (sortedKeys contract).Pairwise (· ≤ ·) :=
    List.pairwise_map.mpr (sortedFields_sorted contract.fields)
  rw [h] at hsorted
  exact absurd hsorted (by decide)

section binding

variable {sha256Hex : String → String} {c : TaskUsageContract} {env env' : TaskUsageEnvelope}

/-- The digests that an envelope may carry. -/
def Evidence (sha256Hex : String → String) (c : TaskUsageContract) (env : TaskUsageEnvelope) :
    Prop :=
  env.evidenceDigest =
      evidenceDigest sha256Hex c env.stage env.presence env.completeness env.usage ∨
    legacyEvidenceDigestAllowed c ∧ env.evidenceDigest =
      legacyEvidenceDigest sha256Hex env.stage env.presence env.completeness env.usage

theorem evidenceDigest_reorders {c' : TaskUsageContract} (hvalid : c.Valid) (hre : c.Reorders c')
    (stage presence completeness : String) (usage : Option TaskUsage) :
    evidenceDigest sha256Hex c stage presence completeness usage =
      evidenceDigest sha256Hex c' stage presence completeness usage := by
  have hsorted := (sortedFields_eq_iff hvalid.keys).mpr hre.fields
  unfold sortedFields at hsorted
  unfold evidenceDigest
  rw [hsorted]

theorem Evidence.reorders {c' : TaskUsageContract} (hvalid : c.Valid) (hre : c.Reorders c')
    (h : Evidence sha256Hex c env) : Evidence sha256Hex c' env := by
  unfold Evidence legacyEvidenceDigestAllowed at h ⊢
  rw [← evidenceDigest_reorders hvalid hre, ← hre.schemaVersion, ← hre.sourceID]
  exact h

/-- Facts that are equal on all keys of a contract that declares them are equal. -/
theorem usageValues_eq (h : Belongs sha256Hex c env) (h' : Belongs sha256Hex c env')
    (heq : ∀ key ∈ sortedKeys c, usageValues env.usage key = usageValues env'.usage key)
    (key : String) : usageValues env.usage key = usageValues env'.usage key := by
  by_cases hkey : key ∈ sortedKeys c
  · exact heq key hkey
  · have hnone : ∀ {e : TaskUsageEnvelope}, Belongs sha256Hex c e →
        usageValues e.usage key = none := by
      intro e he
      cases hvalue : usageValues e.usage key with
      | none => rfl
      | some value =>
          obtain ⟨f, hf, rfl, -⟩ := he.admits.declared key value hvalue
          exact absurd (List.mem_map_of_mem (mem_sortedFields.mpr hf)) hkey
    rw [hnone h, hnone h']

/-- Two envelopes of a contract with the same evidence digest say the same. -/
theorem evidence_inj (hinj : Function.Injective sha256Hex) (h : Belongs sha256Hex c env)
    (h' : Belongs sha256Hex c env') (he : Evidence sha256Hex c env)
    (he' : Evidence sha256Hex c env') (hdigest : env'.evidenceDigest = env.evidenceDigest) :
    env'.stage = env.stage ∧ env'.presence = env.presence ∧
      env'.completeness = env.completeness ∧
        ∀ key, usageValues env'.usage key = usageValues env.usage key := by
  obtain ⟨hc, hp⟩ := h.admits.describes.plain
  obtain ⟨hc', hp'⟩ := h'.admits.describes.plain
  have hs := plain_stage h.stage
  have hs' := plain_stage h'.stage
  have hkeys := plain_sortedKeys h.valid
  rcases he with he | ⟨-, he⟩
  · rcases he' with he' | ⟨-, he'⟩
    · rw [he, he'] at hdigest
      obtain ⟨hstage, hpresence, hcompleteness, -, hvalues⟩ :=
        evidenceText_inj hkeys hkeys hs' hp' hc' hs hp hc (hinj hdigest)
      exact ⟨hstage, hpresence, hcompleteness, usageValues_eq h' h hvalues⟩
    · rw [he, he'] at hdigest
      have hlegacy := (evidenceText_inj plain_legacy hkeys hs' hp' hc' hs hp hc
        (hinj hdigest)).2.2.2.1
      exact absurd hlegacy.symm (sortedKeys_ne_legacy c)
  · rcases he' with he' | ⟨-, he'⟩
    · rw [he, he'] at hdigest
      have hlegacy := (evidenceText_inj hkeys plain_legacy hs' hp' hc' hs hp hc
        (hinj hdigest)).2.2.2.1
      exact absurd hlegacy (sortedKeys_ne_legacy c)
    · rw [he, he'] at hdigest
      obtain ⟨hstage, hpresence, hcompleteness, -, hvalues⟩ :=
        evidenceText_inj plain_legacy plain_legacy hs' hp' hc' hs hp hc (hinj hdigest)
      refine ⟨hstage, hpresence, hcompleteness, fun key => ?_⟩
      by_cases hkey : key ∈ legacyEvidenceFieldOrder
      · exact hvalues key hkey
      · have hnone : ∀ usage : Option TaskUsage, usageValues usage key = none := by
          intro usage
          cases hvalue : usageValues usage key with
          | none => rfl
          | some value => exact absurd (usageValues_key hvalue) hkey
        rw [hnone, hnone]

/-- **Main.**  Contracts have the same digest exactly if they differ in the order of their fields
only; an envelope that is built is accepted under every order of the fields; and an accepted
envelope has only facts that its contract declares, in their ranges where they are counted, with the
presence and the completeness that describe them, and any other facts, stage, presence or
completeness are rejected under its digest. -/
theorem envelopes_bind_facts (sha256Hex : String → String)
    (hinj : Function.Injective sha256Hex) :
    (∀ c c' digest digest', contractDigest sha256Hex c = .ok digest →
      contractDigest sha256Hex c' = .ok digest' → (digest = digest' ↔ c.Reorders c')) ∧
    (∀ walk producerKind c stage usage env,
      buildEnvelope sha256Hex walk producerKind c stage usage = .ok env →
        ∀ walk' c', c.Reorders c' →
          validateEnvelope sha256Hex walk' c' (some env) producerKind = .ok ()) ∧
    ∀ walk c env producerKind,
      validateEnvelope sha256Hex walk c (some env) producerKind = .ok () →
        (∀ key value, usageValues env.usage key = some value →
          ∃ f ∈ c.fields, f.key = key ∧ (Counted env.completeness → Within f value)) ∧
        env.completeness = completenessOf env.usage ∧
        Describes c env.usage env.completeness env.presence ∧
        ∀ walk' c' env' producerKind', c.Reorders c' →
          env'.evidenceDigest = env.evidenceDigest →
            ((∃ key, usageValues env'.usage key ≠ usageValues env.usage key) ∨
              env'.stage ≠ env.stage ∨ env'.presence ≠ env.presence ∨
                env'.completeness ≠ env.completeness) →
              ∃ e, validateEnvelope sha256Hex walk' c' (some env') producerKind' = .error e := by
  refine ⟨fun c c' digest digest' => contractDigest_eq_iff hinj, ?_, ?_⟩
  · intro walk producerKind c stage usage env h walk' c' hre
    obtain ⟨hbelongs, hproducer, rfl, rfl, hevidence⟩ := buildEnvelope_iff.mp h
    rw [validateEnvelope_iff]
    refine ⟨hbelongs.reorders hre, hproducer, .inl ?_⟩
    rw [hevidence, evidenceDigest_reorders hbelongs.valid hre]
  · intro walk c env producerKind h
    obtain ⟨hbelongs, -, hevidence⟩ := validateEnvelope_iff.mp h
    refine ⟨hbelongs.admits.declared, hbelongs.completeness, hbelongs.admits.describes, ?_⟩
    intro walk' c' env' producerKind' hre hdigest hchanged
    cases hresult : validateEnvelope sha256Hex walk' c' (some env') producerKind' with
    | error e => exact ⟨e, rfl⟩
    | ok u =>
        obtain ⟨hbelongs', -, hevidence'⟩ := validateEnvelope_iff.mp hresult
        obtain ⟨hstage, hpresence, hcompleteness, hvalues⟩ := evidence_inj hinj
          (hbelongs.reorders hre) hbelongs' (Evidence.reorders hbelongs.valid hre hevidence)
          hevidence' hdigest
        rcases hchanged with ⟨key, hkey⟩ | hne | hne | hne
        · exact absurd (hvalues key) hkey
        · exact absurd hstage hne
        · exact absurd hpresence hne
        · exact absurd hcompleteness hne

end binding

/-! ### A concrete envelope -/

/-- The walk in the order in which the values are listed. -/
def listedWalk : Walk := ⟨legacyEvidenceFieldOrder, List.Perm.refl _⟩

/-- What a video provider reports. -/
def videoUsage (completionTokens totalTokens : ℤ) : TaskUsage where
  outputDurationMs := none
  inputVideoDurationMs := none
  inputAudioDurationMs := none
  inputImageCount := none
  inputVideoCount := none
  inputAudioCount := none
  completionTokens := some completionTokens
  totalTokens := some totalTokens
  source := "provider_response"
  completeness := "complete"

/-- An envelope that is built for a contract is accepted. -/
theorem envelopes_bind_facts_video :
    ∃ env, buildEnvelope id listedWalk "go_adapter" doubaoVideoContract "provider_response"
        (some (videoUsage 5 7)) = .ok env ∧
      validateEnvelope id listedWalk doubaoVideoContract (some env) "go_adapter" = .ok () := by
  have hbind := envelopes_bind_facts id Function.injective_id
  have hbuild : ∃ env, buildEnvelope id listedWalk "go_adapter" doubaoVideoContract
      "provider_response" (some (videoUsage 5 7)) = .ok env := ⟨_, rfl⟩
  obtain ⟨env, henv⟩ := hbuild
  exact ⟨env, henv, hbind.2.1 _ _ _ _ _ _ henv _ _ ⟨rfl, rfl, List.Perm.refl _⟩⟩

end MaxApi.UsageEvidence
