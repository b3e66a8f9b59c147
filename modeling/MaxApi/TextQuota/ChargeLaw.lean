import MaxApi.TextQuota.Summary

/-! # Text quotas: the law of charges

Each token that is billed belongs to one category with one price, and the charge is the sum of the
prices and the surcharge (`charge_by_token`).  The quota is in range (`quota_in_range`), and it
never falls when tokens or calls are added (`quota_rises`), unless the number of cache-creation
tokens is derived from the cost (`derived_quota_falls`). -/

namespace MaxApi.TextQuota

open Dto Int64Range

/-! ### Counts -/

/-- The counts of a usage are not negative, and their sums fit 64 bits. -/
structure BilledUsage.Counts (usage : BilledUsage) : Prop where
  prompt : 0 ≤ usage.promptTokens
  completion : 0 ≤ usage.completionTokens
  cached : 0 ≤ usage.promptTokensDetails.cachedTokens
  image : 0 ≤ usage.promptTokensDetails.imageTokens
  audio : 0 ≤ usage.promptTokensDetails.audioTokens
  creation5m : 0 ≤ usage.claudeCacheCreation5mTokens
  creation1h : 0 ≤ usage.claudeCacheCreation1hTokens
  total : usage.promptTokens + usage.completionTokens ≤ maxValue
  input : usage.promptTokensDetails.cachedTokens +
    usage.promptTokensDetails.cacheCreationTokensTotal ≤ maxValue
  creation : usage.claudeCacheCreation5mTokens + usage.claudeCacheCreation1hTokens ≤ maxValue

section counts

variable {settings : Settings} {info : RelayInfo} {usage : BilledUsage}

theorem effectiveUsage_counts {usage : Option BilledUsage} (hest : 0 ≤ info.estimatePromptTokens)
    (hmax : info.estimatePromptTokens ≤ maxValue) (hcounts : ∀ u ∈ usage, u.Counts) :
    (effectiveUsage info usage).Counts := by
  cases usage with
  | none =>
      have hzero : (0 : ℤ) ≤ maxValue := by decide
      refine ⟨hest, le_refl 0, le_refl 0, le_refl 0, le_refl 0, le_refl 0, le_refl 0, ?_, hzero,
        hzero⟩
      show info.estimatePromptTokens + 0 ≤ maxValue
      omega
  | some u => exact hcounts u rfl

theorem cacheCreationTokensTotal_nonneg (d : InputTokenDetails) :
    0 ≤ d.cacheCreationTokensTotal := by
  unfold InputTokenDetails.cacheCreationTokensTotal
  dsimp only
  split_ifs <;> omega

theorem cacheCreationTokens_nonneg : 0 ≤ cacheCreationTokens settings info usage := by
  have htotal := cacheCreationTokensTotal_nonneg usage.promptTokensDetails
  unfold cacheCreationTokens
  dsimp only
  split_ifs with _ hmaybe
  · exact hmaybe.1
  · exact htotal
  · exact htotal

theorem totalTokens_eq (h : usage.Counts) :
    totalTokens usage = usage.promptTokens + usage.completionTokens := by
  have hprompt := h.prompt
  have hcompletion := h.completion
  have htotal := h.total
  unfold maxValue at htotal
  apply wrap_eq
  unfold Representable minValue maxValue
  omega

theorem uncachedTokens_eq (h : usage.Counts) :
    uncachedTokens usage = usage.promptTokens - usage.promptTokensDetails.cachedTokens := by
  have hprompt := h.prompt
  have hcompletion := h.completion
  have hcached := h.cached
  have htotal := h.total
  have hinput := h.input
  have hcreation := cacheCreationTokensTotal_nonneg usage.promptTokensDetails
  unfold maxValue at htotal hinput
  apply wrap_eq
  unfold Representable minValue maxValue
  omega

/-- Derived or reported, the cache-creation tokens that are billed fit 64 bits. -/
theorem cacheCreationTokens_le (h : usage.Counts) :
    usage.promptTokensDetails.cachedTokens + cacheCreationTokens settings info usage ≤
      maxValue := by
  have hcompletion := h.completion
  have htotal := h.total
  have hinput := h.input
  have huncached := uncachedTokens_eq h
  unfold cacheCreationTokens
  dsimp only
  split_ifs <;> omega

/-- The prompt of OpenRouter's Claude billing. -/
theorem promptTokens_eq (h : usage.Counts) (ho : IsOpenRouterClaudeBilling info usage) :
    promptTokens settings info usage = usage.promptTokens -
      usage.promptTokensDetails.cachedTokens - cacheCreationTokens settings info usage := by
  have hprompt := h.prompt
  have hcompletion := h.completion
  have hcached := h.cached
  have htotal := h.total
  have hbilled := @cacheCreationTokens_le settings info usage h
  have hbilled0 : 0 ≤ cacheCreationTokens settings info usage := cacheCreationTokens_nonneg
  unfold maxValue at htotal hbilled
  unfold promptTokens
  rw [if_pos ho, uncachedTokens_eq h, wrap_eq]
  unfold Representable minValue maxValue
  omega

theorem remainingCreationTokens_eq (h : usage.Counts) :
    remainingCreationTokens settings info usage =
      max 0 (cacheCreationTokens settings info usage - usage.claudeCacheCreation5mTokens -
        usage.claudeCacheCreation1hTokens) := by
  have hcached := h.cached
  have h5m := h.creation5m
  have h1h := h.creation1h
  have hcreation := h.creation
  have hbilled := @cacheCreationTokens_le settings info usage h
  have hbilled0 : 0 ≤ cacheCreationTokens settings info usage := cacheCreationTokens_nonneg
  unfold maxValue at hcreation hbilled
  unfold remainingCreationTokens
  rw [wrap_eq (show Representable (cacheCreationTokens settings info usage -
    usage.claudeCacheCreation5mTokens) by unfold Representable minValue maxValue; omega), wrap_eq]
  · dsimp only
    split_ifs <;> omega
  · unfold Representable minValue maxValue
    omega

theorem baseTokens_nonneg : 0 ≤ baseTokens settings info usage := by
  unfold baseTokens
  dsimp only
  split_ifs <;> omega

theorem remainingCreationTokens_nonneg : 0 ≤ remainingCreationTokens settings info usage := by
  unfold remainingCreationTokens
  dsimp only
  split_ifs <;> omega

theorem audioInputPrice_nonneg : 0 ≤ audioInputPrice info := by
  unfold audioInputPrice getGeminiInputAudioPricePerMillionTokens
  split_ifs <;> norm_num

theorem pricedAudioTokens_nonneg (h : usage.Counts) : 0 ≤ pricedAudioTokens info usage := by
  have haudio := h.audio
  unfold pricedAudioTokens
  split_ifs
  · exact haudio
  · exact le_refl 0

end counts

/-! ### Tokens and their prices -/

/-- What a token is billed as. -/
inductive Category where
  | prompt
  | cached
  | cacheCreation
  | cacheCreation5m
  | cacheCreation1h
  | image
  | audio
  | completion
  deriving DecidableEq

section tokens

variable (settings : Settings) (info : RelayInfo) (usage : BilledUsage)

/-- The price of a token before the other ratios. -/
def Category.price : Category → ℚ
  | .prompt => ratio info
  | .cached => info.priceData.cacheRatio * ratio info
  | .cacheCreation => info.priceData.cacheCreationRatio * ratio info
  | .cacheCreation5m => info.priceData.cacheCreation5mRatio * ratio info
  | .cacheCreation1h => info.priceData.cacheCreation1hRatio * ratio info
  | .image => info.priceData.imageRatio * ratio info
  | .audio =>
      decimalDiv (audioInputPrice info) 1000000 * info.priceData.groupRatio *
        settings.quotaPerUnit
  | .completion => info.priceData.completionRatio * ratio info

/-- The number of tokens of a category. -/
def count : Category → ℤ
  | .prompt => baseTokens settings info usage
  | .cached => usage.promptTokensDetails.cachedTokens
  | .cacheCreation =>
      if IsClaude info usage then remainingCreationTokens settings info usage
      else cacheCreationTokens settings info usage
  | .cacheCreation5m => if IsClaude info usage then usage.claudeCacheCreation5mTokens else 0
  | .cacheCreation1h => if IsClaude info usage then usage.claudeCacheCreation1hTokens else 0
  | .image => usage.promptTokensDetails.imageTokens
  | .audio => pricedAudioTokens info usage
  | .completion => usage.completionTokens

def categories : List Category :=
  [.prompt, .cached, .cacheCreation, .cacheCreation5m, .cacheCreation1h, .image, .audio,
    .completion]

/-- The tokens that are billed, each in its category. -/
def billedTokens : List Category :=
  categories.flatMap fun c => List.replicate (count settings info usage c).toNat c

end tokens

section law

variable {settings : Settings} {info : RelayInfo} {usage : BilledUsage}

theorem count_nonneg (h : usage.Counts) (c : Category) : 0 ≤ count settings info usage c := by
  have h5m := h.creation5m
  have h1h := h.creation1h
  cases c with
  | prompt => exact baseTokens_nonneg
  | cached => exact h.cached
  | cacheCreation =>
      unfold count
      split_ifs
      · exact remainingCreationTokens_nonneg
      · exact cacheCreationTokens_nonneg
  | cacheCreation5m =>
      unfold count
      split_ifs
      · exact h5m
      · exact le_refl 0
  | cacheCreation1h =>
      unfold count
      split_ifs
      · exact h1h
      · exact le_refl 0
  | image => exact h.image
  | audio => exact pricedAudioTokens_nonneg h
  | completion => exact h.completion

/-- What the tokens of some categories cost. -/
theorem sum_prices_flatMap (price : Category → ℚ) (h : usage.Counts) (l : List Category) :
    ((l.flatMap fun c => List.replicate (count settings info usage c).toNat c).map price).sum =
      (l.map fun c => (count settings info usage c : ℚ) * price c).sum := by
  induction l with
  | nil => rfl
  | cons c l ih =>
      have hcast : (((count settings info usage c).toNat : ℕ) : ℚ) =
          count settings info usage c := by
        exact_mod_cast Int.toNat_of_nonneg (count_nonneg h c)
      rw [List.flatMap_cons, List.map_append, List.sum_append, ih, List.map_cons, List.sum_cons,
        List.map_replicate, List.sum_replicate, nsmul_eq_mul, hcast]

/-- How many tokens are billed. -/
theorem length_billedTokens (h : usage.Counts) :
    ((billedTokens settings info usage).length : ℤ) =
      (categories.map (count settings info usage)).sum := by
  have hlength : ∀ l : List Category,
      ((l.flatMap fun c => List.replicate (count settings info usage c).toNat c).length : ℤ) =
        (l.map (count settings info usage)).sum := by
    intro l
    induction l with
    | nil => rfl
    | cons c l ih =>
        rw [List.flatMap_cons, List.length_append, Nat.cast_add, ih, List.length_replicate,
          Int.toNat_of_nonneg (count_nonneg h c), List.map_cons, List.sum_cons]
  exact hlength categories

theorem cachedCreationTokensWithRatio_eq (h : usage.Counts) :
    cachedCreationTokensWithRatio settings info usage =
      count settings info usage .cacheCreation * info.priceData.cacheCreationRatio +
        count settings info usage .cacheCreation5m * info.priceData.cacheCreation5mRatio +
        count settings info usage .cacheCreation1h * info.priceData.cacheCreation1hRatio := by
  have h5m := h.creation5m
  have h1h := h.creation1h
  unfold cachedCreationTokensWithRatio count
  by_cases hclaude : IsClaude info usage
  · simp only [if_pos hclaude]
    split_ifs with hany
    · rfl
    · obtain ⟨hzero, h5m', h1h'⟩ : cacheCreationTokens settings info usage = 0 ∧
          usage.claudeCacheCreation5mTokens = 0 ∧ usage.claudeCacheCreation1hTokens = 0 := by
        push Not at hany
        exact ⟨hany.1, by omega, by omega⟩
      have hremaining : remainingCreationTokens settings info usage = 0 := by
        unfold remainingCreationTokens
        rw [hzero, h5m', h1h']
        rfl
      rw [hremaining, h5m', h1h']
      simp
  · simp only [if_neg hclaude]
    split_ifs with hany
    · simp
    · have hzero : cacheCreationTokens settings info usage = 0 := by
        push Not at hany
        exact hany.1
      rw [hzero]
      simp

/-- The charge of the tokens is the sum of their prices. -/
theorem tokenQuota_eq_sum (h : usage.Counts) :
    tokenQuota settings info usage =
      ((billedTokens settings info usage).map (Category.price settings info)).sum *
        info.priceData.otherRatios.prod := by
  unfold billedTokens
  rw [sum_prices_flatMap _ h]
  unfold tokenQuota audioInputQuota
  rw [cachedCreationTokensWithRatio_eq h]
  simp only [categories, List.map_cons, List.map_nil, List.sum_cons, List.sum_nil, Category.price]
  simp only [count]
  ring

/-- **Each token is billed once, at the price of its category.**  The prompt tokens of a usage
with disjoint parts, and the completion tokens, are what an OpenAI usage is billed for; a Claude
usage is billed for its cached and cache-creation tokens besides, each of the latter as one of five
minutes, one of an hour or one of the rest. -/
theorem charge_by_token (h : usage.Counts) (hprice : info.priceData.usePrice = false)
    (calls : ToolCalls) :
    unroundedQuota settings info usage calls =
      ((billedTokens settings info usage).map (Category.price settings info)).sum *
        info.priceData.otherRatios.prod + calculateTextToolCallSurcharge settings info calls ∧
    (¬ IsClaude info usage →
      usage.promptTokensDetails.cachedTokens + cacheCreationTokens settings info usage +
        usage.promptTokensDetails.imageTokens + pricedAudioTokens info usage ≤ usage.promptTokens →
      ((billedTokens settings info usage).length : ℤ) =
        usage.promptTokens + usage.completionTokens) ∧
    (IsClaude info usage →
      usage.promptTokensDetails.imageTokens + pricedAudioTokens info usage ≤
        promptTokens settings info usage →
      ((billedTokens settings info usage).length : ℤ) =
        promptTokens settings info usage + usage.promptTokensDetails.cachedTokens +
          max (cacheCreationTokens settings info usage)
            (usage.claudeCacheCreation5mTokens + usage.claudeCacheCreation1hTokens) +
          usage.completionTokens) := by
  refine ⟨?_, ?_, ?_⟩
  · unfold unroundedQuota
    rw [if_neg (by simp [hprice]), tokenQuota_eq_sum h]
  · intro hclaude hparts
    have hrouter : ¬ IsOpenRouterClaudeBilling info usage := fun ho => hclaude (Or.inl ho.2)
    have hprompt : promptTokens settings info usage = usage.promptTokens := if_neg hrouter
    rw [length_billedTokens h]
    simp only [categories, List.map_cons, List.map_nil, List.sum_cons, List.sum_nil, count,
      if_neg hclaude]
    unfold baseTokens
    simp only [if_neg hclaude, hprompt]
    split_ifs <;> omega
  · intro hclaude hparts
    rw [length_billedTokens h]
    simp only [categories, List.map_cons, List.map_nil, List.sum_cons, List.sum_nil, count,
      if_pos hclaude, remainingCreationTokens_eq h]
    unfold baseTokens
    simp only [if_pos hclaude]
    split_ifs <;> omega

end law

/-! ### Quotas -/

section quotas

variable {settings : Settings} {info : RelayInfo} {usage : BilledUsage}

theorem quotaRound_in_range {q : ℚ} (hq : 0 ≤ q) :
    0 ≤ TaskPricing.quotaRound q ∧ TaskPricing.quotaRound q ≤ TaskPricing.maxQuota := by
  have hround : 0 ≤ TaskPricing.round q := Rounding.nearest_nonneg hq
  have hmin : TaskPricing.minQuota ≤ 0 := by decide
  have hmax : 0 ≤ TaskPricing.maxQuota := by decide
  unfold TaskPricing.quotaRound
  dsimp only
  split_ifs <;> omega

theorem quotaRound_mono {p q : ℚ} (hp : 0 ≤ p) (hpq : p ≤ q) :
    TaskPricing.quotaRound p ≤ TaskPricing.quotaRound q := by
  have hp' : 0 ≤ TaskPricing.round p := Rounding.nearest_nonneg hp
  have hround : TaskPricing.round p ≤ TaskPricing.round q := Rounding.nearest_mono hp hpq
  have hmin : TaskPricing.minQuota ≤ 0 := by decide
  unfold TaskPricing.quotaRound
  dsimp only
  split_ifs <;> omega

theorem raisedQuota_mono {p q : ℚ} (hpq : p ≤ q) :
    raisedQuota info p ≤ raisedQuota info q ∨
      (ratio info ≠ 0 ∧ TaskPricing.quotaRound (raisedQuota info p) = 1) := by
  have hone : TaskPricing.quotaRound 1 = 1 := by decide +kernel
  unfold raisedQuota
  by_cases hprice : info.priceData.usePrice
  · left
    simp only [if_pos hprice]
    exact hpq
  · simp only [if_neg hprice]
    by_cases hp : ratio info ≠ 0 ∧ p ≤ 0
    · right
      rw [if_pos hp]
      exact ⟨hp.1, hone⟩
    · left
      rw [if_neg hp]
      by_cases hq : ratio info ≠ 0 ∧ q ≤ 0
      · exact absurd ⟨hq.1, hpq.trans hq.2⟩ hp
      · rw [if_neg hq]
        exact hpq

theorem raisedQuota_nonneg {q : ℚ} (hq : 0 ≤ q) : 0 ≤ raisedQuota info q := by
  unfold raisedQuota
  split_ifs
  · exact hq
  · norm_num
  · exact hq

theorem finalQuota_in_range {billable : Prop} [Decidable billable] {q : ℚ} (hq : 0 ≤ q) :
    0 ≤ finalQuota info billable q ∧ finalQuota info billable q ≤ TaskPricing.maxQuota ∧
      (billable → ratio info ≠ 0 → 1 ≤ finalQuota info billable q) := by
  obtain ⟨hlow, hhigh⟩ := quotaRound_in_range (@raisedQuota_nonneg info q hq)
  have hmax : 1 ≤ TaskPricing.maxQuota := by decide
  unfold finalQuota
  dsimp only
  split_ifs with hbill hone
  · exact ⟨by omega, hmax, fun _ _ => le_refl 1⟩
  · refine ⟨hlow, hhigh, ?_⟩
    intro _ hratio
    have hne := not_and.mp hone hratio
    omega
  · exact ⟨le_refl 0, by omega, fun hb => absurd hb hbill⟩

/-- A larger charge is a larger quota. -/
theorem finalQuota_mono {billable billable' : Prop} [Decidable billable] [Decidable billable']
    {p q : ℚ} (hp : 0 ≤ p) (hpq : p ≤ q) (hb : billable → billable') :
    finalQuota info billable p ≤ finalQuota info billable' q := by
  have hq : 0 ≤ q := hp.trans hpq
  obtain ⟨hlow, -, hpositive⟩ := @finalQuota_in_range info billable' _ q hq
  by_cases hbill : billable
  · have hbill' := hb hbill
    rcases @raisedQuota_mono info p q hpq with hle | ⟨hratio, hone⟩
    · have hround := quotaRound_mono (raisedQuota_nonneg hp) hle
      unfold finalQuota
      dsimp only
      rw [if_neg (not_not.mpr hbill), if_neg (not_not.mpr hbill')]
      have hpround := (quotaRound_in_range (@raisedQuota_nonneg info p hp)).1
      split_ifs with h1 h2 h2
      · exact le_refl 1
      · have hne := not_and.mp h2 h1.1
        omega
      · omega
      · exact hround
    · have hquota : finalQuota info billable p = 1 := by
        unfold finalQuota
        dsimp only
        rw [if_neg (not_not.mpr hbill), hone]
        split_ifs <;> rfl
      rw [hquota]
      exact hpositive hbill' hratio
  · have hzero : finalQuota info billable p = 0 := if_pos hbill
    rw [hzero]
    exact hlow

/-! ### Usages in order -/

theorem ratio_nonneg (h : NonNegative settings info) : 0 ≤ ratio info :=
  mul_nonneg h.modelRatio h.groupRatio

theorem price_nonneg (h : NonNegative settings info) (c : Category) :
    0 ≤ c.price settings info := by
  have hratio := ratio_nonneg h
  have haudio : 0 ≤ decimalDiv (audioInputPrice info) 1000000 :=
    decimalDiv_nonneg audioInputPrice_nonneg (by norm_num)
  have hgroup := h.groupRatio
  have hunit := h.quotaPerUnit
  cases c with
  | prompt => exact hratio
  | cached => exact mul_nonneg h.cacheRatio hratio
  | cacheCreation => exact mul_nonneg h.cacheCreationRatio hratio
  | cacheCreation5m => exact mul_nonneg h.cacheCreation5mRatio hratio
  | cacheCreation1h => exact mul_nonneg h.cacheCreation1hRatio hratio
  | image => exact mul_nonneg h.imageRatio hratio
  | audio =>
      unfold Category.price
      positivity
  | completion => exact mul_nonneg h.completionRatio hratio

theorem otherRatios_nonneg (h : NonNegative settings info) : 0 ≤ info.priceData.otherRatios.prod :=
  List.prod_induction (0 ≤ ·) (fun _ _ => mul_nonneg) zero_le_one h.otherRatios

theorem tokenQuota_eq_counts (h : usage.Counts) :
    tokenQuota settings info usage =
      (categories.map fun c => (count settings info usage c : ℚ) * c.price settings info).sum *
        info.priceData.otherRatios.prod := by
  rw [tokenQuota_eq_sum h, billedTokens, sum_prices_flatMap _ h]

theorem unroundedQuota_nonneg (hn : NonNegative settings info) (h : usage.Counts)
    (calls : ToolCalls) : 0 ≤ unroundedQuota settings info usage calls := by
  have hsurcharge := surcharge_nonneg hn calls
  have hother := otherRatios_nonneg hn
  have hprice := hn.modelPrice
  have hunit := hn.quotaPerUnit
  have hgroup := hn.groupRatio
  unfold unroundedQuota
  split_ifs
  · positivity
  · rw [tokenQuota_eq_counts h]
    refine add_nonneg (mul_nonneg (List.sum_nonneg ?_) hother) hsurcharge
    intro q hq
    obtain ⟨c, -, rfl⟩ := List.mem_map.mp hq
    have hcount : (0 : ℚ) ≤ count settings info usage c := by exact_mod_cast count_nonneg h c
    exact mul_nonneg hcount (price_nonneg hn c)

/-- **A quota is in range**, nothing without billable usage, and at least one where billable usage
has a ratio. -/
theorem quota_in_range (hn : NonNegative settings info) (hest : 0 ≤ info.estimatePromptTokens)
    (hmax : info.estimatePromptTokens ≤ maxValue) {usage : Option BilledUsage}
    (hcounts : ∀ u ∈ usage, u.Counts) (calls : ToolCalls) :
    0 ≤ calculateTextQuota settings info usage calls ∧
    calculateTextQuota settings info usage calls ≤ TaskPricing.maxQuota ∧
    (¬ HasBillableUsage settings info (effectiveUsage info usage) calls →
      calculateTextQuota settings info usage calls = 0) ∧
    (HasBillableUsage settings info (effectiveUsage info usage) calls → ratio info ≠ 0 →
      1 ≤ calculateTextQuota settings info usage calls) := by
  have hnonneg := unroundedQuota_nonneg hn (effectiveUsage_counts hest hmax hcounts) calls
  obtain ⟨hlow, hhigh, hone⟩ := @finalQuota_in_range info
    (HasBillableUsage settings info (effectiveUsage info usage) calls) _ _ hnonneg
  exact ⟨hlow, hhigh, fun hnot => if_pos hnot, hone⟩

/-- A usage with more prompt and completion tokens. -/
def BilledUsage.grown (usage : BilledUsage) (prompt completion : ℤ) : BilledUsage :=
  { usage with
    promptTokens := usage.promptTokens + prompt
    completionTokens := usage.completionTokens + completion }

theorem grown_counts (h : usage.Counts) {prompt completion : ℤ} (hp : 0 ≤ prompt)
    (hc : 0 ≤ completion)
    (hfits : usage.promptTokens + prompt + (usage.completionTokens + completion) ≤ maxValue) :
    (usage.grown prompt completion).Counts :=
  ⟨add_nonneg h.prompt hp, add_nonneg h.completion hc, h.cached, h.image, h.audio, h.creation5m,
    h.creation1h, hfits, h.input, h.creation⟩

theorem cacheCreationTokens_grown (hd : ¬ DerivesCacheCreation settings info usage)
    (prompt completion : ℤ) :
    cacheCreationTokens settings info (usage.grown prompt completion) =
      cacheCreationTokens settings info usage := by
  have hd' : ¬ DerivesCacheCreation settings info (usage.grown prompt completion) := hd
  unfold cacheCreationTokens
  dsimp only
  rw [if_neg hd, if_neg hd']
  rfl

theorem count_grown (h : usage.Counts) (hd : ¬ DerivesCacheCreation settings info usage)
    {prompt completion : ℤ} (hgrown : (usage.grown prompt completion).Counts) (hp : 0 ≤ prompt)
    (hc : 0 ≤ completion) (c : Category) :
    count settings info usage c ≤ count settings info (usage.grown prompt completion) c := by
  have hcreation := cacheCreationTokens_grown hd prompt completion
  have hremaining : remainingCreationTokens settings info (usage.grown prompt completion) =
      remainingCreationTokens settings info usage := by
    unfold remainingCreationTokens
    rw [hcreation]
    rfl
  have hprompt : promptTokens settings info usage ≤
      promptTokens settings info (usage.grown prompt completion) := by
    by_cases ho : IsOpenRouterClaudeBilling info usage
    · have ho' : IsOpenRouterClaudeBilling info (usage.grown prompt completion) := ho
      rw [promptTokens_eq h ho, promptTokens_eq hgrown ho', hcreation]
      simp only [BilledUsage.grown]
      omega
    · have ho' : ¬ IsOpenRouterClaudeBilling info (usage.grown prompt completion) := ho
      unfold promptTokens
      rw [if_neg ho, if_neg ho']
      simp only [BilledUsage.grown]
      omega
  cases c with
  | prompt =>
      have hpriced : pricedAudioTokens info (usage.grown prompt completion) =
          pricedAudioTokens info usage := rfl
      have hiff : IsClaude info (usage.grown prompt completion) ↔ IsClaude info usage := Iff.rfl
      have hcached : (usage.grown prompt completion).promptTokensDetails =
          usage.promptTokensDetails := rfl
      unfold count baseTokens
      dsimp only
      rw [hpriced, hcreation, hcached, ite_congr (propext hiff) (fun _ => rfl) (fun _ => rfl)]
      split_ifs <;> omega
  | cacheCreation =>
      have hiff : IsClaude info (usage.grown prompt completion) ↔ IsClaude info usage := Iff.rfl
      unfold count
      dsimp only
      rw [hcreation, hremaining, ite_congr (propext hiff) (fun _ => rfl) (fun _ => rfl)]
  | completion =>
      show usage.completionTokens ≤ usage.completionTokens + completion
      omega
  | cached => exact le_refl _
  | cacheCreation5m => exact le_refl _
  | cacheCreation1h => exact le_refl _
  | image => exact le_refl _
  | audio => exact le_refl _

theorem tokenQuota_grown (hn : NonNegative settings info) (h : usage.Counts)
    (hd : ¬ DerivesCacheCreation settings info usage) {prompt completion : ℤ} (hp : 0 ≤ prompt)
    (hc : 0 ≤ completion) (hgrown : (usage.grown prompt completion).Counts) :
    tokenQuota settings info usage ≤
      tokenQuota settings info (usage.grown prompt completion) := by
  have hother := otherRatios_nonneg hn
  rw [tokenQuota_eq_counts h, tokenQuota_eq_counts hgrown]
  refine mul_le_mul_of_nonneg_right (List.sum_le_sum ?_) hother
  intro c _
  have hcount : (count settings info usage c : ℚ) ≤
      count settings info (usage.grown prompt completion) c := by
    exact_mod_cast count_grown h hd hgrown hp hc c
  exact mul_le_mul_of_nonneg_right hcount (price_nonneg hn c)

theorem billable_mono (hn : NonNegative settings info) (h : usage.Counts)
    {prompt completion : ℤ} (hp : 0 ≤ prompt) (hc : 0 ≤ completion)
    (hgrown : (usage.grown prompt completion).Counts) {calls calls' : ToolCalls}
    (hle : calls.Le calls') (hcalls : calls'.Countable)
    (hb : HasBillableUsage settings info usage calls) :
    HasBillableUsage settings info (usage.grown prompt completion) calls' := by
  rcases hb with htokens | hcharged | hfixed
  · left
    rw [totalTokens_eq h] at htokens
    rw [totalTokens_eq hgrown]
    show 0 < usage.promptTokens + prompt + (usage.completionTokens + completion)
    omega
  · right
    left
    have hpos : 0 < calculateTextToolCallSurcharge settings info calls :=
      lt_of_le_of_ne (surcharge_nonneg hn calls) (Ne.symm hcharged)
    exact ne_of_gt (lt_of_lt_of_le hpos (surcharge_mono hn hle hcalls))
  · right
    right
    exact hfixed

/-- **More tokens and more calls never cost less**: more calls for any usage, and more prompt or
completion tokens where the number of cache-creation tokens is not derived from the cost. -/
theorem quota_rises (hn : NonNegative settings info) (h : usage.Counts) {calls calls' : ToolCalls}
    (hle : calls.Le calls') (hcalls : calls'.Countable) {prompt completion : ℤ} (hp : 0 ≤ prompt)
    (hc : 0 ≤ completion)
    (hfits : usage.promptTokens + prompt + (usage.completionTokens + completion) ≤ maxValue)
    (hd : DerivesCacheCreation settings info usage → prompt = 0 ∧ completion = 0) :
    calculateTextQuota settings info (some usage) calls ≤
      calculateTextQuota settings info (some (usage.grown prompt completion)) calls' := by
  have hgrown := grown_counts h hp hc hfits
  have htoken : tokenQuota settings info usage ≤
      tokenQuota settings info (usage.grown prompt completion) := by
    by_cases hderive : DerivesCacheCreation settings info usage
    · obtain ⟨rfl, rfl⟩ := hd hderive
      have hsame : usage.grown 0 0 = usage := by
        unfold BilledUsage.grown
        rw [add_zero, add_zero]
      rw [hsame]
    · exact tokenQuota_grown hn h hderive hp hc hgrown
  have hsurcharge := surcharge_mono hn hle hcalls
  have hcharge : unroundedQuota settings info usage calls ≤
      unroundedQuota settings info (usage.grown prompt completion) calls' := by
    unfold unroundedQuota
    split_ifs
    · linarith
    · linarith
  exact finalQuota_mono (unroundedQuota_nonneg hn h calls) hcharge
    (billable_mono hn h hp hc hgrown hle hcalls)

end quotas

/-! ### A model on two channels -/

def sonnetSettings : Settings :=
  ⟨500000, fun model => if model = "claude-3-5-sonnet-20240620" then some (3 / 2) else none⟩

/-- The model at its default ratio, on a channel of a type. -/
def sonnet (channelType : ℤ) : RelayInfo where
  originModelName := "claude-3-5-sonnet-20240620"
  priceData := ⟨0, 3 / 2, 1, 5, 1 / 10, 7 / 2, 7 / 2, 6, 1, [2], false⟩
  channelType := some channelType
  finalRequestRelayFormat := "openai"
  alphaSearch := false
  estimatePromptTokens := 0
  frozenToolPrice := fun _ => 10

/-- A usage of some prompt tokens that cost as much as thirty. -/
def sonnetUsage (prompt : ℤ) : BilledUsage :=
  { UsageCounts.empty with
    promptTokens := prompt
    usageSemantic := "anthropic"
    cost := .float (9 / 100000) }

def noCalls : ToolCalls := ⟨[], none, 0, none⟩

def oneSearch : ToolCalls := ⟨[], none, 1, none⟩

theorem sonnet_nonNegative (channelType : ℤ) : NonNegative sonnetSettings (sonnet channelType) := by
  constructor <;> norm_num [sonnetSettings, sonnet]

theorem sonnetUsage_counts {prompt : ℤ} (h : 0 ≤ prompt) (hmax : prompt ≤ maxValue) :
    (sonnetUsage prompt).Counts := by
  have hzero : (0 : ℤ) ≤ maxValue := by decide
  refine ⟨h, le_refl 0, le_refl 0, le_refl 0, le_refl 0, le_refl 0, le_refl 0, ?_, hzero, hzero⟩
  show prompt + 0 ≤ maxValue
  omega

theorem noCalls_le_oneSearch : noCalls.Le oneSearch where
  items := .nil
  builtInTools := trivial
  claudeWebSearchRequests := by decide
  imageGenerationCall := by simp [noCalls]

theorem oneSearch_countable : oneSearch.Countable := by
  intro tools htools
  exact nomatch htools

/-- A usage with tokens of every category but audio. -/
def mixedUsage (usageSemantic : String) : BilledUsage :=
  { UsageCounts.empty with
    promptTokens := 40
    completionTokens := 7
    promptTokensDetails := { InputTokenDetails.empty with
      cachedTokens := 5, cacheWriteTokens := 9, imageTokens := 3 }
    claudeCacheCreation5mTokens := 4
    claudeCacheCreation1hTokens := 3
    usageSource := "upstream"
    usageSemantic := usageSemantic
    cost := .none }

theorem mixedUsage_counts (usageSemantic : String) : (mixedUsage usageSemantic).Counts where
  prompt := (by decide : (0 : ℤ) ≤ 40)
  completion := (by decide : (0 : ℤ) ≤ 7)
  cached := (by decide : (0 : ℤ) ≤ 5)
  image := (by decide : (0 : ℤ) ≤ 3)
  audio := (by decide : (0 : ℤ) ≤ 0)
  creation5m := (by decide : (0 : ℤ) ≤ 4)
  creation1h := (by decide : (0 : ℤ) ≤ 3)
  total := (by decide : (40 + 7 : ℤ) ≤ maxValue)
  input := (by decide : (5 + 9 : ℤ) ≤ maxValue)
  creation := (by decide : (4 + 3 : ℤ) ≤ maxValue)

/-- The charge of a Claude usage and a search, drawn from the prices of its tokens, and how many
tokens it is billed for as a Claude usage and as one of OpenAI. -/
theorem charge_by_token_sonnet :
    unroundedQuota sonnetSettings (sonnet 14) (mixedUsage "anthropic") oneSearch = 10687 / 2 ∧
      ((billedTokens sonnetSettings (sonnet 14) (mixedUsage "anthropic")).length : ℤ) =
        40 + 5 + 9 + 7 ∧
      ((billedTokens sonnetSettings (sonnet 14) (mixedUsage "openai")).length : ℤ) = 40 + 7 := by
  obtain ⟨hsum, -, hclaude⟩ := @charge_by_token sonnetSettings (sonnet 14) _
    (mixedUsage_counts "anthropic") rfl oneSearch
  obtain ⟨-, hopenai, -⟩ := @charge_by_token sonnetSettings (sonnet 14) _
    (mixedUsage_counts "openai") rfl oneSearch
  refine ⟨?_, ?_, ?_⟩
  · rw [hsum]
    decide +kernel
  · rw [hclaude (by decide +kernel) (by decide +kernel)]
    decide +kernel
  · rw [hopenai (by decide +kernel) (by decide +kernel)]
    decide +kernel

theorem quota_in_range_sonnet :
    1 ≤ calculateTextQuota sonnetSettings (sonnet 14) (some (sonnetUsage 21)) noCalls := by
  have hcounts : ∀ u ∈ some (sonnetUsage 21), u.Counts := by
    intro u hu
    rw [← Option.some.inj hu]
    exact sonnetUsage_counts (by decide) (by decide)
  have h := quota_in_range (sonnet_nonNegative 14) (le_refl 0) (by decide) hcounts noCalls
  exact h.2.2.2 (by decide +kernel) (by decide +kernel)

theorem quota_rises_sonnet :
    calculateTextQuota sonnetSettings (sonnet 14) (some (sonnetUsage 21)) noCalls ≤
      calculateTextQuota sonnetSettings (sonnet 14) (some ((sonnetUsage 21).grown 1 3))
        oneSearch :=
  quota_rises (sonnet_nonNegative 14) (sonnetUsage_counts (by decide) (by decide))
    noCalls_le_oneSearch oneSearch_countable (by decide) (by decide) (by decide) fun hd =>
      absurd hd (by decide +kernel)

/-- On OpenRouter a prompt token more may be a derived cache-creation token less. -/
theorem derived_quota_falls :
    calculateTextQuota sonnetSettings (sonnet channelTypeOpenRouter) (some (sonnetUsage 22))
      noCalls <
      calculateTextQuota sonnetSettings (sonnet channelTypeOpenRouter) (some (sonnetUsage 21))
        noCalls := by
  decide +kernel

end MaxApi.TextQuota
