import MaxApi.TaskBilling.H3Plan
import Mathlib.Algebra.Order.Field.Rat
import Mathlib.Tactic.GCongr
import Mathlib.Tactic.Positivity

/-! # A reservation covers every final price

A quote succeeds exactly when its plan is valid and its quota fits, and then its quota is the
rounded price (`quoteH3PlanMilliseconds_ok`).  The price grows with each quantity, and the
quantities of a usage that passes the checks are at most the reserved ones, except for audio, which
costs nothing. -/

namespace MaxApi.TaskBilling

open Checked TopUps
open TaskPricing (TaskBillingPlan TaskBillingPlanComponent)

variable {host : Host} {plan : TaskBillingPlan} {m m' : Quantities}

/-! ### Rounding -/

theorem quotaFromDecimalStrict_eq {p : ℚ} {quota : ℤ} :
    quotaFromDecimalStrict p = some quota ↔
      minQuota ≤ roundDecimal p ∧ roundDecimal p ≤ maxQuota ∧ quota = roundDecimal p := by
  unfold quotaFromDecimalStrict
  split
  · next h =>
    constructor
    · exact fun hn => nomatch hn
    · omega
  · next h =>
    rw [Option.some.injEq]
    constructor
    · intro he
      omega
    · intro he
      exact he.2.2.symm

/-! ### The price of quantities -/

/-- The unit prices of a plan, and the number of free images. -/
structure UnitPrices where
  output : ℚ
  video : ℚ
  audio : ℚ
  image : ℚ
  imageFree : ℤ

/-- No unit price is negative. -/
structure UnitPrices.NonNegative (u : UnitPrices) : Prop where
  output : 0 ≤ u.output
  video : 0 ≤ u.video
  audio : 0 ≤ u.audio
  image : 0 ≤ u.image

/-- The unit prices that the components of a plan have. -/
structure PricedBy (host : Host) (plan : TaskBillingPlan) (u : UnitPrices) : Prop where
  output : planComponentPrice host plan "output_video" = .ok u.output
  video : planComponentPrice host plan "input_video" = .ok u.video
  audio : planComponentPrice host plan "input_audio" = .ok u.audio
  image : planComponentPrice host plan "input_image" = .ok u.image
  imageFree : planComponentFreeQuantity plan "input_image" = u.imageFree

/-- The images that are not free. -/
def UnitPrices.billable (u : UnitPrices) (m : Quantities) : ℤ :=
  if m.imageCount - u.imageFree < 0 then 0 else m.imageCount - u.imageFree

def UnitPrices.price (u : UnitPrices) (m : Quantities) : ℚ :=
  m.outputMs / 1000 * u.output + m.videoMs / 1000 * u.video + m.audioMs / 1000 * u.audio +
    u.billable m * u.image

/-- The quota before it is rounded. -/
def UnitPrices.quotaDecimal (u : UnitPrices) (plan : TaskBillingPlan) (m : Quantities) : ℚ :=
  u.price m * plan.quotaPerUnit * plan.groupRatio

/-- No quantity is negative. -/
structure Quantities.NonNegative (m : Quantities) : Prop where
  output : 0 ≤ m.outputMs
  video : 0 ≤ m.videoMs
  audio : 0 ≤ m.audioMs
  image : 0 ≤ m.imageCount

/-- No quantity is larger in `m'`, apart from free audio. -/
structure Quantities.Within (u : UnitPrices) (m m' : Quantities) : Prop where
  output : m.outputMs ≤ m'.outputMs
  video : m.videoMs ≤ m'.videoMs
  audio : m.audioMs ≤ m'.audioMs ∨ u.audio = 0
  image : m.imageCount ≤ m'.imageCount

theorem UnitPrices.billable_nonneg (u : UnitPrices) (m : Quantities) : 0 ≤ u.billable m := by
  unfold UnitPrices.billable
  split
  · omega
  · omega

theorem UnitPrices.billable_mono (u : UnitPrices) (h : m.imageCount ≤ m'.imageCount) :
    u.billable m ≤ u.billable m' := by
  unfold UnitPrices.billable
  split
  · split
    · omega
    · omega
  · split
    · omega
    · omega

theorem UnitPrices.NonNegative.price_nonneg {u : UnitPrices} (hu : u.NonNegative)
    (hm : m.NonNegative) : 0 ≤ u.price m := by
  have houtput : (0 : ℚ) ≤ m.outputMs := by exact_mod_cast hm.output
  have hvideo : (0 : ℚ) ≤ m.videoMs := by exact_mod_cast hm.video
  have haudio : (0 : ℚ) ≤ m.audioMs := by exact_mod_cast hm.audio
  have himage : (0 : ℚ) ≤ u.billable m := by exact_mod_cast u.billable_nonneg m
  have h₁ := hu.output
  have h₂ := hu.video
  have h₃ := hu.audio
  have h₄ := hu.image
  unfold UnitPrices.price
  positivity

/-- The price grows with the quantities. -/
theorem UnitPrices.NonNegative.price_mono {u : UnitPrices} (hu : u.NonNegative)
    (h : Quantities.Within u m m') : u.price m ≤ u.price m' := by
  have houtput : (m.outputMs : ℚ) ≤ m'.outputMs := by exact_mod_cast h.output
  have hvideo : (m.videoMs : ℚ) ≤ m'.videoMs := by exact_mod_cast h.video
  have himage : (u.billable m : ℚ) ≤ u.billable m' := by exact_mod_cast u.billable_mono h.image
  have haudio : (m.audioMs : ℚ) / 1000 * u.audio ≤ m'.audioMs / 1000 * u.audio := by
    rcases h.audio with hle | hzero
    · have hle' : (m.audioMs : ℚ) ≤ m'.audioMs := by exact_mod_cast hle
      have := hu.audio
      gcongr
    · rw [hzero, mul_zero, mul_zero]
  have h₁ := hu.output
  have h₂ := hu.video
  have h₄ := hu.image
  unfold UnitPrices.price
  gcongr

theorem nonNegativePrice_ok {value : String} {price : ℚ}
    (h : nonNegativePrice host value = .ok price) : 0 ≤ price := by
  unfold nonNegativePrice at h
  simp only [ok_bind, ok_require, ok_orThrow, ok_pure] at h
  obtain ⟨_, _, p, _, _, hp, rfl⟩ := h
  exact hp

theorem prefixed_ok {α : Type} {text : String} {x : Except String α} {a : α} :
    prefixed text x = .ok a ↔ x = .ok a := ok_mapError

theorem planComponentPrice_nonneg {key : String} {price : ℚ}
    (h : planComponentPrice host plan key = .ok price) : 0 ≤ price := by
  unfold planComponentPrice at h
  split at h
  · exact nonNegativePrice_ok (prefixed_ok.mp h)
  · exact absurd h (fun hn => nomatch hn)

theorem PricedBy.nonNegative {u : UnitPrices} (h : PricedBy host plan u) : u.NonNegative :=
  ⟨planComponentPrice_nonneg h.output, planComponentPrice_nonneg h.video,
    planComponentPrice_nonneg h.audio, planComponentPrice_nonneg h.image⟩

/-- A plan has one price list. -/
theorem PricedBy.unique {u u' : UnitPrices} (h : PricedBy host plan u)
    (h' : PricedBy host plan u') : u = u' := by
  have houtput := Except.ok.inj (h.output.symm.trans h'.output)
  have hvideo := Except.ok.inj (h.video.symm.trans h'.video)
  have haudio := Except.ok.inj (h.audio.symm.trans h'.audio)
  have himage := Except.ok.inj (h.image.symm.trans h'.image)
  have hfree := h.imageFree.symm.trans h'.imageFree
  cases u
  cases u'
  simp_all

/-- What the validation of a plan says about the factors of a quota. -/
theorem validateH3BillingPlan_ok (h : validateH3BillingPlan host plan = .ok ()) :
    0 ≤ plan.groupRatio ∧ 0 < plan.quotaPerUnit ∧ 0 ≤ plan.inputImageCount := by
  unfold validateH3BillingPlan at h
  simp only [ok_bind, ok_require] at h
  obtain ⟨_, _, _, _, _, _, _, _, _, _, _, _, _, hratio, _, hunit, _, _, _, _, _, _, _, _,
    _, himage, _⟩ := h
  exact ⟨hratio, hunit, himage⟩

section quotas

variable {u : UnitPrices}

theorem quotaDecimal_nonneg (hvalid : validateH3BillingPlan host plan = .ok ())
    (hu : u.NonNegative) (hm : m.NonNegative) : 0 ≤ u.quotaDecimal plan m := by
  obtain ⟨hratio, hunit, _⟩ := validateH3BillingPlan_ok hvalid
  have hprice := hu.price_nonneg hm
  unfold UnitPrices.quotaDecimal
  positivity

theorem quota_mono (hvalid : validateH3BillingPlan host plan = .ok ()) (hu : u.NonNegative)
    (hm : m.NonNegative) (h : Quantities.Within u m m') :
    roundDecimal (u.quotaDecimal plan m) ≤ roundDecimal (u.quotaDecimal plan m') := by
  obtain ⟨hratio, hunit, _⟩ := validateH3BillingPlan_ok hvalid
  have hprice := hu.price_mono h
  apply Rounding.nearest_mono (quotaDecimal_nonneg hvalid hu hm)
  unfold UnitPrices.quotaDecimal
  gcongr

end quotas

/-! ### Quotes -/

/-- A quote succeeds when its plan is valid and its quota fits; its quota is the rounded price. -/
theorem quoteH3PlanMilliseconds_ok {stage : Stage} {quota : ℤ} :
    (∃ q, quoteH3PlanMilliseconds host plan stage m = .ok q ∧ q.quota = quota) ↔
      validateH3BillingPlan host plan = .ok () ∧ m.NonNegative ∧ ∃ u, PricedBy host plan u ∧
        roundDecimal (u.quotaDecimal plan m) ≤ maxQuota ∧
        quota = roundDecimal (u.quotaDecimal plan m) := by
  unfold quoteH3PlanMilliseconds
  simp only [ok_bind, ok_require, ok_orThrow, ok_pure, quotaFromDecimalStrict_eq]
  constructor
  · rintro ⟨q, ⟨_, hvalid, _, ⟨h₁, h₂, h₃, h₄⟩, output, houtput, video, hvideo, audio, haudio,
      image, himage, n, ⟨_, hmax, rfl⟩, rfl⟩, rfl⟩
    exact ⟨hvalid, ⟨h₁, h₂, h₃, h₄⟩,
      ⟨output, video, audio, image, _⟩, ⟨houtput, hvideo, haudio, himage, rfl⟩, hmax, rfl⟩
  · rintro ⟨hvalid, hm, ⟨output, video, audio, image, _⟩,
      ⟨houtput, hvideo, haudio, himage, rfl⟩, hmax, rfl⟩
    have hnonneg := quotaDecimal_nonneg hvalid
      (PricedBy.nonNegative ⟨houtput, hvideo, haudio, himage, rfl⟩) hm
    have hmin := Rounding.nearest_nonneg hnonneg
    have hlow : minQuota ≤ 0 := by decide
    exact ⟨_, ⟨⟨⟩, hvalid, ⟨⟩, ⟨hm.output, hm.video, hm.audio, hm.image⟩, _, houtput, _, hvideo, _,
      haudio, _, himage, _, ⟨hlow.trans hmin, hmax, rfl⟩, rfl⟩, rfl⟩

/-- Quotes of larger quantities are larger, and smaller quantities can be quoted too. -/
theorem quote_mono {stage stage' : Stage} {q' : H3BillingQuote} {u : UnitPrices}
    (hu : PricedBy host plan u) (hm : m.NonNegative) (h : Quantities.Within u m m')
    (hq' : quoteH3PlanMilliseconds host plan stage' m' = .ok q') :
    ∃ q, quoteH3PlanMilliseconds host plan stage m = .ok q ∧ q.quota ≤ q'.quota := by
  obtain ⟨hvalid, _, u', hu', hmax, hquota⟩ := quoteH3PlanMilliseconds_ok.mp ⟨q', hq', rfl⟩
  obtain rfl := hu.unique hu'
  have hle := quota_mono hvalid hu.nonNegative hm h
  obtain ⟨q, hq, hq₂⟩ : ∃ q, quoteH3PlanMilliseconds host plan stage m = .ok q ∧
      q.quota = roundDecimal (u.quotaDecimal plan m) :=
    quoteH3PlanMilliseconds_ok.mpr ⟨hvalid, hm, u, hu, hle.trans hmax, rfl⟩
  exact ⟨q, hq, by omega⟩

/-! ### Plans that were built -/

section totals

variable (host : Host) (plan : TaskBillingPlan) (estimate reserve : ℤ)

theorem validateComponents_withTotals (components : List TaskBillingPlanComponent) :
    ∀ seen, validateComponents host (withTotals plan estimate reserve) seen components =
      validateComponents host plan seen components := by
  induction components with
  | nil => exact fun _ => rfl
  | cons component components ih =>
      intro seen
      unfold validateComponents
      simp only [ih]
      rfl

/-- The totals of a plan play no part in its validation, nor in its quotes. -/
theorem validateH3BillingPlan_withTotals :
    validateH3BillingPlan host (withTotals plan estimate reserve) =
      validateH3BillingPlan host plan := by
  have hcomponents := validateComponents_withTotals host plan estimate reserve plan.components []
  unfold validateH3BillingPlan
  rw [show (withTotals plan estimate reserve).components = plan.components from rfl, hcomponents]
  rfl

theorem quoteH3PlanMilliseconds_withTotals (stage : Stage) (m : Quantities) :
    quoteH3PlanMilliseconds host (withTotals plan estimate reserve) stage m =
      quoteH3PlanMilliseconds host plan stage m := by
  unfold quoteH3PlanMilliseconds
  rw [validateH3BillingPlan_withTotals]
  rfl

theorem quoteH3Plan_withTotals (stage : Stage) (o v a i : ℤ) :
    quoteH3Plan host (withTotals plan estimate reserve) stage o v a i =
      quoteH3Plan host plan stage o v a i := by
  unfold quoteH3Plan
  rw [quoteH3PlanMilliseconds_withTotals]

end totals

theorem quoteH3Plan_ok {stage : Stage} {o v a i : ℤ} {q : H3BillingQuote}
    (h : quoteH3Plan host plan stage o v a i = .ok q) :
    quoteH3PlanMilliseconds host plan stage ⟨o * 1000, v * 1000, a * 1000, i⟩ = .ok q := by
  unfold quoteH3Plan at h
  simp only [ok_bind, ok_require] at h
  obtain ⟨_, _, hq⟩ := h
  exact hq

/-- The quantities that are reserved for a request. -/
def reservedQuantities (plan : TaskBillingPlan) : Quantities :=
  ⟨plan.requestedOutputDurationSeconds * 1000, reservedVideoSeconds plan * 1000, 0,
    plan.inputImageCount⟩

/-- What is known about a plan that was built. -/
structure Built (host : Host) (plan : TaskBillingPlan) : Prop where
  estimate : ∃ q, quoteH3Estimate host plan = .ok q ∧ q.quota = plan.estimateQuota
  reserve : ∃ q, quoteH3Reserve host plan = .ok q ∧ q.quota = plan.reserveQuota
  freeAudio : planComponentPrice host plan "input_audio" = .ok 0
  videoReserve : 0 ≤ reservedVideoSeconds plan
  noVideo : ¬ 0 < plan.inputVideoCount → reservedVideoSeconds plan = 0

theorem validateH3BillingConfig_ok {key : String} {profile : H3BillingConfig}
    (h : validateH3BillingConfig host key profile = .ok ()) :
    0 < profile.inputVideoMaxSeconds ∧
      nonNegativePrice host profile.inputAudioUnitPrice = .ok 0 := by
  unfold validateH3BillingConfig at h
  simp only [ok_bind, ok_require, prefixed_ok] at h
  obtain ⟨_, _, _, _, _, _, _, _, _, hvideo, _, _, _, _, _, _, _, _, audioPrice, haudio, rfl⟩ := h
  exact ⟨hvideo.1, haudio⟩

section components

variable (profile : H3BillingConfig) (input : H3BillingInput) (groupRatio : ℚ)
  (source ruleKey resolution digest : String) (videoReserve : ℤ)

theorem h3BillingPlan_video :
    reservedVideoSeconds (h3BillingPlan host profile input groupRatio source ruleKey resolution
      digest videoReserve) = videoReserve := by
  simp [reservedVideoSeconds, planComponent, h3BillingPlan]

theorem h3BillingPlan_audio :
    planComponentPrice host (h3BillingPlan host profile input groupRatio source ruleKey resolution
      digest videoReserve) "input_audio" =
        prefixed "" (nonNegativePrice host profile.inputAudioUnitPrice) := by
  simp [planComponentPrice, planComponent, h3BillingPlan]

end components

/-- A plan whose totals are its own quotes. -/
theorem built_withTotals {estimate reserve : H3BillingQuote}
    (hestimate : quoteH3Plan host plan .estimate plan.requestedOutputDurationSeconds 0 0
      plan.inputImageCount = .ok estimate)
    (hreserve : quoteH3Plan host plan .reserve plan.requestedOutputDurationSeconds
      (reservedVideoSeconds plan) 0 plan.inputImageCount = .ok reserve)
    (haudio : planComponentPrice host plan "input_audio" = .ok 0)
    (hvideo : 0 ≤ reservedVideoSeconds plan)
    (hno : ¬ 0 < plan.inputVideoCount → reservedVideoSeconds plan = 0) :
    Built host (withTotals plan estimate.quota reserve.quota) := by
  refine ⟨⟨estimate, ?_, rfl⟩, ⟨reserve, ?_, rfl⟩, haudio, hvideo, hno⟩
  · rw [← hestimate]
    exact quoteH3Plan_withTotals ..
  · rw [← hreserve]
    unfold quoteH3Reserve
    rw [quoteH3Plan_withTotals]
    by_cases hcount : 0 < plan.inputVideoCount
    · exact congrArg (quoteH3Plan host plan .reserve _ · _ _) (if_pos hcount)
    · rw [hno hcount]
      exact congrArg (quoteH3Plan host plan .reserve _ · _ _) (if_neg hcount)

/-- The totals of a plan that is built are the quotes of its request. -/
theorem buildH3BillingPlan_built {profile : H3BillingConfig} {input : H3BillingInput}
    {groupRatio : ℚ} {source ruleKey : String}
    (h : buildH3BillingPlan host profile input groupRatio source ruleKey = .ok plan) :
    Built host plan := by
  unfold buildH3BillingPlan at h
  simp only [ok_bind, ok_require, ok_pure] at h
  obtain ⟨_, hconfig, _, _, _, _, _, _, _, _, digest, _, estimate, hestimate, reserve, hreserve,
    rfl⟩ := h
  obtain ⟨hmax, haudio⟩ := validateH3BillingConfig_ok hconfig
  apply built_withTotals
  · exact hestimate
  · rw [h3BillingPlan_video]
    exact hreserve
  · rw [h3BillingPlan_audio]
    exact prefixed_ok.mpr haudio
  · rw [h3BillingPlan_video]
    split
    · omega
    · omega
  · intro hcount
    rw [h3BillingPlan_video]
    exact if_neg hcount

/-! ### Usages -/

theorem usageMilliseconds_ok {value : Option ℤ} {field : String} {required : Prop}
    [Decidable required] {minimum maximum ms : ℤ}
    (h : usageMilliseconds value field required minimum maximum = .ok ms) :
    0 ≤ ms ∧ ms = value.getD 0 := by
  unfold usageMilliseconds at h
  cases value with
  | none =>
      simp only [ok_bind, ok_require, ok_pure] at h
      obtain ⟨_, _, rfl⟩ := h
      exact ⟨le_refl _, rfl⟩
  | some value =>
      simp only [ok_bind, ok_require, ok_pure] at h
      obtain ⟨_, hnonneg, _, _, rfl⟩ := h
      exact ⟨hnonneg, rfl⟩

/-- The quantities that a usage reports; what it leaves out is zero. -/
def TaskUsage.quantities (usage : TaskUsage) : Quantities :=
  ⟨usage.outputDurationMs.getD 0, usage.inputVideoDurationMs.getD 0,
    usage.inputAudioDurationMs.getD 0, usage.inputImageCount.getD 0⟩

/-- A usage that passes the checks reports no more than was reserved. -/
theorem usageQuantities_ok {usage : TaskUsage} (h : usageQuantities plan usage = .ok m) :
    m = usage.quantities ∧ m.NonNegative ∧
      m.outputMs ≤ plan.requestedOutputDurationSeconds * 1000 ∧
      m.videoMs ≤ reservedVideoSeconds plan * 1000 ∧ m.imageCount = plan.inputImageCount := by
  unfold usageQuantities at h
  simp only [ok_bind, ok_require, ok_orThrow, ok_pure] at h
  obtain ⟨_, _, output, houtput, _, hout, video, hvideo, _, hvid, _, _, audio, haudio, _, _, image,
    hcount, _, himage, _, heq, rfl⟩ := h
  obtain ⟨houtput₀, houtput⟩ := usageMilliseconds_ok houtput
  obtain ⟨hvideo₀, hvideo⟩ := usageMilliseconds_ok hvideo
  obtain ⟨haudio₀, haudio⟩ := usageMilliseconds_ok haudio
  refine ⟨?_, ⟨houtput₀, hvideo₀, haudio₀, himage⟩, hout, hvid, heq⟩
  unfold TaskUsage.quantities
  rw [← houtput, ← hvideo, ← haudio, hcount, Option.getD_some]

namespace Built

/-- The prices of a plan that was built, with its reserved quantities quoted. -/
theorem priced (hplan : Built host plan) :
    validateH3BillingPlan host plan = .ok () ∧ (∃ u, PricedBy host plan u ∧ u.audio = 0) ∧
      ∃ q, quoteH3PlanMilliseconds host plan .reserve (reservedQuantities plan) = .ok q ∧
        q.quota = plan.reserveQuota := by
  obtain ⟨q, hq, hquota⟩ := hplan.reserve
  have hms := quoteH3Plan_ok hq
  have hvideo : (if 0 < plan.inputVideoCount then reservedVideoSeconds plan else 0) =
      reservedVideoSeconds plan := by
    by_cases hcount : 0 < plan.inputVideoCount
    · exact if_pos hcount
    · rw [if_neg hcount, hplan.noVideo hcount]
  rw [hvideo, zero_mul] at hms
  obtain ⟨hvalid, _, u, hu, _, _⟩ := quoteH3PlanMilliseconds_ok.mp ⟨q, hms, rfl⟩
  exact ⟨hvalid, ⟨u, hu, Except.ok.inj (hu.audio.symm.trans hplan.freeAudio)⟩, q, hms, hquota⟩

/-- The estimate of a plan is at most its reservation. -/
theorem estimate_le (hplan : Built host plan) : plan.estimateQuota ≤ plan.reserveQuota := by
  obtain ⟨hvalid, ⟨u, hu, _⟩, q', hq', hquota'⟩ := hplan.priced
  obtain ⟨q, hq, hquota⟩ := hplan.estimate
  have hms := quoteH3Plan_ok hq
  obtain ⟨_, hm, _⟩ := quoteH3PlanMilliseconds_ok.mp ⟨q, hms, rfl⟩
  have hvideo := hplan.videoReserve
  have hwithin : Quantities.Within u
      ⟨plan.requestedOutputDurationSeconds * 1000, 0 * 1000, 0 * 1000, plan.inputImageCount⟩
      (reservedQuantities plan) :=
    ⟨le_refl _, Int.mul_le_mul_of_nonneg_right hvideo (by decide), .inl (le_refl _), le_refl _⟩
  obtain ⟨q₂, hq₂, hle⟩ := quote_mono hu hm hwithin hq'
  obtain rfl := Except.ok.inj (hms.symm.trans hq₂)
  omega

/-- A usage that passes the checks is quoted at most at the reservation. -/
theorem final_le (hplan : Built host plan) {usage : TaskUsage}
    (husage : usageQuantities plan usage = .ok m) :
    ∃ q, quoteH3Final host plan usage = .ok q ∧
      quoteH3PlanMilliseconds host plan .final usage.quantities = .ok q ∧
        q.quota ≤ plan.reserveQuota := by
  obtain ⟨hvalid, ⟨u, hu, haudio⟩, q', hq', hquota'⟩ := hplan.priced
  obtain ⟨rfl, hm, houtput, hvideo, himage⟩ := usageQuantities_ok husage
  obtain ⟨q, hq, hle⟩ : ∃ q, quoteH3PlanMilliseconds host plan .final usage.quantities = .ok q ∧
      q.quota ≤ q'.quota :=
    quote_mono hu hm ⟨houtput, hvideo, .inr haudio, himage.le⟩ hq'
  have hquota : q.quota ≤ plan.reserveQuota := by omega
  refine ⟨q, ?_, hq, hquota⟩
  unfold quoteH3Final
  simp only [ok_bind, ok_require, ok_pure]
  exact ⟨⟨⟩, hvalid, _, husage, q, hq, ⟨⟩, hquota, rfl⟩

end Built

/-- No quantity is larger in `m'`. -/
structure Quantities.AtMost (m m' : Quantities) : Prop where
  output : m.outputMs ≤ m'.outputMs
  video : m.videoMs ≤ m'.videoMs
  audio : m.audioMs ≤ m'.audioMs
  image : m.imageCount ≤ m'.imageCount

/-- Quotes under one plan are in the order of their quantities. -/
theorem quote_le {stage stage' : Stage} {q q' : H3BillingQuote} (h : m.AtMost m')
    (hq : quoteH3PlanMilliseconds host plan stage m = .ok q)
    (hq' : quoteH3PlanMilliseconds host plan stage' m' = .ok q') : q.quota ≤ q'.quota := by
  obtain ⟨_, hm, u, hu, _⟩ := quoteH3PlanMilliseconds_ok.mp ⟨q, hq, rfl⟩
  obtain ⟨q₂, hq₂, hle⟩ := quote_mono hu hm ⟨h.output, h.video, .inl h.audio, h.image⟩ hq'
  obtain rfl := Except.ok.inj (hq.symm.trans hq₂)
  exact hle

/-- **Main.** The snapshot of a plan that is built is valid, and its estimate is at most its
reservation.  Every usage that passes the checks gets a final quote of at most the reservation, and
a usage that reports no less gets no smaller quote; so it is with the quote of any quantities. -/
theorem reservation_covers {profile : H3BillingConfig} {input : H3BillingInput}
    {groupRatio : ℚ} {source ruleKey : String}
    (h : buildH3BillingPlan host profile input groupRatio source ruleKey = .ok plan) :
    validateH3BillingPlanSnapshot host plan = .ok () ∧
      plan.estimateQuota ≤ plan.reserveQuota ∧
      (∀ usage m, usageQuantities plan usage = .ok m →
        ∃ q, quoteH3Final host plan usage = .ok q ∧ q.quota ≤ plan.reserveQuota) ∧
      (∀ usage usage' m m' q q', usageQuantities plan usage = .ok m →
        usageQuantities plan usage' = .ok m' → usage.quantities.AtMost usage'.quantities →
        quoteH3Final host plan usage = .ok q → quoteH3Final host plan usage' = .ok q' →
          q.quota ≤ q'.quota) ∧
      ∀ m m' q q', m.AtMost m' → quoteH3PlanMilliseconds host plan .final m = .ok q →
        quoteH3PlanMilliseconds host plan .final m' = .ok q' → q.quota ≤ q'.quota := by
  have hplan := buildH3BillingPlan_built h
  have hle := hplan.estimate_le
  refine ⟨?_, hle, ?_, ?_, fun m m' q q' hm hq hq' => quote_le hm hq hq'⟩
  · obtain ⟨e, he, hestimate⟩ := hplan.estimate
    obtain ⟨r, hr, hreserve⟩ := hplan.reserve
    unfold validateH3BillingPlanSnapshot
    simp only [ok_bind, ok_require]
    exact ⟨e, he, r, hr, ⟨⟩, ⟨hestimate, hreserve⟩, by omega⟩
  · intro usage m husage
    obtain ⟨q, hq, _, hquota⟩ := hplan.final_le husage
    exact ⟨q, hq, hquota⟩
  · intro usage usage' m m' q q' husage husage' hmost hq hq'
    obtain ⟨q₁, hq₁, hquote, _⟩ := hplan.final_le husage
    obtain ⟨q₂, hq₂, hquote', _⟩ := hplan.final_le husage'
    obtain rfl := Except.ok.inj (hq.symm.trans hq₁)
    obtain rfl := Except.ok.inj (hq'.symm.trans hq₂)
    exact quote_le hmost hquote hquote'

/-! ### The default price list -/

/-- The text that a contract is digested from starts with its source. -/
def defaultHost : Host where
  newFromString := fun text =>
    if text = "0.08" then some (8 / 100) else if text = "0.13" then some (13 / 100)
    else if text = "0.04" then some (4 / 100) else if text = "0" then some 0 else none
  sha256Hex := fun text =>
    if Text.hasPrefix text "source_id=" then
      "e2f7fa75148543b5b12dcd12945abca6eb748298b5c44e395507b484dc5ad0ef"
    else "ae6c437ef0c9766ade441cfa116bee34af54d711dc8772472b7aafb9317cd490"
  marshal := fun _ =>
    "\x7b\"schema_version\":1,\"mode\":\"bounded_actual\",\"currency\":\"USD\"," ++
    "\"output_unit_price\":\x7b\"2K\":\"0.13\",\"768P\":\"0.08\"\x7d," ++
    "\"input_video_unit_price\":\x7b\"2K\":\"0.13\",\"768P\":\"0.08\"\x7d," ++
    "\"input_video_max_seconds\":15,\"input_image_free_count\":5," ++
    "\"input_image_extra_unit_price\":\"0.04\",\"input_audio_unit_price\":\"0\"\x7d"
  quotaPerUnit := 500000

/-- `defaultH3BillingConfig`. -/
def defaultH3BillingConfig : H3BillingConfig where
  schemaVersion := 1
  mode := h3BillingMode
  currency := "USD"
  outputUnitPrice := [⟨"768P", "0.08"⟩, ⟨"2K", "0.13"⟩].toAList
  inputVideoUnitPrice := [⟨"768P", "0.08"⟩, ⟨"2K", "0.13"⟩].toAList
  inputVideoMaxSeconds := h3MaxInputMediaDurationSeconds
  inputImageFreeCount := 5
  inputImageExtraUnitPrice := "0.04"
  inputAudioUnitPrice := "0"

/-- Ten seconds from a video and seven images. -/
def videoRequest : H3BillingInput := ⟨" 2k ", 10, 1, 0, 7⟩

def videoUsage : TaskUsage := ⟨some 9500, some 7250, none, some 7, "complete"⟩

/-- `defaultHost`, which tells the texts that it digests apart by their first byte. -/
def firstByteHost : Host where
  newFromString := defaultHost.newFromString
  sha256Hex := fun text =>
    if text.toByteArray.data.toList.head? = some 115 then
      "e2f7fa75148543b5b12dcd12945abca6eb748298b5c44e395507b484dc5ad0ef"
    else "ae6c437ef0c9766ade441cfa116bee34af54d711dc8772472b7aafb9317cd490"
  marshal := defaultHost.marshal
  quotaPerUnit := defaultHost.quotaPerUnit

theorem defaultHost_sha256Hex (text : String) :
    defaultHost.sha256Hex text =
      if Text.hasPrefix text "source_id=" then
        "e2f7fa75148543b5b12dcd12945abca6eb748298b5c44e395507b484dc5ad0ef"
      else "ae6c437ef0c9766ade441cfa116bee34af54d711dc8772472b7aafb9317cd490" := rfl

theorem firstByteHost_sha256Hex (text : String) :
    firstByteHost.sha256Hex text =
      if text.toByteArray.data.toList.head? = some 115 then
        "e2f7fa75148543b5b12dcd12945abca6eb748298b5c44e395507b484dc5ad0ef"
      else "ae6c437ef0c9766ade441cfa116bee34af54d711dc8772472b7aafb9317cd490" := rfl

theorem sha256Hex_contract (a b c d e : String) :
    defaultHost.sha256Hex ("source_id=" ++ a ++ b ++ c ++ d ++ e) =
      firstByteHost.sha256Hex ("source_id=" ++ a ++ b ++ c ++ d ++ e) := by
  have hprefix : Text.hasPrefix ("source_id=" ++ a ++ b ++ c ++ d ++ e) "source_id=" = true := by
    unfold Text.hasPrefix
    simp only [String.toList_append, List.append_assoc, List.isPrefixOf_iff_prefix]
    exact List.prefix_append _ _
  have hfirst : "source_id=".toByteArray.data.toList.head? = some 115 := by decide +kernel
  have hhead :
      ("source_id=" ++ a ++ b ++ c ++ d ++ e).toByteArray.data.toList.head? = some 115 := by
    simp only [String.toByteArray_append, ByteArray.data_append, Array.toList_append,
      List.head?_append, hfirst]
    rfl
  rw [defaultHost_sha256Hex, if_pos hprefix, firstByteHost_sha256Hex, if_pos hhead]

/-- The first of the texts that `defaultHost.marshal` joins. -/
def marshalledStart : String :=
  "\x7b\"schema_version\":1,\"mode\":\"bounded_actual\",\"currency\":\"USD\","

theorem marshalledStart_toList : marshalledStart.toList.head? = some '\x7b' := by decide +kernel

theorem marshalledStart_bytes : marshalledStart.toByteArray.data.toList.head? = some 0x7b := by
  decide +kernel

theorem sha256Hex_config (config : H3BillingConfig) :
    defaultHost.sha256Hex (defaultHost.marshal config) =
      firstByteHost.sha256Hex (firstByteHost.marshal config) := by
  have hprefix : ¬ Text.hasPrefix (defaultHost.marshal config) "source_id=" = true := by
    unfold Text.hasPrefix
    rw [List.isPrefixOf_iff_prefix]
    rintro ⟨r, hr⟩
    have hhead := congrArg List.head? hr
    have hs : "source_id=".toList.head? = some 's' := by decide +kernel
    unfold defaultHost at hhead
    rw [← marshalledStart] at hhead
    simp only [String.toList_append, List.head?_append, marshalledStart_toList, hs,
      Option.some_or] at hhead
    exact absurd hhead (by decide)
  have hhead : (defaultHost.marshal config).toByteArray.data.toList.head? = some 0x7b := by
    unfold defaultHost
    rw [← marshalledStart]
    simp only [String.toByteArray_append, ByteArray.data_append, Array.toList_append,
      List.head?_append, marshalledStart_bytes, Option.some_or]
  have hne : ¬ (defaultHost.marshal config).toByteArray.data.toList.head? = some 115 := by
    rw [hhead]
    decide +kernel
  have hmarshal : firstByteHost.marshal config = defaultHost.marshal config := rfl
  rw [hmarshal, defaultHost_sha256Hex, if_neg hprefix, firstByteHost_sha256Hex, if_neg hne]

theorem contractDigest_host (contract : TaskUsageContract) :
    contractDigest defaultHost.sha256Hex contract =
      contractDigest firstByteHost.sha256Hex contract := by
  unfold contractDigest
  rw [sha256Hex_contract]

theorem resolveContract_host (sourceID : String) (schemaVersion : ℤ) (digest : String) :
    resolveContract defaultHost.sha256Hex sourceID schemaVersion digest =
      resolveContract firstByteHost.sha256Hex sourceID schemaVersion digest := by
  unfold resolveContract
  simp only [contractDigest_host]

theorem nonNegativePrice_host (value : String) :
    nonNegativePrice defaultHost value = nonNegativePrice firstByteHost value := by
  unfold nonNegativePrice
  rfl

theorem validateH3BillingConfig_host (key : String) (profile : H3BillingConfig) :
    validateH3BillingConfig defaultHost key profile =
      validateH3BillingConfig firstByteHost key profile := by
  unfold validateH3BillingConfig validateResolutionPrices validateResolutionPrice
  simp only [nonNegativePrice_host]

theorem planComponentPrice_host (plan : TaskBillingPlan) (key : String) :
    planComponentPrice defaultHost plan key = planComponentPrice firstByteHost plan key := by
  unfold planComponentPrice
  simp only [nonNegativePrice_host]

theorem quotaPerUnit_host : defaultHost.quotaPerUnit = firstByteHost.quotaPerUnit := rfl

theorem validateComponents_host (plan : TaskBillingPlan)
    (components : List TaskBillingPlanComponent) :
    ∀ seen, validateComponents defaultHost plan seen components =
      validateComponents firstByteHost plan seen components := by
  induction components with
  | nil => exact fun seen => rfl
  | cons component components ih =>
      intro seen
      unfold validateComponents
      simp only [ih, nonNegativePrice_host]

theorem validateH3BillingPlan_host (plan : TaskBillingPlan) :
    validateH3BillingPlan defaultHost plan = validateH3BillingPlan firstByteHost plan := by
  have husage :
      validateUsageIdentity defaultHost plan = validateUsageIdentity firstByteHost plan := by
    unfold validateUsageIdentity
    rw [resolveContract_host]
  unfold validateH3BillingPlan
  simp only [husage, validateComponents_host]

theorem quoteH3Plan_host (plan : TaskBillingPlan) (stage : Stage) (o v a i : ℤ) :
    quoteH3Plan defaultHost plan stage o v a i = quoteH3Plan firstByteHost plan stage o v a i := by
  unfold quoteH3Plan quoteH3PlanMilliseconds
  simp only [validateH3BillingPlan_host, planComponentPrice_host]

theorem h3BillingPlan_host (profile : H3BillingConfig) (input : H3BillingInput)
    (groupRatio : ℚ) (source ruleKey resolution digest : String) (videoReserve : ℤ) :
    h3BillingPlan defaultHost profile input groupRatio source ruleKey resolution digest
        videoReserve =
      h3BillingPlan firstByteHost profile input groupRatio source ruleKey resolution digest
        videoReserve := by
  unfold h3BillingPlan hashH3BillingConfig
  rw [sha256Hex_config, quotaPerUnit_host]

theorem buildH3BillingPlan_host (profile : H3BillingConfig) (input : H3BillingInput)
    (groupRatio : ℚ) (source ruleKey : String) :
    buildH3BillingPlan defaultHost profile input groupRatio source ruleKey =
      buildH3BillingPlan firstByteHost profile input groupRatio source ruleKey := by
  unfold buildH3BillingPlan
  simp only [validateH3BillingConfig_host, contractDigest_host, h3BillingPlan_host,
    quoteH3Plan_host, quotaPerUnit_host]
  rfl

theorem exists_of_toOption_bind {ε α β : Type} {x : Except ε α} {f : α → Option β} {b : β}
    (h : x.toOption.bind f = some b) : ∃ a, x = .ok a ∧ f a = some b := by
  cases x with
  | error e => simp [Except.toOption] at h
  | ok a => exact ⟨a, rfl, h⟩

theorem exists_of_toOption_map {ε α β : Type} {x : Except ε α} {f : α → β} {b : β}
    (h : x.toOption.map f = some b) : ∃ a, x = .ok a ∧ f a = b := by
  cases x with
  | error e => simp [Except.toOption] at h
  | ok a => exact ⟨a, rfl, Option.some.inj h⟩

theorem reservation_covers_video :
    ∃ plan q, buildH3BillingPlan defaultHost defaultH3BillingConfig videoRequest 1 h3BillingSource
        "minimax/minimax-h3" = .ok plan ∧ plan.reserveQuota = 1665000 ∧
      quoteH3Final defaultHost plan videoUsage = .ok q ∧ q.quota ≤ plan.reserveQuota := by
  have hsome : ((buildH3BillingPlan defaultHost defaultH3BillingConfig videoRequest 1
      h3BillingSource "minimax/minimax-h3").toOption.bind fun plan =>
        (usageQuantities plan videoUsage).toOption.map fun _ => plan.reserveQuota) =
          some 1665000 := by
    rw [buildH3BillingPlan_host]
    decide +kernel
  obtain ⟨plan, hplan, husage⟩ := exists_of_toOption_bind hsome
  obtain ⟨m, hm, hreserve⟩ := exists_of_toOption_map husage
  obtain ⟨_, _, hfinal, _⟩ := reservation_covers hplan
  obtain ⟨q, hq, hle⟩ := hfinal videoUsage m hm
  exact ⟨plan, q, hplan, hreserve, hq, hle⟩

end MaxApi.TaskBilling
