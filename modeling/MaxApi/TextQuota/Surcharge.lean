import MaxApi.Lib.Int64
import MaxApi.Lib.Rounding
import MaxApi.ToolUsage.Ledger
import Mathlib.Algebra.Order.BigOperators.Group.List

/-! # Text quotas: tool calls

The part of a charge that is made for tool calls, `calculateTextToolCallSurcharge`.  Ratios and
prices are exact rationals, of whose quotients sixteen digits after the point are kept.  With prices
that are not negative the surcharge is not negative, and more calls never make it smaller, as long
as the web searches can be counted in 64 bits (`surcharge_mono`). -/

namespace MaxApi.TextQuota

open ToolUsage

/-- The prices of a request. -/
structure PriceData where
  modelPrice : ℚ
  modelRatio : ℚ
  groupRatio : ℚ
  completionRatio : ℚ
  cacheRatio : ℚ
  cacheCreationRatio : ℚ
  cacheCreation5mRatio : ℚ
  cacheCreation1hRatio : ℚ
  imageRatio : ℚ
  /-- The values of the map, in the order of a walk over it. -/
  otherRatios : List ℚ
  usePrice : Bool

/-- What a charge depends on besides the usage.  `channelType` is `none` without channel data, and
`finalRequestRelayFormat` is `GetFinalRequestRelayFormat`. -/
structure RelayInfo where
  originModelName : String
  priceData : PriceData
  channelType : Option ℤ
  finalRequestRelayFormat : String
  /-- The relay mode is the one of alpha search. -/
  alphaSearch : Bool
  estimatePromptTokens : ℤ
  frozenToolPrice : String → ℚ

/-- The settings of the process. -/
structure Settings where
  quotaPerUnit : ℚ
  defaultModelRatio : String → Option ℚ

/-- The tool calls of a request: the snapshot of the ledger, the counts of `ResponsesUsageInfo`, and
what the context says about web searches and the quality and size of an image. -/
structure ToolCalls where
  items : List ToolUsageItem
  builtInTools : Option (Dict ℤ)
  claudeWebSearchRequests : ℤ
  imageGenerationCall : Option (String × String)

/-! ### Prices of calls -/

/-- `Div` of a decimal. -/
def decimalDiv (a b : ℚ) : ℚ := Rounding.quotient 16 a b

/-- `GetGPTImage1PriceOnceCall`. -/
def getGPTImage1PriceOnceCall (quality size : String) : ℚ :=
  let price := match quality, size with
    | "low", "1024x1024" => some (11 / 1000)
    | "low", "1024x1536" => some (16 / 1000)
    | "low", "1536x1024" => some (16 / 1000)
    | "medium", "1024x1024" => some (42 / 1000)
    | "medium", "1024x1536" => some (63 / 1000)
    | "medium", "1536x1024" => some (63 / 1000)
    | "high", "1024x1024" => some (167 / 1000)
    | "high", "1024x1536" => some (1 / 4)
    | "high", "1536x1024" => some (1 / 4)
    | _, _ => none
  price.getD (167 / 1000)

section surcharge

variable (settings : Settings) (info : RelayInfo)

/-- A price in dollars as quota of the group. -/
def quotaOfPrice (price : ℚ) : ℚ := price * info.priceData.groupRatio * settings.quotaPerUnit

/-- `customToolItemQuota`, of an item that is billed. -/
def customToolItemQuota (item : ToolUsageItem) : ℚ :=
  if item.callCount ≤ 0 ∨ item.pricePer1K ≤ 0 then 0
  else quotaOfPrice settings info (decimalDiv (item.pricePer1K * item.callCount) 1000)

/-- `calculateCustomToolCallSurcharge`. -/
def calculateCustomToolCallSurcharge (calls : ToolCalls) : ℚ :=
  (calls.items.map (customToolItemQuota settings info)).sum

/-- The price of the calls of a built-in tool, in dollars for a thousand calls each. -/
def builtInCost (tools : Dict ℤ) (toolName : String) : ℚ :=
  match tools.lookup toolName with
  | none => 0
  | some callCount => if callCount ≤ 0 then 0 else info.frozenToolPrice toolName * callCount

/-- The calls of a built-in tool that are counted. -/
def builtInCalls (tools : Dict ℤ) (toolName : String) : ℤ :=
  match tools.lookup toolName with
  | none => 0
  | some callCount => if callCount ≤ 0 then 0 else callCount

/-- `webSearchCalls`. -/
def webSearchCalls (tools : Dict ℤ) : ℤ :=
  Int64Range.wrap (builtInCalls tools "web_search_preview" + builtInCalls tools "web_search")

/-- Web searches; without `ResponsesUsageInfo` a search model makes one. -/
def webSearchSurcharge (calls : ToolCalls) : ℚ :=
  match calls.builtInTools with
  | some tools =>
      if 0 < webSearchCalls tools then
        quotaOfPrice settings info (decimalDiv
          (builtInCost info tools "web_search_preview" + builtInCost info tools "web_search") 1000)
      else 0
  | none =>
      if Text.hasSuffix info.originModelName "search-preview" then
        quotaOfPrice settings info (decimalDiv (info.frozenToolPrice "web_search_preview") 1000)
      else 0

def claudeWebSearchSurcharge (calls : ToolCalls) : ℚ :=
  if 0 < calls.claudeWebSearchRequests then
    quotaOfPrice settings info (decimalDiv (info.frozenToolPrice "web_search") 1000) *
      calls.claudeWebSearchRequests
  else 0

def fileSearchSurcharge (calls : ToolCalls) : ℚ :=
  match calls.builtInTools with
  | some tools =>
    quotaOfPrice settings info (decimalDiv (builtInCost info tools "file_search") 1000)
  | none => 0

def imageGenerationSurcharge (calls : ToolCalls) : ℚ :=
  match calls.imageGenerationCall with
  | some (quality, size) => quotaOfPrice settings info (getGPTImage1PriceOnceCall quality size)
  | none => 0

/-- `calculateTextToolCallSurcharge`. -/
def calculateTextToolCallSurcharge (calls : ToolCalls) : ℚ :=
  if info.priceData.usePrice then 0
  else
    calculateCustomToolCallSurcharge settings info calls + webSearchSurcharge settings info calls +
      claudeWebSearchSurcharge settings info calls + fileSearchSurcharge settings info calls +
      imageGenerationSurcharge settings info calls

end surcharge

/-! ### Surcharges in order -/

/-- More calls: each count is at least what it was, and items may come in between. -/
structure ToolCalls.Le (calls calls' : ToolCalls) : Prop where
  items : List.SublistForall₂ (fun item item' : ToolUsageItem => item.name = item'.name ∧
    item.pricePer1K = item'.pricePer1K ∧ item.callCount ≤ item'.callCount) calls.items calls'.items
  builtInTools : match calls.builtInTools, calls'.builtInTools with
    | some tools, some tools' => ∀ name, ∀ n ∈ tools.lookup name, ∃ n' ∈ tools'.lookup name, n ≤ n'
    | none, none => True
    | _, _ => False
  claudeWebSearchRequests : calls.claudeWebSearchRequests ≤ calls'.claudeWebSearchRequests
  imageGenerationCall : ∀ call ∈ calls.imageGenerationCall, calls'.imageGenerationCall = some call

/-- The web searches of a response can be counted in 64 bits. -/
def ToolCalls.Countable (calls : ToolCalls) : Prop :=
  ∀ tools ∈ calls.builtInTools, Int64Range.Representable
    (builtInCalls tools "web_search_preview" + builtInCalls tools "web_search")

/-- The prices and ratios of a request are not negative. -/
structure NonNegative (settings : Settings) (info : RelayInfo) : Prop where
  quotaPerUnit : 0 ≤ settings.quotaPerUnit
  modelPrice : 0 ≤ info.priceData.modelPrice
  modelRatio : 0 ≤ info.priceData.modelRatio
  groupRatio : 0 ≤ info.priceData.groupRatio
  completionRatio : 0 ≤ info.priceData.completionRatio
  cacheRatio : 0 ≤ info.priceData.cacheRatio
  cacheCreationRatio : 0 ≤ info.priceData.cacheCreationRatio
  cacheCreation5mRatio : 0 ≤ info.priceData.cacheCreation5mRatio
  cacheCreation1hRatio : 0 ≤ info.priceData.cacheCreation1hRatio
  imageRatio : 0 ≤ info.priceData.imageRatio
  otherRatios : ∀ r ∈ info.priceData.otherRatios, 0 ≤ r
  frozenToolPrice : ∀ name, 0 ≤ info.frozenToolPrice name

section order

variable {settings : Settings} {info : RelayInfo}

theorem getGPTImage1PriceOnceCall_nonneg (quality size : String) :
    0 ≤ getGPTImage1PriceOnceCall quality size := by
  unfold getGPTImage1PriceOnceCall
  dsimp only
  split <;> norm_num

theorem decimalDiv_nonneg {a b : ℚ} (ha : 0 ≤ a) (hb : 0 ≤ b) : 0 ≤ decimalDiv a b :=
  Rounding.quotient_nonneg ha hb

theorem decimalDiv_mono {a a' b : ℚ} (ha : 0 ≤ a) (hb : 0 ≤ b) (h : a ≤ a') :
    decimalDiv a b ≤ decimalDiv a' b := Rounding.quotient_mono ha hb h

theorem quotaOfPrice_mono (h : NonNegative settings info) {p q : ℚ} (hpq : p ≤ q) :
    quotaOfPrice settings info p ≤ quotaOfPrice settings info q := by
  have hgroup := h.groupRatio
  have hunit := h.quotaPerUnit
  unfold quotaOfPrice
  gcongr

theorem quotaOfPrice_nonneg (h : NonNegative settings info) {p : ℚ} (hp : 0 ≤ p) :
    0 ≤ quotaOfPrice settings info p := by
  have hgroup := h.groupRatio
  have hunit := h.quotaPerUnit
  unfold quotaOfPrice
  positivity

theorem customToolItemQuota_nonneg (h : NonNegative settings info) (item : ToolUsageItem) :
    0 ≤ customToolItemQuota settings info item := by
  unfold customToolItemQuota
  split_ifs with hskip
  · exact le_refl 0
  · obtain ⟨-, hprice⟩ := not_or.mp hskip
    have hprice' : 0 ≤ item.pricePer1K := le_of_lt (not_le.mp hprice)
    exact quotaOfPrice_nonneg h (decimalDiv_nonneg (by positivity) (by norm_num))

theorem customToolItemQuota_mono (h : NonNegative settings info) {item item' : ToolUsageItem}
    (hprice : item.pricePer1K = item'.pricePer1K) (hcount : item.callCount ≤ item'.callCount) :
    customToolItemQuota settings info item ≤ customToolItemQuota settings info item' := by
  by_cases hskip : item.callCount ≤ 0 ∨ item.pricePer1K ≤ 0
  · have hzero : customToolItemQuota settings info item = 0 := if_pos hskip
    rw [hzero]
    exact customToolItemQuota_nonneg h item'
  · obtain ⟨hpos, hprice0⟩ := not_or.mp hskip
    have hskip' : ¬ (item'.callCount ≤ 0 ∨ item'.pricePer1K ≤ 0) := by
      rw [← hprice]
      rintro (hle | hle)
      · omega
      · exact hprice0 hle
    have hnonneg : 0 ≤ item'.pricePer1K := by
      rw [← hprice]
      exact le_of_lt (not_le.mp hprice0)
    unfold customToolItemQuota
    rw [if_neg hskip, if_neg hskip']
    have hcast : (item.callCount : ℚ) ≤ item'.callCount := by exact_mod_cast hcount
    have hcount0 : (0 : ℚ) ≤ item.callCount := by exact_mod_cast (not_le.mp hpos).le
    rw [hprice]
    refine quotaOfPrice_mono h (decimalDiv_mono (by positivity) (by norm_num) ?_)
    gcongr

theorem builtInCost_nonneg (h : NonNegative settings info) (tools : Dict ℤ) (name : String) :
    0 ≤ builtInCost info tools name := by
  have hprice := h.frozenToolPrice name
  unfold builtInCost
  cases tools.lookup name with
  | none => exact le_refl 0
  | some n =>
      dsimp only
      split_ifs with hskip
      · exact le_refl 0
      · have hcount : (0 : ℚ) ≤ n := by exact_mod_cast (not_le.mp hskip).le
        positivity

theorem builtInCost_mono (h : NonNegative settings info) {tools tools' : Dict ℤ} {name : String}
    (hle : ∀ n ∈ tools.lookup name, ∃ n' ∈ tools'.lookup name, n ≤ n') :
    builtInCost info tools name ≤ builtInCost info tools' name := by
  have hprice := h.frozenToolPrice name
  cases hn : tools.lookup name with
  | none =>
      have hzero : builtInCost info tools name = 0 := by
        unfold builtInCost
        rw [hn]
      rw [hzero]
      exact builtInCost_nonneg h tools' name
  | some n =>
      obtain ⟨n', hn', hnn⟩ := hle n hn
      rw [Option.mem_def] at hn'
      by_cases hpos : n ≤ 0
      · have hzero : builtInCost info tools name = 0 := by
          unfold builtInCost
          rw [hn]
          exact if_pos hpos
        rw [hzero]
        exact builtInCost_nonneg h tools' name
      · have hpos' : ¬ n' ≤ 0 := by omega
        have hcast : (n : ℚ) ≤ n' := by exact_mod_cast hnn
        unfold builtInCost
        rw [hn, hn']
        dsimp only
        rw [if_neg hpos, if_neg hpos']
        gcongr

theorem custom_nonneg (h : NonNegative settings info) (calls : ToolCalls) :
    0 ≤ calculateCustomToolCallSurcharge settings info calls := by
  unfold calculateCustomToolCallSurcharge
  refine List.sum_nonneg ?_
  intro q hq
  obtain ⟨item, -, rfl⟩ := List.mem_map.mp hq
  exact customToolItemQuota_nonneg h item

theorem custom_mono (h : NonNegative settings info) {calls calls' : ToolCalls}
    (hle : calls.Le calls') :
    calculateCustomToolCallSurcharge settings info calls ≤
      calculateCustomToolCallSurcharge settings info calls' := by
  unfold calculateCustomToolCallSurcharge
  refine List.SublistForall₂.sum_le_sum ?_ ?_
  · rw [List.sublistForall₂_map_left_iff, List.sublistForall₂_map_right_iff]
    obtain ⟨l, hl, hsub⟩ := List.sublistForall₂_iff.mp hle.items
    refine List.sublistForall₂_iff.mpr ⟨l, hl.imp ?_, hsub⟩
    rintro item item' ⟨-, hprice, hcount⟩
    exact customToolItemQuota_mono h hprice hcount
  · intro q hq
    obtain ⟨item, -, rfl⟩ := List.mem_map.mp hq
    exact customToolItemQuota_nonneg h item

theorem webSearch_nonneg (h : NonNegative settings info) (calls : ToolCalls) :
    0 ≤ webSearchSurcharge settings info calls := by
  unfold webSearchSurcharge
  cases calls.builtInTools with
  | some tools =>
      have hpreview := builtInCost_nonneg h tools "web_search_preview"
      have hsearch := builtInCost_nonneg h tools "web_search"
      dsimp only
      split_ifs
      · exact quotaOfPrice_nonneg h (decimalDiv_nonneg (by positivity) (by norm_num))
      · exact le_refl 0
  | none =>
      have hprice := h.frozenToolPrice "web_search_preview"
      dsimp only
      split_ifs
      · exact quotaOfPrice_nonneg h (decimalDiv_nonneg hprice (by norm_num))
      · exact le_refl 0

theorem claudeWebSearch_nonneg (h : NonNegative settings info) (calls : ToolCalls) :
    0 ≤ claudeWebSearchSurcharge settings info calls := by
  have hprice := h.frozenToolPrice "web_search"
  unfold claudeWebSearchSurcharge
  split_ifs with hpos
  · have hcount : (0 : ℚ) ≤ calls.claudeWebSearchRequests := by exact_mod_cast hpos.le
    have hquota := quotaOfPrice_nonneg h (decimalDiv_nonneg hprice (by norm_num : (0 : ℚ) ≤ 1000))
    positivity
  · exact le_refl 0

theorem fileSearch_nonneg (h : NonNegative settings info) (calls : ToolCalls) :
    0 ≤ fileSearchSurcharge settings info calls := by
  unfold fileSearchSurcharge
  cases calls.builtInTools with
  | some tools =>
      have hfile := builtInCost_nonneg h tools "file_search"
      exact quotaOfPrice_nonneg h (decimalDiv_nonneg hfile (by norm_num))
  | none => exact le_refl 0

theorem imageGeneration_nonneg (h : NonNegative settings info) (calls : ToolCalls) :
    0 ≤ imageGenerationSurcharge settings info calls := by
  unfold imageGenerationSurcharge
  split
  · exact quotaOfPrice_nonneg h (getGPTImage1PriceOnceCall_nonneg _ _)
  · exact le_refl 0

theorem builtInCalls_nonneg (tools : Dict ℤ) (name : String) : 0 ≤ builtInCalls tools name := by
  unfold builtInCalls
  split
  · exact le_refl 0
  · split_ifs <;> omega

theorem builtInCalls_mono {tools tools' : Dict ℤ} {name : String}
    (hle : ∀ n ∈ tools.lookup name, ∃ n' ∈ tools'.lookup name, n ≤ n') :
    builtInCalls tools name ≤ builtInCalls tools' name := by
  cases hn : tools.lookup name with
  | none =>
      have hzero : builtInCalls tools name = 0 := by
        unfold builtInCalls
        rw [hn]
      rw [hzero]
      exact builtInCalls_nonneg tools' name
  | some n =>
      obtain ⟨n', hn', hnn⟩ := hle n hn
      rw [Option.mem_def] at hn'
      unfold builtInCalls
      rw [hn, hn']
      dsimp only
      split_ifs <;> omega

/-- With more calls there would be more to count. -/
theorem ToolCalls.Countable.of_le {calls calls' : ToolCalls} (hcalls : calls'.Countable)
    (hle : calls.Le calls') : calls.Countable := by
  intro tools hc
  rw [Option.mem_def] at hc
  have htools := hle.builtInTools
  cases hc' : calls'.builtInTools with
  | none => simp [hc, hc'] at htools
  | some tools' =>
      simp only [hc, hc'] at htools
      have hpreview := builtInCalls_mono (htools "web_search_preview")
      have hsearch := builtInCalls_mono (htools "web_search")
      have hpreview0 := builtInCalls_nonneg tools "web_search_preview"
      have hsearch0 := builtInCalls_nonneg tools "web_search"
      have hcount := hcalls tools' hc'
      unfold Int64Range.Representable Int64Range.minValue Int64Range.maxValue at hcount ⊢
      omega

/-- What the searches cost of which a response reports the counts. -/
theorem builtIn_mono (h : NonNegative settings info) {calls calls' : ToolCalls}
    (hle : calls.Le calls') (hcalls : calls'.Countable) :
    webSearchSurcharge settings info calls ≤ webSearchSurcharge settings info calls' ∧
      fileSearchSurcharge settings info calls ≤ fileSearchSurcharge settings info calls' := by
  have htools := hle.builtInTools
  unfold webSearchSurcharge fileSearchSurcharge
  cases hc : calls.builtInTools with
  | some tools =>
      cases hc' : calls'.builtInTools with
      | none => simp [hc, hc'] at htools
      | some tools' =>
          simp only [hc, hc'] at htools
          have hpreview := builtInCost_mono h (htools "web_search_preview")
          have hsearch := builtInCost_mono h (htools "web_search")
          have hfile := builtInCost_mono h (htools "file_search")
          have hpreview0 := builtInCost_nonneg h tools "web_search_preview"
          have hsearch0 := builtInCost_nonneg h tools "web_search"
          have hfile0 := builtInCost_nonneg h tools "file_search"
          have hcount : webSearchCalls tools ≤ webSearchCalls tools' := by
            unfold webSearchCalls
            rw [Int64Range.wrap_eq ((hcalls.of_le hle) tools hc),
              Int64Range.wrap_eq (hcalls tools' hc')]
            exact add_le_add (builtInCalls_mono (htools _)) (builtInCalls_mono (htools _))
          refine ⟨?_, quotaOfPrice_mono h (decimalDiv_mono hfile0 (by norm_num) hfile)⟩
          dsimp only
          by_cases hany : 0 < webSearchCalls tools
          · rw [if_pos hany, if_pos (hany.trans_le hcount)]
            exact quotaOfPrice_mono h (decimalDiv_mono (by positivity) (by norm_num) (by gcongr))
          · rw [if_neg hany]
            have hnonneg := webSearch_nonneg h calls'
            unfold webSearchSurcharge at hnonneg
            rw [hc'] at hnonneg
            exact hnonneg
  | none =>
      cases hc' : calls'.builtInTools with
      | none => exact ⟨le_refl _, le_refl _⟩
      | some tools' => simp [hc, hc'] at htools

theorem claudeWebSearch_mono (h : NonNegative settings info) {calls calls' : ToolCalls}
    (hle : calls.Le calls') :
    claudeWebSearchSurcharge settings info calls ≤
      claudeWebSearchSurcharge settings info calls' := by
  have hprice := h.frozenToolPrice "web_search"
  have hquota := quotaOfPrice_nonneg h (decimalDiv_nonneg hprice (by norm_num : (0 : ℚ) ≤ 1000))
  have hcount := hle.claudeWebSearchRequests
  by_cases hpos : 0 < calls.claudeWebSearchRequests
  · have hpos' : 0 < calls'.claudeWebSearchRequests := by omega
    have hcast : (calls.claudeWebSearchRequests : ℚ) ≤ calls'.claudeWebSearchRequests := by
      exact_mod_cast hcount
    unfold claudeWebSearchSurcharge
    rw [if_pos hpos, if_pos hpos']
    gcongr
  · have hzero : claudeWebSearchSurcharge settings info calls = 0 := if_neg hpos
    rw [hzero]
    exact claudeWebSearch_nonneg h calls'

theorem imageGeneration_mono (h : NonNegative settings info) {calls calls' : ToolCalls}
    (hle : calls.Le calls') :
    imageGenerationSurcharge settings info calls ≤
      imageGenerationSurcharge settings info calls' := by
  cases hc : calls.imageGenerationCall with
  | none =>
      have hzero : imageGenerationSurcharge settings info calls = 0 := by
        unfold imageGenerationSurcharge
        rw [hc]
      rw [hzero]
      exact imageGeneration_nonneg h calls'
  | some call =>
      have hc' := hle.imageGenerationCall call hc
      unfold imageGenerationSurcharge
      rw [hc, hc']

theorem surcharge_nonneg (h : NonNegative settings info) (calls : ToolCalls) :
    0 ≤ calculateTextToolCallSurcharge settings info calls := by
  have hcustom := custom_nonneg h calls
  have hweb := webSearch_nonneg h calls
  have hclaude := claudeWebSearch_nonneg h calls
  have hfile := fileSearch_nonneg h calls
  have himage := imageGeneration_nonneg h calls
  unfold calculateTextToolCallSurcharge
  split_ifs
  · exact le_refl 0
  · positivity

/-- **More calls never make a surcharge smaller.** -/
theorem surcharge_mono (h : NonNegative settings info) {calls calls' : ToolCalls}
    (hle : calls.Le calls') (hcalls : calls'.Countable) :
    calculateTextToolCallSurcharge settings info calls ≤
      calculateTextToolCallSurcharge settings info calls' := by
  have hcustom := custom_mono h hle
  obtain ⟨hweb, hfile⟩ := builtIn_mono h hle hcalls
  have hclaude := claudeWebSearch_mono h hle
  have himage := imageGeneration_mono h hle
  unfold calculateTextToolCallSurcharge
  split_ifs
  · exact le_refl 0
  · gcongr

end order

end MaxApi.TextQuota
