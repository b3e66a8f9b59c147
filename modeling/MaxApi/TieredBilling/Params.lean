import MaxApi.Dto.Usage
import MaxApi.Lib.Rounding
import Mathlib.Algebra.BigOperators.Group.List.Basic
import Mathlib.Algebra.Ring.Int.Defs

/-! # Tiered billing: token parameters

The usage that the bill is made of (`effectiveBillingUsage`), and the variables that a tiered
expression is evaluated at (`buildTieredTokenParams`).  The variables are floats: a count is rounded
when it becomes one, and so is every sum and difference (`Rounding.float`). -/

namespace MaxApi.TieredBilling

open Dto
open Rounding (float float_eq)

/-! ### Billing usage -/

/-- `usageFromOpenAIBillingUsage`. -/
def usageFromOpenAIBillingUsage (billingUsage : BillingUsage) (openAIUsage : UsageCounts) : Usage :=
  let u := openAIUsage
  let u :=
    if u.promptTokens = 0 ∧ 0 < u.inputTokens then { u with promptTokens := u.inputTokens } else u
  let u :=
    if u.completionTokens = 0 ∧ 0 < u.outputTokens then
      { u with completionTokens := u.outputTokens }
    else u
  let u :=
    if u.inputTokens = 0 ∧ 0 < u.promptTokens then { u with inputTokens := u.promptTokens } else u
  let u :=
    if u.outputTokens = 0 ∧ 0 < u.completionTokens then
      { u with outputTokens := u.completionTokens }
    else u
  let u :=
    if u.totalTokens = 0 then { u with totalTokens := u.promptTokens + u.completionTokens } else u
  let u :=
    { u with
      promptTokensDetails := copyInputTokenDetails u.promptTokensDetails u.inputTokensDetails
      completionTokenDetails :=
        copyOutputTokenDetails u.completionTokenDetails u.outputTokensDetails
      usageSemantic := BillingUsageSemanticOpenAI
      usageSource := billingUsage.source }
  { u with billingUsage := some billingUsage }

/-- `usageFromClaudeBillingUsage`. -/
def usageFromClaudeBillingUsage (billingUsage : BillingUsage) (claudeUsage : ClaudeUsage) : Usage :=
  let cacheCreation5m :=
    fillCount claudeUsage.getCacheCreation5mTokens claudeUsage.claudeCacheCreation5mTokens
  let cacheCreation1h :=
    fillCount claudeUsage.getCacheCreation1hTokens claudeUsage.claudeCacheCreation1hTokens
  { promptTokens := claudeUsage.inputTokens
    completionTokens := claudeUsage.outputTokens
    totalTokens := claudeUsage.inputTokens + claudeUsage.outputTokens
    promptCacheHitTokens := 0
    inputTokens := claudeUsage.inputTokens + claudeUsage.cacheReadInputTokens +
      claudeUsage.cacheCreationInputTokens
    outputTokens := claudeUsage.outputTokens
    usageSemantic := BillingUsageSemanticAnthropic
    usageSource := BillingUsageSourceClaudeMessages
    billingUsage := some billingUsage
    claudeCacheCreation5mTokens := cacheCreation5m
    claudeCacheCreation1hTokens := cacheCreation1h
    promptTokensDetails :=
      { InputTokenDetails.empty with
        cachedTokens := claudeUsage.cacheReadInputTokens
        cachedCreationTokens := claudeUsage.cacheCreationInputTokens }
    completionTokenDetails := .empty
    outputTokensDetails := none
    inputTokensDetails := none }

/-- `addGeminiInputTokenDetail`. -/
def addGeminiInputTokenDetail (details : InputTokenDetails) (detail : GeminiPromptTokensDetails) :
    InputTokenDetails :=
  if detail.modality = "AUDIO" then
    { details with audioTokens := details.audioTokens + detail.tokenCount }
  else if detail.modality = "IMAGE" then
    { details with imageTokens := details.imageTokens + detail.tokenCount }
  else if detail.modality = "TEXT" then
    { details with textTokens := details.textTokens + detail.tokenCount }
  else details

/-- The body of the loop over `CandidatesTokensDetails`. -/
def addGeminiOutputTokenDetail (details : OutputTokenDetails) (detail : GeminiPromptTokensDetails) :
    OutputTokenDetails :=
  if detail.modality = "IMAGE" then
    { details with imageTokens := details.imageTokens + detail.tokenCount }
  else if detail.modality = "AUDIO" then
    { details with audioTokens := details.audioTokens + detail.tokenCount }
  else if detail.modality = "TEXT" then
    { details with textTokens := details.textTokens + detail.tokenCount }
  else details

/-- `usageFromGeminiBillingUsage`. -/
def usageFromGeminiBillingUsage (billingUsage : BillingUsage) (metadata : GeminiUsageMetadata) :
    Usage :=
  let promptTokens := metadata.promptTokenCount + metadata.toolUsePromptTokenCount
  let completionTokens := metadata.candidatesTokenCount + metadata.thoughtsTokenCount
  let input :=
    (metadata.promptTokensDetails ++ metadata.toolUsePromptTokensDetails).foldl
      addGeminiInputTokenDetail
      { InputTokenDetails.empty with cachedTokens := metadata.cachedContentTokenCount }
  let output :=
    metadata.candidatesTokensDetails.foldl addGeminiOutputTokenDetail
      { OutputTokenDetails.empty with reasoningTokens := metadata.thoughtsTokenCount }
  let totals :=
    if metadata.totalTokenCount = 0 then (completionTokens, promptTokens + completionTokens)
    else if completionTokens ≤ 0 then
      (metadata.totalTokenCount - promptTokens, metadata.totalTokenCount)
    else (completionTokens, metadata.totalTokenCount)
  let input :=
    if 0 < promptTokens ∧ input.textTokens = 0 ∧ input.audioTokens = 0 then
      { input with textTokens := promptTokens }
    else input
  { UsageCounts.empty with
    promptTokens := promptTokens
    completionTokens := totals.1
    totalTokens := totals.2
    usageSemantic := BillingUsageSemanticGemini
    usageSource := BillingUsageSourceGeminiChat
    promptTokensDetails := input
    completionTokenDetails := output
    billingUsage := some billingUsage }

/-- `usageFromBillingUsage`. -/
def usageFromBillingUsage (usage : Usage) : Option Usage :=
  match usage.billingUsage with
  | none => none
  | some billingUsage =>
      let source := Text.trimSpace billingUsage.source
      let semantic := Text.trimSpace billingUsage.semantic
      let openAI :=
        if Text.equalFold source BillingUsageSourceOAIChat ||
            Text.equalFold source BillingUsageSourceOAIResponses ||
            Text.equalFold semantic BillingUsageSemanticOpenAI then
          billingUsage.openAIUsage.map (usageFromOpenAIBillingUsage billingUsage)
        else none
      let claude :=
        if Text.equalFold source BillingUsageSourceClaudeMessages ||
            Text.equalFold semantic BillingUsageSemanticAnthropic then
          billingUsage.claudeUsage.map (usageFromClaudeBillingUsage billingUsage)
        else none
      let gemini :=
        if Text.equalFold source BillingUsageSourceGeminiChat ||
            Text.equalFold semantic BillingUsageSemanticGemini then
          billingUsage.geminiUsageMetadata.map (usageFromGeminiBillingUsage billingUsage)
        else none
      (openAI.orElse fun _ => claude).orElse fun _ => gemini

/-- `effectiveBillingUsage`. -/
def effectiveBillingUsage (usage : Usage) : Usage := (usageFromBillingUsage usage).getD usage

/-- `usageSemanticFromUsage`; `claudeFormat` says that the request was made in the Claude format. -/
def usageSemanticFromUsage (claudeFormat : Bool) (usage : Usage) : String :=
  if usage.usageSemantic ≠ "" then usage.usageSemantic
  else if claudeFormat then "anthropic"
  else "openai"

/-! ### Token parameters -/

/-- `TokenParams`, the variables of a tiered expression. -/
structure TokenParams where
  p : ℤ
  c : ℤ
  len : ℤ
  cr : ℤ
  cc : ℤ
  cc1h : ℤ
  img : ℤ
  imgO : ℤ
  ai : ℤ
  ao : ℤ
  deriving DecidableEq, Repr

/-- The cache creation tokens, with the lifetimes of 5 minutes and of 1 hour. -/
def cacheCreationTokens (usage : Usage) : ℤ × ℤ :=
  if usage.usageSemantic = "anthropic" then
    (usage.claudeCacheCreation5mTokens, usage.claudeCacheCreation1hTokens)
  else (usage.promptTokensDetails.cacheCreationTokensTotal, 0)

/-- `if usedVars[name] { n -= tokens }`. -/
def subtractUsed (usedVars : String → Bool) (n : ℤ) (name : String) (tokens : ℤ) : ℤ :=
  if usedVars name then float (n - tokens) else n

/-- `if n < 0 { n = 0 }`. -/
def clampZero (n : ℤ) : ℤ := if n < 0 then 0 else n

/-- `BuildTieredTokenParams`. -/
def buildTieredTokenParams (usage : Usage) (isClaudeUsageSemantic : Bool)
    (usedVars : String → Bool) : TokenParams :=
  let p := float usage.promptTokens
  let c := float usage.completionTokens
  let cr := float usage.promptTokensDetails.cachedTokens
  let cc5m := float (cacheCreationTokens usage).1
  let cc1h := float (cacheCreationTokens usage).2
  let img := float usage.promptTokensDetails.imageTokens
  let ai := float usage.promptTokensDetails.audioTokens
  let imgO := float usage.completionTokenDetails.imageTokens
  let ao := float usage.completionTokenDetails.audioTokens
  let inputLen :=
    if isClaudeUsageSemantic then float (float (float (p + cr) + cc5m) + cc1h) else p
  let p :=
    if isClaudeUsageSemantic then p
    else
      [("cr", cr), ("cc", cc5m), ("cc1h", cc1h), ("img", img), ("ai", ai)].foldl
        (fun n v => subtractUsed usedVars n v.1 v.2) p
  let c :=
    if isClaudeUsageSemantic then c
    else [("img_o", imgO), ("ao", ao)].foldl (fun n v => subtractUsed usedVars n v.1 v.2) c
  { p := clampZero p
    c := clampZero c
    len := inputLen
    cr := cr
    cc := cc5m
    cc1h := cc1h
    img := img
    imgO := imgO
    ai := ai
    ao := ao }

/-- The tokens of the input that an expression may name. -/
def inputs (usage : Usage) : List (String × ℤ) :=
  [("cr", usage.promptTokensDetails.cachedTokens), ("cc", (cacheCreationTokens usage).1),
    ("cc1h", (cacheCreationTokens usage).2), ("img", usage.promptTokensDetails.imageTokens),
    ("ai", usage.promptTokensDetails.audioTokens)]

/-- The tokens of the output that an expression may name. -/
def outputs (usage : Usage) : List (String × ℤ) :=
  [("img_o", usage.completionTokenDetails.imageTokens),
    ("ao", usage.completionTokenDetails.audioTokens)]

/-- The variables of the input, with their tokens. -/
def TokenParams.inputs (t : TokenParams) : List (String × ℤ) :=
  [("cr", t.cr), ("cc", t.cc), ("cc1h", t.cc1h), ("img", t.img), ("ai", t.ai)]

/-- The variables of the output, with their tokens. -/
def TokenParams.outputs (t : TokenParams) : List (String × ℤ) := [("img_o", t.imgO), ("ao", t.ao)]

/-- The tokens of the variables that the expression names. -/
def named (usedVars : String → Bool) (vars : List (String × ℤ)) : ℤ :=
  ((vars.filter fun v => usedVars v.1).map Prod.snd).sum

/-- The tokens of all the variables. -/
def allOf (vars : List (String × ℤ)) : ℤ := (vars.map Prod.snd).sum

/-- The tokens of the variables are counts that sum up to no more than the total, and a float holds
the total. -/
structure Within (vars : List (String × ℤ)) (total : ℤ) : Prop where
  nonneg : ∀ v ∈ vars, 0 ≤ v.2
  sum : allOf vars ≤ total
  small : total < 2 ^ 53

/-! ### Sub-categories -/

variable {usedVars : String → Bool} {v : String × ℤ} {vars : List (String × ℤ)} {n : ℤ}

theorem float_of_nonneg (hn : 0 ≤ n) (hsmall : n < 2 ^ 53) : float n = n := by
  apply float_eq
  omega

theorem allOf_nonneg (h : ∀ v ∈ vars, 0 ≤ v.2) : 0 ≤ allOf vars := by
  apply List.sum_nonneg
  intro m hm
  obtain ⟨v, hv, rfl⟩ := List.mem_map.mp hm
  exact h v hv

/-- The total without the first variable, and what is left of it for the others. -/
theorem Within.tail (h : Within (v :: vars) n) :
    0 ≤ v.2 ∧ v.2 ≤ n ∧ Within vars n ∧ Within vars (n - v.2) := by
  obtain ⟨hnonneg, hsum, hsmall⟩ := h
  have hv := hnonneg v List.mem_cons_self
  have hrest : ∀ w ∈ vars, 0 ≤ w.2 := fun w hw => hnonneg w (List.mem_cons_of_mem v hw)
  have hrestSum := allOf_nonneg hrest
  unfold allOf at hsum hrestSum
  rw [List.map_cons, List.sum_cons] at hsum
  refine ⟨hv, by omega, ⟨hrest, ?_, hsmall⟩, ⟨hrest, ?_, by omega⟩⟩
  · unfold allOf
    omega
  · unfold allOf
    omega

/-- Floats hold the tokens of all the variables. -/
theorem Within.map_float : ∀ {vars : List (String × ℤ)}, Within vars n →
    vars.map (fun v => (v.1, float v.2)) = vars
  | [], _ => rfl
  | v :: vars, h => by
      obtain ⟨hv, hle, hrest, _⟩ := h.tail
      have hsmall := h.small
      rw [List.map_cons, hrest.map_float, float_of_nonneg hv (by omega)]

/-- Every difference is exact. -/
theorem foldl_subtractUsed : ∀ {vars : List (String × ℤ)} {n : ℤ}, Within vars n →
    vars.foldl (fun n v => subtractUsed usedVars n v.1 v.2) n = n - named usedVars vars
  | [], n, _ => by
      simp [named]
  | v :: vars, n, h => by
      obtain ⟨hv, hle, hrest, hless⟩ := h.tail
      have hsmall := h.small
      rw [List.foldl_cons]
      by_cases hused : usedVars v.1 = true
      · have hsub : subtractUsed usedVars n v.1 v.2 = n - v.2 := by
          unfold subtractUsed
          rw [if_pos hused, float_of_nonneg (by omega) (by omega)]
        rw [hsub, foldl_subtractUsed hless]
        unfold named
        rw [List.filter_cons_of_pos (by simpa using hused), List.map_cons, List.sum_cons]
        omega
      · have hsub : subtractUsed usedVars n v.1 v.2 = n := by
          unfold subtractUsed
          rw [if_neg hused]
        rw [hsub, foldl_subtractUsed hrest]
        unfold named
        rw [List.filter_cons_of_neg (by simpa using hused)]

/-- Tokens that are counts sum up to no less than those that are named. -/
theorem named_le_allOf : ∀ {vars : List (String × ℤ)}, (∀ v ∈ vars, 0 ≤ v.2) →
    named usedVars vars ≤ allOf vars
  | [], _ => by
      simp [named, allOf]
  | v :: vars, h => by
      have hrest : named usedVars vars ≤ allOf vars :=
        named_le_allOf (fun w hw => h w (List.mem_cons_of_mem v hw))
      have hv := h v List.mem_cons_self
      unfold named allOf at hrest ⊢
      rw [List.map_cons, List.sum_cons]
      by_cases hused : usedVars v.1 = true
      · rw [List.filter_cons_of_pos (by simpa using hused), List.map_cons, List.sum_cons]
        omega
      · rw [List.filter_cons_of_neg (by simpa using hused)]
        omega

/-- What remains of the total and the tokens that are named make up the total. -/
theorem remaining_add_named (h : Within vars n) :
    clampZero ((vars.map fun v => (v.1, float v.2)).foldl
        (fun n v => subtractUsed usedVars n v.1 v.2) (float n)) +
      named usedVars (vars.map fun v => (v.1, float v.2)) = n := by
  have hle := (@named_le_allOf usedVars vars h.nonneg).trans h.sum
  have hnonneg := (allOf_nonneg h.nonneg).trans h.sum
  rw [h.map_float, float_of_nonneg hnonneg h.small, foldl_subtractUsed h]
  unfold clampZero
  split
  · omega
  · omega

/-- Without the Claude semantics, the remaining input tokens and those that are named make up the
prompt. -/
theorem p_add_named {usage : Usage} (h : Within (inputs usage) usage.promptTokens) :
    (buildTieredTokenParams usage false usedVars).p +
      named usedVars (buildTieredTokenParams usage false usedVars).inputs = usage.promptTokens :=
  remaining_add_named h

/-- The same for the output. -/
theorem c_add_named {usage : Usage} (h : Within (outputs usage) usage.completionTokens) :
    (buildTieredTokenParams usage false usedVars).c +
        named usedVars (buildTieredTokenParams usage false usedVars).outputs =
      usage.completionTokens :=
  remaining_add_named h

end MaxApi.TieredBilling
