import MaxApi.TieredBilling.ClaudeUsage

/-! # Tiered billing: every token is priced once

Without the Claude semantics the sub-categories that an expression names are taken out of the
totals.  A Claude usage object gives the same variables from a body and from a stream exactly when
its split of the cache creation tokens adds up and the output tokens are reported
(`tokens_priced_once`): the split of a stream is completed, that of a body is not. -/

namespace MaxApi.TieredBilling

open Dto
open Rounding (float)

variable {J : Type} {usedVars : String → Bool} {claudeFormat : Bool}

/-! ### Usage objects and their streams -/

/-- A count of tokens, small enough for a float to hold the sum of the counts of an object. -/
structure IsCount (n : ℤ) : Prop where
  nonneg : 0 ≤ n
  small : n < 2 ^ 50

/-- The counts of a Claude usage object. -/
structure Counts (u : ClaudeUsage) : Prop where
  input : IsCount u.inputTokens
  creation : IsCount u.cacheCreationInputTokens
  read : IsCount u.cacheReadInputTokens
  output : IsCount u.outputTokens
  creation5m : IsCount u.getCacheCreation5mTokens
  creation1h : IsCount u.getCacheCreation1hTokens
  claude5m : IsCount u.claudeCacheCreation5mTokens
  claude1h : IsCount u.claudeCacheCreation1hTokens

/-- The event at the start of a stream reports `start`, the one at its end `delta`, and the count is
`final`: counts do not fall, and the last event leaves out the ones that have not changed. -/
def Reports (start delta final : ℤ) : Prop :=
  0 ≤ start ∧ start ≤ final ∧ (delta = final ∨ (delta = 0 ∧ start = final))

/-- A stream: the start of the message, the events of its blocks, its delta, and its stop. -/
structure ClaudeStream (J : Type) where
  start : StreamData J
  blocks : List (StreamData J)
  delta : StreamData J
  stop : StreamData J

def ClaudeStream.events (s : ClaudeStream J) : List (StreamData J) :=
  s.start :: (s.blocks ++ [s.delta, s.stop])

/-- The stream transmits a response with the usage object `u`. -/
structure Transmits (s : ClaudeStream J) (u us ud : ClaudeUsage) : Prop where
  startType : s.start.response.type = "message_start"
  blockTypes : ∀ d ∈ s.blocks, d.response.type ∈
    ["content_block_start", "content_block_delta", "content_block_stop", "ping"]
  deltaType : s.delta.response.type = "message_delta"
  stopType : s.stop.response.type = "message_stop"
  startUsage : s.start.response.message.bind (·.usage) = some us
  deltaUsage : s.delta.response.usage = some ud
  startNumber : s.start.inputTokensNumber = true
  deltaNumber : s.delta.outputTokensNumber = true
  input : Reports us.inputTokens ud.inputTokens u.inputTokens
  creation : Reports us.cacheCreationInputTokens ud.cacheCreationInputTokens
    u.cacheCreationInputTokens
  read : Reports us.cacheReadInputTokens ud.cacheReadInputTokens u.cacheReadInputTokens
  creation5m : Reports us.getCacheCreation5mTokens ud.getCacheCreation5mTokens
    u.getCacheCreation5mTokens
  creation1h : Reports us.getCacheCreation1hTokens ud.getCacheCreation1hTokens
    u.getCacheCreation1hTokens
  output : Reports us.outputTokens ud.outputTokens u.outputTokens
  /-- The output tokens are always in the last event. -/
  outputLast : ud.outputTokens = u.outputTokens

/-- The text of an event is appended. -/
def appendText (text : String) (d : StreamData J) : String :=
  if d.response.type = "content_block_delta" then
    match d.response.delta with
    | none => text
    | some delta => text ++ delta.text.getD "" ++ delta.thinking.getD ""
  else text

/-- The text of the blocks. -/
def ClaudeStream.text (s : ClaudeStream J) : String := s.blocks.foldl appendText ""

theorem overwrite_eq {start delta final : ℤ} (h : Reports start delta final) :
    overwrite start delta = final := by
  obtain ⟨hstart, hle, hdelta⟩ := h
  unfold overwrite
  split
  · omega
  · omega

/-! ### Variables -/

/-- The variables of a Claude usage. -/
def claudeParams (p c cr cc cc1h : ℤ) : TokenParams :=
  { p := p, c := c, len := p + cr + cc + cc1h, cr := cr, cc := cc, cc1h := cc1h, img := 0, imgO := 0
    ai := 0, ao := 0 }

/-- The variables are counts, and floats hold them and their sum. -/
structure Held (t : TokenParams) : Prop where
  p : 0 ≤ t.p
  c : 0 ≤ t.c
  cr : 0 ≤ t.cr
  cc : 0 ≤ t.cc
  cc1h : 0 ≤ t.cc1h
  len : t.len < 2 ^ 53
  output : t.c < 2 ^ 53

/-- The length of the context is exact. -/
theorem float_len {p c cr cc cc1h : ℤ} (h : Held (claudeParams p c cr cc cc1h)) :
    float (float (float (float p + float cr) + float cc) + float cc1h) = p + cr + cc + cc1h := by
  have hp := h.p
  have hcr := h.cr
  have hcc := h.cc
  have hcc1h := h.cc1h
  have hlen := h.len
  unfold claudeParams at hp hcr hcc hcc1h hlen
  dsimp only at hp hcr hcc hcc1h hlen
  have hexact : ∀ n, 0 ≤ n → n ≤ p + cr + cc + cc1h → float n = n :=
    fun n hn hle => float_of_nonneg hn (by omega)
  rw [hexact p (by omega) (by omega), hexact cr (by omega) (by omega),
    hexact cc (by omega) (by omega), hexact cc1h (by omega) (by omega),
    hexact (p + cr) (by omega) (by omega), hexact (p + cr + cc) (by omega) (by omega),
    hexact (p + cr + cc + cc1h) (by omega) (by omega)]

/-- With the Claude semantics nothing is taken out of the totals. -/
theorem tieredParams_of_anthropic {usage billed : Usage} {t : TokenParams} (ht : Held t)
    (hbilled : effectiveBillingUsage usage = billed)
    (hsemantic : billed.usageSemantic = "anthropic")
    (hparams : t = claudeParams billed.promptTokens billed.completionTokens
      billed.promptTokensDetails.cachedTokens billed.claudeCacheCreation5mTokens
      billed.claudeCacheCreation1hTokens)
    (himg : billed.promptTokensDetails.imageTokens = 0)
    (hai : billed.promptTokensDetails.audioTokens = 0)
    (hout : billed.completionTokenDetails = .empty) :
    tieredParams claudeFormat usedVars usage = t := by
  subst hparams
  have hclaude : usageSemanticFromUsage claudeFormat billed = "anthropic" := by
    unfold usageSemanticFromUsage
    rw [hsemantic]
    rfl
  have hlen := float_len ht
  obtain ⟨hp, hc, hcr, hcc, hcc1h, hsum, hc'⟩ := ht
  unfold claudeParams at hp hc hcr hcc hcc1h hsum hc'
  dsimp only at hp hc hcr hcc hcc1h hsum hc'
  have hclamp : ∀ n, 0 ≤ n → clampZero n = n := fun n hn => if_neg (by omega)
  have hcache : cacheCreationTokens billed =
      (billed.claudeCacheCreation5mTokens, billed.claudeCacheCreation1hTokens) := by
    unfold cacheCreationTokens
    rw [if_pos hsemantic]
  have hzero : float 0 = 0 := float_of_nonneg (Int.le_refl 0) (by decide)
  unfold tieredParams buildTieredTokenParams
  dsimp only
  rw [hbilled, hclaude, hcache, himg, hai, hout, decide_eq_true rfl, if_pos rfl, if_pos rfl,
    if_pos rfl, hlen]
  unfold OutputTokenDetails.empty
  dsimp only
  rw [hzero, float_of_nonneg hp (by omega), float_of_nonneg hc hc', float_of_nonneg hcr (by omega),
    float_of_nonneg hcc (by omega), float_of_nonneg hcc1h (by omega), hclamp _ hp, hclamp _ hc]
  rfl

/-- The provider's usage is the one that is billed. -/
theorem tieredParams_claude {usage : Usage} {b : BillingUsage} {u : ClaudeUsage} {t : TokenParams}
    (ht : Held t) (hb : usage.billingUsage = some b)
    (hsource : b.source = BillingUsageSourceClaudeMessages)
    (hsemantic : b.semantic = BillingUsageSemanticAnthropic) (hclaude : b.claudeUsage = some u)
    (hparams : t = claudeParams u.inputTokens u.outputTokens u.cacheReadInputTokens
      (fillCount u.getCacheCreation5mTokens u.claudeCacheCreation5mTokens)
      (fillCount u.getCacheCreation1hTokens u.claudeCacheCreation1hTokens)) :
    tieredParams claudeFormat usedVars usage = t := by
  have heffective : effectiveBillingUsage usage = usageFromClaudeBillingUsage b u := by
    unfold effectiveBillingUsage usageFromBillingUsage
    rw [hb]
    dsimp only
    rw [hsource, hsemantic, hclaude, if_neg (by decide), if_pos (by decide)]
    rfl
  exact tieredParams_of_anthropic ht heffective rfl hparams rfl rfl rfl

/-- An object without tokens has no counts. -/
theorem counts_eq_zero {u : ClaudeUsage} (h : hasClaudeUsageTokens u = false) :
    u.inputTokens = 0 ∧ u.outputTokens = 0 ∧ u.cacheCreationInputTokens = 0 ∧
      u.cacheReadInputTokens = 0 ∧ u.claudeCacheCreation5mTokens = 0 ∧
      u.claudeCacheCreation1hTokens = 0 ∧ u.getCacheCreation5mTokens = 0 ∧
      u.getCacheCreation1hTokens = 0 := by
  unfold hasClaudeUsageTokens at h
  split at h
  · cases h
  · next hzero =>
    unfold ClaudeUsage.getCacheCreation5mTokens ClaudeUsage.getCacheCreation1hTokens
    push Not at hzero
    obtain ⟨hi, ho, hc, hr, h5, h1⟩ := hzero
    refine ⟨hi, ho, hc, hr, h5, h1, ?_⟩
    cases hsplit : u.cacheCreation with
    | none => exact ⟨rfl, rfl⟩
    | some split =>
        rw [hsplit] at h
        have hnot := of_decide_eq_false h
        push Not at hnot
        exact hnot

/-- The counts of a usage object, as the relay keeps them. -/
def collected (u : ClaudeUsage) : Usage :=
  { UsageCounts.empty with
    promptTokens := u.inputTokens
    completionTokens := u.outputTokens
    totalTokens := u.inputTokens + u.outputTokens
    usageSemantic := "anthropic"
    billingUsage := none
    promptTokensDetails :=
      { InputTokenDetails.empty with
        cachedTokens := u.cacheReadInputTokens
        cachedCreationTokens := u.cacheCreationInputTokens }
    claudeCacheCreation5mTokens := u.getCacheCreation5mTokens
    claudeCacheCreation1hTokens := u.getCacheCreation1hTokens }

/-- Without a provider's usage, the counts of the relay are billed. -/
theorem tieredParams_collected {u : ClaudeUsage} {t : TokenParams} (ht : Held t)
    (hparams : t = claudeParams u.inputTokens u.outputTokens u.cacheReadInputTokens
      u.getCacheCreation5mTokens u.getCacheCreation1hTokens) :
    tieredParams claudeFormat usedVars (collected u) = t :=
  tieredParams_of_anthropic ht rfl rfl hparams rfl rfl rfl

/-! ### A body -/

/-- The variables of a body are small. -/
theorem held_body {u : ClaudeUsage} (hu : Counts u) :
    Held (claudeParams u.inputTokens u.outputTokens u.cacheReadInputTokens
      (fillCount u.getCacheCreation5mTokens u.claudeCacheCreation5mTokens)
      (fillCount u.getCacheCreation1hTokens u.claudeCacheCreation1hTokens)) := by
  have hfill : ∀ {dst src : ℤ}, IsCount dst → IsCount src → IsCount (fillCount dst src) := by
    intro dst src hdst hsrc
    unfold fillCount
    split
    · exact hsrc
    · exact hdst
  have hfive := hfill hu.creation5m hu.claude5m
  have hhour := hfill hu.creation1h hu.claude1h
  have hlen := hu.input.small
  have hread := hu.read.small
  have houtput := hu.output.small
  have hfive' := hfive.small
  have hhour' := hhour.small
  refine ⟨hu.input.nonneg, hu.output.nonneg, hu.read.nonneg, hfive.nonneg, hhour.nonneg, ?_, ?_⟩
  · unfold claudeParams
    dsimp only
    omega
  · unfold claudeParams
    dsimp only
    omega

/-- The variables of a body. -/
theorem tieredParams_body {r : ClaudeResponse J} {u : ClaudeUsage} (hu : Counts u)
    (hr : r.usage = some u) :
    tieredParams claudeFormat usedVars (handleClaudeResponseData r) =
      claudeParams u.inputTokens u.outputTokens u.cacheReadInputTokens
        (fillCount u.getCacheCreation5mTokens u.claudeCacheCreation5mTokens)
        (fillCount u.getCacheCreation1hTokens u.claudeCacheCreation1hTokens) := by
  have husage : handleClaudeResponseData r =
      { collected u with billingUsage := newClaudeMessagesBillingUsage u } := by
    unfold handleClaudeResponseData
    rw [hr]
    rfl
  rw [husage]
  unfold newClaudeMessagesBillingUsage
  cases htokens : hasClaudeUsageTokens u with
  | true =>
      rw [if_pos rfl]
      exact tieredParams_claude (held_body hu) rfl rfl rfl rfl rfl
  | false =>
      obtain ⟨_, _, _, _, h5, h1, hg5, hg1⟩ := counts_eq_zero htokens
      rw [if_neg (by decide)]
      apply tieredParams_collected (held_body hu)
      rw [h5, h1, hg5, hg1]
      rfl

/-! ### A stream -/

variable {s : ClaudeStream J} {u us ud : ClaudeUsage} {format : RelayFormat}

/-- The delta completes the usage of the start. -/
theorem deltaUsage_startUsage (h : Transmits s u us ud) :
    deltaUsage (startUsage .empty us) ud = collected u := by
  unfold deltaUsage startUsage collected
  dsimp only
  rw [overwrite_eq h.input, overwrite_eq h.output]
  show _ = _
  simp only [Usage.empty, UsageCounts.empty, InputTokenDetails.empty]
  rw [overwrite_eq h.creation, overwrite_eq h.read, overwrite_eq h.creation5m,
    overwrite_eq h.creation1h]

/-- The formats that keep no state of their own. -/
theorem handle_plain (hformat : format ≠ .openAIResponses) (info : ClaudeResponseInfo)
    (d : StreamData J) :
    handleStreamResponseData format info d = formatClaudeResponseInfo info d.response := by
  cases format with
  | claude => rfl
  | openAI => rfl
  | openAIResponses => exact absurd rfl hformat

/-- An event of a block adds its text. -/
theorem format_block {d : StreamData J} (hd : d.response.type ∈
    ["content_block_start", "content_block_delta", "content_block_stop", "ping"])
    (info : ClaudeResponseInfo) : formatClaudeResponseInfo info d.response =
      { info with responseText := appendText info.responseText d } := by
  have hstart : d.response.type ≠ "message_start" := by
    rintro h
    rw [h] at hd
    exact absurd hd (by decide)
  have hdelta : d.response.type ≠ "message_delta" := by
    rintro h
    rw [h] at hd
    exact absurd hd (by decide)
  unfold formatClaudeResponseInfo appendText
  rw [if_neg hstart]
  by_cases hblock : d.response.type = "content_block_delta"
  · rw [if_pos hblock, if_pos hblock]
    cases d.response.delta with
    | none => rfl
    | some delta => rfl
  · rw [if_neg hblock, if_neg hblock, if_neg hdelta]

/-- The events of the blocks add their texts. -/
theorem run_blocks (hformat : format ≠ .openAIResponses) : ∀ (blocks : List (StreamData J))
    (info : ClaudeResponseInfo), (∀ d ∈ blocks, d.response.type ∈
      ["content_block_start", "content_block_delta", "content_block_stop", "ping"]) →
    Transition.run (handleStreamResponseData format) info blocks =
      { info with responseText := blocks.foldl appendText info.responseText }
  | [], info, _ => rfl
  | d :: blocks, info, h => by
      rw [Transition.run_cons, handle_plain hformat, format_block (h d List.mem_cons_self),
        run_blocks hformat blocks _ (fun e he => h e (List.mem_cons_of_mem d he))]
      rfl

/-- What a stream leaves in the info, for a client of the Claude or OpenAI format. -/
theorem run_plain (hformat : format ≠ .openAIResponses) (h : Transmits s u us ud) :
    Transition.run (handleStreamResponseData format) .start s.events =
      { ClaudeResponseInfo.start with
        usage := collected u, responseText := s.text, done := true } := by
  have hstart : formatClaudeResponseInfo .start s.start.response =
      { ClaudeResponseInfo.start with usage := startUsage .empty us } := by
    unfold formatClaudeResponseInfo
    rw [if_pos h.startType, h.startUsage]
    rfl
  have hdelta : ∀ info, formatClaudeResponseInfo info s.delta.response =
      { info with usage := deltaUsage info.usage ud, done := true } := by
    intro info
    unfold formatClaudeResponseInfo
    rw [h.deltaType, if_neg (by decide), if_neg (by decide), if_pos rfl, h.deltaUsage]
  have hstop : ∀ info, formatClaudeResponseInfo info s.stop.response = info := by
    intro info
    unfold formatClaudeResponseInfo
    rw [h.stopType, if_neg (by decide), if_neg (by decide), if_neg (by decide)]
  unfold ClaudeStream.events
  rw [Transition.run_cons, Transition.run_append, handle_plain hformat, hstart,
    run_blocks hformat s.blocks _ h.blockTypes, Transition.run_cons, Transition.run_cons,
    handle_plain hformat, handle_plain hformat, hdelta, hstop, Transition.run_nil]
  dsimp only
  rw [deltaUsage_startUsage h]
  rfl

/-! ### The provider's usage -/

/-- The cache creation tokens of a stream: those without a lifetime count as 5 minutes. -/
def streamSplit (v : ClaudeUsage) : ℤ × ℤ :=
  normalizeCacheCreationSplit v.cacheCreationInputTokens v.getCacheCreation5mTokens
    v.getCacheCreation1hTokens

variable {v : ClaudeUsage}

theorem streamSplit_nonneg (hv : Counts v) : 0 ≤ (streamSplit v).1 ∧ 0 ≤ (streamSplit v).2 := by
  have h5 := hv.creation5m.nonneg
  have h1 := hv.creation1h.nonneg
  unfold streamSplit normalizeCacheCreationSplit
  dsimp only
  omega

/-- The variables of a stream are small. -/
theorem held_stream (hv : Counts v) :
    Held (claudeParams v.inputTokens v.outputTokens v.cacheReadInputTokens (streamSplit v).1
      (streamSplit v).2) := by
  obtain ⟨h5, h1⟩ := streamSplit_nonneg hv
  have hsum : (streamSplit v).1 + (streamSplit v).2 < 2 ^ 51 := by
    have hcreation := hv.creation.small
    have hfive := hv.creation5m.small
    have hhour := hv.creation1h.small
    unfold streamSplit normalizeCacheCreationSplit
    dsimp only
    omega
  have hinput := hv.input.small
  have hread := hv.read.small
  have houtput := hv.output.small
  refine ⟨hv.input.nonneg, hv.output.nonneg, hv.read.nonneg, h5, h1, ?_, ?_⟩
  · unfold claudeParams
    dsimp only
    omega
  · unfold claudeParams
    dsimp only
    omega

/-- The usage object that is rebuilt from the counts. -/
theorem buildMessageDeltaPatchUsage_collected (hv : Counts v) :
    buildMessageDeltaPatchUsage (collected v) =
      { ClaudeUsage.empty with
        inputTokens := v.inputTokens
        outputTokens := v.outputTokens
        cacheReadInputTokens := v.cacheReadInputTokens
        cacheCreationInputTokens := v.cacheCreationInputTokens
        cacheCreation := if 0 < (streamSplit v).1 ∨ 0 < (streamSplit v).2 then
            some ⟨(streamSplit v).1, (streamSplit v).2⟩
          else none } := by
  have hpositive : ∀ n : ℤ, 0 ≤ n → (if 0 < n then n else 0) = n := by
    intro n hn
    split
    · rfl
    · omega
  unfold buildMessageDeltaPatchUsage collected streamSplit
  dsimp only
  rw [hpositive _ hv.input.nonneg, hpositive _ hv.output.nonneg, hpositive _ hv.read.nonneg,
    hpositive _ hv.creation.nonneg]

/-- The rebuilt object has the split of the stream. -/
theorem patch_split (hv : Counts v) :
    (buildMessageDeltaPatchUsage (collected v)).getCacheCreation5mTokens = (streamSplit v).1 ∧
      (buildMessageDeltaPatchUsage (collected v)).getCacheCreation1hTokens = (streamSplit v).2 := by
  obtain ⟨h5, h1⟩ := streamSplit_nonneg hv
  rw [buildMessageDeltaPatchUsage_collected hv]
  unfold ClaudeUsage.getCacheCreation5mTokens ClaudeUsage.getCacheCreation1hTokens
  dsimp only
  by_cases hsplit : 0 < (streamSplit v).1 ∨ 0 < (streamSplit v).2
  · rw [if_pos hsplit]
    exact ⟨rfl, rfl⟩
  · rw [if_neg hsplit]
    dsimp only
    omega

theorem providerBillingUsage_some {responses estimated : Bool} {info : ClaudeResponseInfo}
    {b : BillingUsage} (h : providerBillingUsage responses estimated info u = some b) :
    b.source = BillingUsageSourceClaudeMessages ∧ b.semantic = BillingUsageSemanticAnthropic ∧
      b.claudeUsage = some u := by
  unfold providerBillingUsage at h
  dsimp only at h
  cases responses with
  | false =>
      rw [if_neg (by decide)] at h
      split at h
      · obtain rfl := Option.some.inj h
        exact ⟨rfl, rfl, rfl⟩
      · cases h
  | true =>
      rw [if_pos rfl] at h
      obtain ⟨b', hb', rfl⟩ := Option.map_eq_some_iff.mp h
      split at hb'
      · obtain rfl := Option.some.inj hb'
        exact ⟨rfl, rfl, rfl⟩
      · cases hb'

theorem providerBillingUsage_none {responses estimated : Bool} {info : ClaudeResponseInfo}
    (h : providerBillingUsage responses estimated info u = none) :
    hasClaudeUsageTokens u = false := by
  by_contra htokens
  rw [Bool.not_eq_false] at htokens
  unfold providerBillingUsage at h
  rw [htokens] at h
  cases responses with
  | false => cases h
  | true => cases h

/-- The counts of a stream, with the provider's usage. -/
def recorded (v : ClaudeUsage) (billingUsage : Option BillingUsage) : Usage :=
  { collected v with billingUsage := billingUsage }

/-- The variables of a stream. -/
theorem tieredParams_recorded (hv : Counts v) (responses estimated : Bool)
    (info : ClaudeResponseInfo) :
    tieredParams claudeFormat usedVars (recorded v (providerBillingUsage responses estimated info
      (buildMessageDeltaPatchUsage (collected v)))) =
      claudeParams v.inputTokens v.outputTokens v.cacheReadInputTokens (streamSplit v).1
        (streamSplit v).2 := by
  obtain ⟨hs5, hs1⟩ := patch_split hv
  cases hb : providerBillingUsage responses estimated info
      (buildMessageDeltaPatchUsage (collected v)) with
  | some b =>
      have hpatch := buildMessageDeltaPatchUsage_collected hv
      obtain ⟨hsource, hsemantic, hclaude⟩ := providerBillingUsage_some hb
      apply tieredParams_claude (held_stream hv) rfl hsource hsemantic hclaude
      rw [hs5, hs1, hpatch]
      unfold fillCount ClaudeUsage.empty
      dsimp only
      congr 1
      · split
        · omega
        · rfl
      · split
        · omega
        · rfl
  | none =>
      obtain ⟨_, _, _, _, _, _, hg5, hg1⟩ := counts_eq_zero (providerBillingUsage_none hb)
      rw [hs5] at hg5
      have hfive : v.getCacheCreation5mTokens = (streamSplit v).1 := by
        have hle : v.getCacheCreation5mTokens ≤ (streamSplit v).1 := by
          unfold streamSplit normalizeCacheCreationSplit
          dsimp only
          omega
        have hnonneg := hv.creation5m.nonneg
        omega
      apply tieredParams_collected (held_stream hv)
      rw [hfive]
      rfl

/-! ### The end of a stream -/

/-- The object with other input and output tokens. -/
def filled (u : ClaudeUsage) (p c : ℤ) : ClaudeUsage :=
  { u with inputTokens := p, outputTokens := c }

/-- An unknown prompt is estimated. -/
def finalInput (estimate : Estimate) (u : ClaudeUsage) : ℤ :=
  if u.inputTokens = 0 then estimate.promptTokens else u.inputTokens

/-- The counts that a stream ends with, for a client of the Claude or OpenAI format: without output
tokens the text is counted. -/
def finalCounts (estimate : Estimate) (text : String) (u : ClaudeUsage) : ClaudeUsage :=
  if u.outputTokens = 0 then filled u (finalInput estimate u) (estimate.countTokens text) else u

/-- The local counts of a text are small, too. -/
structure Estimate.Counts (estimate : Estimate) (text : String) : Prop where
  prompt : IsCount estimate.promptTokens
  text : IsCount (estimate.countTokens text)

theorem finalCounts_counts {estimate : Estimate} {text : String} (hu : Counts u)
    (hestimate : estimate.Counts text) : Counts (finalCounts estimate text u) := by
  have hinput : IsCount (finalInput estimate u) := by
    unfold finalInput
    split
    · exact hestimate.prompt
    · exact hu.input
  unfold finalCounts
  split
  · exact ⟨hinput, hu.creation, hu.read, hestimate.text, hu.creation5m, hu.creation1h,
      hu.claude5m, hu.claude1h⟩
  · exact hu

/-- The info of a complete stream, for a client of the Claude or OpenAI format. -/
def plainInfo (u : ClaudeUsage) (text : String) : ClaudeResponseInfo :=
  { ClaudeResponseInfo.start with usage := collected u, responseText := text, done := true }

theorem fillCounts_plain (estimate : Estimate) (text : String) (u : ClaudeUsage) :
    (fillCounts false estimate (plainInfo u text)).1 = collected (finalCounts estimate text u) := by
  unfold fillCounts finalCounts plainInfo
  by_cases hout : u.outputTokens = 0
  · rw [if_pos hout]
    by_cases hin : u.inputTokens = 0
    · simp [collected, hout, hin, ClaudeResponseInfo.start, filled, finalInput,
        ClaudeUsage.getCacheCreation5mTokens, ClaudeUsage.getCacheCreation1hTokens]
    · simp [collected, hout, hin, ClaudeResponseInfo.start, filled, finalInput,
        ClaudeUsage.getCacheCreation5mTokens, ClaudeUsage.getCacheCreation1hTokens]
  · rw [if_neg hout]
    simp [collected, hout]

/-- The usage of a stream, for a client of the Claude or OpenAI format. -/
theorem claudeStreamHandler_plain (hformat : format ≠ .openAIResponses)
    (h : Transmits s u us ud) (estimate : Estimate) (flushed finished : String) :
    ∃ estimated info, claudeStreamHandler format estimate flushed finished s.events =
      some (recorded (finalCounts estimate s.text u) (providerBillingUsage false estimated info
        (buildMessageDeltaPatchUsage (collected (finalCounts estimate s.text u))))) := by
  have hhandler : claudeStreamHandler format estimate flushed finished s.events =
      some (finalizeClaudeStreamUsage false estimate
        (Transition.run (handleStreamResponseData format) .start s.events)).usage := by
    cases format with
    | claude => rfl
    | openAI => rfl
    | openAIResponses => exact absurd rfl hformat
  have hfill := fillCounts_plain estimate s.text u
  rw [hhandler, run_plain hformat h]
  refine ⟨(fillCounts false estimate (plainInfo u s.text)).2, plainInfo u s.text, ?_⟩
  show some (finalizeClaudeStreamUsage false estimate (plainInfo u s.text)).usage = _
  unfold finalizeClaudeStreamUsage
  rw [Bool.false_and, if_neg Bool.false_ne_true]
  cases hcounts : fillCounts false estimate (plainInfo u s.text) with
  | mk usage estimated =>
      rw [hcounts] at hfill
      obtain rfl : usage = collected (finalCounts estimate s.text u) := hfill
      rfl

/-! ### The Responses format -/

/-- What the events of a Responses stream keep. -/
structure Reporting (usage : Usage) (info : ClaudeResponseInfo) : Prop where
  usage : info.usage = usage
  input : info.responsesInputUsageReported = true
  unfinished : info.responsesUsageFinalized = false

theorem Reporting.deliver {usage : Usage} {info : ClaudeResponseInfo} (h : Reporting usage info)
    (text : String) : Reporting usage (deliver info text) := by
  unfold TieredBilling.deliver
  split
  · exact h
  · dsimp only
    rw [h.unfinished, if_neg (by decide)]
    exact ⟨h.usage, h.input, rfl⟩

theorem Reporting.terminal {usage : Usage} {info : ClaudeResponseInfo} (h : Reporting usage info)
    (r : ClaudeResponse J) : Reporting usage (seeTerminal info r) :=
  ⟨h.usage, h.input, h.unfinished⟩

theorem reportInput_of_ne {d : StreamData J} (h : d.response.type ≠ "message_start")
    (info : ClaudeResponseInfo) : reportInput info d = info :=
  if_neg fun hboth => h hboth.1

theorem reportOutput_of_ne {d : StreamData J} (h : d.response.type ≠ "message_delta")
    (info : ClaudeResponseInfo) : reportOutput info d = info :=
  if_neg fun hboth => h hboth.1

/-- An event of a block changes nothing that is billed. -/
theorem Reporting.block {usage : Usage} {info : ClaudeResponseInfo} (h : Reporting usage info)
    {d : StreamData J} (hd : d.response.type ∈
      ["content_block_start", "content_block_delta", "content_block_stop", "ping"]) :
    Reporting usage (handleStreamResponseData .openAIResponses info d) := by
  have hstart : d.response.type ≠ "message_start" := by
    intro htype
    rw [htype] at hd
    exact absurd hd (by decide)
  have hdelta : d.response.type ≠ "message_delta" := by
    intro htype
    rw [htype] at hd
    exact absurd hd (by decide)
  have hterminal := h.terminal d.response
  unfold handleStreamResponseData
  dsimp only
  rw [format_block hd, reportInput_of_ne hstart, reportOutput_of_ne hdelta]
  apply Reporting.deliver
  exact ⟨hterminal.usage, hterminal.input, hterminal.unfinished⟩

/-- What a complete Responses stream leaves in the info. -/
structure Completed (usage : Usage) (info : ClaudeResponseInfo) : Prop where
  reporting : Reporting usage info
  output : info.responsesFinalOutputUsageReported = true
  terminal : info.responsesTerminalSeen = true

theorem deliver_flags (info : ClaudeResponseInfo) (text : String) :
    (deliver info text).responsesFinalOutputUsageReported = info.responsesFinalOutputUsageReported ∧
      (deliver info text).responsesTerminalSeen = info.responsesTerminalSeen ∧
      (deliver info text).responsesInputUsageReported = info.responsesInputUsageReported := by
  unfold deliver
  split
  · exact ⟨rfl, rfl, rfl⟩
  · dsimp only
    split
    · exact ⟨rfl, rfl, rfl⟩
    · exact ⟨rfl, rfl, rfl⟩

/-- The start of a Responses stream. -/
theorem responses_start (h : Transmits s u us ud) : Reporting (startUsage .empty us)
    (handleStreamResponseData .openAIResponses .start s.start) := by
  have hformat : ∀ info, formatClaudeResponseInfo info s.start.response =
      { info with usage := startUsage info.usage us } := by
    intro info
    unfold formatClaudeResponseInfo
    rw [if_pos h.startType, h.startUsage]
  have hreport : ∀ info, reportInput info s.start =
      { info with responsesInputUsageReported := true } :=
    fun info => if_pos ⟨h.startType, h.startNumber⟩
  unfold handleStreamResponseData
  dsimp only
  rw [hformat, hreport, reportOutput_of_ne (by rw [h.startType]; decide)]
  apply Reporting.deliver
  exact ⟨rfl, rfl, rfl⟩

/-- The delta of a Responses stream. -/
theorem responses_delta (h : Transmits s u us ud) {info : ClaudeResponseInfo}
    (hinfo : Reporting (startUsage .empty us) info) :
    Reporting (collected u) (handleStreamResponseData .openAIResponses info s.delta) ∧
      (handleStreamResponseData .openAIResponses info
        s.delta).responsesFinalOutputUsageReported = true := by
  have hformat : ∀ info, formatClaudeResponseInfo info s.delta.response =
      { info with usage := deltaUsage info.usage ud, done := true } := by
    intro info
    unfold formatClaudeResponseInfo
    rw [h.deltaType, if_neg (by decide), if_neg (by decide), if_pos rfl, h.deltaUsage]
  have hreport : ∀ info, reportOutput info s.delta =
      { info with
        responsesFinalOutputUsageReported := true
        usage := { info.usage with completionTokens := u.outputTokens } } := by
    intro info
    unfold reportOutput
    rw [if_pos ⟨h.deltaType, h.deltaNumber⟩, h.deltaUsage, ← h.outputLast]
    rfl
  have hterminal := hinfo.terminal s.delta.response
  unfold handleStreamResponseData
  dsimp only
  rw [hformat, reportInput_of_ne (by rw [h.deltaType]; decide), hreport]
  constructor
  · apply Reporting.deliver
    refine ⟨?_, hterminal.input, hterminal.unfinished⟩
    dsimp only
    rw [hterminal.usage, deltaUsage_startUsage h]
    rfl
  · rw [(deliver_flags _ _).1]

/-- The stop of a Responses stream. -/
theorem responses_stop (h : Transmits s u us ud) {info : ClaudeResponseInfo}
    (hinfo : Reporting (collected u) info)
    (houtput : info.responsesFinalOutputUsageReported = true) :
    Completed (collected u) (handleStreamResponseData .openAIResponses info s.stop) := by
  have hformat : ∀ info, formatClaudeResponseInfo info s.stop.response = info := by
    intro info
    unfold formatClaudeResponseInfo
    rw [h.stopType, if_neg (by decide), if_neg (by decide), if_neg (by decide)]
  have hterminal : isTerminal s.stop.response = true := by
    unfold isTerminal
    rw [h.stopType]
    rfl
  have hseen := hinfo.terminal s.stop.response
  unfold handleStreamResponseData
  dsimp only
  rw [hformat, reportInput_of_ne (by rw [h.stopType]; decide),
    reportOutput_of_ne (by rw [h.stopType]; decide)]
  refine ⟨hseen.deliver _, ?_, ?_⟩
  · rw [(deliver_flags _ _).1]
    exact houtput
  · rw [(deliver_flags _ _).2.1]
    unfold seeTerminal
    rw [hterminal, Bool.or_true]

/-- What a stream leaves in the info, for a client of the Responses format. -/
theorem run_responses (h : Transmits s u us ud) :
    Completed (collected u)
      (Transition.run (handleStreamResponseData .openAIResponses) .start s.events) := by
  have hblocks : Reporting (startUsage .empty us)
      (Transition.run (handleStreamResponseData .openAIResponses)
        (handleStreamResponseData .openAIResponses .start s.start) s.blocks) :=
    Transition.run_invariant_mem _ s.blocks (fun _ d hd hI => hI.block (h.blockTypes d hd)) _
      (responses_start h)
  obtain ⟨hdelta, houtput⟩ := responses_delta h hblocks
  unfold ClaudeStream.events
  rw [Transition.run_cons, Transition.run_append, Transition.run_cons, Transition.run_cons,
    Transition.run_nil]
  exact responses_stop h hdelta houtput

/-- A usage that is recorded as the provider's, and not estimated. -/
structure Settled (usage : Usage) (info : ClaudeResponseInfo) : Prop where
  usage : info.usage = usage
  input : info.responsesInputUsageReported = true
  output : info.responsesFinalOutputUsageReported = true
  terminal : info.responsesTerminalSeen = true

variable {usage : Usage} {info : ClaudeResponseInfo} {b : BillingUsage}

/-- A delivery keeps what is not estimated. -/
theorem Settled.deliver (h : Settled usage info) (hb : usage.billingUsage = some b)
    (hestimated : b.estimated = false) (text : String) : Settled usage (deliver info text) := by
  obtain ⟨houtput, hterminal, hinput⟩ := deliver_flags info text
  refine ⟨?_, hinput.trans h.input, houtput.trans h.output, hterminal.trans h.terminal⟩
  unfold TieredBilling.deliver
  split
  · exact h.usage
  · dsimp only
    split
    · dsimp only
      rw [h.usage]
      have hkeep : usage.billingUsage.filter (!·.estimated) = usage.billingUsage := by
        rw [hb]
        simp [hestimated]
      rw [hkeep]
    · exact h.usage

/-- A complete Responses stream reports its counts: nothing is estimated. -/
theorem fillCounts_responses (estimate : Estimate)
    (hinput : info.responsesInputUsageReported = true)
    (houtput : info.responsesFinalOutputUsageReported = true)
    (hterminal : info.responsesTerminalSeen = true) :
    fillCounts true estimate info = (info.usage, false) := by
  unfold fillCounts
  simp [hinput, houtput, hterminal]

theorem providerBillingUsage_reported (hinput : info.responsesInputUsageReported = true)
    (v : ClaudeUsage) :
    ∃ b, providerBillingUsage true false info v = some b ∧ b.estimated = false := by
  unfold providerBillingUsage
  simp [hinput]

/-- The first finalization records the provider's usage. -/
theorem Completed.finalize (h : Completed (collected u) info) (estimate : Estimate) :
    Settled (recorded u (providerBillingUsage true false info
      (buildMessageDeltaPatchUsage (collected u))))
        (finalizeClaudeStreamUsage true estimate info) := by
  obtain ⟨husage, hinput, hunfinished⟩ := h.reporting
  unfold finalizeClaudeStreamUsage
  rw [hunfinished, Bool.and_false, if_neg Bool.false_ne_true,
    fillCounts_responses estimate hinput h.output h.terminal, husage]
  exact ⟨rfl, hinput, h.output, h.terminal⟩

/-- A second finalization changes nothing. -/
theorem Settled.finalize (h : Settled (recorded u (some b)) info) (estimate : Estimate) :
    Settled (recorded u (some b)) (finalizeClaudeStreamUsage true estimate info) := by
  unfold finalizeClaudeStreamUsage
  split
  · exact h
  · rw [fillCounts_responses estimate h.input h.output h.terminal, h.usage]
    exact ⟨rfl, h.input, h.output, h.terminal⟩

/-- The usage of a stream, for a client of the Responses format. -/
theorem claudeStreamHandler_responses (h : Transmits s u us ud) (estimate : Estimate)
    (flushed finished : String) :
    ∃ info, claudeStreamHandler .openAIResponses estimate flushed finished s.events =
      some (recorded u (providerBillingUsage true false info
        (buildMessageDeltaPatchUsage (collected u)))) := by
  have hcompleted := run_responses h
  refine ⟨Transition.run (handleStreamResponseData .openAIResponses) .start s.events, ?_⟩
  obtain ⟨b, hb, hestimated⟩ := providerBillingUsage_reported hcompleted.reporting.input
    (buildMessageDeltaPatchUsage (collected u))
  have hfirst := hcompleted.finalize estimate
  rw [hb] at hfirst ⊢
  have hsecond := (hfirst.deliver rfl hestimated flushed).finalize estimate
  have hlast := hsecond.deliver rfl hestimated finished
  unfold claudeStreamHandler
  dsimp only
  rw [if_pos hcompleted.terminal, hlast.usage]

/-! ### Both ways -/

/-- The object that a stream is billed by. -/
def streamCounts (format : RelayFormat) (estimate : Estimate) (s : ClaudeStream J)
    (u : ClaudeUsage) : ClaudeUsage :=
  match format with
  | .openAIResponses => u
  | _ => finalCounts estimate s.text u

/-- The variables of a stream. -/
theorem tieredParams_stream (hu : Counts u) (h : Transmits s u us ud) {estimate : Estimate}
    (hestimate : estimate.Counts s.text) (flushed finished : String) :
    (claudeStreamHandler format estimate flushed finished s.events).map
        (tieredParams claudeFormat usedVars) =
      some (claudeParams (streamCounts format estimate s u).inputTokens
        (streamCounts format estimate s u).outputTokens u.cacheReadInputTokens (streamSplit u).1
        (streamSplit u).2) := by
  have hplain : ∀ format, format ≠ .openAIResponses →
      (claudeStreamHandler format estimate flushed finished s.events).map
        (tieredParams claudeFormat usedVars) =
      some (claudeParams (finalCounts estimate s.text u).inputTokens
        (finalCounts estimate s.text u).outputTokens u.cacheReadInputTokens (streamSplit u).1
        (streamSplit u).2) := by
    intro format hformat
    obtain ⟨estimated, info, hhandler⟩ :=
      claudeStreamHandler_plain hformat h estimate flushed finished
    rw [hhandler, Option.map_some, tieredParams_recorded (finalCounts_counts hu hestimate)]
    unfold finalCounts
    split
    · rfl
    · rfl
  cases format with
  | claude => exact hplain .claude (by decide)
  | openAI => exact hplain .openAI (by decide)
  | openAIResponses =>
      obtain ⟨info, hhandler⟩ := claudeStreamHandler_responses h estimate flushed finished
      rw [hhandler, Option.map_some, tieredParams_recorded hu]
      rfl

/-- The variables `t` price every token of the object once. -/
def PricesOnce (u : ClaudeUsage) (t : TokenParams) : Prop :=
  t.p + t.cr + t.cc + t.cc1h = t.len ∧
    t.len = u.inputTokens + u.cacheReadInputTokens + u.cacheCreationInputTokens

/-- The split of the object adds up to its cache creation tokens: the tokens with the lifetime of an
hour are those of `cache_creation`, those with the lifetime of 5 minutes, too, or where there are
none those of `claude_cache_creation_5_m_tokens`. -/
def SplitAddsUp (u : ClaudeUsage) : Prop :=
  fillCount u.getCacheCreation5mTokens u.claudeCacheCreation5mTokens + u.getCacheCreation1hTokens =
    u.cacheCreationInputTokens ∧
    (u.getCacheCreation1hTokens = 0 → u.claudeCacheCreation1hTokens = 0)

/-- The stream has nothing to estimate, or the estimates are zero. -/
def NothingEstimated (format : RelayFormat) (estimate : Estimate) (s : ClaudeStream J)
    (u : ClaudeUsage) : Prop :=
  format = .openAIResponses ∨ u.outputTokens ≠ 0 ∨
    (estimate.countTokens s.text = 0 ∧ (u.inputTokens = 0 → estimate.promptTokens = 0))

/-- A body prices every token of its object once exactly when the split adds up, and a stream then
has the same split. -/
theorem split_iff (hu : Counts u) :
    (PricesOnce u (claudeParams u.inputTokens u.outputTokens u.cacheReadInputTokens
        (fillCount u.getCacheCreation5mTokens u.claudeCacheCreation5mTokens)
        (fillCount u.getCacheCreation1hTokens u.claudeCacheCreation1hTokens)) ∧
      (fillCount u.getCacheCreation5mTokens u.claudeCacheCreation5mTokens,
        fillCount u.getCacheCreation1hTokens u.claudeCacheCreation1hTokens) = streamSplit u) ↔
      SplitAddsUp u := by
  have hc := hu.creation.nonneg
  have h5 := hu.creation5m.nonneg
  have h1 := hu.creation1h.nonneg
  have hm5 := hu.claude5m.nonneg
  have hm1 := hu.claude1h.nonneg
  unfold PricesOnce claudeParams SplitAddsUp streamSplit normalizeCacheCreationSplit fillCount
  rw [Prod.mk.injEq]
  dsimp only
  split_ifs with hg5 hg1
  · omega
  · omega
  · omega
  · omega

/-- The body and the stream price every token of the object once, and alike. -/
def PricedAlike (claudeFormat : Bool) (usedVars : String → Bool) (u : ClaudeUsage)
    (r : ClaudeResponse J) (stream : Option Usage) : Prop :=
  PricesOnce u (tieredParams claudeFormat usedVars (handleClaudeResponseData r)) ∧
    ∃ t, stream.map (tieredParams claudeFormat usedVars) = some t ∧ PricesOnce u t ∧
      t = tieredParams claudeFormat usedVars (handleClaudeResponseData r)

/-- The totals of a stream are those of the object when there is nothing to estimate. -/
theorem streamCounts_iff {estimate : Estimate} :
    ((streamCounts format estimate s u).inputTokens = u.inputTokens ∧
      (streamCounts format estimate s u).outputTokens = u.outputTokens) ↔
      NothingEstimated format estimate s u := by
  unfold NothingEstimated
  have hplain : ((finalCounts estimate s.text u).inputTokens = u.inputTokens ∧
      (finalCounts estimate s.text u).outputTokens = u.outputTokens) ↔ (u.outputTokens ≠ 0 ∨
        (estimate.countTokens s.text = 0 ∧ (u.inputTokens = 0 → estimate.promptTokens = 0))) := by
    unfold finalCounts
    by_cases hout : u.outputTokens = 0
    · rw [if_pos hout]
      unfold filled finalInput
      dsimp only
      split
      · omega
      · omega
    · rw [if_neg hout]
      exact ⟨fun _ => .inl hout, fun _ => ⟨rfl, rfl⟩⟩
  cases format with
  | claude =>
      refine hplain.trans ⟨.inr, ?_⟩
      rintro (hformat | h)
      · cases hformat
      · exact h
  | openAI =>
      refine hplain.trans ⟨.inr, ?_⟩
      rintro (hformat | h)
      · cases hformat
      · exact h
  | openAIResponses => exact ⟨fun _ => .inl rfl, fun _ => ⟨rfl, rfl⟩⟩

/-- **Every token is priced once.**  The tokens that an expression names and those that remain make
up the totals of a usage without the Claude semantics; and a Claude usage object is priced alike
from a body and from a stream exactly when its split adds up and nothing is estimated.  All this
where floats hold the totals and the sums of the counts. -/
theorem tokens_priced_once (usage : Usage) (usedVars : String → Bool)
    (hinputs : Within (inputs usage) usage.promptTokens)
    (houtputs : Within (outputs usage) usage.completionTokens)
    (r : ClaudeResponse J) (s : ClaudeStream J) (u us ud : ClaudeUsage) (hu : Counts u)
    (hr : r.usage = some u) (hs : Transmits s u us ud) (format : RelayFormat) (estimate : Estimate)
    (hestimate : estimate.Counts s.text) (flushed finished : String) (claudeFormat : Bool) :
    (buildTieredTokenParams usage false usedVars).p +
        named usedVars (buildTieredTokenParams usage false usedVars).inputs = usage.promptTokens ∧
      (buildTieredTokenParams usage false usedVars).c +
        named usedVars (buildTieredTokenParams usage false usedVars).outputs =
          usage.completionTokens ∧
      (PricedAlike claudeFormat usedVars u r
          (claudeStreamHandler format estimate flushed finished s.events) ↔
        SplitAddsUp u ∧ NothingEstimated format estimate s u) := by
  refine ⟨p_add_named hinputs, c_add_named houtputs, ?_⟩
  · have hestimated : NothingEstimated format estimate s u ↔
        (streamCounts format estimate s u).inputTokens = u.inputTokens ∧
          (streamCounts format estimate s u).outputTokens = u.outputTokens :=
      streamCounts_iff.symm
    unfold PricedAlike
    rw [tieredParams_stream hu hs hestimate, tieredParams_body hu hr, ← split_iff hu, hestimated]
    constructor
    · rintro ⟨hbody, t, ht, _, hsame⟩
      obtain rfl := Option.some.inj ht
      unfold claudeParams at hsame
      simp only [TokenParams.mk.injEq] at hsame
      exact ⟨⟨hbody, Prod.ext hsame.2.2.2.2.1.symm hsame.2.2.2.2.2.1.symm⟩, hsame.1, hsame.2.1⟩
    · rintro ⟨⟨hbody, hsplit⟩, hin, hout⟩
      have hsame : claudeParams (streamCounts format estimate s u).inputTokens
          (streamCounts format estimate s u).outputTokens u.cacheReadInputTokens (streamSplit u).1
          (streamSplit u).2 = claudeParams u.inputTokens u.outputTokens u.cacheReadInputTokens
            (fillCount u.getCacheCreation5mTokens u.claudeCacheCreation5mTokens)
            (fillCount u.getCacheCreation1hTokens u.claudeCacheCreation1hTokens) := by
        rw [hin, hout, ← hsplit]
      refine ⟨hbody, _, rfl, ?_, hsame⟩
      rw [hsame]
      exact hbody

/-! ### A response with cache creation tokens -/

/-- An event without data of its own. -/
def event (r : ClaudeResponse Unit) : StreamData Unit := ⟨r, true, true, ""⟩

/-- A usage object with 100 cache creation tokens, and their split. -/
def cachedUsage (cacheCreation : Option ClaudeCacheCreationUsage) : ClaudeUsage :=
  { ClaudeUsage.empty with
    inputTokens := 10
    outputTokens := 5
    cacheCreationInputTokens := 100
    cacheCreation := cacheCreation }

/-- A body with the usage object. -/
def bodyOf (u : ClaudeUsage) : ClaudeResponse Unit :=
  { ClaudeResponse.ofType "message" with usage := some u }

/-- A stream with the usage object. -/
def streamOf (u : ClaudeUsage) : ClaudeStream Unit :=
  { start := event { ClaudeResponse.ofType "message_start" with
      message := some { ClaudeMediaMessage.ofType "message" with usage := some u } }
    blocks := []
    delta := event { ClaudeResponse.ofType "message_delta" with usage := some u }
    stop := event (ClaudeResponse.ofType "message_stop") }

theorem reports_self {n : ℤ} (hn : 0 ≤ n) : Reports n n n := ⟨hn, Int.le_refl n, .inl rfl⟩

theorem transmits_streamOf {u : ClaudeUsage} (hu : Counts u) : Transmits (streamOf u) u u u where
  startType := rfl
  blockTypes _ hd := absurd hd List.not_mem_nil
  deltaType := rfl
  stopType := rfl
  startUsage := rfl
  deltaUsage := rfl
  startNumber := rfl
  deltaNumber := rfl
  input := reports_self hu.input.nonneg
  creation := reports_self hu.creation.nonneg
  read := reports_self hu.read.nonneg
  creation5m := reports_self hu.creation5m.nonneg
  creation1h := reports_self hu.creation1h.nonneg
  output := reports_self hu.output.nonneg
  outputLast := rfl

theorem counts_cachedUsage : Counts (cachedUsage (some ⟨60, 40⟩)) := by
  constructor
  all_goals constructor
  all_goals decide

/-- A usage of the OpenAI format with tokens of every kind. -/
def detailedUsage : Usage :=
  { Usage.empty with
    promptTokens := 100
    completionTokens := 40
    promptTokensDetails :=
      { InputTokenDetails.empty with
        cachedTokens := 30, cacheWriteTokens := 20, imageTokens := 5, audioTokens := 5 }
    completionTokenDetails :=
      { OutputTokenDetails.empty with imageTokens := 10, audioTokens := 5 } }

/-- The variables of `p * 3 + cr * 0.3 + c * 15 + img_o * 30`. -/
def imageVars (name : String) : Bool := name ∈ ["p", "c", "cr", "img_o"]

/-- A character is a token, and the prompt has 12. -/
def lengthEstimate : Estimate := ⟨12, String.length⟩

/-- Of 100 tokens 30 are cached and 70 remain; and 60 of 100 cache creation tokens live for 5
minutes, and 40 for an hour. -/
theorem tokens_priced_once_split :
    (buildTieredTokenParams detailedUsage false imageVars).p +
        named imageVars (buildTieredTokenParams detailedUsage false imageVars).inputs = 100 ∧
      (buildTieredTokenParams detailedUsage false imageVars).c +
        named imageVars (buildTieredTokenParams detailedUsage false imageVars).outputs = 40 ∧
      PricedAlike true imageVars (cachedUsage (some ⟨60, 40⟩))
        (bodyOf (cachedUsage (some ⟨60, 40⟩)))
        (claudeStreamHandler .claude lengthEstimate "" ""
          (streamOf (cachedUsage (some ⟨60, 40⟩))).events) := by
  have hu := counts_cachedUsage
  obtain ⟨hin, hout, hpriced⟩ := tokens_priced_once detailedUsage imageVars
    ⟨by decide, by decide, by decide⟩ ⟨by decide, by decide, by decide⟩
    (bodyOf (cachedUsage (some ⟨60, 40⟩))) (streamOf (cachedUsage (some ⟨60, 40⟩)))
    (cachedUsage (some ⟨60, 40⟩)) _ _ hu rfl (transmits_streamOf hu) .claude lengthEstimate
    ⟨⟨by decide, by decide⟩, ⟨by decide, by decide⟩⟩ "" "" true
  exact ⟨hin, hout, hpriced.mpr ⟨⟨by decide, by decide⟩, .inr (.inl (by decide))⟩⟩

/-- Without the split, the body does not price the 100 tokens, and the stream does. -/
theorem body_not_priced :
    ¬ PricedAlike true (fun _ => true) (cachedUsage none) (bodyOf (cachedUsage none))
      (claudeStreamHandler .claude lengthEstimate "" "" (streamOf (cachedUsage none)).events) ∧
    (claudeStreamHandler .claude lengthEstimate "" "" (streamOf (cachedUsage none)).events).map
      (tieredParams true fun _ => true) = some (claudeParams 10 5 0 100 0) := by
  refine ⟨fun h => ?_, by decide +kernel⟩
  have hlen := h.1.2
  revert hlen
  decide +kernel

end MaxApi.TieredBilling
