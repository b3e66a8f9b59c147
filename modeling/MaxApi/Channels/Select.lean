import MaxApi.Channels.Cache
import MaxApi.Lib.Ranked

/-! # Channels: selection

A request is served by a channel of its group and model.  There are two selectors: one over the
lists of the cache (`getRandomSatisfiedChannelExcluding`) and one over the abilities
(`getChannelExcluding`).  Both leave out the channels that do not support the path of the request
and those it has tried, choose a priority by the number of the retry and draw a channel of that
priority by its weight.  They are modelled with health routing off, when the priority of a
candidate is the one of its row.

`config` is `validatedAdvancedCustomConfigFromChannel`, the JSON decoder with the checks of the
routes: it gives the incoming paths of a valid configuration. -/

namespace MaxApi.Channels

open Relational

/-! ### Names and paths -/

def handleThinkingBudgetModel (name pre wildcard : String) : String :=
  if Text.hasPrefix name pre && Text.contains name "-thinking-" then wildcard else name

/-- `FormatMatchingModelName`. -/
def formatMatchingModelName (name : String) : String :=
  let name :=
    if Text.hasPrefix name "gemini-2.5-flash-lite" then
      handleThinkingBudgetModel name "gemini-2.5-flash-lite" "gemini-2.5-flash-lite-thinking-*"
    else if Text.hasPrefix name "gemini-2.5-flash" then
      handleThinkingBudgetModel name "gemini-2.5-flash" "gemini-2.5-flash-thinking-*"
    else if Text.hasPrefix name "gemini-2.5-pro" then
      handleThinkingBudgetModel name "gemini-2.5-pro" "gemini-2.5-pro-thinking-*"
    else name
  let name := if Text.hasPrefix name "gpt-4-gizmo" then "gpt-4-gizmo-*" else name
  if Text.hasPrefix name "gpt-4o-gizmo" then "gpt-4o-gizmo-*" else name

def ChannelTypeCodex : ℤ := 57

def ChannelTypeAdvancedCustom : ℤ := 58

def channelTypeSupportsRequestPath (channelType : ℤ) (requestPath : String) : Bool :=
  if requestPath ≠ "/v1/alpha/search" then true
  else channelType = ChannelTypeCodex || channelType = ChannelTypeAdvancedCustom

def advancedCustomModelPlaceholder : String := "\x7bmodel\x7d"

def matchAdvancedCustomIncomingPathTemplate (configuredPath requestPath : String) : Bool :=
  if !Text.contains configuredPath advancedCustomModelPlaceholder then
    configuredPath = requestPath
  else
    match configuredPath.splitOn advancedCustomModelPlaceholder with
    | [pre, post] =>
        if !Text.hasPrefix requestPath pre || !Text.hasSuffix requestPath post then false
        else
          let model := Text.trimSuffix (Text.trimPrefix requestPath pre) post
          model ≠ "" && !Text.contains model "/"
    | _ => false

def matchAdvancedCustomIncomingPath (configuredPath requestPath : String) : Bool :=
  if matchAdvancedCustomIncomingPathTemplate configuredPath requestPath then true
  else if Text.contains configuredPath ":generateContent" then
    matchAdvancedCustomIncomingPathTemplate
      (Text.replaceFirst configuredPath ":generateContent" ":streamGenerateContent") requestPath
  else if Text.contains configuredPath ":streamGenerateContent" then
    matchAdvancedCustomIncomingPathTemplate
      (Text.replaceFirst configuredPath ":streamGenerateContent" ":generateContent") requestPath
  else false

/-- `SupportsPath`, of the incoming paths of the routes. -/
def supportsPath (paths : List String) (requestPath : String) : Bool :=
  paths.any fun path => matchAdvancedCustomIncomingPath (Text.trimSpace path) requestPath

/-- `config != nil && config.SupportsPath(requestPath)`. -/
def configSupports (config : Option (List String)) (requestPath : String) : Bool :=
  match config with
  | none => false
  | some paths => supportsPath paths requestPath

/-- `SecureRandomInt`: every number below `max` is drawn for some `random`. -/
def secureRandomInt (random max : ℕ) : ℕ := random % max

/-- A selector returned an error, and no channel. -/
inductive SelectError where
  | inconsistent
  | notFound
  | noChannel
  deriving DecidableEq, Repr

/-! ### The cache -/

/-- The cache. -/
structure Cache where
  group2model2channels : Lists
  channelsIDM : Table Channel
  channel2advancedCustomConfig : ℤ → Option (List String)

variable (config : String → Option (List String))

/-- `channel2advancedCustomConfig` of the rows read. -/
def advancedCustomConfigs (channels : Table Channel) (id : ℤ) : Option (List String) :=
  match channels.first? (·.id = id) with
  | none => none
  | some c => if c.type = ChannelTypeAdvancedCustom then config c.otherSettings else none

/-- The cache that `InitChannelCache` builds from the database when there was none. -/
def initChannelCache (slice : SortSlice) (db : Tables) : Option Cache :=
  (newLists slice db.channels db.abilities.rows).map fun lists =>
    ⟨lists, db.channels, advancedCustomConfigs config db.channels⟩

/-- `filterChannelsByRequestPath`. -/
def filterChannelsByRequestPath (cache : Cache) (channels : List ℤ) (requestPath : String) :
    List ℤ :=
  if requestPath = "" then channels
  else channels.filter fun id =>
    match cache.channelsIDM.first? (·.id = id) with
    | none => decide (requestPath ≠ "/v1/alpha/search")
    | some c =>
        if !channelTypeSupportsRequestPath c.type requestPath then false
        else if c.type ≠ ChannelTypeAdvancedCustom then true
        else configSupports (cache.channel2advancedCustomConfig id) requestPath

/-- The channels of the model, or else of its normalized name. -/
def satisfiedChannels (cache : Cache) (group model requestPath : String) : List ℤ :=
  let channels :=
    filterChannelsByRequestPath cache (channelsOf cache.group2model2channels group model)
      requestPath
  if channels = [] then
    filterChannelsByRequestPath cache
      (channelsOf cache.group2model2channels group (formatMatchingModelName model)) requestPath
  else channels

/-- `cachedChannels`: the rows of the channels. -/
def cachedChannels (cache : Cache) : List ℤ → Except SelectError (List Channel)
  | [] => .ok []
  | id :: channels =>
      match cache.channelsIDM.first? (·.id = id), cachedChannels cache channels with
      | none, _ => .error .inconsistent
      | some _, .error e => .error e
      | some c, .ok cs => .ok (c :: cs)

/-- The weight of a channel among the channels of the chosen priority. -/
def smoothedWeight (targetChannels : List Channel) (c : Channel) : ℕ :=
  let sumWeight := (targetChannels.map Channel.getWeight).sum
  let smoothingAdjustment := if sumWeight = 0 then 100 else 0
  let smoothingFactor :=
    if sumWeight ≠ 0 ∧ sumWeight / targetChannels.length < 10 then 100 else 1
  c.getWeight * smoothingFactor + smoothingAdjustment

/-- The draw among the candidates: of the priority that the retry says, by weight. -/
def drawCandidate (candidates : List Channel) (retry random : ℕ) :
    Except SelectError (Option Channel) :=
  match candidates with
  | [] => .ok none
  | [c] => .ok (some c)
  | candidates =>
      match Ranked.levelAt (candidates.map Channel.getPriority) retry with
      | none => .error .noChannel
      | some targetPriority =>
          let targetChannels := candidates.filter (·.getPriority = targetPriority)
          let weight := smoothedWeight targetChannels
          let randomWeight := secureRandomInt random (targetChannels.map weight).sum
          match Ranked.draw weight targetChannels randomWeight with
          | none => .error .notFound
          | some c => .ok (some c)

/-- `GetRandomSatisfiedChannelExcluding`, with the memory cache. -/
def getRandomSatisfiedChannelExcluding (cache : Cache) (group model : String) (retry : ℕ)
    (requestPath : String) (excludedChannelIDs : List ℤ) (random : ℕ) :
    Except SelectError (Option Channel) :=
  let channels := satisfiedChannels cache group model requestPath
  let availableChannels := channels.filter (· ∉ excludedChannelIDs)
  match cachedChannels cache availableChannels with
  | .error e => .error e
  | .ok candidates => drawCandidate candidates retry random

/-! ### The abilities -/

/-- The enabled abilities of a group and model. -/
def enabledAbilities (db : Tables) (group model : String) : List Ability :=
  db.abilities.rows.filter fun a => a.group = group ∧ a.model = model ∧ a.enabled = true

/-- `getPriority`: of the distinct priorities, in descending order. -/
def getPriority (db : Tables) (group model : String) (retry : ℕ) : Except SelectError ℤ :=
  match Ranked.levelAt ((enabledAbilities db group model).map Ability.priority) retry with
  | none => .error .inconsistent
  | some priority => .ok priority

/-- `getChannelQuery`, the rows it returns: those of the largest priority, or of the priority of the
retry. -/
def getChannelQuery (db : Tables) (group model : String) (retry : ℕ) :
    Except SelectError (List Ability) :=
  let rows := enabledAbilities db group model
  if retry = 0 then .ok (rows.filter fun a => some a.priority = (rows.map Ability.priority).max?)
  else
    match getPriority db group model retry with
    | .error e => .error e
    | .ok priority => .ok (rows.filter (·.priority = priority))

/-- `findAbilityRows`: by descending weight. -/
def findAbilityRows (rows : List Ability) : List Ability :=
  rows.insertionSort fun a b => b.weight ≤ a.weight

/-- `channels.type` of the row that an ability is joined with. -/
def channelType (db : Tables) (a : Ability) : ℤ :=
  match db.channels.first? (·.id = a.channelId) with
  | none => 0
  | some c => c.type

/-- `filterAbilityRowsByRequestPath`. -/
def filterAbilityRowsByRequestPath (db : Tables) (abilityRows : List Ability)
    (requestPath : String) : List Ability :=
  if requestPath = "" then abilityRows
  else abilityRows.filter fun a =>
    if !channelTypeSupportsRequestPath (channelType db a) requestPath then false
    else if channelType db a ≠ ChannelTypeAdvancedCustom then true
    else configSupports (advancedCustomConfigs config db.channels a.channelId) requestPath

/-- `selectChannelIdFromAbilities`. -/
def selectChannelIdFromAbilities (abilities : List Ability) (retry : ℕ)
    (excludedChannelIDs : List ℤ) (random : ℕ) : Option ℤ :=
  let available := abilities.filter (·.channelId ∉ excludedChannelIDs)
  match Ranked.levelAt (available.map Ability.priority) retry with
  | none => none
  | some targetPriority =>
      let targetAbilities := available.filter (·.priority = targetPriority)
      let candidateWeight := fun a : Ability => a.weight + 10
      let weight := secureRandomInt random (targetAbilities.map candidateWeight).sum
      (Ranked.draw candidateWeight targetAbilities weight).map Ability.channelId

/-- The abilities that support the path: those of the query, or all of the group and model. -/
def supportingAbilities (db : Tables) (group model requestPath : String)
    (abilityRows : List Ability) : List Ability :=
  let abilities := filterAbilityRowsByRequestPath config db (findAbilityRows abilityRows)
    requestPath
  if abilities = [] ∧ requestPath ≠ "" then
    filterAbilityRowsByRequestPath config db
      (findAbilityRows (enabledAbilities db group model)) requestPath
  else abilities

/-- `GetChannelExcluding`. -/
def getChannelExcluding (db : Tables) (group model : String) (retry : ℕ) (requestPath : String)
    (excludedChannelIDs : List ℤ) (random : ℕ) : Except SelectError (Option Channel) :=
  match getChannelQuery db group model retry with
  | .error e => .error e
  | .ok abilityRows =>
      let abilities := supportingAbilities config db group model requestPath abilityRows
      match selectChannelIdFromAbilities abilities retry excludedChannelIDs random with
      | none => .ok none
      | some channelId =>
          match db.channels.first? (·.id = channelId) with
          | none => .error .notFound
          | some c => .ok (some c)

/-! ### Excluded channels -/

section lemmas

variable {cache : Cache} {db : Tables} {group model requestPath : String} {retry random : ℕ}
variable {excludedChannelIDs : List ℤ} {c : Channel}

/-- The rows of a list of identifiers. -/
theorem cachedChannels_mem : ∀ {ids : List ℤ} {cs : List Channel},
    cachedChannels cache ids = .ok cs → ∀ c, c ∈ cs ↔ c ∈ cache.channelsIDM ∧ c.id ∈ ids
  | [], cs, h, c => by
      obtain rfl : [] = cs := Except.ok.inj h
      exact iff_of_false List.not_mem_nil fun hc => List.not_mem_nil hc.2
  | id :: ids, cs, h, c => by
      unfold cachedChannels at h
      cases hfirst : cache.channelsIDM.first? (·.id = id) with
      | none => simp [hfirst] at h
      | some d =>
          obtain ⟨hd, hid⟩ := Table.first?_mem hfirst
          cases hrest : cachedChannels cache ids with
          | error e => simp [hfirst, hrest] at h
          | ok rest =>
              obtain rfl : d :: rest = cs := by simpa [hfirst, hrest] using h
              rw [List.mem_cons, List.mem_cons, cachedChannels_mem hrest]
              constructor
              · rintro (rfl | ⟨hc, hids⟩)
                · exact ⟨hd, .inl hid⟩
                · exact ⟨hc, .inr hids⟩
              · rintro ⟨hc, hids | hids⟩
                · exact .inl (Table.eq_of_clash hc hd (hids.trans hid.symm))
                · exact .inr ⟨hc, hids⟩

theorem drawCandidate_mem {cs : List Channel} (h : drawCandidate cs retry random = .ok (some c)) :
    c ∈ cs := by
  match cs with
  | [] => simp [drawCandidate] at h
  | [d] =>
      obtain rfl : d = c := by simpa [drawCandidate] using h
      exact List.mem_cons_self
  | d :: e :: rest =>
      unfold drawCandidate at h
      dsimp only at h
      split at h
      · cases h
      · split at h
        · cases h
        · next hdraw =>
          obtain rfl := Option.some.inj (Except.ok.inj h)
          exact List.mem_of_mem_filter (Ranked.draw_mem hdraw)

/-- The selector over the cache returns a row of the cache that is not excluded. -/
theorem getRandomSatisfiedChannelExcluding_mem
    (h : getRandomSatisfiedChannelExcluding cache group model retry requestPath excludedChannelIDs
      random = .ok (some c)) : c ∈ cache.channelsIDM ∧ c.id ∉ excludedChannelIDs := by
  unfold getRandomSatisfiedChannelExcluding at h
  dsimp only at h
  split at h
  · cases h
  · next cs hcs =>
    obtain ⟨hrow, hid⟩ := (cachedChannels_mem hcs c).mp (drawCandidate_mem h)
    exact ⟨hrow, of_decide_eq_true (List.mem_filter.mp hid).2⟩

/-- The selector over the abilities returns a row that is not excluded. -/
theorem getChannelExcluding_mem
    (h : getChannelExcluding config db group model retry requestPath excludedChannelIDs random =
      .ok (some c)) : c ∈ db.channels ∧ c.id ∉ excludedChannelIDs := by
  unfold getChannelExcluding at h
  split at h
  · cases h
  · dsimp only at h
    split at h
    · cases h
    · next id hid =>
      split at h
      · cases h
      · next d hd =>
        obtain rfl := Option.some.inj (Except.ok.inj h)
        obtain ⟨hrow, hdid⟩ := Table.first?_mem hd
        refine ⟨hrow, ?_⟩
        unfold selectChannelIdFromAbilities at hid
        dsimp only at hid
        split at hid
        · cases hid
        · obtain ⟨a, ha, hac⟩ := Option.map_eq_some_iff.mp hid
          have hmem := List.mem_of_mem_filter (Ranked.draw_mem ha)
          rw [hdid, ← hac]
          exact of_decide_eq_true (List.mem_filter.mp hmem).2

end lemmas

end MaxApi.Channels
