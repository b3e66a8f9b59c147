import MaxApi.Lib.Components
import MaxApi.Lib.Dict
import MaxApi.Lib.System
import MaxApi.Lib.Text
import Mathlib.Data.Finset.Sort
import Mathlib.Data.Rat.Defs
import Mathlib.Data.String.Basic

/-! # Tool usage: the ledger of a request

Each observation of a tool call carries aliases of the call: its id, its position, or both.  The
ledger joins the observations that share aliases into records, and gives up those that disagree
about the tool. -/

namespace MaxApi.ToolUsage

/-! ### Prices -/

structure PrefixEntry where
  pre : String
  price : ℚ
  deriving DecidableEq

structure ToolPriceIndex where
  version : ℕ
  defaults : Dict ℚ
  prefixes : Dict (List PrefixEntry)

structure ToolPriceSnapshot where
  modelName : String
  index : Option ToolPriceIndex

def defaultToolPrices : List (String × ℚ) :=
  [("web_search", 10), ("web_search_preview", 10), ("file_search", 5 / 2), ("google_search", 14)]

def lookupToolPrice (index : Option ToolPriceIndex) (toolName modelName : String) : ℚ :=
  match index with
  | none => ((defaultToolPrices.find? (·.1 = toolName)).map (·.2)).getD 0
  | some idx =>
      let entry :=
        if modelName = "" then none
        else ((idx.prefixes.lookup toolName).getD []).find? fun e => Text.hasPrefix modelName e.pre
      match entry with
      | some e => e.price
      | none => (idx.defaults.lookup toolName).getD 0

namespace ToolPriceSnapshot

variable (s : ToolPriceSnapshot)

def version : ℕ := (s.index.map (·.version)).getD 0

def priceFor (toolName : String) : ℚ := lookupToolPrice s.index toolName s.modelName

end ToolPriceSnapshot

/-! ### Observations -/

inductive ToolUsageKind where
  | custom
  | builtIn
  deriving DecidableEq

def reservedBillableToolNames : List String :=
  ["web_search", "web_search_preview", "file_search", "google_search", "image_generation"]

/-- `ToolCallIdentity`. -/
structure ToolCallIdentity where
  scope : String
  callID : String
  position : String
  deriving DecidableEq

/-- An observation that is considered: the tool with the kind, and the aliases of the call. -/
abbrev Observation := Components.Edge (String × ToolUsageKind) String

/-- The aliases of a call: its id and its position in its scope. -/
def callAliases (identity : ToolCallIdentity) : List String :=
  (if identity.callID ≠ "" then [identity.scope ++ "\x00id\x00" ++ identity.callID] else []) ++
    if identity.position ≠ "" then [identity.scope ++ "\x00position\x00" ++ identity.position]
    else []

/-- What `observe` checks before it looks at the ledger. -/
def considered (prices : ToolPriceSnapshot) (kind : ToolUsageKind) (name : String)
    (identity : ToolCallIdentity) : Option Observation :=
  let name := Text.trimSpace name
  let identity : ToolCallIdentity :=
    ⟨Text.trimSpace identity.scope, Text.trimSpace identity.callID,
      Text.trimSpace identity.position⟩
  if name = "" then none
  else if kind = .custom ∧ name ∈ reservedBillableToolNames then none
  else if prices.priceFor name ≤ 0 then none
  else if identity.scope = "" ∨ (identity.callID = "" ∧ identity.position = "") then none
  else some ⟨(name, kind), callAliases identity⟩

/-! ### The ledger -/

structure ToolUsageRecord where
  name : String
  kind : ToolUsageKind
  aliases : List String
  deriving DecidableEq

structure ToolUsageLedger where
  modelName : String
  prices : ToolPriceSnapshot
  attempt : ℤ
  attemptStarted : Bool
  committed : Bool
  nextRecordID : ℕ
  records : AList fun _ : ℕ => ToolUsageRecord
  aliases : Dict ℕ
  ambiguous : Finset String

/-- `NewToolUsageLedger`, with the prices of the request's start. -/
def newToolUsageLedger (modelName : String) (prices : ToolPriceSnapshot) : ToolUsageLedger :=
  ⟨modelName, prices, 0, false, false, 0, ∅, ∅, ∅⟩

/-- Take aliases out of a map. -/
def eraseAll (aliases : List String) (m : Dict ℕ) : Dict ℕ :=
  aliases.foldl (fun m a => m.erase a) m

/-- Map aliases to a record. -/
def setAll (aliases : List String) (recordID : ℕ) (m : Dict ℕ) : Dict ℕ :=
  aliases.foldl (fun m a => m.insert a recordID) m

namespace ToolUsageLedger

variable (l : ToolUsageLedger)

def beginAttempt (attempt : ℤ) : ToolUsageLedger :=
  if l.attemptStarted ∧ l.attempt = attempt then l
  else
    { l with
      attempt := attempt
      attemptStarted := true
      committed := false
      nextRecordID := 0
      records := ∅
      aliases := ∅
      ambiguous := ∅ }

def commitAttempt (attempt : ℤ) : ToolUsageLedger :=
  if l.attemptStarted = false ∨ l.attempt ≠ attempt then l else { l with committed := true }

/-- The aliases are ambiguous from now on. -/
def tombstone (aliases : List String) : ToolUsageLedger :=
  { l with
    aliases := eraseAll aliases l.aliases
    ambiguous := l.ambiguous ∪ aliases.toFinset }

/-- A record is given up. -/
def invalidateRecord (recordID : ℕ) : ToolUsageLedger :=
  match l.records.lookup recordID with
  | none => l
  | some record => { l.tombstone record.aliases with records := l.records.erase recordID }

def invalidateAmbiguousLocked (recordIDs : List ℕ) (aliases : List String) : ToolUsageLedger :=
  (recordIDs.foldl invalidateRecord l).tombstone aliases

/-- Aliases are added to a record. -/
def addAliases (recordID : ℕ) (aliases : List String) : ToolUsageLedger :=
  match l.records.lookup recordID with
  | none => l
  | some record =>
      { l with
        records := l.records.insert recordID { record with aliases := record.aliases ∪ aliases }
        aliases := setAll aliases recordID l.aliases }

/-- The primary record takes over the aliases of another one. -/
def absorb (primaryID recordID : ℕ) : ToolUsageLedger :=
  if recordID = primaryID then l
  else
    match l.records.lookup recordID with
    | none => l
    | some duplicate =>
        { l.addAliases primaryID duplicate.aliases with
          records := (l.addAliases primaryID duplicate.aliases).records.erase recordID }

/-- The records that some of the aliases belong to. -/
def matchedRecords (aliases : List String) : List ℕ :=
  (aliases.filterMap fun a => l.aliases.lookup a).dedup

/-- The smallest of the record ids; they start with 1. -/
def primaryID (recordIDs : List ℕ) : ℕ :=
  recordIDs.foldl (fun primary id => if primary = 0 ∨ id < primary then id else primary) 0

/-- The record is not one of the tool. -/
def Differs (name : String) (kind : ToolUsageKind) (recordID : ℕ) : Prop :=
  ∀ record, l.records.lookup recordID = some record → record.name ≠ name ∨ record.kind ≠ kind

instance (name : String) (kind : ToolUsageKind) (recordID : ℕ) :
    Decidable (l.Differs name kind recordID) := by
  unfold Differs
  cases l.records.lookup recordID with
  | none => exact .isTrue nofun
  | some record =>
      exact decidable_of_iff (record.name ≠ name ∨ record.kind ≠ kind)
        ⟨fun h r hr => Option.some.inj hr ▸ h, fun h => h record rfl⟩

/-- `observe` after its checks. -/
def record (observation : Observation) : ToolUsageLedger × Bool :=
  let name := observation.label.1
  let kind := observation.label.2
  let aliases := observation.vertices
  let matched := l.matchedRecords aliases
  if ∃ a ∈ aliases, a ∈ l.ambiguous then (l.invalidateAmbiguousLocked matched aliases, false)
  else if matched = [] then
    let recordID := l.nextRecordID + 1
    ({ l with
        nextRecordID := recordID
        records := l.records.insert recordID ⟨name, kind, aliases⟩
        aliases := setAll aliases recordID l.aliases }, true)
  else if ∃ recordID ∈ matched, l.Differs name kind recordID then
    (l.invalidateAmbiguousLocked matched aliases, false)
  else
    let primary := primaryID matched
    ((matched.foldl (fun l recordID => l.absorb primary recordID) l).addAliases primary aliases,
      false)

def observe (kind : ToolUsageKind) (name : String) (identity : ToolCallIdentity) :
    ToolUsageLedger × Bool :=
  match considered l.prices kind name identity with
  | none => (l, false)
  | some observation =>
      let l := if l.attemptStarted then l else l.beginAttempt 0
      if l.committed then (l, false) else l.record observation

end ToolUsageLedger

/-! ### Snapshots -/

structure ToolUsageItem where
  name : String
  callCount : ℕ
  pricePer1K : ℚ
  deriving DecidableEq

structure ToolUsageSnapshot where
  attempt : ℤ
  modelName : String
  priceVersion : ℕ
  items : List ToolUsageItem
  deriving DecidableEq

namespace ToolUsageLedger

variable (l : ToolUsageLedger)

/-- The names of the records of custom tools. -/
def customNames : List String :=
  l.records.entries.filterMap fun entry =>
    if entry.2.kind = .custom then some entry.2.name else none

def snapshot : ToolUsageSnapshot :=
  let names := if l.committed then l.customNames else []
  { attempt := l.attempt
    modelName := l.modelName
    priceVersion := l.prices.version
    items := (names.toFinset.sort (· ≤ ·)).map fun name =>
      ⟨name, names.count name, l.prices.priceFor name⟩ }

end ToolUsageLedger

/-! ### Operations -/

inductive Op where
  | beginAttempt (attempt : ℤ)
  | observe (kind : ToolUsageKind) (name : String) (identity : ToolCallIdentity)
  | commitAttempt (attempt : ℤ)
  | snapshot
  deriving DecidableEq

def step (l : ToolUsageLedger) : Op → ToolUsageLedger
  | .beginAttempt attempt => l.beginAttempt attempt
  | .observe kind name identity => (l.observe kind name identity).1
  | .commitAttempt attempt => l.commitAttempt attempt
  | .snapshot => l

end MaxApi.ToolUsage
