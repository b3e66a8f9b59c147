import MaxApi.Lib.Table
import MaxApi.Lib.Text
import MaxApi.Lib.Txn

/-! # Authentication flows

One-time states of logins and bindings.  A flow is consumed in the transaction that runs its
action.  The same table keeps the assertions of external providers that have been used: a claim
inserts a consumed row whose token hash is derived from the assertion, so that the unique index
refuses the second claim.

Times are in nanoseconds.  `hmac` is the keyed hash of `authFlowTokenHash`; the tables that an
action writes besides the flows are the parameter `σ`. -/

namespace MaxApi.AuthFlows

open Relational Relational.Txn

/-! ### Times -/

def second : ℤ := 1000000000

def minute : ℤ := 60 * second

def hour : ℤ := 60 * minute

/-- `AuthFlowDefaultCleanupRetention`. -/
def authFlowDefaultCleanupRetention : ℤ := 24 * hour

/-! ### Rows -/

/-- A row of `auth_flows`; the token itself is never stored. -/
structure AuthFlow where
  id : ℤ
  tokenHash : String
  purpose : String
  provider : String
  intent : String
  userId : ℤ
  sessionId : String
  payload : String
  expiresAt : ℤ
  consumedAt : Option ℤ
  deriving DecidableEq, Repr

instance : Keyed AuthFlow where
  Key := ℤ × String
  key r := (r.id, r.tokenHash)
  Clash a b := a.1 = b.1 ∨ a.2 = b.2
  clashDec _ _ := instDecidableOr
  clash_refl := eitherEq_refl
  clash_symm := eitherEq_symm

theorem flow_eq_of_id {t : Table AuthFlow} {a b : AuthFlow} (ha : a ∈ t) (hb : b ∈ t)
    (h : a.id = b.id) : a = b := Table.eq_of_clash ha hb (.inl h)

/-- The flows, the last identifier that was given out (deleted rows do not give theirs back), and
the other tables. -/
structure Store (σ : Type) where
  flows : Table AuthFlow
  lastID : ℤ
  rest : σ

/-- The errors of the store; `action` is an error of the action itself. -/
inductive AuthError where
  | invalid
  | expired
  | consumed
  | duplicateKey
  | action (message : String)
  deriving DecidableEq, Repr

/-- The message of an error. -/
def AuthError.text : AuthError → String
  | .invalid => "auth flow is invalid"
  | .expired => "auth flow has expired"
  | .consumed => "auth flow has already been consumed"
  | .duplicateKey => "duplicated key not allowed"
  | .action message => message

abbrev AuthTxn (σ : Type) := Txn (Store σ) AuthError

/-- The fields that a caller asks a flow to have; empty ones other than the purpose match
anything. -/
structure AuthFlowMatch where
  purpose : String
  provider : String := ""
  intent : String := ""
  userId : ℤ := 0
  sessionId : String := ""
  deriving DecidableEq, Repr

/-- What a new flow is created from. -/
structure AuthFlowCreate where
  purpose : String
  provider : String
  intent : String
  userId : ℤ
  sessionId : String
  payload : String
  expiresAt : ℤ
  deriving DecidableEq, Repr

section store

variable {σ : Type} (hmac : String → String)

/-! ### Creating -/

/-- Append a row under the next identifier. -/
def appendFlow (s : Store σ) (flow : AuthFlow) : Store σ :=
  { s with flows := s.flows.insert { flow with id := s.lastID + 1 }, lastID := s.lastID + 1 }

/-- The token hash is in use. -/
def TokenTaken (s : Store σ) (tokenHash : String) : Prop :=
  s.flows.affected (·.tokenHash = tokenHash) ≠ 0

instance (s : Store σ) (tokenHash : String) : Decidable (TokenTaken s tokenHash) :=
  instDecidableNot

/-- `CreateAuthFlow`, with the token that was generated. -/
def CreateAuthFlow (input : AuthFlowCreate) (token : String) (now : ℤ) : AuthTxn σ Unit := do
  require (¬ Text.isBlank input.purpose ∧ now < input.expiresAt) .invalid
  let s ← get
  require (¬ TokenTaken s (hmac token)) .duplicateKey
  modify (appendFlow ·
    { id := 0, tokenHash := hmac token, purpose := input.purpose, provider := input.provider,
      intent := input.intent, userId := input.userId, sessionId := input.sessionId,
      payload := input.payload, expiresAt := input.expiresAt, consumedAt := none })

/-! ### External assertions -/

/-- The token under which an assertion is claimed. -/
def assertionToken (purpose assertion : String) : String :=
  "external:" ++ purpose ++ ":" ++ assertion

/-- An assertion that an action claims. -/
structure Assertion where
  purpose : String
  assertion : String
  expiresAt : ℤ
  claimToken : String
  deriving DecidableEq, Repr

/-- `ClaimExternalAuthAssertionWithTx`: the insert does nothing when the token hash is taken, and
the claim is then refused. -/
def ClaimExternalAuthAssertionWithTx (a : Assertion) (now : ℤ) : AuthTxn σ Unit := do
  let purpose := Text.trimSpace a.purpose
  let assertion := Text.trimSpace a.assertion
  require (purpose ≠ "" ∧ assertion ≠ "" ∧ now < a.expiresAt) .invalid
  let s ← get
  require (¬ TokenTaken s (hmac (assertionToken purpose assertion))) .consumed
  modify (appendFlow ·
    { id := 0, tokenHash := hmac (assertionToken purpose assertion), purpose := purpose,
      provider := "", intent := "", userId := 0, sessionId := "", payload := a.claimToken,
      expiresAt := a.expiresAt, consumedAt := some now })

/-! ### Consuming -/

/-- The row that `applyAuthFlowMatch` selects. -/
def Matches (token : String) (m : AuthFlowMatch) (r : AuthFlow) : Prop :=
  r.tokenHash = hmac token ∧ r.purpose = m.purpose ∧ (m.provider = "" ∨ r.provider = m.provider) ∧
    (m.intent = "" ∨ r.intent = m.intent) ∧ (m.userId = 0 ∨ r.userId = m.userId) ∧
    (m.sessionId = "" ∨ r.sessionId = m.sessionId)

instance (token : String) (m : AuthFlowMatch) : DecidablePred (Matches hmac token m) :=
  fun _ => instDecidableAnd

/-- The guard of the consuming update. -/
def Consumable (id now : ℤ) (r : AuthFlow) : Prop :=
  r.id = id ∧ r.consumedAt = none ∧ now < r.expiresAt

instance (id now : ℤ) : DecidablePred (Consumable id now) := fun _ => instDecidableAnd

/-- The column that consuming writes. -/
def consumedSet (now : ℤ) : SetClause AuthFlow :=
  ⟨fun r => { r with consumedAt := some now }, keeps fun _ => rfl⟩

/-- What runs in the transaction of a consumed flow: writes of other tables and, after them, the
claim of an assertion. -/
structure Action (σ : Type) where
  effect : AuthFlow → σ → Except String σ
  assertion : Option Assertion

/-- No action. -/
def Action.none : Action σ := ⟨fun _ s => .ok s, .none⟩

/-- The claim of an action, if it makes one. -/
def claimOf (a : Option Assertion) (now : ℤ) : AuthTxn σ Unit :=
  match a with
  | .none => pure ()
  | some a => ClaimExternalAuthAssertionWithTx hmac a now

/-- Run an action. -/
def runAction (action : Action σ) (flow : AuthFlow) (now : ℤ) : AuthTxn σ Unit := do
  let s ← get
  let rest ← Txn.ofExcept ((action.effect flow s.rest).mapError .action)
  modify fun s => { s with rest := rest }
  claimOf hmac action.assertion now

/-- `ConsumeAuthFlowWithActionTx`. -/
def ConsumeAuthFlowWithActionTx (token : String) (m : AuthFlowMatch) (action : Action σ)
    (now : ℤ) : AuthTxn σ AuthFlow := do
  require (token ≠ "" ∧ m.purpose ≠ "") .invalid
  let s ← get
  let flow ← orThrow (s.flows.first? (Matches hmac token m)) .invalid
  require (flow.consumedAt = none) .consumed
  require (now < flow.expiresAt) .expired
  require (s.flows.affected (Consumable flow.id now) = 1) .consumed
  modify fun s => { s with flows := s.flows.update (Consumable flow.id now) (consumedSet now) }
  runAction hmac action ((consumedSet now).set flow) now
  pure ((consumedSet now).set flow)

/-- `ConsumeAuthFlowWithAction`. -/
def ConsumeAuthFlowWithAction (token : String) (m : AuthFlowMatch) (action : Action σ) (now : ℤ)
    (s : Store σ) : Except AuthError AuthFlow × Store σ :=
  transaction (ConsumeAuthFlowWithActionTx hmac token m action now) s

/-- `ClaimExternalAuthAssertion`. -/
def ClaimExternalAuthAssertion (a : Assertion) (now : ℤ) (s : Store σ) :
    Except AuthError Unit × Store σ :=
  transaction (ClaimExternalAuthAssertionWithTx hmac a now) s

/-! ### Cleaning up -/

/-- The row is past its retention. -/
def Outdated (cutoff : ℤ) (r : AuthFlow) : Prop :=
  r.expiresAt < cutoff ∨ ∃ c ∈ r.consumedAt, c < cutoff

instance (cutoff : ℤ) : DecidablePred (Outdated cutoff) := fun _ => instDecidableOr

/-- `DeleteExpiredAuthFlows`. -/
def DeleteExpiredAuthFlows (now : ℤ) (s : Store σ) : Store σ :=
  { s with flows := s.flows.delete (Outdated (now - authFlowDefaultCleanupRetention)) }

end store

end MaxApi.AuthFlows
