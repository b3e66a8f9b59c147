import MaxApi.AuthFlow.Telegram
import MaxApi.Lib.System

/-! # One-time use

Runs of the flow store under a clock that does not go back.  A Telegram request is checked at one
moment and committed at a later one, with any other operation in between; it names a state that was
issued before it arrived.  The claim of an assertion may therefore be made long after the check,
but not after the flow of the state has expired, and the row of the claim outlives that. -/

namespace MaxApi.AuthFlows

open Relational Relational.Txn

/-! ### The system -/

/-- How long the flows of the callers of `CreateAuthFlow` last. -/
inductive Lifetime where
  | oauth
  | telegramBind
  deriving DecidableEq, Repr

def oauthAuthFlowTTL : ℤ := 10 * minute

def telegramBindFlowTTL : ℤ := 5 * minute

def Lifetime.duration : Lifetime → ℤ
  | .oauth => oauthAuthFlowTTL
  | .telegramBind => telegramBindFlowTTL

theorem Lifetime.duration_le (l : Lifetime) : l.duration ≤ oauthAuthFlowTTL := by
  cases l <;> decide

/-- A Telegram request that has passed the check. -/
structure Request where
  bind : Bool
  state : String
  flowMatch : AuthFlowMatch
  assertion : String
  values : List (String × String)
  checkedAt : ℤ
  deriving DecidableEq, Repr

/-- The store, the clock, the hashes of the tokens that were handed out, the requests that passed
the check, and what has been committed: the flows whose actions ran and the Telegram
authorizations that were accepted. -/
structure World (σ : Type) where
  store : Store σ
  clock : ℤ
  issued : List String
  requests : List Request
  committed : List ℤ
  accepted : List (List (String × String))

/-- What happens next. -/
inductive Act (σ : Type) where
  | createAuthFlow (purpose provider intent : String) (userId : ℤ) (sessionId payload : String)
      (lifetime : Lifetime) (token : String)
  | consume (token : String) (m : AuthFlowMatch) (action : Action σ)
  | claim (a : Assertion)
  | cleanup (lag : ℕ)
  | telegramLogin (params : Params) (sessionId : String)
  | telegramBind (body : JsonObject) (userId : ℤ) (sessionId : String)
  | commit (request : ℕ) (lag : ℕ) (effect : AuthFlow → σ → Except String σ) (claimToken : String)

/-- An event, some time after the one before. -/
structure Op (σ : Type) where
  wait : ℕ
  act : Act σ

section system

variable {σ : Type} (hmac : String → String) (mac : String → String → List ℕ) (botToken : String)

/-- The clock advances. -/
def World.tick (w : World σ) (wait : ℕ) : World σ := { w with clock := w.clock + wait }

/-- A new flow under a random token; tokens do not repeat. -/
def create (w : World σ) (input : AuthFlowCreate) (token : String) : World σ :=
  if hmac token ∈ w.issued then w
  else
    match transaction (CreateAuthFlow hmac input token w.clock) w.store with
    | (.ok (), s) => { w with store := s, issued := w.issued ++ [hmac token] }
    | (.error _, s) => { w with store := s }

/-- The transaction of a consumed flow. -/
def consumeFlow (w : World σ) (token : String) (m : AuthFlowMatch) (action : Action σ) :
    Except AuthError AuthFlow × World σ :=
  match ConsumeAuthFlowWithAction hmac token m action w.clock w.store with
  | (.ok flow, s) => (.ok flow, { w with store := s, committed := w.committed ++ [flow.id] })
  | (.error e, s) => (.error e, { w with store := s })

/-- The match of `TelegramLogin`. -/
def telegramLoginFlowMatch (sessionId : String) : AuthFlowMatch where
  purpose := "oauth"
  provider := "telegram"
  intent := "login"
  sessionId := sessionId

/-- The match of a Telegram binding. -/
def telegramBindFlowMatch (userId : ℤ) (sessionId : String) : AuthFlowMatch where
  purpose := "oauth"
  provider := "telegram"
  intent := "bind"
  userId := userId
  sessionId := Text.trimSpace sessionId

/-- The check of a request with the given values; the session carries a state that was issued. -/
def receive (w : World σ) (bind : Bool) (params : Params) (hash state : String)
    (m : AuthFlowMatch) : World σ :=
  match verifiedValues params with
  | none => w
  | some values =>
      if checkTelegramAuthorizationAt mac params botToken w.clock ∧ hmac state ∈ w.issued then
        { w with requests := w.requests ++
          [{ bind := bind, state := state, flowMatch := m,
             assertion := normalizeTelegramAssertionHash hash, values := values,
             checkedAt := w.clock }] }
      else w

/-- The assertion that the transaction of a request claims; a binding leaves a blank one out. -/
def Request.assertionOf (r : Request) (expiresAt : ℤ) (claimToken : String) : Option Assertion :=
  if r.bind ∧ Text.isBlank r.assertion then none
  else some
    { purpose := "telegram_assertion", assertion := r.assertion, expiresAt := expiresAt,
      claimToken := claimToken }

/-- The transaction of a request; the expiry was read `lag` before it, but after the check. -/
def commitRequest (w : World σ) (r : Request) (lag : ℕ) (effect : AuthFlow → σ → Except String σ)
    (claimToken : String) : World σ :=
  let expiresAt := telegramAssertionExpiry (max r.checkedAt (w.clock - lag))
  match consumeFlow hmac w r.state r.flowMatch ⟨effect, r.assertionOf expiresAt claimToken⟩ with
  | (.ok _, w') => { w' with accepted := w'.accepted ++ [r.values] }
  | (.error _, w') => w'

def act (w : World σ) : Act σ → World σ
  | .createAuthFlow purpose provider intent userId sessionId payload lifetime token =>
      create hmac w
        { purpose := purpose, provider := provider, intent := intent, userId := userId,
          sessionId := sessionId, payload := payload, expiresAt := w.clock + lifetime.duration }
        token
  | .consume token m action => (consumeFlow hmac w token m action).2
  | .claim a => { w with store := (ClaimExternalAuthAssertion hmac a w.clock w.store).2 }
  | .cleanup lag => { w with store := DeleteExpiredAuthFlows (w.clock - lag) w.store }
  | .telegramLogin params sessionId =>
      receive hmac mac botToken w false params (params.get "hash") (params.get "state")
        (telegramLoginFlowMatch sessionId)
  | .telegramBind body userId sessionId =>
      match decodePayload body with
      | none => w
      | some p =>
          receive hmac mac botToken w true p.authorizationValues p.hash p.state
            (telegramBindFlowMatch userId sessionId)
  | .commit i lag effect claimToken =>
      match w.requests[i]? with
      | none => w
      | some r => commitRequest hmac w r lag effect claimToken

def step (w : World σ) (op : Op σ) : World σ := act hmac mac botToken (w.tick op.wait) op.act

/-- The state after a list of events. -/
def runs (w : World σ) (ops : List (Op σ)) : World σ :=
  Transition.run (step hmac mac botToken) w ops

/-- A store without flows at time `clock`. -/
def World.initial (rest : σ) (clock : ℤ) : World σ :=
  ⟨⟨Table.empty, 0, rest⟩, clock, [], [], [], []⟩

/-! ### What the statements do to the flows -/

/-- How a store may change at time `now`: rows are added under new identifiers, consumed, or
deleted after their retention; the only new row that is not consumed has the hash `fresh`. -/
structure Evolves (s s' : Store σ) (now : ℤ) (fresh : Option String) : Prop where
  lastID_le : s.lastID ≤ s'.lastID
  origin : ∀ f ∈ s'.flows, f ∈ s.flows ∨
    (f.consumedAt ≠ none ∧ ∃ g ∈ s.flows, g.id = f.id) ∨
    (s.lastID < f.id ∧ f.id ≤ s'.lastID ∧ (f.consumedAt ≠ none ∨
      fresh = some f.tokenHash ∧ f.expiresAt ≤ now + oauthAuthFlowTTL))
  keeps : ∀ f ∈ s.flows, f.consumedAt ≠ none → f ∈ s'.flows ∨
    Outdated (now - authFlowDefaultCleanupRetention) f

theorem Evolves.refl (s : Store σ) (now : ℤ) (fresh : Option String) : Evolves s s now fresh :=
  ⟨le_rfl, fun _ hf => .inl hf, fun _ hf _ => .inl hf⟩

theorem Evolves.trans {s t u : Store σ} {now : ℤ} {fresh : Option String}
    (hst : Evolves s t now none) (htu : Evolves t u now fresh) : Evolves s u now fresh := by
  refine ⟨le_trans hst.lastID_le htu.lastID_le, ?_, ?_⟩
  · intro f hf
    rcases htu.origin f hf with hf | ⟨hc, g, hg, hid⟩ | ⟨hlt, hle, hnew⟩
    · rcases hst.origin f hf with hf | hold | ⟨hlt, hle, hnew⟩
      · exact .inl hf
      · exact .inr (.inl hold)
      · refine .inr (.inr ⟨hlt, le_trans hle htu.lastID_le, ?_⟩)
        exact hnew.imp_right fun h => absurd h.1 (by simp)
    · rcases hst.origin g hg with hg | ⟨_, g', hg', hid'⟩ | ⟨hlt, hle, _⟩
      · exact .inr (.inl ⟨hc, g, hg, hid⟩)
      · exact .inr (.inl ⟨hc, g', hg', hid'.trans hid⟩)
      · rw [hid] at hlt hle
        exact .inr (.inr ⟨hlt, le_trans hle htu.lastID_le, .inl hc⟩)
    · exact .inr (.inr ⟨lt_of_le_of_lt hst.lastID_le hlt, hle, hnew⟩)
  · intro f hf hc
    rcases hst.keeps f hf hc with hf | hout
    · exact htu.keeps f hf hc
    · exact .inr hout

theorem evolves_append (s : Store σ) (flow : AuthFlow) (now : ℤ) (fresh : Option String)
    (h : flow.consumedAt ≠ none ∨
      fresh = some flow.tokenHash ∧ flow.expiresAt ≤ now + oauthAuthFlowTTL) :
    Evolves s (appendFlow s flow) now fresh := by
  refine ⟨by simp [appendFlow], ?_, ?_⟩
  · intro f hf
    rcases Table.mem_insert hf with hf | ⟨rfl, _⟩
    · exact .inl hf
    · exact .inr (.inr ⟨by simp, le_rfl, h⟩)
  · intro f hf _
    exact .inl (Table.mem_insert_of_mem hf)

theorem evolves_consume (s : Store σ) (id now : ℤ) (rest : σ) (fresh : Option String) :
    Evolves s { s with flows := s.flows.update (Consumable id now) (consumedSet now), rest := rest }
      now fresh := by
  refine ⟨le_rfl, ?_, ?_⟩
  · intro f hf
    obtain ⟨g, hg, rfl⟩ := Table.mem_update.mp hf
    by_cases hc : Consumable id now g
    · rw [if_pos hc]
      exact .inr (.inl ⟨Option.some_ne_none _, g, hg, rfl⟩)
    · rw [if_neg hc]
      exact .inl hg
  · intro f hf hc
    exact .inl (Table.mem_update.mpr ⟨f, hf, (if_neg fun h => hc h.2.1).symm⟩)

theorem evolves_cleanup (s : Store σ) (now : ℤ) (lag : ℕ) (fresh : Option String) :
    Evolves s (DeleteExpiredAuthFlows (now - lag) s) now fresh := by
  refine ⟨le_rfl, ?_, ?_⟩
  · intro f hf
    exact .inl (Table.mem_delete.mp hf).1
  · intro f hf _
    by_cases hout : Outdated (now - lag - authFlowDefaultCleanupRetention) f
    · right
      rcases hout with h | ⟨c, hc, h⟩
      · exact .inl (by omega)
      · exact .inr ⟨c, hc, by omega⟩
    · exact .inl (Table.mem_delete.mpr ⟨hf, hout⟩)

/-- The hash under which an assertion is claimed. -/
def assertionHash (a : Assertion) : String :=
  hmac (assertionToken (Text.trimSpace a.purpose) (Text.trimSpace a.assertion))

/-- The row of a claim. -/
def claimRow (a : Assertion) (now : ℤ) : AuthFlow where
  id := 0
  tokenHash := assertionHash hmac a
  purpose := Text.trimSpace a.purpose
  provider := ""
  intent := ""
  userId := 0
  sessionId := ""
  payload := a.claimToken
  expiresAt := a.expiresAt
  consumedAt := some now

variable {hmac mac botToken}
variable {s s' : Store σ} {now : ℤ}

/-- A claim that goes through adds its row, whose hash was free. -/
theorem ok_claim {a : Assertion} {r : Unit}
    (h : (ClaimExternalAuthAssertionWithTx hmac a now : AuthTxn σ Unit).Ok s r s') :
    ¬ TokenTaken s (assertionHash hmac a) ∧ now < a.expiresAt ∧
      s' = appendFlow s (claimRow hmac a now) := by
  unfold ClaimExternalAuthAssertionWithTx at h
  obtain ⟨_, s₁, hvalid, h⟩ := ok_bind.mp h
  obtain ⟨t, s₂, hget, h⟩ := ok_bind.mp h
  obtain ⟨_, s₃, hfree, hinsert⟩ := ok_bind.mp h
  obtain ⟨⟨_, _, hexp⟩, rfl⟩ := ok_require.mp hvalid
  obtain ⟨rfl, rfl⟩ := ok_get.mp hget
  obtain ⟨htaken, rfl⟩ := ok_require.mp hfree
  exact ⟨htaken, hexp, (ok_modify.mp hinsert).symm⟩

theorem evolves_claimOf {a : Option Assertion} {r : Unit}
    (h : (claimOf hmac a now : AuthTxn σ Unit).Ok s r s') (fresh : Option String) :
    Evolves s s' now fresh := by
  cases a with
  | none =>
      obtain ⟨_, rfl⟩ := ok_pure.mp h
      exact .refl s now fresh
  | some a =>
      obtain ⟨_, _, rfl⟩ := ok_claim h
      exact evolves_append s _ now fresh (.inl (Option.some_ne_none _))

/-- A flow that is consumed was open, and its action ran to the end. -/
theorem ok_consume {token : String} {m : AuthFlowMatch} {action : Action σ} {flow : AuthFlow}
    (h : (ConsumeAuthFlowWithActionTx hmac token m action now).Ok s flow s') :
    ∃ f ∈ s.flows, Matches hmac token m f ∧ f.consumedAt = none ∧ now < f.expiresAt ∧
      flow = (consumedSet now).set f ∧ ∃ rest, (claimOf hmac action.assertion now).Ok
        { s with flows := s.flows.update (Consumable f.id now) (consumedSet now), rest := rest }
        () s' := by
  unfold ConsumeAuthFlowWithActionTx at h
  obtain ⟨_, s₁, hvalid, h⟩ := ok_bind.mp h
  obtain ⟨t, s₂, hget, h⟩ := ok_bind.mp h
  obtain ⟨f, s₃, hfind, h⟩ := ok_bind.mp h
  obtain ⟨_, s₄, hopen, h⟩ := ok_bind.mp h
  obtain ⟨_, s₅, hlive, h⟩ := ok_bind.mp h
  obtain ⟨_, s₆, hcas, h⟩ := ok_bind.mp h
  obtain ⟨_, s₇, hwrite, h⟩ := ok_bind.mp h
  obtain ⟨_, s₈, haction, hret⟩ := ok_bind.mp h
  obtain ⟨_, rfl⟩ := ok_require.mp hvalid
  obtain ⟨rfl, rfl⟩ := ok_get.mp hget
  obtain ⟨hfirst, rfl⟩ := ok_orThrow.mp hfind
  obtain ⟨hnone, rfl⟩ := ok_require.mp hopen
  obtain ⟨hlt, rfl⟩ := ok_require.mp hlive
  obtain ⟨_, rfl⟩ := ok_require.mp hcas
  obtain rfl := ok_modify.mp hwrite
  obtain ⟨rfl, rfl⟩ := ok_pure.mp hret
  obtain ⟨hmem, hmatch⟩ := Table.first?_mem hfirst
  unfold runAction at haction
  obtain ⟨t, s₉, hget', h⟩ := ok_bind.mp haction
  obtain ⟨rest, s₁₀, heffect, h⟩ := ok_bind.mp h
  obtain ⟨_, s₁₁, hrest, hclaim⟩ := ok_bind.mp h
  obtain ⟨rfl, rfl⟩ := ok_get.mp hget'
  obtain ⟨_, rfl⟩ := ok_ofExcept.mp heffect
  obtain rfl := ok_modify.mp hrest
  exact ⟨f, hmem, hmatch, hnone, hlt, rfl, rest, hclaim⟩

/-- An expired or consumed flow fails every action alike. -/
theorem consume_closed {token : String} {m : AuthFlowMatch} {f : AuthFlow}
    (hfirst : s.flows.first? (Matches hmac token m) = some f)
    (hclosed : f.consumedAt ≠ none ∨ f.expiresAt ≤ now) :
    ∃ e, ∀ action : Action σ,
      ConsumeAuthFlowWithAction hmac token m action now s = (.error e, s) := by
  by_cases hvalid : token ≠ "" ∧ m.purpose ≠ ""
  · by_cases hopen : f.consumedAt = none
    · refine ⟨.expired, fun action => ?_⟩
      have hexp : ¬ now < f.expiresAt := not_lt.mpr (hclosed.resolve_left fun h => h hopen)
      unfold ConsumeAuthFlowWithAction transaction ConsumeAuthFlowWithActionTx
      simp only [exec_bind, exec_require, if_pos hvalid, exec_get, hfirst, orThrow, exec_pure,
        if_pos hopen, if_neg hexp]
    · refine ⟨.consumed, fun action => ?_⟩
      unfold ConsumeAuthFlowWithAction transaction ConsumeAuthFlowWithActionTx
      simp only [exec_bind, exec_require, if_pos hvalid, exec_get, hfirst, orThrow, exec_pure,
        if_neg hopen]
  · refine ⟨.invalid, fun action => ?_⟩
    unfold ConsumeAuthFlowWithAction transaction ConsumeAuthFlowWithActionTx
    simp only [exec_bind, exec_require, if_neg hvalid]

/-- A failing action leaves the store, and with it the flow, as it was. -/
theorem consume_error {token : String} {m : AuthFlowMatch} {action : Action σ} {e : AuthError}
    (h : (ConsumeAuthFlowWithAction hmac token m action now s).1 = .error e) :
    (ConsumeAuthFlowWithAction hmac token m action now s).2 = s := by
  unfold ConsumeAuthFlowWithAction at h ⊢
  rcases transaction_cases (ConsumeAuthFlowWithActionTx hmac token m action now) s with
    ⟨a, t, _, ht⟩ | ⟨e', ht⟩
  · rw [ht] at h
    exact absurd h (by simp)
  · rw [ht]

/-- The flow that a call finds is open. -/
structure Open (hmac : String → String) (s : Store σ) (token : String) (m : AuthFlowMatch)
    (now : ℤ) (f : AuthFlow) : Prop where
  named : token ≠ "" ∧ m.purpose ≠ ""
  found : s.flows.first? (Matches hmac token m) = some f
  unconsumed : f.consumedAt = none
  live : now < f.expiresAt

section failing

variable {token : String} {m : AuthFlowMatch} {f : AuthFlow} {action : Action σ}

theorem Open.affected (h : Open hmac s token m now f) :
    s.flows.affected (Consumable f.id now) = 1 :=
  Table.affected_eq_one (Table.first?_mem h.found).1 ⟨rfl, h.unconsumed, h.live⟩
    fun _ hr hp => flow_eq_of_id hr (Table.first?_mem h.found).1 hp.1

/-- A call that finds an open flow runs the action. -/
theorem Open.exec (h : Open hmac s token m now f) (action : Action σ) :
    (ConsumeAuthFlowWithActionTx hmac token m action now).exec s =
      (runAction hmac action ((consumedSet now).set f) now >>= fun _ =>
          pure ((consumedSet now).set f) : AuthTxn σ AuthFlow).exec
        { s with flows := s.flows.update (Consumable f.id now) (consumedSet now) } := by
  unfold ConsumeAuthFlowWithActionTx
  simp only [exec_bind, exec_require, if_pos h.named, exec_get, h.found,
    orThrow, exec_pure, if_pos h.unconsumed, if_pos h.live, if_pos h.affected, exec_modify]

/-- An action that fails is undone, together with the consumption of the flow. -/
theorem Open.of_failure (h : Open hmac s token m now f) {message : String}
    (hfail : action.effect ((consumedSet now).set f) s.rest = .error message) :
    ConsumeAuthFlowWithAction hmac token m action now s = (.error (.action message), s) := by
  unfold ConsumeAuthFlowWithAction transaction
  rw [h.exec action]
  unfold runAction
  simp only [exec_bind, exec_get, hfail]
  rfl

/-- An action that succeeds and claims nothing consumes the flow. -/
theorem Open.of_success (h : Open hmac s token m now f) {rest : σ}
    (hok : action.effect ((consumedSet now).set f) s.rest = .ok rest)
    (hclaim : action.assertion = none) :
    (ConsumeAuthFlowWithAction hmac token m action now s).1 = .ok ((consumedSet now).set f) := by
  unfold ConsumeAuthFlowWithAction transaction
  rw [h.exec action]
  unfold runAction claimOf
  simp only [exec_bind, exec_get, hok, hclaim]
  rfl

end failing

/-! ### The invariant -/

/-- The hash under which a Telegram assertion is claimed. -/
def telegramHash (hmac : String → String) (assertion : String) : String :=
  hmac (assertionToken (Text.trimSpace "telegram_assertion") (Text.trimSpace assertion))

/-- What the check of a request established. -/
def Request.Checked (mac : String → String → List ℕ) (botToken : String) (r : Request) : Prop :=
  ∃ hash authDate, hash ≠ "" ∧ r.assertion = normalizeTelegramAssertionHash hash ∧
    hexDecode hash = some (mac botToken (dataCheckString r.values)) ∧
    authDateOf r.values = some authDate ∧ WithinWindow authDate r.checkedAt

/-- The earliest moment at which the authorization can have been claimed. -/
def earliest (authDate : ℤ) : ℤ := authDate * second - telegramClockSkew

/-- An authorization that was accepted cannot be claimed again: the row of its claim is there, or
its window is long over. -/
def UsedUp (hmac : String → String) (mac : String → String → List ℕ) (botToken : String)
    (w : World σ) (values : List (String × String)) : Prop :=
  ∃ hash authDate, hexDecode hash = some (mac botToken (dataCheckString values)) ∧
    authDateOf values = some authDate ∧
    (earliest authDate + authFlowDefaultCleanupRetention < w.clock ∨
      ∃ f ∈ w.store.flows, f.tokenHash = telegramHash hmac (normalizeTelegramAssertionHash hash) ∧
        (∃ c, f.consumedAt = some c ∧ earliest authDate ≤ c) ∧ earliest authDate ≤ f.expiresAt)

/-- The invariant of the runs. -/
structure Sound (hmac : String → String) (mac : String → String → List ℕ) (botToken : String)
    (w : World σ) : Prop where
  ids : ∀ f ∈ w.store.flows, f.id ≤ w.store.lastID
  live : ∀ f ∈ w.store.flows, f.consumedAt = none →
    f.tokenHash ∈ w.issued ∧ f.expiresAt ≤ w.clock + oauthAuthFlowTTL
  requests : ∀ r ∈ w.requests, r.Checked mac botToken ∧ hmac r.state ∈ w.issued ∧
    r.checkedAt ≤ w.clock ∧ ∀ f ∈ w.store.flows, f.consumedAt = none →
      f.tokenHash = hmac r.state → f.expiresAt ≤ r.checkedAt + oauthAuthFlowTTL
  committedOnce : w.committed.Nodup
  committed : ∀ id ∈ w.committed, id ≤ w.store.lastID ∧
    ∀ f ∈ w.store.flows, f.id = id → f.consumedAt ≠ none
  acceptedOnce : w.accepted.Nodup
  accepted : ∀ values ∈ w.accepted, UsedUp hmac mac botToken w values

variable {w : World σ}

theorem sound_tick (h : Sound hmac mac botToken w) (wait : ℕ) :
    Sound hmac mac botToken (w.tick wait) := by
  have hclock : w.clock ≤ (w.tick wait).clock := by
    show w.clock ≤ w.clock + wait
    omega
  refine ⟨h.ids, ?_, ?_, h.committedOnce, h.committed, h.acceptedOnce, ?_⟩
  · intro f hf hopen
    obtain ⟨hissued, hexp⟩ := h.live f hf hopen
    exact ⟨hissued, by omega⟩
  · intro r hr
    obtain ⟨hchecked, hstate, hat, hflow⟩ := h.requests r hr
    exact ⟨hchecked, hstate, le_trans hat hclock, hflow⟩
  · intro values hv
    obtain ⟨hash, authDate, hmac', hdate, hrow⟩ := h.accepted values hv
    exact ⟨hash, authDate, hmac', hdate, hrow.imp_left fun hlt => lt_of_lt_of_le hlt hclock⟩

/-- A change of the flows keeps the invariant. -/
theorem sound_evolves (h : Sound hmac mac botToken w) (fresh : Option String)
    (hs : Evolves w.store s' w.clock fresh) (hfresh : ∀ t ∈ fresh, t ∉ w.issued) :
    Sound hmac mac botToken { w with store := s', issued := w.issued ++ fresh.toList } := by
  have hold : ∀ f ∈ s'.flows, f.consumedAt = none → f ∈ w.store.flows ∨
      fresh = some f.tokenHash ∧ f.expiresAt ≤ w.clock + oauthAuthFlowTTL := by
    intro f hf hopen
    rcases hs.origin f hf with hf | ⟨hc, _⟩ | ⟨_, _, hc | hnew⟩
    · exact .inl hf
    · exact absurd hopen hc
    · exact absurd hopen hc
    · exact .inr hnew
  refine ⟨?_, ?_, ?_, h.committedOnce, ?_, h.acceptedOnce, ?_⟩
  · intro f hf
    rcases hs.origin f hf with hf | ⟨_, g, hg, hid⟩ | ⟨_, hle, _⟩
    · exact le_trans (h.ids f hf) hs.lastID_le
    · rw [← hid]
      exact le_trans (h.ids g hg) hs.lastID_le
    · exact hle
  · intro f hf hopen
    rcases hold f hf hopen with hf | ⟨hnew, hexp⟩
    · obtain ⟨hissued, hexp⟩ := h.live f hf hopen
      exact ⟨List.mem_append_left _ hissued, hexp⟩
    · exact ⟨List.mem_append_right _ (by simp [hnew]), hexp⟩
  · intro r hr
    obtain ⟨hchecked, hstate, hat, hflow⟩ := h.requests r hr
    refine ⟨hchecked, List.mem_append_left _ hstate, hat, ?_⟩
    intro f hf hopen hhash
    rcases hold f hf hopen with hf | ⟨hnew, _⟩
    · exact hflow f hf hopen hhash
    · rw [hhash] at hnew
      exact absurd hstate (hfresh _ hnew)
  · intro id hid
    obtain ⟨hle, hrows⟩ := h.committed id hid
    refine ⟨le_trans hle hs.lastID_le, ?_⟩
    intro f hf hfid
    rcases hs.origin f hf with hf | ⟨hc, _⟩ | ⟨hlt, _, _⟩
    · exact hrows f hf hfid
    · exact hc
    · omega
  · intro values hv
    obtain ⟨hash, authDate, hbytes, hdate, hrow⟩ := h.accepted values hv
    refine ⟨hash, authDate, hbytes, hdate, ?_⟩
    rcases hrow with hlt | ⟨f, hf, hhash, ⟨c, hc, hle⟩, hexp⟩
    · exact .inl hlt
    · rcases hs.keeps f hf (hc ▸ Option.some_ne_none c) with hkept | hout | ⟨c', hc', hlt⟩
      · exact .inr ⟨f, hkept, hhash, ⟨c, hc, hle⟩, hexp⟩
      · left
        show earliest authDate + authFlowDefaultCleanupRetention < w.clock
        omega
      · obtain rfl := Option.some.inj (hc.symm.trans hc')
        left
        show earliest authDate + authFlowDefaultCleanupRetention < w.clock
        omega

theorem sound_store (h : Sound hmac mac botToken w) (hs : Evolves w.store s' w.clock none) :
    Sound hmac mac botToken { w with store := s' } := by
  have hsound := sound_evolves h none hs fun t ht => absurd ht (by simp)
  rw [Option.toList_none, List.append_nil] at hsound
  exact hsound

theorem sound_create (h : Sound hmac mac botToken w) {input : AuthFlowCreate}
    (hexp : input.expiresAt ≤ w.clock + oauthAuthFlowTTL) (token : String) :
    Sound hmac mac botToken (create hmac w input token) := by
  unfold create
  by_cases hissued : hmac token ∈ w.issued
  · rw [if_pos hissued]
    exact h
  · rw [if_neg hissued]
    rcases transaction_cases (CreateAuthFlow hmac input token w.clock) w.store with
      ⟨u, t, hok, ht⟩ | ⟨e, ht⟩
    · rw [ht]
      unfold CreateAuthFlow at hok
      obtain ⟨_, s₁, hvalid, hok⟩ := ok_bind.mp hok
      obtain ⟨_, s₂, hget, hok⟩ := ok_bind.mp hok
      obtain ⟨_, s₃, hfree, hinsert⟩ := ok_bind.mp hok
      obtain ⟨_, rfl⟩ := ok_require.mp hvalid
      obtain ⟨rfl, rfl⟩ := ok_get.mp hget
      obtain ⟨_, rfl⟩ := ok_require.mp hfree
      obtain rfl := ok_modify.mp hinsert
      refine sound_evolves h (some (hmac token)) (evolves_append _ _ _ _ (.inr ⟨rfl, hexp⟩)) ?_
      intro t ht
      rw [← Option.some.inj ht]
      exact hissued
    · rw [ht]
      exact h

theorem sound_receive (h : Sound hmac mac botToken w) {bind : Bool} {params : Params}
    {hash state : String} {m : AuthFlowMatch}
    (hhash : ∀ values, verifiedValues params = some values → params.get "hash" ≠ "" →
      hexDecode (params.get "hash") = some (mac botToken (dataCheckString values)) →
        hash = params.get "hash") :
    Sound hmac mac botToken (receive hmac mac botToken w bind params hash state m) := by
  unfold receive
  split
  · exact h
  · next values hvalues =>
    split
    · next hpass =>
      obtain ⟨values', authDate, hvalues', hdate, hwindow, hne, hbytes⟩ := check_true hpass.1
      obtain rfl := Option.some.inj (hvalues.symm.trans hvalues')
      refine ⟨h.ids, h.live, ?_, h.committedOnce, h.committed, h.acceptedOnce, h.accepted⟩
      intro r hr
      rcases List.mem_append.mp hr with hr | hr
      · exact h.requests r hr
      · rw [List.mem_singleton.mp hr]
        refine ⟨⟨params.get "hash", authDate, hne, ?_, hbytes, hdate, hwindow⟩, hpass.2, le_rfl, ?_⟩
        · rw [hhash values hvalues hne hbytes]
        · intro f hf hopen _
          exact (h.live f hf hopen).2
    · exact h

/-- A consumed flow had not been consumed before, and is marked now. -/
theorem sound_consume (h : Sound hmac mac botToken w) (token : String) (m : AuthFlowMatch)
    (action : Action σ) : Sound hmac mac botToken (consumeFlow hmac w token m action).2 := by
  unfold consumeFlow ConsumeAuthFlowWithAction
  rcases transaction_cases (ConsumeAuthFlowWithActionTx hmac token m action w.clock) w.store with
    ⟨flow, t, hok, ht⟩ | ⟨e, ht⟩
  · rw [ht]
    obtain ⟨f, hf, _, hopen, hlive, rfl, rest, hclaim⟩ := ok_consume hok
    have hmark := evolves_consume w.store f.id w.clock rest none
    have hafter := evolves_claimOf hclaim none
    have hsound := sound_store h (hmark.trans hafter)
    have hnew : f.id ∉ w.committed := fun hid => (h.committed f.id hid).2 f hf rfl hopen
    refine ⟨hsound.ids, hsound.live, hsound.requests, ?_, ?_, hsound.acceptedOnce,
      hsound.accepted⟩
    · rw [List.nodup_append_comm]
      exact List.nodup_cons.mpr ⟨hnew, h.committedOnce⟩
    · intro id hid
      rcases List.mem_append.mp hid with hid | hid
      · exact hsound.committed id hid
      · rw [List.mem_singleton.mp hid]
        refine ⟨le_trans (h.ids f hf) (hmark.trans hafter).lastID_le, ?_⟩
        intro g hg hgid
        rcases hafter.origin g hg with hg | ⟨hc, _⟩ | ⟨hlt, _, _⟩
        · obtain ⟨b, hb, rfl⟩ := Table.mem_update.mp hg
          have hbid : b.id = f.id := by
            split at hgid
            · exact hgid
            · exact hgid
          obtain rfl := flow_eq_of_id hb hf hbid
          rw [if_pos ⟨rfl, hopen, hlive⟩]
          exact Option.some_ne_none _
        · exact hc
        · have hle := h.ids f hf
          have hgid' : g.id = f.id := hgid
          have hlt' : w.store.lastID < g.id := hlt
          omega
  · rw [ht]
    exact h

/-! ### Telegram authorizations -/

theorem normalize_not_blank {hash : String} {bytes : List ℕ} (hne : hash ≠ "")
    (h : hexDecode hash = some bytes) :
    Text.isBlank (normalizeTelegramAssertionHash hash) = false := by
  unfold normalizeTelegramAssertionHash
  rw [trimSpace_of_not_space (hexBytes_not_space h)]
  unfold Text.isBlank
  rw [String.toList_ofList]
  unfold hexDecode at h
  cases hl : hash.toList with
  | nil => exact absurd (String.toList_eq_nil_iff.mp hl) hne
  | cons a l =>
      rw [hl] at h
      cases l with
      | nil => exact absurd h (by simp [hexBytes])
      | cons b l =>
          unfold hexBytes at h
          split at h
          · next x y rest hx hy hrest =>
            obtain ⟨hlower, hlt, _⟩ := hexDigit_lower hx
            have hchar : ∀ n < 16, Text.isSpace (hexChar n) = false := by decide
            rw [List.map_cons, List.all_cons, hlower, hchar x hlt, Bool.false_and]
          · exact absurd h (by simp)

/-- The commit of a request whose flow is open finds no claim of the same authorization, unless it
was never accepted. -/
theorem not_accepted (h : Sound hmac mac botToken w) {values : List (String × String)}
    {hash : String} {authDate at' : ℤ}
    (hbytes : hexDecode hash = some (mac botToken (dataCheckString values)))
    (hdate : authDateOf values = some authDate) (hwindow : WithinWindow authDate at')
    (hnow : w.clock < at' + oauthAuthFlowTTL)
    (hfree : ∀ f ∈ w.store.flows, f.consumedAt ≠ none →
      f.tokenHash ≠ telegramHash hmac (normalizeTelegramAssertionHash hash)) :
    values ∉ w.accepted := by
  intro hmem
  obtain ⟨hash', authDate', hbytes', hdate', hrow⟩ := h.accepted values hmem
  obtain rfl := Option.some.inj (hdate.symm.trans hdate')
  rcases hrow with hlt | ⟨f, hf, hhash, ⟨c, hc, _⟩, _⟩
  · -- the window and the life of a flow are shorter than the retention
    have hend := hwindow.2
    unfold earliest authFlowDefaultCleanupRetention telegramClockSkew at hlt
    unfold telegramAuthorizationTTL at hend
    unfold oauthAuthFlowTTL at hnow
    unfold hour minute second at *
    omega
  · rw [normalize_eq hbytes' hbytes] at hhash
    exact hfree f hf (hc ▸ Option.some_ne_none c) hhash

theorem sound_commit (h : Sound hmac mac botToken w) {r : Request} (hr : r ∈ w.requests)
    (lag : ℕ) (effect : AuthFlow → σ → Except String σ) (claimToken : String) :
    Sound hmac mac botToken (commitRequest hmac w r lag effect claimToken) := by
  obtain ⟨⟨hash, authDate, hne, hassert, hbytes, hdate, hwindow⟩, _, hat, hflow⟩ := h.requests r hr
  -- the hash is not blank, so the assertion is claimed
  have hclaims : ∀ e, r.assertionOf e claimToken = some ⟨"telegram_assertion", r.assertion, e,
      claimToken⟩ := by
    intro e
    unfold Request.assertionOf
    rw [if_neg]
    rintro ⟨_, hblank⟩
    rw [hassert, normalize_not_blank hne hbytes] at hblank
    exact absurd hblank (by decide)
  unfold commitRequest
  dsimp only
  rw [hclaims]
  generalize hexp : telegramAssertionExpiry (max r.checkedAt (w.clock - lag)) = e
  have hsound := sound_consume h r.state r.flowMatch
    ⟨effect, some ⟨"telegram_assertion", r.assertion, e, claimToken⟩⟩
  unfold consumeFlow ConsumeAuthFlowWithAction at hsound ⊢
  rcases transaction_cases (ConsumeAuthFlowWithActionTx hmac r.state r.flowMatch
    ⟨effect, some ⟨"telegram_assertion", r.assertion, e, claimToken⟩⟩ w.clock) w.store with
    ⟨flow, t, hok, ht⟩ | ⟨err, ht⟩
  · rw [ht] at hsound ⊢
    obtain ⟨f, hf, hmatch, hopen, hlive, rfl, rest, hclaim⟩ := ok_consume hok
    obtain ⟨hfree, _, rfl⟩ := ok_claim hclaim
    have hrow : assertionHash hmac ⟨"telegram_assertion", r.assertion, e, claimToken⟩ =
        telegramHash hmac (normalizeTelegramAssertionHash hash) := by
      unfold assertionHash telegramHash
      rw [hassert]
    have hfree' : ∀ g ∈ w.store.flows.update (Consumable f.id w.clock) (consumedSet w.clock),
        g.tokenHash ≠ telegramHash hmac (normalizeTelegramAssertionHash hash) := by
      intro g hg heq
      apply hfree
      unfold TokenTaken
      intro hzero
      exact Table.affected_eq_zero.mp hzero g hg (heq.trans hrow.symm)
    refine ⟨hsound.ids, hsound.live, hsound.requests, hsound.committedOnce, hsound.committed,
      ?_, ?_⟩
    · have hnot : r.values ∉ w.accepted := by
        refine not_accepted h hbytes hdate hwindow ?_ ?_
        · exact lt_of_lt_of_le hlive (hflow f hf hopen hmatch.1)
        · intro g hg hc
          exact hfree' g (Table.mem_update.mpr ⟨g, hg, (if_neg fun hg' => hc hg'.2.1).symm⟩)
      rw [List.nodup_append_comm]
      exact List.nodup_cons.mpr ⟨hnot, h.acceptedOnce⟩
    · intro values hv
      rcases List.mem_append.mp hv with hv | hv
      · exact hsound.accepted values hv
      · rw [List.mem_singleton.mp hv]
        have hearly : earliest authDate ≤ r.checkedAt := by
          have hstart := hwindow.1
          unfold earliest
          omega
        refine ⟨hash, authDate, hbytes, hdate, .inr ⟨_, Table.mem_insert_self ?_, hrow,
          ⟨w.clock, rfl, le_trans hearly hat⟩, ?_⟩⟩
        · rintro g hg (hid | hhash)
          · have hle : g.id ≤ w.store.lastID := by
              obtain ⟨b, hb, rfl⟩ := Table.mem_update.mp hg
              have hb' := h.ids b hb
              split
              · exact hb'
              · exact hb'
            have hid' : g.id = w.store.lastID + 1 := hid
            omega
          · exact hfree' g hg (hhash.trans hrow)
        · show earliest authDate ≤ e
          rw [← hexp]
          unfold telegramAssertionExpiry telegramAuthorizationTTL telegramClockSkew
          unfold minute second
          omega
  · rw [ht] at hsound ⊢
    exact hsound

/-! ### Runs -/

/-- The body of a binding carries Telegram's own signature, if any. -/
def Act.Genuine (mac : String → String → List ℕ) (botToken : String) : Act σ → Prop
  | .telegramBind body _ _ =>
      ∀ p, decodePayload body = some p → SignedByTelegram mac botToken p.authorizationValues
  | _ => True

theorem step_sound (h : Sound hmac mac botToken w) {op : Op σ}
    (hgenuine : op.act.Genuine mac botToken) :
    Sound hmac mac botToken (step hmac mac botToken w op) := by
  have hw := sound_tick h op.wait
  unfold step
  cases hact : op.act with
  | createAuthFlow purpose provider intent userId sessionId payload lifetime token =>
      exact sound_create hw (Int.add_le_add_left lifetime.duration_le _) token
  | consume token m action => exact sound_consume hw token m action
  | claim a =>
      refine sound_store hw ?_
      unfold ClaimExternalAuthAssertion
      rcases transaction_cases (ClaimExternalAuthAssertionWithTx hmac a (w.tick op.wait).clock)
        (w.tick op.wait).store with ⟨u, t, hok, ht⟩ | ⟨e, ht⟩
      · rw [ht]
        exact evolves_claimOf (a := some a) hok none
      · rw [ht]
        exact .refl _ _ _
  | cleanup lag => exact sound_store hw (evolves_cleanup _ _ lag none)
  | telegramLogin params sessionId => exact sound_receive hw fun _ _ _ _ => rfl
  | telegramBind body userId sessionId =>
      rw [hact] at hgenuine
      dsimp only [act]
      cases hp : decodePayload body with
      | none => exact hw
      | some p =>
          refine sound_receive hw fun values hvalues hne hbytes => ?_
          exact payload_hash hp (hgenuine p hp) hvalues hne hbytes
  | commit i lag effect claimToken =>
      dsimp only [act]
      cases hi : (w.tick op.wait).requests[i]? with
      | none => exact hw
      | some r => exact sound_commit hw (List.mem_of_getElem? hi) lag effect claimToken

theorem runs_sound (rest : σ) (clock : ℤ) (ops : List (Op σ))
    (hgenuine : ∀ op ∈ ops, op.act.Genuine mac botToken) :
    Sound hmac mac botToken (runs hmac mac botToken (World.initial rest clock) ops) := by
  refine Transition.run_invariant_mem (step hmac mac botToken) (I := Sound hmac mac botToken) ops
    (fun w op hop hw => step_sound hw (hgenuine op hop)) _ ?_
  exact ⟨fun _ h => absurd h List.not_mem_nil, fun _ h => absurd h List.not_mem_nil,
    fun _ h => absurd h List.not_mem_nil, List.nodup_nil, fun _ h => absurd h List.not_mem_nil,
    List.nodup_nil, fun _ h => absurd h List.not_mem_nil⟩

end system

/-! ### One authorization, two spellings -/

/-- The signature of one authorization under one bot token. -/
def adaMac (token data : String) : List ℕ :=
  if token = "123456:bot" ∧ data = "auth_date=1700000000\nfirst_name=Ada\nid=42" then
    [243, 190, 74, 188, 178, 133, 254, 250, 197, 52, 98, 173, 155, 23, 224, 121, 122, 56, 252, 56,
      58, 215, 209, 52, 146, 52, 160, 170, 65, 210, 45, 217]
  else []

/-- The token hashes under one session secret. -/
def adaHmac (token : String) : String :=
  if token = "state-1" then "2651af9689e9b278360374136c3586f5627e6491a1ab6e7845c12ff415a878ab"
  else if token = "state-2" then
    "40a7228c3549fc549c9a6adc392016d75ef51e4a85279f68f9bee1eb1f345b3d"
  else "7af05dffbd96c54245db799c53d84ca2e898529179d5cc5248690430402d0ce1"

/-- The query of a login. -/
def adaQuery : Params :=
  [("id", "42"), ("first_name", "Ada"), ("auth_date", "1700000000"),
    ("hash", "f3be4abcb285fefac53462ad9b17e0797a38fc383ad7d1349234a0aa41d22dd9"),
    ("state", "state-1")].foldl (fun m kv => m.insert kv.1 [kv.2]) ∅

/-- The body of a binding with the same authorization, its hash in upper case. -/
def adaBody : JsonObject :=
  [("id", .number "42"), ("first_name", .string "Ada"), ("auth_date", .number "1700000000"),
    ("hash", .string "F3BE4ABCB285FEFAC53462AD9B17E0797A38FC383AD7D1349234A0AA41D22DD9"),
    ("state", .string "state-2")]

/-- The login and the binding are both checked before either is committed. -/
def adaTwice : List (Op Unit) :=
  [⟨0, .createAuthFlow "oauth" "telegram" "login" 0 "s" "" .oauth "state-1"⟩,
    ⟨0, .createAuthFlow "oauth" "telegram" "bind" 7 "s" "" .telegramBind "state-2"⟩,
    ⟨5000000000, .telegramLogin adaQuery "s"⟩, ⟨0, .telegramBind adaBody 7 "s"⟩,
    ⟨1000000, .commit 0 0 (fun _ s => .ok s) "claim-1"⟩,
    ⟨1000000, .commit 1 0 (fun _ s => .ok s) "claim-2"⟩]

theorem adaBody_signed (p : TelegramAuthPayload) (hp : decodePayload adaBody = some p) :
    SignedByTelegram adaMac "123456:bot" p.authorizationValues := by
  intro values _ _ key hkey
  obtain ⟨hmem, hhash, hstate⟩ := mem_signedKeys.mp hkey
  obtain ⟨kv, hkv, rfl⟩ := mem_body_of_mem_values hp hmem
  have hfields : ∀ kv ∈ adaBody, kv.1 ≠ "hash" → kv.1 ≠ "state" → kv.1 ∈ telegramFields := by
    decide
  exact hfields kv hkv hhash hstate

/-- The state after both were committed. -/
def adaWorld : World Unit :=
  runs adaHmac adaMac "123456:bot" (World.initial () (1700000000 * second)) adaTwice

theorem adaTwice_genuine : ∀ op ∈ adaTwice, op.act.Genuine adaMac "123456:bot" := by
  unfold adaTwice
  simp only [List.forall_mem_cons, List.not_mem_nil, false_implies, implies_true, and_true,
    Act.Genuine, true_and]
  exact adaBody_signed

end MaxApi.AuthFlows
