import MaxApi.Lib.System
import MaxApi.Lib.Table
import MaxApi.Lib.Txn

/-! # Redemption codes

A code is redeemed in one transaction, under a lock of its row.  An administrator edits a code in
two statements: the row is read and written back as a whole, with the fields of the request in the
copy.  Deleted codes keep their rows. -/

namespace MaxApi.Redemptions

open Relational Relational.Txn

/-! ### Rows -/

def RedemptionCodeStatusEnabled : ℤ := 1
def RedemptionCodeStatusDisabled : ℤ := 2
def RedemptionCodeStatusUsed : ℤ := 3

/-- A row of `redemptions`; `deleted` says that `deleted_at` is set. -/
structure Redemption where
  id : ℤ
  userId : ℤ
  key : String
  status : ℤ
  name : String
  quota : ℤ
  createdTime : ℤ
  redeemedTime : ℤ
  usedUserId : ℤ
  deleted : Bool
  expiredTime : ℤ
  deriving DecidableEq

instance : Keyed Redemption where
  Key := ℤ × String
  key r := (r.id, r.key)
  Clash a b := a.1 = b.1 ∨ a.2 = b.2
  clashDec _ _ := instDecidableOr
  clash_refl := eitherEq_refl
  clash_symm := eitherEq_symm

theorem redemption_eq_of_id {t : Table Redemption} {a b : Redemption} (ha : a ∈ t) (hb : b ∈ t)
    (h : a.id = b.id) : a = b := Table.eq_of_clash ha hb (.inl h)

/-- The wallet of a user. -/
structure User where
  id : ℤ
  quota : ℤ
  deriving DecidableEq

instance : Keyed User where
  Key := ℤ
  key u := u.id
  Clash a b := a = b
  clashDec _ _ := inferInstance
  clash_refl _ := rfl
  clash_symm h := h.symm

structure Store where
  redemptions : Table Redemption
  users : Table User

/-! ### Redeeming -/

inductive RedeemError where
  | noCode
  | invalidUser
  | invalidCode
  | alreadyUsed
  | expired
  | invalidQuota
  | database
  deriving DecidableEq

/-- The guard of the update that marks a code. -/
def Redeemable (id now : ℤ) (r : Redemption) : Prop :=
  r.id = id ∧ r.deleted = false ∧ r.status = RedemptionCodeStatusEnabled ∧
    (r.expiredTime = 0 ∨ now ≤ r.expiredTime)

instance (id now : ℤ) : DecidablePred (Redeemable id now) := fun _ => instDecidableAnd

def usedSet (userId now : ℤ) : SetClause Redemption :=
  ⟨fun r =>
    { r with redeemedTime := now, status := RedemptionCodeStatusUsed, usedUserId := userId },
    keeps fun _ => rfl⟩

def creditSet (quota : ℤ) : SetClause User :=
  ⟨fun u => { u with quota := u.quota + quota }, keeps fun _ => rfl⟩

/-- The transaction of `Redeem`; `fails` says that one of its statements, or the commit, fails. -/
def redeemTx (key : String) (userId now : ℤ) (fails : Bool) : Txn Store RedeemError Redemption := do
  let s ← get
  let redemption ← orThrow (s.redemptions.first? fun r => r.deleted = false ∧ r.key = key)
    .invalidCode
  require (redemption.status = RedemptionCodeStatusEnabled) .alreadyUsed
  require (¬ (redemption.expiredTime ≠ 0 ∧ redemption.expiredTime < now)) .expired
  require (0 < redemption.quota) .invalidQuota
  require (s.redemptions.affected (Redeemable redemption.id now) = 1) .alreadyUsed
  modify fun s =>
    { s with
      redemptions := s.redemptions.update (Redeemable redemption.id now) (usedSet userId now) }
  require (s.users.affected (·.id = userId) ≠ 0) .invalidUser
  modify fun s => { s with users := s.users.update (·.id = userId) (creditSet redemption.quota) }
  require (fails = false) .database
  pure redemption

/-- `Redeem`, with the row it credits. -/
def redeem (key : String) (userId now : ℤ) (fails : Bool) (s : Store) :
    Except RedeemError Redemption × Store :=
  if key = "" then (.error .noCode, s)
  else if userId = 0 then (.error .invalidUser, s)
  else transaction (redeemTx key userId now fails) s

/-! ### Administration -/

/-- The body of an edit, and its parameter `status_only`. -/
structure UpdateRequest where
  id : ℤ
  statusOnly : Bool
  name : String
  status : ℤ
  quota : ℤ
  expiredTime : ℤ
  deriving DecidableEq

/-- `GetRedemptionById`. -/
def getRedemptionById (id : ℤ) (s : Store) : Option Redemption :=
  if id = 0 then none else s.redemptions.first? fun r => r.deleted = false ∧ r.id = id

/-- The first half of `UpdateRedemption`: the row as it is, with the fields of the request. -/
def cleanRedemption (req : UpdateRequest) (now : ℤ) (s : Store) : Option Redemption :=
  match getRedemptionById req.id s with
  | none => none
  | some clean =>
      if req.statusOnly then some { clean with status := req.status }
      else if req.quota ≤ 0 ∨ (req.expiredTime ≠ 0 ∧ req.expiredTime < now) then none
      else
        some { clean with name := req.name, quota := req.quota, expiredTime := req.expiredTime }

def updateSet (clean : Redemption) : SetClause Redemption :=
  ⟨fun r =>
      { r with
        name := clean.name
        status := clean.status
        quota := clean.quota
        redeemedTime := clean.redeemedTime
        expiredTime := clean.expiredTime },
    keeps fun _ => rfl⟩

/-- `Update`. -/
def update (clean : Redemption) (s : Store) : Store :=
  { s with
    redemptions := s.redemptions.update (fun r => r.id = clean.id ∧ r.deleted = false)
      (updateSet clean) }

def deletedSet : SetClause Redemption := ⟨fun r => { r with deleted := true }, keeps fun _ => rfl⟩

/-- `DeleteRedemptionById`. -/
def deleteRedemptionById (id : ℤ) (s : Store) : Store :=
  if id = 0 then s
  else
    { s with
      redemptions := s.redemptions.update (fun r => r.id = id ∧ r.deleted = false) deletedSet }

/-- The rows that `DeleteInvalidRedemptions` deletes. -/
def Invalid (now : ℤ) (r : Redemption) : Prop :=
  r.deleted = false ∧
    (r.status = RedemptionCodeStatusUsed ∨ r.status = RedemptionCodeStatusDisabled ∨
    (r.status = RedemptionCodeStatusEnabled ∧ r.expiredTime ≠ 0 ∧ r.expiredTime < now))

instance (now : ℤ) : DecidablePred (Invalid now) := fun _ => instDecidableAnd

/-- `DeleteInvalidRedemptions`. -/
def deleteInvalidRedemptions (now : ℤ) (s : Store) : Store :=
  { s with redemptions := s.redemptions.update (Invalid now) deletedSet }

/-! ### The system -/

/-- A wallet that was credited for a code. -/
structure Credit where
  code : ℤ
  user : ℤ
  quota : ℤ
  deriving DecidableEq

/-- The store, the edits that have read their row, and the credits so far. -/
structure World where
  store : Store
  edits : List Redemption
  credits : List Credit

/-- What happens next; `writeEdit i` is the second statement of the edit at position `i`. -/
inductive Op where
  | redeem (key : String) (userId now : ℤ) (fails : Bool)
  | readEdit (req : UpdateRequest) (now : ℤ)
  | writeEdit (i : ℕ)
  | delete (id : ℤ)
  | deleteInvalid (now : ℤ)
  deriving DecidableEq

def step (w : World) : Op → World
  | .redeem key userId now fails =>
      match redeem key userId now fails w.store with
      | (.ok r, s) => { w with store := s, credits := w.credits ++ [⟨r.id, userId, r.quota⟩] }
      | (.error _, s) => { w with store := s }
  | .readEdit req now => { w with edits := w.edits ++ (cleanRedemption req now w.store).toList }
  | .writeEdit i =>
      match w.edits[i]? with
      | none => w
      | some clean => { w with store := update clean w.store, edits := w.edits.eraseIdx i }
  | .delete id => { w with store := deleteRedemptionById id w.store }
  | .deleteInvalid now => { w with store := deleteInvalidRedemptions now w.store }

end MaxApi.Redemptions
