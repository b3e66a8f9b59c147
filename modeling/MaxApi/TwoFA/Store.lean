import MaxApi.Lib.System
import MaxApi.Lib.Table
import MaxApi.Lib.Text

/-! # Two-factor authentication

A request reads the two-factor row of its user, checks the submitted code against that copy and
writes the copy back as a whole, without a lock.  Enabling, disabling and the use of a backup code
are transactions under the lock of the user.  Between any two statements of a request the
statements of others may run, and the clock may move.

The library that compares one-time codes and the one that compares password hashes are parameters
(`Verifiers`). -/

namespace MaxApi.TwoFactor

open Relational

def BackupCodeLength : ℕ := 8
def MaxFailAttempts : ℕ := 5
/-- In seconds. -/
def LockoutDuration : ℤ := 300

/-! ### Formats of codes -/

/-- `strings.ReplaceAll(s, c, "")`. -/
def without (c : Char) (s : String) : List Char := s.toList.filter (· ≠ c)

/-- `len` of a string. -/
def byteLen (l : List Char) : ℕ := (l.map Char.utf8Size).sum

/-- `strconv.Atoi` succeeds, on a text of six bytes. -/
def isNumber (l : List Char) : Bool :=
  let digits := match l with
    | c :: rest => if c = '+' ∨ c = '-' then rest else l
    | [] => []
  !digits.isEmpty && digits.all Char.isDigit

/-- `ValidateNumericCode`. -/
def validateNumericCode (code : String) : Option String :=
  let clean := without ' ' code
  if byteLen clean ≠ 6 then none
  else if isNumber clean then some (String.ofList clean) else none

/-- `unicode.ToUpper`, where the result is an ASCII letter. -/
def upperRune (c : Char) : Char :=
  if c.val = 0x131 then 'I' else if c.val = 0x17F then 'S' else c.toUpper

def cleanBackupCode (code : String) : List Char := (without '-' code).map upperRune

/-- `ValidateBackupCode` of the package `common`: the format of a backup code. -/
def isBackupCode (code : String) : Bool :=
  let clean := cleanBackupCode code
  decide (byteLen clean = BackupCodeLength) &&
    clean.all fun c => decide (('A' ≤ c ∧ c ≤ 'Z') ∨ ('0' ≤ c ∧ c ≤ '9'))

/-- `NormalizeBackupCode`. -/
def normalizeBackupCode (code : String) : String :=
  let clean := cleanBackupCode code
  if byteLen clean = BackupCodeLength then
    String.ofList (clean.take 4 ++ '-' :: clean.drop 4)
  else code

/-- What the libraries for one-time codes and for password hashes answer. -/
structure Verifiers where
  /-- `totp.Validate(code, secret)` at a time. -/
  totp : String → String → ℤ → Bool
  /-- `ValidatePasswordAndHash(code, hash)`. -/
  passwordAndHash : String → String → Bool

/-- `ValidateTOTPCode`. -/
def validateTOTPCode (v : Verifiers) (secret code : String) (now : ℤ) : Bool :=
  let clean := without ' ' code
  decide (byteLen clean = 6) && v.totp (String.ofList clean) secret now

/-! ### Rows -/

/-- A row of `two_fas`. -/
structure TwoFA where
  id : ℤ
  userId : ℤ
  secret : String
  isEnabled : Bool
  failedAttempts : ℕ
  lockedUntil : Option ℤ
  lastUsedAt : Option ℤ
  deriving DecidableEq

instance : Keyed TwoFA where
  Key := ℤ × ℤ
  key t := (t.id, t.userId)
  Clash a b := a.1 = b.1 ∨ a.2 = b.2
  clashDec _ _ := instDecidableOr
  clash_refl := eitherEq_refl
  clash_symm := eitherEq_symm

theorem eq_of_userId {t : Table TwoFA} {a b : TwoFA} (ha : a ∈ t) (hb : b ∈ t)
    (h : a.userId = b.userId) : a = b := Table.eq_of_clash ha hb (.inr h)

theorem eq_of_id {t : Table TwoFA} {a b : TwoFA} (ha : a ∈ t) (hb : b ∈ t) (h : a.id = b.id) :
    a = b := Table.eq_of_clash ha hb (.inl h)

namespace TwoFA

def isLocked (t : TwoFA) (now : ℤ) : Bool :=
  match t.lockedUntil with
  | none => false
  | some until_ => decide (now < until_)

/-- `IncrementFailedAttempts`, before it writes the row. -/
def incremented (t : TwoFA) (now : ℤ) : TwoFA :=
  let t := { t with failedAttempts := t.failedAttempts + 1 }
  if MaxFailAttempts ≤ t.failedAttempts then
    { t with lockedUntil := some (now + LockoutDuration) }
  else t

/-- The row after a valid code. -/
def validated (t : TwoFA) (now : ℤ) : TwoFA :=
  { t with failedAttempts := 0, lockedUntil := none, lastUsedAt := some now }

@[simp] theorem incremented_id (t : TwoFA) (now : ℤ) : (t.incremented now).id = t.id := by
  unfold incremented
  dsimp only
  split_ifs <;> rfl

@[simp] theorem incremented_userId (t : TwoFA) (now : ℤ) :
    (t.incremented now).userId = t.userId := by
  unfold incremented
  dsimp only
  split_ifs <;> rfl

@[simp] theorem incremented_isEnabled (t : TwoFA) (now : ℤ) :
    (t.incremented now).isEnabled = t.isEnabled := by
  unfold incremented
  dsimp only
  split_ifs <;> rfl

@[simp] theorem incremented_failedAttempts (t : TwoFA) (now : ℤ) :
    (t.incremented now).failedAttempts = t.failedAttempts + 1 := by
  unfold incremented
  dsimp only
  split_ifs <;> rfl

theorem incremented_lockedUntil {t : TwoFA} (h : MaxFailAttempts ≤ t.failedAttempts + 1) (now : ℤ) :
    (t.incremented now).lockedUntil = some (now + LockoutDuration) := by
  unfold incremented
  dsimp only
  rw [if_pos h]

/-- A row that is not locked is not locked later. -/
theorem isLocked_mono {t : TwoFA} {now later : ℤ} (hle : now ≤ later) (h : t.isLocked now = false) :
    t.isLocked later = false := by
  unfold isLocked at h ⊢
  cases hl : t.lockedUntil with
  | none => rfl
  | some u =>
      rw [hl] at h
      have hu := of_decide_eq_false h
      exact decide_eq_false (by omega)

end TwoFA

/-- A row of `two_fa_backup_codes`. -/
structure TwoFABackupCode where
  id : ℤ
  userId : ℤ
  codeHash : String
  isUsed : Bool
  usedAt : Option ℤ
  deriving DecidableEq

instance : Keyed TwoFABackupCode where
  Key := ℤ
  key c := c.id
  Clash a b := a = b
  clashDec _ _ := inferInstance
  clash_refl _ := rfl
  clash_symm h := h.symm

/-- The backup codes, with the sequence that numbers them. -/
structure BackupCodes where
  rows : Table TwoFABackupCode
  nextId : ℤ
  lt : ∀ c ∈ rows, c.id < nextId

namespace BackupCodes

def update (b : BackupCodes) (p : TwoFABackupCode → Prop) [DecidablePred p]
    (m : SetClause TwoFABackupCode) : BackupCodes where
  rows := b.rows.update p m
  nextId := b.nextId
  lt := by
    intro c hc
    obtain ⟨a, ha, rfl⟩ := Table.mem_update.mp hc
    have hlt := b.lt a ha
    split_ifs
    · rw [show (m.set a).id = a.id from m.keeps a]
      exact hlt
    · exact hlt

def delete (b : BackupCodes) (p : TwoFABackupCode → Prop) [DecidablePred p] : BackupCodes where
  rows := b.rows.delete p
  nextId := b.nextId
  lt := fun c hc => b.lt c (Table.mem_delete.mp hc).1

def create (b : BackupCodes) (userId : ℤ) (codeHash : String) : BackupCodes where
  rows := b.rows.insert ⟨b.nextId, userId, codeHash, false, none⟩
  nextId := b.nextId + 1
  lt := by
    intro c hc
    rcases Table.mem_insert hc with hc | ⟨rfl, _⟩
    · have := b.lt c hc
      omega
    · exact Int.lt_succ b.nextId

end BackupCodes

/-- The identifiers of the users, and the two tables. -/
structure Store where
  users : List ℤ
  twoFAs : Table TwoFA
  backupCodes : BackupCodes

/-! ### Transactions -/

/-- `DisableTwoFAAndBumpSessionGeneration`. -/
def disableTwoFAAndBumpSessionGeneration (userId : ℤ) (s : Store) : Option Store :=
  if userId ∉ s.users then none
  else
    match s.twoFAs.first? fun t => t.userId = userId ∧ t.isEnabled = true with
    | none => none
    | some t =>
        some
          { s with
            backupCodes := s.backupCodes.delete (·.userId = userId)
            twoFAs := s.twoFAs.delete (·.id = t.id) }

def enabledSet : SetClause TwoFA :=
  ⟨fun t => { t with isEnabled := true, failedAttempts := 0, lockedUntil := none },
    keeps fun _ => rfl⟩

/-- The guard of the update that enables. -/
def NotEnabled (id userId : ℤ) (t : TwoFA) : Prop :=
  t.id = id ∧ t.userId = userId ∧ t.isEnabled = false

instance (id userId : ℤ) : DecidablePred (NotEnabled id userId) := fun _ => instDecidableAnd

/-- `EnableAndBumpSessionGeneration` of a row that was read before. -/
def enableAndBumpSessionGeneration (id userId : ℤ) (s : Store) : Option Store :=
  if id = 0 ∨ userId ≤ 0 ∨ userId ∉ s.users then none
  else if s.twoFAs.affected (NotEnabled id userId) ≠ 1 then none
  else some { s with twoFAs := s.twoFAs.update (NotEnabled id userId) enabledSet }

/-- `replaceBackupCodeHashesTx`. -/
def replaceBackupCodeHashesTx (userId : ℤ) (hashes : List String) (b : BackupCodes) : BackupCodes :=
  hashes.foldl (fun b hash => b.create userId hash) (b.delete (·.userId = userId))

/-- `ReplaceBackupCodesAndBumpSessionGeneration`. -/
def replaceBackupCodesAndBumpSessionGeneration (userId : ℤ) (hashes : List String) (s : Store) :
    Option Store :=
  if userId ∉ s.users then none
  else if s.twoFAs.affected (fun t => t.userId = userId ∧ t.isEnabled = true) ≠ 1 then none
  else some { s with backupCodes := replaceBackupCodeHashesTx userId hashes s.backupCodes }

def usedSet (now : ℤ) : SetClause TwoFABackupCode :=
  ⟨fun c => { c with isUsed := true, usedAt := some now }, keeps fun _ => rfl⟩

/-- The guard of the update that uses a backup code. -/
def Unused (id userId : ℤ) (hash : String) (c : TwoFABackupCode) : Prop :=
  c.id = id ∧ c.userId = userId ∧ c.codeHash = hash ∧ c.isUsed = false

instance (id userId : ℤ) (hash : String) : DecidablePred (Unused id userId hash) :=
  fun _ => instDecidableAnd

/-! ### Requests -/

inductive Kind where
  | verify2FALogin
  | disable2FA
  | regenerateBackupCodes
  deriving DecidableEq

/-- What a request does once the row is written. -/
inductive After where
  | tryBackup
  | reject
  | accept
  deriving DecidableEq

/-- Where a request stands, with its copy of the row.  A copy that is to be written back comes with
the row as it was read, to which the code does not look again. -/
inductive Phase where
  | totp (t : TwoFA)
  | backup (t : TwoFA)
  | spending (t : TwoFA) (codeId : ℤ) (hash : String)
  | saving (read t : TwoFA) (after : After)
  | inserting (t : TwoFA) (after : After)
  | accepted
  | done
  deriving DecidableEq

structure Request where
  kind : Kind
  userId : ℤ
  code : String
  phase : Phase
  deriving DecidableEq

/-- A code that was compared. -/
structure Check where
  user : ℤ
  right : Bool
  time : ℤ
  deriving DecidableEq

def resume (t : TwoFA) : After → Phase
  | .tryBackup => .backup t
  | .reject => .done
  | .accept => .accepted

/-- Only the codes of `RegenerateBackupCodes` are not tried as backup codes. -/
def afterTOTP : Kind → After
  | .regenerateBackupCodes => .reject
  | _ => .tryBackup

/-- `ValidateTOTPAndUpdateUsage`, before it writes the row. -/
def validateTOTP (v : Verifiers) (q : Request) (t : TwoFA) (now : ℤ) : Phase × List Check :=
  match validateNumericCode q.code with
  | none => (resume t (afterTOTP q.kind), [])
  | some clean =>
      if t.isLocked now then (resume t (afterTOTP q.kind), [])
      else if validateTOTPCode v t.secret clean now then
        (.saving t (t.validated now) .accept, [⟨t.userId, true, now⟩])
      else (.saving t (t.incremented now) (afterTOTP q.kind), [⟨t.userId, false, now⟩])

/-- `ValidateBackupCodeAndUpdateUsage`, up to the transaction that uses the code, or the write. -/
def validateBackupCode (v : Verifiers) (q : Request) (t : TwoFA) (now : ℤ) (b : BackupCodes) :
    Phase × List Check :=
  if t.isLocked now then (.done, [])
  else if isBackupCode q.code = false then (.done, [])
  else
    match b.rows.first? fun c => c.userId = t.userId ∧ c.isUsed = false ∧
        v.passwordAndHash (normalizeBackupCode q.code) c.codeHash = true with
    | some c => (.spending t c.id c.codeHash, [])
    | none => (.saving t (t.incremented now) .reject, [⟨t.userId, false, now⟩])

/-- The codes are compared in memory, and the backup codes are read. -/
def checkCode (v : Verifiers) (q : Request) (now : ℤ) (b : BackupCodes) : Phase × List Check :=
  match q.phase with
  | .totp t => validateTOTP v q t now
  | .backup t => validateBackupCode v q t now b
  | phase => (phase, [])

/-- `Save` writes all columns. -/
def savedSet (t : TwoFA) : SetClause TwoFA :=
  ⟨fun r => { t with id := r.id, userId := r.userId }, keeps fun _ => rfl⟩

/-! ### The system -/

/-- The store, the clock, the requests, and what has happened so far: the codes that were compared,
the latest first, the backup codes that were accepted, and the users for which a disable has
committed. -/
structure World where
  store : Store
  now : ℤ
  requests : List Request
  checks : List Check
  spent : List ℤ
  disabled : List ℤ

/-- What happens next; a position stands for a request, and `fails` for a statement that fails. -/
inductive Op where
  | tick (seconds : ℕ)
  | read (kind : Kind) (userId : ℤ) (code : String)
  | check (i : ℕ)
  | spend (i : ℕ) (fails : Bool)
  | save (i : ℕ) (fails : Bool)
  | insert (i : ℕ) (fails : Bool)
  | finish (i : ℕ) (hashes : List String) (fails : Bool)
  | disable (userId : ℤ)
  | enable (id userId : ℤ)
  deriving DecidableEq

namespace World

variable (w : World)

/-- Request `i`, which is `q`, goes on to `phase`. -/
def advance (i : ℕ) (q : Request) (phase : Phase) : World :=
  { w with requests := w.requests.set i { q with phase := phase } }

/-- `GetTwoFAByUserId`, and the check that the row is enabled. -/
def readRow (kind : Kind) (userId : ℤ) (code : String) : World :=
  if userId = 0 then w
  else
    match w.store.twoFAs.first? (·.userId = userId) with
    | none => w
    | some t =>
        if t.isEnabled then
          { w with requests := w.requests ++ [⟨kind, userId, code, .totp t⟩] }
        else w

/-- The transaction of `ValidateBackupCode` in the model. -/
def spendCode (i : ℕ) (q : Request) (t : TwoFA) (codeId : ℤ) (hash : String) (fails : Bool) :
    World :=
  if fails ∨ t.userId ∉ w.store.users then w.advance i q .done
  else if w.store.backupCodes.rows.affected (Unused codeId t.userId hash) = 1 then
    { w.advance i q (.saving t (t.validated w.now) .accept) with
      store :=
        { w.store with
          backupCodes :=
            w.store.backupCodes.update (Unused codeId t.userId hash) (usedSet w.now) }
      checks := ⟨t.userId, true, w.now⟩ :: w.checks
      spent := codeId :: w.spent }
  else
    { w.advance i q (.saving t (t.incremented w.now) .reject) with
      checks := ⟨t.userId, false, w.now⟩ :: w.checks }

/-- The update of `Save`; where it finds no row, `Save` goes on to insert one. -/
def saveRow (i : ℕ) (q : Request) (t : TwoFA) (after : After) (fails : Bool) : World :=
  if fails then w.advance i q (resume t after)
  else if w.store.twoFAs.affected (·.id = t.id) = 0 then w.advance i q (.inserting t after)
  else
    { w.advance i q (resume t after) with
      store := { w.store with twoFAs := w.store.twoFAs.update (·.id = t.id) (savedSet t) } }

/-- The insert of `Save`, which updates the row if there is one again. -/
def insertRow (i : ℕ) (q : Request) (t : TwoFA) (after : After) (fails : Bool) : World :=
  if fails then w.advance i q (resume t after)
  else
    { w.advance i q (resume t after) with
      store :=
        { w.store with
          twoFAs :=
            if w.store.twoFAs.affected (·.id = t.id) = 0 then w.store.twoFAs.insert t
            else w.store.twoFAs.update (·.id = t.id) (savedSet t) } }

/-- A disable, if it commits. -/
def disable (userId : ℤ) : World :=
  match disableTwoFAAndBumpSessionGeneration userId w.store with
  | none => w
  | some s => { w with store := s, disabled := userId :: w.disabled }

/-- What an accepted code is good for. -/
def finishRequest (i : ℕ) (q : Request) (hashes : List String) (fails : Bool) : World :=
  let w := w.advance i q .done
  if fails then w
  else
    match q.kind with
    | .verify2FALogin => w
    | .disable2FA => w.disable q.userId
    | .regenerateBackupCodes =>
        { w with
          store := (replaceBackupCodesAndBumpSessionGeneration q.userId hashes w.store).getD
            w.store }

end World

/-- A step of request `q` at position `i`. -/
def requestStep (v : Verifiers) (w : World) (i : ℕ) (q : Request) (op : Op) : World :=
  match op, q.phase with
  | .check _, _ =>
      let r := checkCode v q w.now w.store.backupCodes
      { w.advance i q r.1 with checks := r.2 ++ w.checks }
  | .spend _ fails, .spending t codeId hash => w.spendCode i q t codeId hash fails
  | .save _ fails, .saving _ t after => w.saveRow i q t after fails
  | .insert _ fails, .inserting t after => w.insertRow i q t after fails
  | .finish _ hashes fails, .accepted => w.finishRequest i q hashes fails
  | _, _ => w

def step (v : Verifiers) (w : World) (op : Op) : World :=
  match op with
  | .tick seconds => { w with now := w.now + seconds }
  | .read kind userId code => w.readRow kind userId code
  | .disable userId => w.disable userId
  | .enable id userId =>
      { w with store := (enableAndBumpSessionGeneration id userId w.store).getD w.store }
  | .check i | .spend i _ | .save i _ | .insert i _ | .finish i _ _ =>
      match w.requests[i]? with
      | none => w
      | some q => requestStep v w i q op

/-- The state before the first request. -/
def start (s : Store) (now : ℤ) : World := ⟨s, now, [], [], [], []⟩

end MaxApi.TwoFactor
