import MaxApi.TwoFA.Store

/-! # Two-factor authentication: the lockout law

A backup code is accepted at most once in every run.  The rest of the law depends on how requests of
one user meet: a copy of the row that is older than the row counts from an older number of failures,
is compared although the stored row is locked, and is written back over a newer row or in place of
one that was deleted.  The law holds in the runs in which no request does so (`Exclusive`,
`lockout_of_exclusive`), and each of its three parts fails in some other run (`lockout_broken`). -/

namespace MaxApi.TwoFactor

open Relational

/-! ### The law -/

/-- The wrong codes of a user since the last right one, the latest first. -/
def wrongs (user : ℤ) (checks : List Check) : List Check :=
  (checks.filter (·.user = user)).takeWhile (!·.right)

/-- Once the permitted number of wrong codes is reached, no code of the user is compared until the
lock that follows the last of them is over. -/
def LockedOut : List Check → Prop
  | [] => True
  | c :: rest =>
      (MaxFailAttempts ≤ (wrongs c.user rest).length →
        ∀ d ∈ (wrongs c.user rest).head?, d.time + LockoutDuration ≤ c.time) ∧ LockedOut rest

/-- A code that the step accepts is one of a user whose stored row is not locked. -/
def AcceptsUnlocked (v : Verifiers) (w : World) (op : Op) : Prop :=
  ∀ c, (step v w op).checks = c :: w.checks → c.right = true →
    ∀ r ∈ w.store.twoFAs, r.userId = c.user → r.isLocked w.now = false

/-- A user for whom a disable has committed has no row. -/
def StaysDisabled (w : World) : Prop :=
  ∀ u ∈ w.disabled, ∀ r ∈ w.store.twoFAs, r.userId ≠ u

/-! ### The condition -/

/-- The row as it was read and the row to be written, from the comparison of a code until the
write. -/
def Phase.busy : Phase → Option (TwoFA × TwoFA)
  | .spending t _ _ => some (t, t)
  | .saving read t _ => some (read, t)
  | .inserting t _ => some (t, t)
  | _ => none

/-- The copy of the row against which a request compares its code next. -/
def Request.tries (q : Request) (now : ℤ) : Option TwoFA :=
  match q.phase with
  | .totp t => if t.isLocked now = false ∧ (validateNumericCode q.code).isSome then some t else none
  | .backup t => if t.isLocked now = false ∧ isBackupCode q.code = true then some t else none
  | _ => none

/-- No other request of the user is between a comparison and its write. -/
def Alone (w : World) (i : ℕ) (user : ℤ) : Prop :=
  ∀ j q p, w.requests[j]? = some q → j ≠ i → q.phase.busy = some p → p.1.userId ≠ user

/-- A code is compared with the row as it is stored and not beside another code of the user, and the
write that follows succeeds and finds the row as it was read. -/
def Exclusive (w : World) : Op → Prop
  | .check i => ∀ q t, w.requests[i]? = some q → q.tries w.now = some t →
      t ∈ w.store.twoFAs ∧ Alone w i t.userId
  | .save i fails => ∀ q read t after, w.requests[i]? = some q → q.phase = .saving read t after →
      fails = false ∧ read ∈ w.store.twoFAs
  | _ => True

/-- The row as a request that is about to write it back has read it. -/
def Phase.saves : Phase → Option TwoFA
  | .saving read _ _ => some read
  | _ => none

theorem Phase.saves_eq_some {phase : Phase} {read : TwoFA} :
    phase.saves = some read ↔ ∃ t after, phase = .saving read t after := by
  constructor
  · intro h
    cases phase with
    | saving r t after =>
        obtain rfl : r = read := Option.some.inj h
        exact ⟨t, after, rfl⟩
    | totp _ | backup _ | spending _ _ _ | inserting _ _ | accepted | done => cases h
  · rintro ⟨t, after, rfl⟩
    rfl

theorem alone_iff {w : World} {i : ℕ} {user : ℤ} :
    (∀ j < w.requests.length, ∀ q ∈ w.requests[j]?, j ≠ i → ∀ p ∈ q.phase.busy,
      p.1.userId ≠ user) ↔ Alone w i user := by
  constructor
  · intro h j q p hq hne hp
    obtain ⟨hlt, _⟩ := List.getElem?_eq_some_iff.mp hq
    exact h j hlt q hq hne p hp
  · intro h j _ q hq hne p hp
    exact h j q p hq hne hp

instance (w : World) (i : ℕ) (user : ℤ) : Decidable (Alone w i user) :=
  decidable_of_iff _ alone_iff

theorem exclusive_check_iff {w : World} {i : ℕ} :
    (∀ q ∈ w.requests[i]?, ∀ t ∈ q.tries w.now, t ∈ w.store.twoFAs.rows ∧ Alone w i t.userId) ↔
      Exclusive w (.check i) := by
  constructor
  · intro h q t hq ht
    exact h q hq t ht
  · intro h q hq t ht
    exact h q t hq ht

theorem exclusive_save_iff {w : World} {i : ℕ} {fails : Bool} :
    (∀ q ∈ w.requests[i]?, ∀ read ∈ q.phase.saves, fails = false ∧ read ∈ w.store.twoFAs.rows) ↔
      Exclusive w (.save i fails) := by
  constructor
  · intro h q read t after hq hphase
    exact h q hq read (Phase.saves_eq_some.mpr ⟨t, after, hphase⟩)
  · intro h q hq read hread
    obtain ⟨t, after, hphase⟩ := Phase.saves_eq_some.mp hread
    exact h q read t after hq hphase

instance (w : World) : ∀ op, Decidable (Exclusive w op)
  | .check _ => decidable_of_iff _ exclusive_check_iff
  | .save _ _ => decidable_of_iff _ exclusive_save_iff
  | .tick _ | .read _ _ _ | .spend _ _ | .insert _ _ | .finish _ _ _ | .disable _ | .enable _ _ =>
      .isTrue trivial

/-! ### Counting -/

/-- The row counts the wrong codes and is locked for as long as the last of them requires. -/
def Counted (ws : List Check) (t : TwoFA) : Prop :=
  ws.length ≤ t.failedAttempts ∧
    (MaxFailAttempts ≤ ws.length →
      ∀ d ∈ ws.head?, t.lockedUntil = some (d.time + LockoutDuration))

theorem wrongs_other {c : Check} {user : ℤ} (h : c.user ≠ user) (checks : List Check) :
    wrongs user (c :: checks) = wrongs user checks := by
  unfold wrongs
  rw [List.filter_cons_of_neg (by simpa using h)]

theorem wrongs_right {c : Check} (h : c.right = true) (checks : List Check) :
    wrongs c.user (c :: checks) = [] := by
  unfold wrongs
  rw [List.filter_cons_of_pos (by simp), List.takeWhile_cons_of_neg (by simp [h])]

theorem wrongs_wrong {c : Check} (h : c.right = false) (checks : List Check) :
    wrongs c.user (c :: checks) = c :: wrongs c.user checks := by
  unfold wrongs
  rw [List.filter_cons_of_pos (by simp), List.takeWhile_cons_of_pos (by simp [h])]

theorem counted_nil (t : TwoFA) : Counted [] t := ⟨Nat.zero_le _, nofun⟩

/-- A wrong code and the increment. -/
theorem counted_incremented {ws : List Check} {t : TwoFA} (h : Counted ws t) (c : Check) :
    Counted (c :: ws) (t.incremented c.time) := by
  have hlen := h.1
  constructor
  · rw [List.length_cons, TwoFA.incremented_failedAttempts]
    omega
  · intro hmax d hd
    rw [List.length_cons] at hmax
    rw [List.head?_cons, Option.mem_some_iff] at hd
    rw [TwoFA.incremented_lockedUntil (by omega), hd]

/-- A code that is compared with an unlocked copy that counts comes after the lock. -/
theorem lockedOut_cons {checks : List Check} {t : TwoFA} {c : Check} (h : LockedOut checks)
    (hcounted : Counted (wrongs c.user checks) t) (hunlocked : t.isLocked c.time = false) :
    LockedOut (c :: checks) := by
  refine ⟨fun hmax d hd => ?_, h⟩
  have hlock := hcounted.2 hmax d hd
  unfold TwoFA.isLocked at hunlocked
  rw [hlock] at hunlocked
  have := of_decide_eq_false hunlocked
  omega

/-! ### What a comparison does -/

/-- The comparison finds the code right or wrong and the row is to be written. -/
inductive Compared (t : TwoFA) (now : ℤ) : Check → TwoFA → Prop
  | right : Compared t now ⟨t.userId, true, now⟩ (t.validated now)
  | wrong : Compared t now ⟨t.userId, false, now⟩ (t.incremented now)

namespace Compared

variable {t t' : TwoFA} {now : ℤ} {c : Check}

theorem user (h : Compared t now c t') : c.user = t.userId := by cases h <;> rfl

theorem time (h : Compared t now c t') : c.time = now := by cases h <;> rfl

theorem id (h : Compared t now c t') : t'.id = t.id := by
  cases h with
  | right => rfl
  | wrong => exact t.incremented_id now

theorem userId (h : Compared t now c t') : t'.userId = t.userId := by
  cases h with
  | right => rfl
  | wrong => exact t.incremented_userId now

theorem isEnabled (h : Compared t now c t') : t'.isEnabled = t.isEnabled := by
  cases h with
  | right => rfl
  | wrong => exact t.incremented_isEnabled now

theorem counted (h : Compared t now c t') {checks : List Check}
    (hcounted : Counted (wrongs t.userId checks) t) :
    Counted (wrongs t.userId (c :: checks)) t' := by
  cases h with
  | right =>
      rw [wrongs_right (c := ⟨t.userId, true, now⟩) rfl]
      exact counted_nil _
  | wrong =>
      rw [wrongs_wrong (c := ⟨t.userId, false, now⟩) rfl]
      exact counted_incremented hcounted ⟨t.userId, false, now⟩

end Compared

/-- What checking the code of a request comes to. -/
inductive Checked (q : Request) (now : ℤ) : Phase × List Check → Prop
  | compared {t t' : TwoFA} {c : Check} (after : After) (h : q.tries now = some t)
      (hc : Compared t now c t') : Checked q now (.saving t t' after, [c])
  | matched {t : TwoFA} (codeId : ℤ) (hash : String) (h : q.tries now = some t) :
      Checked q now (.spending t codeId hash, [])
  | skipped {t : TwoFA} (after : After) (h : q.phase = .totp t) :
      Checked q now (resume t after, [])
  | ended {t : TwoFA} (h : q.phase = .backup t) : Checked q now (.done, [])
  | idle {phase : Phase} (h : q.phase = phase) : Checked q now (phase, [])

theorem checkCode_checked (v : Verifiers) (q : Request) (now : ℤ) (b : BackupCodes) :
    Checked q now (checkCode v q now b) := by
  unfold checkCode
  cases hphase : q.phase with
  | totp t =>
      dsimp only
      unfold validateTOTP
      cases hcode : validateNumericCode q.code with
      | none => exact .skipped _ hphase
      | some clean =>
          dsimp only
          cases hlocked : t.isLocked now with
          | true => exact .skipped _ hphase
          | false =>
              have htries : q.tries now = some t := by
                unfold Request.tries
                rw [hphase]
                dsimp only
                rw [if_pos ⟨hlocked, by rw [hcode]; rfl⟩]
              rw [if_neg (by decide)]
              split_ifs
              · exact .compared _ htries .right
              · exact .compared _ htries .wrong
  | backup t =>
      dsimp only
      unfold validateBackupCode
      cases hlocked : t.isLocked now with
      | true => exact .ended hphase
      | false =>
          rw [if_neg (by decide)]
          cases hcode : isBackupCode q.code with
          | false => exact .ended hphase
          | true =>
              have htries : q.tries now = some t := by
                unfold Request.tries
                rw [hphase]
                dsimp only
                rw [if_pos ⟨hlocked, hcode⟩]
              rw [if_neg (by decide)]
              split
              · exact .matched _ _ htries
              · exact .compared _ htries .wrong
  | spending t codeId hash => exact .idle hphase
  | saving read t after => exact .idle hphase
  | inserting t after => exact .idle hphase
  | accepted => exact .idle hphase
  | done => exact .idle hphase

/-- A code is tried against an unlocked copy. -/
theorem tries_cases {q : Request} {now : ℤ} {t : TwoFA} (h : q.tries now = some t) :
    (q.phase = .totp t ∨ q.phase = .backup t) ∧ t.isLocked now = false := by
  unfold Request.tries at h
  cases hphase : q.phase with
  | totp a =>
      rw [hphase] at h
      dsimp only at h
      split_ifs at h with hif
      cases h
      exact ⟨Or.inl rfl, hif.1⟩
  | backup a =>
      rw [hphase] at h
      dsimp only at h
      split_ifs at h with hif
      cases h
      exact ⟨Or.inr rfl, hif.1⟩
  | spending _ _ _ | saving _ _ _ | inserting _ _ | accepted | done =>
      rw [hphase] at h
      cases h

/-! ### The invariant -/

/-- A request between a comparison and its write holds the only row of its user, as it was read, and
the copy that it will write counts. -/
structure InFlight (rows : Table TwoFA) (checks : List Check) (read t : TwoFA) : Prop where
  id_eq : t.id = read.id
  userId_eq : t.userId = read.userId
  enabled : read.isEnabled = true
  stays : t.isEnabled = true
  row : ∀ r ∈ rows, r.userId = read.userId → r = read
  counted : Counted (wrongs read.userId checks) t

/-- What holds of the copies of a request. -/
def Phase.Fine (rows : Table TwoFA) (checks : List Check) (now : ℤ) : Phase → Prop
  | .totp t => t.isEnabled = true
  | .backup t => t.isEnabled = true
  | .spending t _ _ => InFlight rows checks t t ∧ t.isLocked now = false
  | .saving read t _ => InFlight rows checks read t
  | .inserting _ _ => False
  | .accepted => True
  | .done => True

/-- No request is between a comparison and its write for the user. -/
def Idle (w : World) (user : ℤ) : Prop :=
  ∀ q ∈ w.requests, ∀ p, q.phase.busy = some p → p.1.userId ≠ user

/-- What the condition keeps. -/
structure Sound (w : World) : Prop where
  fine : ∀ q ∈ w.requests, q.phase.Fine w.store.twoFAs w.checks w.now
  alone : ∀ i q p, w.requests[i]? = some q → q.phase.busy = some p → Alone w i p.1.userId
  fresh : ∀ r ∈ w.store.twoFAs, r.isEnabled = false → wrongs r.userId w.checks = []
  counted : ∀ r ∈ w.store.twoFAs, Idle w r.userId → Counted (wrongs r.userId w.checks) r
  gone : StaysDisabled w
  lockedOut : LockedOut w.checks

theorem resume_fine {rows : Table TwoFA} {checks : List Check} {now : ℤ} {t : TwoFA}
    (h : t.isEnabled = true) (after : After) : (resume t after).Fine rows checks now := by
  cases after with
  | tryBackup => exact h
  | reject => trivial
  | accept => trivial

theorem resume_busy (t : TwoFA) (after : After) : (resume t after).busy = none := by
  cases after <;> rfl

theorem start_sound (s : Store) (now : ℤ) : Sound (start s now) where
  fine q hq := absurd hq List.not_mem_nil
  alone i q p hq := by
    rw [show (start s now).requests = [] from rfl, List.getElem?_nil] at hq
    exact absurd hq (Option.some_ne_none q).symm
  fresh r _ _ := rfl
  counted r _ _ := counted_nil r
  gone u hu := absurd hu List.not_mem_nil
  lockedOut := trivial

/-! ### Requests that go on -/

section advance

variable {w : World} {i : ℕ} {q : Request} {phase : Phase}

theorem mem_set {q' : Request} (h : q' ∈ w.requests.set i { q with phase := phase }) :
    q' = { q with phase := phase } ∨ q' ∈ w.requests := by
  rcases List.mem_or_eq_of_mem_set h with h | h
  · exact Or.inr h
  · exact Or.inl h

theorem getElem?_set {q' : Request} {j : ℕ}
    (h : (w.requests.set i { q with phase := phase })[j]? = some q') :
    (j = i ∧ q' = { q with phase := phase }) ∨ (j ≠ i ∧ w.requests[j]? = some q') := by
  rw [List.getElem?_set] at h
  by_cases hj : i = j
  · rw [if_pos hj] at h
    split_ifs at h with hlt
    cases h
    exact Or.inl ⟨hj.symm, rfl⟩
  · rw [if_neg hj] at h
    exact Or.inr ⟨Ne.symm hj, h⟩

theorem mem_set_self (hq : w.requests[i]? = some q) :
    { q with phase := phase } ∈ w.requests.set i { q with phase := phase } := by
  obtain ⟨hlt, _⟩ := List.getElem?_eq_some_iff.mp hq
  exact List.mem_set hlt _

theorem advance_self (hq : w.requests[i]? = some q) : w.advance i q q.phase = w := by
  have hset : w.requests.set i q = w.requests := by
    obtain ⟨hlt, heq⟩ := List.getElem?_eq_some_iff.mp hq
    rw [← heq]
    exact List.set_getElem_self hlt
  show { w with requests := w.requests.set i q } = w
  rw [hset]

/-- Requests that are not at position `i` are still there. -/
theorem mem_set_of_ne {q' : Request} {j : ℕ} (hj : w.requests[j]? = some q') (hne : j ≠ i) :
    q' ∈ w.requests.set i { q with phase := phase } := by
  apply List.mem_of_getElem? (i := j)
  rw [List.getElem?_set_ne (Ne.symm hne)]
  exact hj

end advance

theorem inFlight_of_busy {rows : Table TwoFA} {checks : List Check} {now : ℤ} {phase : Phase}
    {p : TwoFA × TwoFA} (h : phase.Fine rows checks now) (hbusy : phase.busy = some p) :
    InFlight rows checks p.1 p.2 := by
  cases phase with
  | spending t codeId hash =>
      cases hbusy
      exact h.1
  | saving read t after =>
      cases hbusy
      exact h
  | inserting t after => exact h.elim
  | totp t | backup t | accepted | done => cases hbusy

/-- A request that is not between a comparison and its write, and beside which no other one of the
user is. -/
theorem idle_of_alone {w : World} {i : ℕ} {q : Request} {user : ℤ} (hq : w.requests[i]? = some q)
    (hbusy : ∀ p, q.phase.busy = some p → p.1.userId ≠ user) (halone : Alone w i user) :
    Idle w user := by
  intro q' hq' p hp
  obtain ⟨j, hj⟩ := List.mem_iff_getElem?.mp hq'
  by_cases hji : j = i
  · rw [hji, hq] at hj
    cases hj
    exact hbusy p hp
  · exact halone j q' p hj hji hp

/-- The copy against which a code is tried, where that is the stored row. -/
theorem inFlight_of_tries {w : World} {i : ℕ} {q : Request} {t : TwoFA} (h : Sound w)
    (hq : w.requests[i]? = some q) (htries : q.tries w.now = some t) (hmem : t ∈ w.store.twoFAs)
    (halone : Alone w i t.userId) : InFlight w.store.twoFAs w.checks t t := by
  have hfine := h.fine q (List.mem_of_getElem? hq)
  obtain ⟨hphase, _⟩ := tries_cases htries
  have henabled : t.isEnabled = true := by
    cases hphase with
    | inl htotp =>
        rw [htotp] at hfine
        exact hfine
    | inr hbackup =>
        rw [hbackup] at hfine
        exact hfine
  have hidle : Idle w t.userId := by
    apply idle_of_alone hq _ halone
    intro p hp
    cases hphase with
    | inl htotp =>
        rw [htotp] at hp
        cases hp
    | inr hbackup =>
        rw [hbackup] at hp
        cases hp
  exact ⟨rfl, rfl, henabled, henabled, fun r hr hu => eq_of_userId hr hmem hu,
    h.counted t hmem hidle⟩

/-- Requests stay alone where the one that goes on is alone. -/
theorem alone_advance {w : World} {i : ℕ} {q : Request} {phase : Phase} (h : Sound w)
    (halone : ∀ p, phase.busy = some p → Alone w i p.1.userId) (j : ℕ) (q' : Request)
    (p : TwoFA × TwoFA) (hj : (w.advance i q phase).requests[j]? = some q')
    (hp : q'.phase.busy = some p) : Alone (w.advance i q phase) j p.1.userId := by
  intro k q'' p' hk hkj hp'
  cases getElem?_set hj with
  | inl heq =>
      rw [heq.2] at hp
      cases getElem?_set hk with
      | inl heq' => exact absurd (heq'.1.trans heq.1.symm) hkj
      | inr hne' => exact halone p hp k q'' p' hne'.2 hne'.1 hp'
  | inr hne =>
      cases getElem?_set hk with
      | inl heq' =>
          rw [heq'.2] at hp'
          exact (halone p' hp' j q' p hne.2 hne.1 hp).symm
      | inr hne' => exact h.alone j q' p hne.2 hp k q'' p' hne'.2 hkj hp'

/-- A user for whom no request is under way now, where the one that went on was not for the user. -/
theorem idle_of_advance {w : World} {i : ℕ} {q : Request} {phase : Phase} {user : ℤ}
    (hq : w.requests[i]? = some q) (hown : ∀ p, q.phase.busy = some p → p.1.userId ≠ user)
    (hidle : Idle (w.advance i q phase) user) : Idle w user :=
  idle_of_alone hq hown fun _ q' p hj hji => hidle q' (mem_set_of_ne hj hji) p

/-- Request `i` goes on without a comparison and without a write that it owes. -/
theorem sound_advance {w : World} {i : ℕ} {q : Request} {phase : Phase} (h : Sound w)
    (hq : w.requests[i]? = some q) (hfine : phase.Fine w.store.twoFAs w.checks w.now)
    (hfree : phase.busy = none) (howes : ∀ p, q.phase.busy = some p → p.1 = p.2) :
    Sound (w.advance i q phase) where
  fine q' hq' := by
    cases mem_set hq' with
    | inl heq =>
        rw [heq]
        exact hfine
    | inr hmem => exact h.fine q' hmem
  alone := alone_advance h fun p hp => absurd (hfree.symm.trans hp) nofun
  fresh := h.fresh
  counted r hr hidle := by
    by_cases hown : ∃ p, q.phase.busy = some p ∧ p.1.userId = r.userId
    · obtain ⟨p, hp, huser⟩ := hown
      have hflight := inFlight_of_busy (h.fine q (List.mem_of_getElem? hq)) hp
      have hrow := hflight.row r hr huser.symm
      have hcounted := hflight.counted
      rw [← howes p hp, ← hrow] at hcounted
      exact hcounted
    · exact h.counted r hr (idle_of_advance hq (fun p hp huser => hown ⟨p, hp, huser⟩) hidle)
  gone := h.gone
  lockedOut := h.lockedOut

/-- The code of request `i` matches a backup code. -/
theorem sound_matched {w : World} {i : ℕ} {q : Request} {t : TwoFA} {codeId : ℤ} {hash : String}
    (h : Sound w) (hq : w.requests[i]? = some q) (hflight : InFlight w.store.twoFAs w.checks t t)
    (halone : Alone w i t.userId) (hunlocked : t.isLocked w.now = false)
    (hown : q.phase.busy = none) : Sound (w.advance i q (.spending t codeId hash)) where
  fine q' hq' := by
    cases mem_set hq' with
    | inl heq =>
        rw [heq]
        exact ⟨hflight, hunlocked⟩
    | inr hmem => exact h.fine q' hmem
  alone := alone_advance h fun p hp => by
    cases hp
    exact halone
  fresh := h.fresh
  counted r hr hidle :=
    h.counted r hr (idle_of_advance hq (fun p hp => absurd (hown.symm.trans hp) nofun) hidle)
  gone := h.gone
  lockedOut := h.lockedOut

/-- A code of another user is compared. -/
theorem fine_log {rows : Table TwoFA} {checks : List Check} {now : ℤ} {c : Check} {phase : Phase}
    (h : phase.Fine rows checks now)
    (hother : ∀ p, phase.busy = some p → p.1.userId ≠ c.user) :
    phase.Fine rows (c :: checks) now := by
  have hflight : ∀ read t, InFlight rows checks read t → read.userId ≠ c.user →
      InFlight rows (c :: checks) read t := by
    intro read t hf hne
    refine ⟨hf.id_eq, hf.userId_eq, hf.enabled, hf.stays, hf.row, ?_⟩
    rw [wrongs_other hne.symm]
    exact hf.counted
  cases phase with
  | totp t | backup t => exact h
  | spending t codeId hash => exact ⟨hflight t t h.1 (hother _ rfl), h.2⟩
  | saving read t after => exact hflight read t h (hother _ rfl)
  | inserting t after => exact h
  | accepted | done => trivial

/-- Request `i` compares its code with the row that it holds. -/
theorem sound_compared {w : World} {i : ℕ} {q : Request} {t t' : TwoFA} {c : Check} {after : After}
    {codes : BackupCodes} {spent : List ℤ} (h : Sound w) (hq : w.requests[i]? = some q)
    (hflight : InFlight w.store.twoFAs w.checks t t) (halone : Alone w i t.userId)
    (hunlocked : t.isLocked w.now = false) (hown : ∀ p, q.phase.busy = some p → p.1 = t)
    (hc : Compared t w.now c t') :
    Sound
      { w.advance i q (.saving t t' after) with
        store := { w.store with backupCodes := codes }, checks := c :: w.checks,
        spent := spent } where
  fine q' hq' := by
    obtain ⟨j, hj⟩ := List.mem_iff_getElem?.mp hq'
    cases getElem?_set hj with
    | inl heq =>
        rw [heq.2]
        refine ⟨hc.id, hc.userId, hflight.enabled, ?_, hflight.row, hc.counted hflight.counted⟩
        rw [hc.isEnabled]
        exact hflight.enabled
    | inr hne =>
        apply fine_log (h.fine q' (List.mem_of_getElem? hne.2))
        intro p hp
        rw [hc.user]
        exact halone j q' p hne.2 hne.1 hp
  alone := alone_advance h fun p hp => by
    cases hp
    exact halone
  fresh r hr hdisabled := by
    by_cases huser : r.userId = t.userId
    · rw [hflight.row r hr huser, hflight.enabled] at hdisabled
      cases hdisabled
    · rw [wrongs_other (by rw [hc.user]; exact Ne.symm huser)]
      exact h.fresh r hr hdisabled
  counted r hr hidle := by
    by_cases huser : r.userId = t.userId
    · exact absurd huser.symm (hidle _ (mem_set_self hq) (t, t') rfl)
    · rw [wrongs_other (by rw [hc.user]; exact Ne.symm huser)]
      apply h.counted r hr
      apply idle_of_advance hq _ hidle
      intro p hp
      rw [hown p hp]
      exact Ne.symm huser
  gone := h.gone
  lockedOut := by
    apply lockedOut_cons h.lockedOut
    · rw [hc.user]
      exact hflight.counted
    · rw [hc.time]
      exact hunlocked

/-! ### Steps that write rows -/

/-- A request goes on to hold its row in a table that has no new rows of its user. -/
theorem fine_rows {rows rows' : Table TwoFA} {checks : List Check} {now : ℤ} {phase : Phase}
    (h : phase.Fine rows checks now)
    (hsub : ∀ p, phase.busy = some p → ∀ r ∈ rows', r.userId = p.1.userId → r ∈ rows) :
    phase.Fine rows' checks now := by
  have hflight : ∀ read t, InFlight rows checks read t →
      (∀ r ∈ rows', r.userId = read.userId → r ∈ rows) → InFlight rows' checks read t := by
    intro read t hf hs
    exact ⟨hf.id_eq, hf.userId_eq, hf.enabled, hf.stays,
      fun r hr huser => hf.row r (hs r hr huser) huser, hf.counted⟩
  cases phase with
  | totp t | backup t => exact h
  | spending t codeId hash => exact ⟨hflight t t h.1 (hsub _ rfl), h.2⟩
  | saving read t after => exact hflight read t h (hsub _ rfl)
  | inserting t after => exact h
  | accepted | done => trivial

/-- Request `i` writes its copy over the row as it was read. -/
theorem sound_saved {w : World} {i : ℕ} {q : Request} {read t : TwoFA} {after : After}
    (h : Sound w) (hq : w.requests[i]? = some q) (hphase : q.phase = .saving read t after)
    (hmem : read ∈ w.store.twoFAs) :
    Sound
      { w.advance i q (resume t after) with
        store := { w.store with twoFAs := w.store.twoFAs.update (·.id = t.id) (savedSet t) } } := by
  have hflight : InFlight w.store.twoFAs w.checks read t := by
    have hfine := h.fine q (List.mem_of_getElem? hq)
    rw [hphase] at hfine
    exact hfine
  have halone : Alone w i read.userId := by
    have := h.alone i q (read, t) hq
    rw [hphase] at this
    exact this rfl
  -- The row that was read becomes the copy, and all others stay.
  have hrows : ∀ r ∈ w.store.twoFAs.update (·.id = t.id) (savedSet t),
      r = t ∨ (r ∈ w.store.twoFAs ∧ r.userId ≠ read.userId) := by
    intro r hr
    obtain ⟨a, ha, rfl⟩ := Table.mem_update.mp hr
    by_cases hid : a.id = t.id
    · rw [if_pos hid]
      left
      have haread := eq_of_id ha hmem (hid.trans hflight.id_eq)
      unfold savedSet
      dsimp only
      rw [haread, ← hflight.id_eq, ← hflight.userId_eq]
    · rw [if_neg hid]
      right
      refine ⟨ha, fun huser => hid ?_⟩
      rw [hflight.row a ha huser, hflight.id_eq]
  exact
    { fine := by
        intro q' hq'
        obtain ⟨j, hj⟩ := List.mem_iff_getElem?.mp hq'
        cases getElem?_set hj with
        | inl heq =>
            rw [heq.2]
            exact resume_fine hflight.stays after
        | inr hne =>
            apply fine_rows (h.fine q' (List.mem_of_getElem? hne.2))
            intro p hp r hr huser
            cases hrows r hr with
            | inl heq =>
                rw [heq, hflight.userId_eq] at huser
                exact absurd huser.symm (halone j q' p hne.2 hne.1 hp)
            | inr hold => exact hold.1
      alone := alone_advance h fun p hp => absurd ((resume_busy t after).symm.trans hp) nofun
      fresh := by
        intro r hr hdisabled
        cases hrows r hr with
        | inl heq =>
            rw [heq, hflight.stays] at hdisabled
            cases hdisabled
        | inr hold => exact h.fresh r hold.1 hdisabled
      counted := by
        intro r hr hidle
        cases hrows r hr with
        | inl heq =>
            rw [heq, hflight.userId_eq]
            exact hflight.counted
        | inr hold =>
            apply h.counted r hold.1
            apply idle_of_advance hq _ hidle
            intro p hp
            rw [hphase] at hp
            cases hp
            exact hold.2.symm
      gone := by
        intro u hu r hr
        cases hrows r hr with
        | inl heq =>
            rw [heq, hflight.userId_eq]
            exact h.gone u hu read hmem
        | inr hold => exact h.gone u hu r hold.1
      lockedOut := h.lockedOut }

theorem sound_disable {w : World} (h : Sound w) (userId : ℤ) : Sound (w.disable userId) := by
  unfold World.disable disableTwoFAAndBumpSessionGeneration
  by_cases huser : userId ∉ w.store.users
  · rw [if_pos huser]
    exact h
  rw [if_neg huser]
  cases hfirst : w.store.twoFAs.first? fun t => t.userId = userId ∧ t.isEnabled = true with
  | none => exact h
  | some t =>
      obtain ⟨hmem, htuser, _⟩ := Table.first?_mem hfirst
      have hsub : ∀ r ∈ w.store.twoFAs.delete (·.id = t.id), r ∈ w.store.twoFAs :=
        fun r hr => (Table.mem_delete.mp hr).1
      exact
        { fine := fun q hq => fine_rows (h.fine q hq) fun _ _ r hr _ => hsub r hr
          alone := h.alone
          fresh := fun r hr => h.fresh r (hsub r hr)
          counted := fun r hr => h.counted r (hsub r hr)
          gone := by
            intro u hu r hr hru
            cases List.mem_cons.mp hu with
            | inl heq =>
                have hrt := eq_of_userId (hsub r hr) hmem (hru.trans (heq.trans htuser.symm))
                exact (Table.mem_delete.mp hr).2 (congrArg TwoFA.id hrt)
            | inr hu => exact h.gone u hu r (hsub r hr) hru
          lockedOut := h.lockedOut }

theorem sound_enable {w : World} (h : Sound w) (id userId : ℤ) :
    Sound
      { w with store := (enableAndBumpSessionGeneration id userId w.store).getD w.store } := by
  unfold enableAndBumpSessionGeneration
  by_cases hbad : id = 0 ∨ userId ≤ 0 ∨ userId ∉ w.store.users
  · rw [if_pos hbad]
    exact h
  rw [if_neg hbad]
  by_cases haffected : w.store.twoFAs.affected (NotEnabled id userId) ≠ 1
  · rw [if_pos haffected]
    exact h
  rw [if_neg haffected]
  -- A row that is enabled now had no code compared.
  have hrows : ∀ r ∈ w.store.twoFAs.update (NotEnabled id userId) enabledSet,
      r ∈ w.store.twoFAs ∨
        ∃ a ∈ w.store.twoFAs, a.isEnabled = false ∧ a.userId = r.userId ∧ r.isEnabled = true := by
    intro r hr
    obtain ⟨a, ha, rfl⟩ := Table.mem_update.mp hr
    by_cases hp : NotEnabled id userId a
    · rw [if_pos hp]
      exact Or.inr ⟨a, ha, hp.2.2, rfl, rfl⟩
    · rw [if_neg hp]
      exact Or.inl ha
  exact
    { fine := by
        intro q hq
        have hfine := h.fine q hq
        refine fine_rows hfine fun p hp r hr huser => ?_
        cases hrows r hr with
        | inl hold => exact hold
        | inr hnew =>
            obtain ⟨a, ha, hdisabled, hau, _⟩ := hnew
            have hflight := inFlight_of_busy hfine hp
            have hap := hflight.row a ha (hau.trans huser)
            rw [hap, hflight.enabled] at hdisabled
            cases hdisabled
      alone := h.alone
      fresh := by
        intro r hr hdisabled
        cases hrows r hr with
        | inl hold => exact h.fresh r hold hdisabled
        | inr hnew =>
            obtain ⟨_, _, _, _, henabled⟩ := hnew
            rw [henabled] at hdisabled
            cases hdisabled
      counted := by
        intro r hr hidle
        cases hrows r hr with
        | inl hold => exact h.counted r hold hidle
        | inr hnew =>
            obtain ⟨a, ha, hdisabled, hau, _⟩ := hnew
            have hnone := h.fresh a ha hdisabled
            rw [hau] at hnone
            dsimp only
            rw [hnone]
            exact counted_nil r
      gone := by
        intro u hu r hr
        cases hrows r hr with
        | inl hold => exact h.gone u hu r hold
        | inr hnew =>
            obtain ⟨a, ha, _, hau, _⟩ := hnew
            rw [← hau]
            exact h.gone u hu a ha
      lockedOut := h.lockedOut }

theorem sound_tick {w : World} (h : Sound w) (seconds : ℕ) :
    Sound { w with now := w.now + seconds } where
  fine q hq := by
    have hfine := h.fine q hq
    cases hphase : q.phase with
    | spending t codeId hash =>
        rw [hphase] at hfine
        exact ⟨hfine.1, TwoFA.isLocked_mono (by dsimp only; omega) hfine.2⟩
    | totp t | backup t | saving read t after | inserting t after | accepted | done =>
        rw [hphase] at hfine
        exact hfine
  alone := h.alone
  fresh := h.fresh
  counted := h.counted
  gone := h.gone
  lockedOut := h.lockedOut

theorem sound_readRow {w : World} (h : Sound w) (kind : Kind) (userId : ℤ) (code : String) :
    Sound (w.readRow kind userId code) := by
  unfold World.readRow
  by_cases hzero : userId = 0
  · rw [if_pos hzero]
    exact h
  rw [if_neg hzero]
  cases hfirst : w.store.twoFAs.first? (·.userId = userId) with
  | none => exact h
  | some t =>
      dsimp only
      cases henabled : t.isEnabled with
      | false => exact h
      | true =>
          rw [if_pos rfl]
          -- The new request is not under way.
          have hold : ∀ (j : ℕ) (q : Request) (p : TwoFA × TwoFA),
              (w.requests ++ [⟨kind, userId, code, .totp t⟩])[j]? = some q →
                q.phase.busy = some p → w.requests[j]? = some q := by
            intro j q p hj hp
            rw [List.getElem?_append] at hj
            split_ifs at hj with hlt
            · exact hj
            · have hq := List.mem_singleton.mp (List.mem_of_getElem? hj)
              rw [hq] at hp
              cases hp
          exact
            { fine := by
                intro q hq
                cases List.mem_append.mp hq with
                | inl hq => exact h.fine q hq
                | inr hq =>
                    rw [List.mem_singleton.mp hq]
                    exact henabled
              alone := fun i q p hi hp j q' p' hj hji hp' =>
                h.alone i q p (hold i q p hi hp) hp j q' p' (hold j q' p' hj hp') hji hp'
              fresh := h.fresh
              counted := fun r hr hidle =>
                h.counted r hr fun q hq => hidle q (List.mem_append_left _ hq)
              gone := h.gone
              lockedOut := h.lockedOut }

/-- Only the rows of the first table matter. -/
theorem sound_store {w : World} {s : Store} (h : Sound w) (hrows : s.twoFAs = w.store.twoFAs) :
    Sound { w with store := s } := by
  obtain ⟨users, twoFAs, backupCodes⟩ := s
  dsimp only at hrows
  subst hrows
  exact ⟨h.fine, h.alone, h.fresh, h.counted, h.gone, h.lockedOut⟩

theorem replace_twoFAs (userId : ℤ) (hashes : List String) (s : Store) :
    ((replaceBackupCodesAndBumpSessionGeneration userId hashes s).getD s).twoFAs = s.twoFAs := by
  unfold replaceBackupCodesAndBumpSessionGeneration
  split_ifs <;> rfl

/-! ### Steps of a request -/

theorem sound_check {w : World} {i : ℕ} {q : Request} (h : Sound w) (hq : w.requests[i]? = some q)
    (hexclusive : ∀ t, q.tries w.now = some t → t ∈ w.store.twoFAs ∧ Alone w i t.userId)
    {r : Phase × List Check} (hr : Checked q w.now r) :
    Sound { w.advance i q r.1 with checks := r.2 ++ w.checks } := by
  have hfine := h.fine q (List.mem_of_getElem? hq)
  have hfree : ∀ t, q.tries w.now = some t → q.phase.busy = none := by
    intro t htries
    cases (tries_cases htries).1 with
    | inl hphase | inr hphase =>
        rw [hphase]
        rfl
  cases hr with
  | compared after htries hc =>
      obtain ⟨hmem, halone⟩ := hexclusive _ htries
      have hflight := inFlight_of_tries h hq htries hmem halone
      exact sound_compared h hq hflight halone (tries_cases htries).2
        (fun p hp => absurd ((hfree _ htries).symm.trans hp) nofun) hc
  | matched codeId hash htries =>
      obtain ⟨hmem, halone⟩ := hexclusive _ htries
      have hflight := inFlight_of_tries h hq htries hmem halone
      exact sound_matched h hq hflight halone (tries_cases htries).2 (hfree _ htries)
  | skipped after hphase =>
      rw [hphase] at hfine
      apply sound_advance h hq (resume_fine hfine after) (resume_busy _ after)
      intro p hp
      rw [hphase] at hp
      cases hp
  | ended hphase =>
      show Sound (w.advance i q .done)
      refine sound_advance h hq trivial rfl ?_
      intro p hp
      rw [hphase] at hp
      cases hp
  | @idle phase hphase =>
      have hself := advance_self hq
      rw [hphase] at hself
      have hsound : Sound (w.advance i q phase) := hself.symm ▸ h
      exact hsound

theorem sound_spendCode {w : World} {i : ℕ} {q : Request} {t : TwoFA} {codeId : ℤ} {hash : String}
    (h : Sound w) (hq : w.requests[i]? = some q) (hphase : q.phase = .spending t codeId hash)
    (fails : Bool) : Sound (w.spendCode i q t codeId hash fails) := by
  have hbusy : ∀ p, q.phase.busy = some p → p = (t, t) := by
    intro p hp
    rw [hphase] at hp
    cases hp
    rfl
  have hfine := h.fine q (List.mem_of_getElem? hq)
  rw [hphase] at hfine
  have halone : Alone w i t.userId := by
    apply h.alone i q (t, t) hq
    rw [hphase]
    rfl
  have hown : ∀ p, q.phase.busy = some p → p.1 = t := fun p hp => by rw [hbusy p hp]
  unfold World.spendCode
  split_ifs
  · refine sound_advance h hq trivial rfl fun p hp => ?_
    rw [hbusy p hp]
  · exact sound_compared h hq hfine.1 halone hfine.2 hown .right
  · exact sound_compared h hq hfine.1 halone hfine.2 hown .wrong

theorem sound_finishRequest {w : World} {i : ℕ} {q : Request} (h : Sound w)
    (hq : w.requests[i]? = some q) (hphase : q.phase = .accepted) (hashes : List String)
    (fails : Bool) : Sound (w.finishRequest i q hashes fails) := by
  have hdone : Sound (w.advance i q .done) := by
    refine sound_advance h hq trivial rfl ?_
    intro p hp
    rw [hphase] at hp
    cases hp
  unfold World.finishRequest
  dsimp only
  cases fails with
  | true => exact hdone
  | false =>
      rw [if_neg (by decide)]
      cases q.kind with
      | verify2FALogin => exact hdone
      | disable2FA => exact sound_disable hdone q.userId
      | regenerateBackupCodes =>
          exact sound_store hdone (replace_twoFAs q.userId hashes _)

/-! ### What a step does -/

/-- The steps, by operation and phase; an operation that does not fit the phase does nothing. -/
inductive Stepped (v : Verifiers) (w : World) : Op → World → Prop
  | tick (seconds : ℕ) : Stepped v w (.tick seconds) { w with now := w.now + seconds }
  | read (kind : Kind) (userId : ℤ) (code : String) :
      Stepped v w (.read kind userId code) (w.readRow kind userId code)
  | disable (userId : ℤ) : Stepped v w (.disable userId) (w.disable userId)
  | enable (id userId : ℤ) :
      Stepped v w (.enable id userId)
        { w with store := (enableAndBumpSessionGeneration id userId w.store).getD w.store }
  | check {i : ℕ} {q : Request} {r : Phase × List Check} (hq : w.requests[i]? = some q)
      (hr : Checked q w.now r) :
      Stepped v w (.check i) { w.advance i q r.1 with checks := r.2 ++ w.checks }
  | spend {i : ℕ} {q : Request} {t : TwoFA} {id : ℤ} {hash : String} (fails : Bool)
      (hq : w.requests[i]? = some q) (hphase : q.phase = .spending t id hash) :
      Stepped v w (.spend i fails) (w.spendCode i q t id hash fails)
  | save {i : ℕ} {q : Request} {read t : TwoFA} {after : After} (fails : Bool)
      (hq : w.requests[i]? = some q) (hphase : q.phase = .saving read t after) :
      Stepped v w (.save i fails) (w.saveRow i q t after fails)
  | insert {i : ℕ} {q : Request} {t : TwoFA} {after : After} (fails : Bool)
      (hq : w.requests[i]? = some q) (hphase : q.phase = .inserting t after) :
      Stepped v w (.insert i fails) (w.insertRow i q t after fails)
  | finish {i : ℕ} {q : Request} (hashes : List String) (fails : Bool)
      (hq : w.requests[i]? = some q) (hphase : q.phase = .accepted) :
      Stepped v w (.finish i hashes fails) (w.finishRequest i q hashes fails)
  | idle (op : Op) : Stepped v w op w

theorem step_stepped (v : Verifiers) (w : World) (op : Op) : Stepped v w op (step v w op) := by
  cases op with
  | tick seconds => exact .tick seconds
  | read kind userId code => exact .read kind userId code
  | disable userId => exact .disable userId
  | enable id userId => exact .enable id userId
  | check i =>
      unfold step
      dsimp only
      cases hq : w.requests[i]? with
      | none => exact .idle _
      | some q => exact .check hq (checkCode_checked v q w.now _)
  | spend i fails =>
      unfold step
      dsimp only
      cases hq : w.requests[i]? with
      | none => exact .idle _
      | some q =>
          dsimp only
          unfold requestStep
          cases hphase : q.phase with
          | spending t id hash => exact .spend fails hq hphase
          | totp _ | backup _ | saving _ _ _ | inserting _ _ | accepted | done => exact .idle _
  | save i fails =>
      unfold step
      dsimp only
      cases hq : w.requests[i]? with
      | none => exact .idle _
      | some q =>
          dsimp only
          unfold requestStep
          cases hphase : q.phase with
          | saving read t after => exact .save fails hq hphase
          | totp _ | backup _ | spending _ _ _ | inserting _ _ | accepted | done => exact .idle _
  | insert i fails =>
      unfold step
      dsimp only
      cases hq : w.requests[i]? with
      | none => exact .idle _
      | some q =>
          dsimp only
          unfold requestStep
          cases hphase : q.phase with
          | inserting t after => exact .insert fails hq hphase
          | totp _ | backup _ | spending _ _ _ | saving _ _ _ | accepted | done => exact .idle _
  | finish i hashes fails =>
      unfold step
      dsimp only
      cases hq : w.requests[i]? with
      | none => exact .idle _
      | some q =>
          dsimp only
          unfold requestStep
          cases hphase : q.phase with
          | accepted => exact .finish hashes fails hq hphase
          | totp _ | backup _ | spending _ _ _ | saving _ _ _ | inserting _ _ | done =>
            exact .idle _

theorem sound_saveRow {w : World} {i : ℕ} {q : Request} {read t : TwoFA} {after : After}
    {fails : Bool} (h : Sound w) (hq : w.requests[i]? = some q)
    (hphase : q.phase = .saving read t after) (hexclusive : Exclusive w (.save i fails)) :
    Sound (w.saveRow i q t after fails) := by
  obtain ⟨hsucceeds, hmem⟩ := hexclusive q read t after hq hphase
  have hfine := h.fine q (List.mem_of_getElem? hq)
  rw [hphase] at hfine
  have hfound : ¬ w.store.twoFAs.affected (·.id = t.id) = 0 := fun hzero =>
    Table.affected_eq_zero.mp hzero read hmem hfine.id_eq.symm
  unfold World.saveRow
  rw [hsucceeds, if_neg (by decide), if_neg hfound]
  exact sound_saved h hq hphase hmem

/-- **A step** under the condition keeps the invariant. -/
theorem sound_step {v : Verifiers} {w : World} {op : Op} (hexclusive : Exclusive w op)
    (h : Sound w) : Sound (step v w op) := by
  have hstep := step_stepped v w op
  revert hstep
  generalize step v w op = w'
  intro hstep
  cases hstep with
  | tick seconds => exact sound_tick h seconds
  | read kind userId code => exact sound_readRow h kind userId code
  | disable userId => exact sound_disable h userId
  | enable id userId => exact sound_enable h id userId
  | check hq hr => exact sound_check h hq (fun t => hexclusive _ t hq) hr
  | spend fails hq hphase => exact sound_spendCode h hq hphase fails
  | save fails hq hphase => exact sound_saveRow h hq hphase hexclusive
  | insert fails hq hphase =>
      have hfine := h.fine _ (List.mem_of_getElem? hq)
      rw [hphase] at hfine
      exact hfine.elim
  | finish hashes fails hq hphase => exact sound_finishRequest h hq hphase hashes fails
  | idle => exact h

/-! ### Accepted codes -/

theorem disable_checks (w : World) (userId : ℤ) : (w.disable userId).checks = w.checks := by
  unfold World.disable
  split <;> rfl

/-- What a step compares. -/
theorem step_checks (v : Verifiers) (w : World) (op : Op) :
    (step v w op).checks = w.checks ∨
      ∃ i q t t' c, w.requests[i]? = some q ∧ (step v w op).checks = c :: w.checks ∧
        Compared t w.now c t' ∧
        ((op = .check i ∧ q.tries w.now = some t) ∨ ∃ id hash, q.phase = .spending t id hash) := by
  have hstep := step_stepped v w op
  revert hstep
  generalize step v w op = w'
  intro hstep
  cases hstep with
  | tick _ | enable _ _ | idle => exact Or.inl rfl
  | disable userId => exact Or.inl (disable_checks w userId)
  | read kind userId code =>
      left
      unfold World.readRow
      split_ifs
      · rfl
      · split
        · rfl
        · split_ifs <;> rfl
  | @check i q _ hq hr =>
      cases hr with
      | compared after htries hc =>
          exact Or.inr ⟨i, q, _, _, _, hq, rfl, hc, Or.inl ⟨rfl, htries⟩⟩
      | matched _ _ _ | skipped _ _ | ended _ | idle _ => exact Or.inl rfl
  | @spend i q t id hash fails hq hphase =>
      unfold World.spendCode
      split_ifs
      · exact Or.inl rfl
      · exact Or.inr ⟨i, q, t, _, _, hq, rfl, .right, Or.inr ⟨id, hash, hphase⟩⟩
      · exact Or.inr ⟨i, q, t, _, _, hq, rfl, .wrong, Or.inr ⟨id, hash, hphase⟩⟩
  | save fails hq hphase =>
      left
      unfold World.saveRow
      split_ifs <;> rfl
  | insert fails hq hphase =>
      left
      unfold World.insertRow
      split_ifs <;> rfl
  | @finish i q hashes fails hq hphase =>
      left
      unfold World.finishRequest
      dsimp only
      split_ifs
      · rfl
      · cases q.kind with
        | verify2FALogin => rfl
        | disable2FA => exact disable_checks _ q.userId
        | regenerateBackupCodes => rfl

/-- No code is accepted while the stored row is locked. -/
theorem acceptsUnlocked {v : Verifiers} {w : World} {op : Op} (hexclusive : Exclusive w op)
    (h : Sound w) : AcceptsUnlocked v w op := by
  intro c hc _ r hr huser
  cases step_checks v w op with
  | inl hsame =>
      rw [hsame] at hc
      exact absurd hc.symm (List.cons_ne_self c w.checks)
  | inr hnew =>
      obtain ⟨i, q, t, t', c', hq, hchecks, hcompared, hfrom⟩ := hnew
      rw [hchecks] at hc
      cases hc
      rw [hcompared.user] at huser
      rcases hfrom with ⟨rfl, htries⟩ | ⟨id, hash, hphase⟩
      · obtain ⟨hmem, _⟩ := hexclusive q t hq htries
        rw [eq_of_userId hr hmem huser]
        exact (tries_cases htries).2
      · have hfine := h.fine q (List.mem_of_getElem? hq)
        rw [hphase] at hfine
        rw [hfine.1.row r hr huser]
        exact hfine.2

/-! ### Backup codes -/

/-- Codes are used up, deleted, or new. -/
structure Later (b b' : BackupCodes) : Prop where
  nextId_le : b.nextId ≤ b'.nextId
  row : ∀ c' ∈ b'.rows, b.nextId ≤ c'.id ∨
    ∃ c ∈ b.rows, c.id = c'.id ∧ (c.isUsed = true → c'.isUsed = true)

namespace Later

variable {b b' b'' : BackupCodes}

theorem refl (b : BackupCodes) : Later b b :=
  ⟨le_refl _, fun c hc => Or.inr ⟨c, hc, rfl, id⟩⟩

theorem trans (h : Later b b') (h' : Later b' b'') : Later b b'' := by
  refine ⟨h.nextId_le.trans h'.nextId_le, fun c'' hc'' => ?_⟩
  cases h'.row c'' hc'' with
  | inl hnew => exact Or.inl (h.nextId_le.trans hnew)
  | inr hold =>
      obtain ⟨c', hc', hid', hused'⟩ := hold
      cases h.row c' hc' with
      | inl hnew => exact Or.inl (hid' ▸ hnew)
      | inr hold =>
          obtain ⟨c, hc, hid, hused⟩ := hold
          exact Or.inr ⟨c, hc, hid.trans hid', fun hu => hused' (hused hu)⟩

theorem delete (b : BackupCodes) (p : TwoFABackupCode → Prop) [DecidablePred p] :
    Later b (b.delete p) :=
  ⟨le_refl _, fun c hc => Or.inr ⟨c, (Table.mem_delete.mp hc).1, rfl, id⟩⟩

theorem create (b : BackupCodes) (userId : ℤ) (hash : String) : Later b (b.create userId hash) := by
  refine ⟨le_of_lt (Int.lt_succ _), fun c hc => ?_⟩
  rcases Table.mem_insert hc with hc | ⟨rfl, _⟩
  · exact Or.inr ⟨c, hc, rfl, id⟩
  · exact Or.inl (le_refl _)

theorem use (b : BackupCodes) (p : TwoFABackupCode → Prop) [DecidablePred p] (now : ℤ) :
    Later b (b.update p (usedSet now)) := by
  refine ⟨le_refl _, fun c hc => ?_⟩
  obtain ⟨a, ha, rfl⟩ := Table.mem_update.mp hc
  right
  refine ⟨a, ha, ?_, ?_⟩
  · split_ifs <;> rfl
  · intro hused
    split_ifs
    · rfl
    · exact hused

theorem replace (userId : ℤ) (hashes : List String) (b : BackupCodes) :
    Later b (replaceBackupCodeHashesTx userId hashes b) := by
  have hcreate : ∀ (hashes : List String) (b : BackupCodes),
      Later b (hashes.foldl (fun b hash => b.create userId hash) b) := by
    intro hashes
    induction hashes with
    | nil => exact fun b => refl b
    | cons hash hashes ih => exact fun b => (create b userId hash).trans (ih _)
  exact (delete b _).trans (hcreate hashes _)

end Later

theorem later_disable (w : World) (userId : ℤ) :
    Later w.store.backupCodes (w.disable userId).store.backupCodes ∧
      (w.disable userId).spent = w.spent := by
  unfold World.disable disableTwoFAAndBumpSessionGeneration
  by_cases huser : userId ∉ w.store.users
  · rw [if_pos huser]
    exact ⟨.refl _, rfl⟩
  rw [if_neg huser]
  cases w.store.twoFAs.first? fun t => t.userId = userId ∧ t.isEnabled = true with
  | none => exact ⟨.refl _, rfl⟩
  | some t => exact ⟨.delete _ _, rfl⟩

theorem later_replace (userId : ℤ) (hashes : List String) (s : Store) :
    Later s.backupCodes
      ((replaceBackupCodesAndBumpSessionGeneration userId hashes s).getD s).backupCodes := by
  unfold replaceBackupCodesAndBumpSessionGeneration
  by_cases huser : userId ∉ s.users
  · rw [if_pos huser]
    exact .refl _
  rw [if_neg huser]
  by_cases henabled : s.twoFAs.affected (fun t => t.userId = userId ∧ t.isEnabled = true) ≠ 1
  · rw [if_pos henabled]
    exact .refl _
  · rw [if_neg henabled]
    exact .replace userId hashes s.backupCodes

/-- What a step does to the backup codes. -/
theorem step_codes (v : Verifiers) (w : World) (op : Op) :
    (Later w.store.backupCodes (step v w op).store.backupCodes ∧ (step v w op).spent = w.spent) ∨
      ∃ id user hash, w.store.backupCodes.rows.affected (Unused id user hash) = 1 ∧
        (step v w op).store.backupCodes =
          w.store.backupCodes.update (Unused id user hash) (usedSet w.now) ∧
        (step v w op).spent = id :: w.spent := by
  have hsame : ∀ w' : World, w'.store.backupCodes = w.store.backupCodes → w'.spent = w.spent →
      Later w.store.backupCodes w'.store.backupCodes ∧ w'.spent = w.spent := by
    intro w' hcodes hspent
    rw [hcodes]
    exact ⟨.refl _, hspent⟩
  have hstep := step_stepped v w op
  revert hstep
  generalize step v w op = w'
  intro hstep
  cases hstep with
  | tick _ | check _ _ | idle => exact Or.inl (hsame _ rfl rfl)
  | enable id userId =>
      left
      refine hsame _ ?_ rfl
      dsimp only
      unfold enableAndBumpSessionGeneration
      split_ifs <;> rfl
  | disable userId => exact Or.inl (later_disable w userId)
  | read kind userId code =>
      left
      unfold World.readRow
      split_ifs
      · exact hsame _ rfl rfl
      · split
        · exact hsame _ rfl rfl
        · split_ifs <;> exact hsame _ rfl rfl
  | @spend i q t id hash fails hq hphase =>
      unfold World.spendCode
      split_ifs with _ haffected
      · exact Or.inl (hsame _ rfl rfl)
      · exact Or.inr ⟨id, t.userId, hash, haffected, rfl, rfl⟩
      · exact Or.inl (hsame _ rfl rfl)
  | save fails hq hphase =>
      left
      unfold World.saveRow
      split_ifs <;> exact hsame _ rfl rfl
  | insert fails hq hphase =>
      left
      unfold World.insertRow
      split_ifs <;> exact hsame _ rfl rfl
  | @finish i q hashes fails hq hphase =>
      left
      unfold World.finishRequest
      dsimp only
      split_ifs
      · exact hsame _ rfl rfl
      · cases q.kind with
        | verify2FALogin => exact hsame _ rfl rfl
        | disable2FA => exact later_disable (w.advance i q .done) q.userId
        | regenerateBackupCodes =>
            exact ⟨later_replace q.userId hashes (w.advance i q .done).store, rfl⟩

/-- Accepted backup codes are different, and they are marked used. -/
structure SpentOnce (w : World) : Prop where
  nodup : w.spent.Nodup
  lt : ∀ id ∈ w.spent, id < w.store.backupCodes.nextId
  used : ∀ c ∈ w.store.backupCodes.rows, c.id ∈ w.spent → c.isUsed = true

theorem spentOnce_later {w w' : World} (h : SpentOnce w)
    (hlater : Later w.store.backupCodes w'.store.backupCodes) (hspent : w'.spent = w.spent) :
    SpentOnce w' where
  nodup := by
    rw [hspent]
    exact h.nodup
  lt := by
    rw [hspent]
    exact fun id hid => (h.lt id hid).trans_le hlater.nextId_le
  used := by
    rw [hspent]
    intro c' hc' hid
    cases hlater.row c' hc' with
    | inl hnew => exact absurd (h.lt _ hid) (not_lt.mpr hnew)
    | inr hold =>
        obtain ⟨c, hc, hcid, hused⟩ := hold
        rw [← hcid] at hid
        exact hused (h.used c hc hid)

/-- **A step** accepts no backup code a second time. -/
theorem spentOnce_step {v : Verifiers} {w : World} {op : Op} (h : SpentOnce w) :
    SpentOnce (step v w op) := by
  cases step_codes v w op with
  | inl hlater => exact spentOnce_later h hlater.1 hlater.2
  | inr hspend =>
      obtain ⟨id, user, hash, haffected, hcodes, hspent⟩ := hspend
      obtain ⟨a, ha, hunused, _⟩ := Table.exists_of_affected_eq_one haffected
      have hnot : id ∉ w.spent := by
        intro hid
        rw [← hunused.1] at hid
        have hused := h.used a ha hid
        rw [hunused.2.2.2] at hused
        cases hused
      have hlater := Later.use w.store.backupCodes (Unused id user hash) w.now
      constructor
      · rw [hspent]
        exact List.nodup_cons.mpr ⟨hnot, h.nodup⟩
      · rw [hspent, hcodes]
        intro id' hid'
        cases List.mem_cons.mp hid' with
        | inl heq =>
            rw [heq, ← hunused.1]
            exact w.store.backupCodes.lt a ha
        | inr hold => exact h.lt id' hold
      · rw [hspent, hcodes]
        intro c hc hid
        obtain ⟨b, hb, rfl⟩ := Table.mem_update.mp hc
        by_cases hp : Unused id user hash b
        · rw [if_pos hp]
          rfl
        · rw [if_neg hp] at hid ⊢
          cases List.mem_cons.mp hid with
          | inl heq =>
              have hba : b = a := Table.eq_of_clash hb ha (heq.trans hunused.1.symm)
              rw [hba] at hp
              exact absurd hunused hp
          | inr hold => exact h.used b hb hold

/-! ### Runs -/

/-- The law in one state: the wrong codes of a user are followed by the lock, and a disabled user
has no row. -/
def Lawful (w : World) : Prop := LockedOut w.checks ∧ StaysDisabled w

/-- **The lockout law.** In every run a backup code is accepted at most once.  In the runs in which
codes are compared with the row as it is stored, one at a time, and the row is written back over
what was read, the lock follows the wrong codes, no code is accepted while the stored row is locked,
and after a disable there is no row. -/
theorem lockout_of_exclusive (v : Verifiers) (s : Store) (now : ℤ) (ops : List Op) :
    (∀ pre, pre <+: ops → (Transition.run (step v) (start s now) pre).spent.Nodup) ∧
      (Transition.Throughout (step v) Exclusive (start s now) ops →
        Transition.Throughout (step v) (AcceptsUnlocked v) (start s now) ops ∧
          ∀ pre, pre <+: ops → Lawful (Transition.run (step v) (start s now) pre)) := by
  constructor
  · intro pre _
    have hstart : SpentOnce (start s now) :=
      ⟨List.nodup_nil, fun id hid => absurd hid List.not_mem_nil,
        fun c _ hid => absurd hid List.not_mem_nil⟩
    exact (Transition.run_invariant (step v) (fun w op => spentOnce_step) pre _ hstart).nodup
  · intro hexclusive
    constructor
    · exact Transition.throughout_of_invariant (step v)
        (fun _ _ hexclusive h => sound_step hexclusive h)
        (fun _ _ hexclusive h => acceptsUnlocked hexclusive h) ops _ hexclusive (start_sound s now)
    · intro pre hpre
      have hsound := Transition.throughout_invariant (step v)
        (fun _ _ hexclusive h => sound_step hexclusive h) pre _
        (Transition.throughout_prefix (step v) hpre hexclusive) (start_sound s now)
      exact ⟨hsound.lockedOut, hsound.gone⟩

/-! ### Runs outside the condition -/

/-- The code 111111 is right. -/
def onesAreRight : Verifiers := ⟨fun code _ _ => decide (code = "111111"), fun _ _ => false⟩

/-- One user, with two-factor authentication enabled. -/
def enabledUser : Store where
  users := [1]
  twoFAs := ⟨[⟨7, 1, "S", true, 0, none, none⟩], by decide⟩
  backupCodes := ⟨⟨[], .nil⟩, 1, nofun⟩

/-- Six requests read the row before any of them writes it, and compare a wrong code each. -/
def sixTogether : List Op :=
  List.replicate 6 (.read .verify2FALogin 1 "000000") ++ (List.range 6).map .check

/-- A request with the right code reads the row; then five wrong codes lock it. -/
def lockedMeanwhile : List Op :=
  .read .verify2FALogin 1 "111111" ::
    (List.range 5).flatMap fun i =>
      [.read .verify2FALogin 1 "000000", .check (i + 1), .save (i + 1) false]

/-- A disable commits between a wrong code and the write. -/
def disabledMeanwhile : List Op :=
  [.read .verify2FALogin 1 "000000", .check 0, .disable 1, .save 0 false, .insert 0 false]

/-- Six wrong codes are compared without a lock, a right code is accepted during the lock, and the
row of a user comes back after a disable. -/
theorem lockout_broken :
    ¬ LockedOut (Transition.run (step onesAreRight) (start enabledUser 0) sixTogether).checks ∧
      ¬ AcceptsUnlocked onesAreRight
          (Transition.run (step onesAreRight) (start enabledUser 0) lockedMeanwhile) (.check 0) ∧
      ¬ StaysDisabled
          (Transition.run (step onesAreRight) (start enabledUser 0) disabledMeanwhile) := by
  refine ⟨?_, ?_, ?_⟩
  · intro h
    have hsixth := h.1 (by decide +kernel) ⟨1, false, 0⟩ (by decide +kernel)
    exact absurd hsixth (by decide +kernel)
  · intro h
    have hunlocked := h ⟨1, true, 0⟩ (by decide +kernel) rfl ⟨7, 1, "S", true, 5, some 300, none⟩
      (Table.mem_iff.mpr (by decide +kernel)) rfl
    exact absurd hunlocked (by decide +kernel)
  · intro h
    exact h 1 (by decide +kernel) ⟨7, 1, "S", true, 1, none, none⟩
      (Table.mem_iff.mpr (by decide +kernel)) rfl

/-! ### A run under the condition -/

/-- The code 111111 is right, and the hash of a backup code is the code. -/
def onesOrHash : Verifiers :=
  ⟨fun code _ _ => decide (code = "111111"), fun code hash => decide (code = hash)⟩

/-- Two users, the first with a backup code. -/
def twoUsers : Store where
  users := [1, 2]
  twoFAs := ⟨[⟨7, 1, "S", true, 0, none, none⟩, ⟨8, 2, "T", true, 0, none, none⟩], by decide⟩
  backupCodes := ⟨⟨[⟨11, 1, "ABCD-1234", false, none⟩], by decide⟩, 12, by decide⟩

/-- Five wrong codes of user 1 between the comparison and the write of user 2, a right code during
the lock, a backup code twice after it, and a disable while another request of the user is still to
replace the backup codes. -/
def lockThenDisable : List Op :=
  [.read .verify2FALogin 2 "000000", .check 0] ++
  (List.range 5).flatMap (fun i => [.read .verify2FALogin 1 "000000", .check (i + 1),
    .save (i + 1) false, .check (i + 1)]) ++
  [.save 0 false, .read .verify2FALogin 1 "111111", .check 6, .check 6, .tick 300,
    .read .verify2FALogin 1 "abcd1234", .check 7, .check 7, .spend 7 false, .save 7 false,
    .finish 7 [] false, .read .verify2FALogin 1 "abcd1234", .check 8, .check 8, .save 8 false,
    .read .regenerateBackupCodes 1 "111111", .check 9, .save 9 false,
    .read .disable2FA 1 "111 111", .check 10, .save 10 false, .finish 10 [] false,
    .finish 9 ["EFGH-5678"] false, .enable 7 1]

theorem lockThenDisable_exclusive :
    Transition.Throughout (step onesOrHash) Exclusive (start twoUsers 0) lockThenDisable := by
  decide +kernel

/-- The law for that run, in which five wrong codes are followed by a lock and none is compared
before it is over, the backup code is accepted once, and the disable commits. -/
theorem lockout_of_lockThenDisable :
    let w := Transition.run (step onesOrHash) (start twoUsers 0) lockThenDisable
    (Transition.Throughout (step onesOrHash) (AcceptsUnlocked onesOrHash) (start twoUsers 0)
        lockThenDisable ∧ Lawful w ∧ w.spent.Nodup) ∧
      w.checks = [⟨1, true, 300⟩, ⟨1, true, 300⟩, ⟨1, false, 300⟩, ⟨1, true, 300⟩, ⟨1, false, 0⟩,
        ⟨1, false, 0⟩, ⟨1, false, 0⟩, ⟨1, false, 0⟩, ⟨1, false, 0⟩, ⟨2, false, 0⟩] ∧
      w.spent = [11] ∧ w.disabled = [1] ∧ w.store.twoFAs.rows = [⟨8, 2, "T", true, 1, none, none⟩] ∧
      w.store.backupCodes.rows.rows = [] := by
  have hlaw := lockout_of_exclusive onesOrHash twoUsers 0 lockThenDisable
  obtain ⟨hspent, hrun⟩ := hlaw
  obtain ⟨haccepts, hlawful⟩ := hrun lockThenDisable_exclusive
  refine ⟨⟨haccepts, hlawful _ List.prefix_rfl, hspent _ List.prefix_rfl⟩, ?_, ?_, ?_, ?_, ?_⟩
  all_goals decide +kernel

end MaxApi.TwoFactor
