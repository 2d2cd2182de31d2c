import CsMail.Accounts.Directory
import CsMail.External.Conversation
import CsMail.Library.Machine

/-! Control of a mailbox, and the session that follows from it.

A verification awaits a code until it is consumed, expires or has been tried too often. Its
operations build the next value without the checks that restoring one makes, so these are a theorem:
every value reached passes them (`Stage.valid`). -/
namespace CsMail
open Library

inductive GuestError
  | invalidMailbox
  | invalidVerificationState
  | verificationClosed
  | tooManyAttempts
  | wrongCode
  | sessionExpired
  | pendingRequestsConflict
  | pendingRequest
  | recipientMismatch
  | rateLimited
  | notAGuestCommand
  | alteredRequest
  deriving DecidableEq

def verificationLifetime : Duration := ⟨15 * 60 * 1000⟩
def verificationAttempts : U32 := 5
def sessionLifetime : Duration := ⟨2 * 60 * 60 * 1000⟩

/-- A token's digest identifies its session; it is not proof of mailbox control. -/
structure SessionTokenDigest where
  bytes : Bytes32
  deriving DecidableEq

inductive VerificationState
  | awaitingCode (codeDigest : Bytes32)
  | consumed (verifiedAt sessionExpiresAt : CanonicalTime) (tokenDigest : SessionTokenDigest)
  deriving DecidableEq

structure MailboxVerification where
  mailbox : GuestMailbox
  issuedAt : CanonicalTime
  expiresAt : CanonicalTime
  attempts : U32
  state : VerificationState
  deriving DecidableEq

structure GuestSession where
  mailbox : GuestMailbox
  verifiedAt : CanonicalTime
  expiresAt : CanonicalTime
  deriving DecidableEq

/-- Refuses times outside the session's verified lifetime. -/
def GuestSession.authorize (s : GuestSession) (now : CanonicalTime) : Except GuestError GuestMailbox := do
  refuseIf (now < s.verifiedAt ∨ s.expiresAt < now) .sessionExpired
  .ok s.mailbox

/-- The complete result of checking a code; wrong attempts must be committed as well. -/
inductive CodeCheck
  | verified (verification : MailboxVerification) (session : GuestSession)
  | wrong (verification : MailboxVerification)
  deriving DecidableEq

namespace CodeCheck

/-- The value to be stored. -/
def next : CodeCheck → MailboxVerification
  | verified v _ | wrong v => v

def isVerified : CodeCheck → Bool
  | verified .. => true
  | wrong _ => false

end CodeCheck

def deadline (time : CanonicalTime) (lifetime : Duration) : Except GuestError CanonicalTime :=
  okOr (time.checkedAdd lifetime) .invalidVerificationState

def codeDigest [Crypto] (code : Text) (salt : Bytes32) : Bytes32 :=
  Crypto.sha256 (byteString "cs-mail/guest-verification-code/v1" ++ salt.toList ++ code.utf8)

/-- One call of `check`. -/
structure CodeEntry where
  code : Text
  salt : Bytes32
  token : SessionTokenDigest
  now : CanonicalTime

namespace MailboxVerification

section Restoring
variable (v : MailboxVerification)

/-- What restoring a stored verification checks. -/
def validate : Except GuestError Unit := do
  let expires ← deadline v.issuedAt verificationLifetime
  refuseIf (v.expiresAt ≠ expires ∨ verificationAttempts < v.attempts) .invalidVerificationState
  match v.state with
  | .awaitingCode _ => .ok ()
  | .consumed verifiedAt sessionExpiresAt _ => do
    refuseIf (verificationAttempts ≤ v.attempts ∨ verifiedAt < v.issuedAt ∨ v.expiresAt < verifiedAt)
      .invalidVerificationState
    let expires ← deadline verifiedAt sessionLifetime
    refuseIf (sessionExpiresAt ≠ expires) .invalidVerificationState

/-- Restores a session from a consumed verification, for its exact token and current lifetime. -/
def restoreSession (token : SessionTokenDigest) (now : CanonicalTime) : Except GuestError GuestSession :=
  match v.state with
  | .awaitingCode _ => .error .sessionExpired
  | .consumed verifiedAt sessionExpiresAt tokenDigest => do
    refuseIf (token ≠ tokenDigest) .sessionExpired
    let session : GuestSession := ⟨v.mailbox, verifiedAt, sessionExpiresAt⟩
    let _ ← session.authorize now
    .ok session

end Restoring

section Checking
variable [Crypto] (v : MailboxVerification)

def issue (mailbox : GuestMailbox) (code : Text) (salt : Bytes32) (now : CanonicalTime) :
    Except GuestError MailboxVerification := do
  let expires ← deadline now verificationLifetime
  .ok ⟨mailbox, now, expires, 0, .awaitingCode (codeDigest code salt)⟩

def check (e : CodeEntry) : Except GuestError CodeCheck :=
  match v.state with
  | .consumed .. => .error .verificationClosed
  | .awaitingCode expected => do
    refuseIf (e.now < v.issuedAt ∨ v.expiresAt < e.now) .verificationClosed
    refuseIf (verificationAttempts ≤ v.attempts) .tooManyAttempts
    if codeDigest e.code.trim e.salt ≠ expected then .ok (.wrong {v with attempts := v.attempts + 1})
    else do
      let expires ← deadline e.now sessionLifetime
      .ok (.verified {v with state := .consumed e.now expires e.token} ⟨v.mailbox, e.now, expires⟩)

/-! ### Runs -/

/-- What is stored after a call; a refused call stores nothing. -/
def entered (e : CodeEntry) : Except GuestError MailboxVerification := (v.check e).map CodeCheck.next

def run (entries : List CodeEntry) : MailboxVerification := Machine.run entered v entries

/-- What each of the calls returns. -/
def results : MailboxVerification → List CodeEntry → List (Except GuestError CodeCheck)
  | _, [] => []
  | v, e :: rest => v.check e :: results (Machine.advance entered v e) rest

/-- So many wrong codes were evaluated. -/
def wrongCodes (entries : List CodeEntry) : ℕ :=
  (v.results entries).countP fun r => r.toOption.any fun c => !c.isVerified

/-- So many sessions were opened. -/
def sessions (entries : List CodeEntry) : ℕ :=
  (v.results entries).countP fun r => r.toOption.any CodeCheck.isVerified

end Checking

section Runs
variable [Crypto] {v w issued : MailboxVerification} {e : CodeEntry} {r : CodeCheck} {s : GuestSession}
  {entries : List CodeEntry}

/-- Everything a call can do. -/
theorem check_eq_ok : v.check e = .ok r ↔ ∃ expected, v.state = .awaitingCode expected ∧
    (v.issuedAt ≤ e.now ∧ e.now ≤ v.expiresAt) ∧ v.attempts < verificationAttempts ∧
    ((codeDigest e.code.trim e.salt ≠ expected ∧ r = .wrong {v with attempts := v.attempts + 1}) ∨
      (codeDigest e.code.trim e.salt = expected ∧ ∃ expires, deadline e.now sessionLifetime = .ok expires ∧
        r = .verified {v with state := .consumed e.now expires e.token} ⟨v.mailbox, e.now, expires⟩)) := by
  unfold check
  cases hstate : v.state with
  | consumed => simp
  | awaitingCode expected =>
    simp only [bind_eq_ok, refuseIf_eq_ok, not_or, not_lt, not_le, VerificationState.awaitingCode.injEq,
      exists_eq_left']
    by_cases hcode : codeDigest e.code.trim e.salt = expected
    · simp only [hcode, not_true_eq_false, ne_eq, if_false, false_and, false_or, true_and, bind_eq_ok,
        Except.ok.injEq]
      constructor
      · rintro ⟨⟨⟩, hnow, ⟨⟩, hattempts, expires, hexpires, rfl⟩
        exact ⟨hnow, hattempts, expires, hexpires, rfl⟩
      · rintro ⟨hnow, hattempts, expires, hexpires, rfl⟩
        exact ⟨⟨⟩, hnow, ⟨⟩, hattempts, expires, hexpires, rfl⟩
    · simp only [hcode, not_false_eq_true, ne_eq, if_true, true_and, false_and, or_false, Except.ok.injEq]
      constructor
      · rintro ⟨⟨⟩, hnow, ⟨⟩, hattempts, rfl⟩
        exact ⟨hnow, hattempts, rfl⟩
      · rintro ⟨hnow, hattempts, rfl⟩
        exact ⟨⟨⟩, hnow, ⟨⟩, hattempts, rfl⟩

/-! ### Stages -/

/-- The values reached from an issued one: so many wrong codes were evaluated, and perhaps one that matched. -/
inductive Stage (issued : MailboxVerification) : MailboxVerification → Prop
  | awaiting {n : U32} (hn : n ≤ verificationAttempts) : Stage issued {issued with attempts := n}
  | consumed {n : U32} (hn : n < verificationAttempts) {time expires : CanonicalTime} {token : SessionTokenDigest}
      (htime : issued.issuedAt ≤ time ∧ time ≤ issued.expiresAt)
      (hexpires : deadline time sessionLifetime = .ok expires) :
      Stage issued {issued with attempts := n, state := .consumed time expires token}

omit [Crypto] in
theorem attempts_succ {n : U32} (h : n < verificationAttempts) : (n + 1).val = n.val + 1 := by
  have hlt : n.val < 5 := h
  have hone : (1 : U32).val = 1 := rfl
  rw [Fin.val_add]
  exact Nat.mod_eq_of_lt (by omega)

theorem Stage.step (h : Stage issued v) (hstep : v.entered e = .ok w) : Stage issued w := by
  obtain ⟨r, hr, rfl⟩ := map_eq_ok.mp hstep
  obtain ⟨expected, hstate, hnow, hattempts, ⟨-, rfl⟩ | ⟨-, expires, hexpires, rfl⟩⟩ := check_eq_ok.mp hr
  · cases h with
    | @awaiting n hn =>
      have hlt : n.val < 5 := hattempts
      refine .awaiting (n := n + 1) ?_
      show (n + 1).val ≤ 5
      rw [attempts_succ hattempts]
      exact hlt
    | consumed => cases hstate
  · cases h with
    | awaiting => exact .consumed hattempts hnow hexpires
    | consumed => cases hstate

theorem Stage.run (entries : List CodeEntry) (h : Stage issued v) : Stage issued (v.run entries) :=
  Machine.run_preserves (fun _ _ _ h hstep => h.step hstep) h entries

omit [Crypto] in
/-- Every value reached passes what restoring it checks. -/
theorem Stage.valid {digest : Bytes32} (hstate : issued.state = .awaitingCode digest)
    (hdeadline : deadline issued.issuedAt verificationLifetime = .ok issued.expiresAt) (h : Stage issued v) :
    v.validate = .ok () := by
  unfold validate
  cases h with
  | @awaiting n hn =>
    have hattempts : ¬verificationAttempts < n := not_lt.mpr hn
    simp only [hdeadline, hstate, hattempts, ok_bind, bind_eq_ok, refuseIf_eq_ok]
    simp
  | @consumed n hn time expires token htime hexpires =>
    have hattempts : ¬verificationAttempts < n := not_lt.mpr hn.le
    have hopen : ¬(verificationAttempts ≤ n ∨ time < issued.issuedAt ∨ issued.expiresAt < time) := by
      simp only [not_or, not_le, not_lt]
      exact ⟨hn, htime⟩
    simp only [hdeadline, hattempts, hopen, hexpires, ok_bind, bind_eq_ok, refuseIf_eq_ok]
    simp

omit [Crypto] in
/-- What has not been consumed awaits the code it was issued with, for as long. -/
theorem Stage.open_eq {expected : Bytes32} (h : Stage issued v) (hstate : v.state = .awaitingCode expected) :
    issued.state = .awaitingCode expected ∧ v.issuedAt = issued.issuedAt ∧ v.expiresAt = issued.expiresAt := by
  cases h with
  | awaiting => exact ⟨hstate, rfl, rfl⟩
  | consumed => cases hstate

/-! ### Results -/

theorem check_consumed {time expires : CanonicalTime} {token : SessionTokenDigest}
    (h : v.state = .consumed time expires token) (e : CodeEntry) : v.check e = .error .verificationClosed := by
  rw [check, h]

theorem advance_consumed {time expires : CanonicalTime} {token : SessionTokenDigest}
    (h : v.state = .consumed time expires token) (e : CodeEntry) : Machine.advance entered v e = v := by
  rw [Machine.advance, entered, check_consumed h]
  rfl

theorem run_consumed {time expires : CanonicalTime} {token : SessionTokenDigest}
    (h : v.state = .consumed time expires token) (entries : List CodeEntry) : v.run entries = v := by
  induction entries with
  | nil => rfl
  | cons e rest ih =>
    rw [run, Machine.run_cons, advance_consumed h]
    exact ih

theorem wrongCodes_cons (v : MailboxVerification) (e : CodeEntry) (rest : List CodeEntry) :
    v.wrongCodes (e :: rest) = wrongCodes (Machine.advance entered v e) rest +
      if (v.check e).toOption.any (fun c => !c.isVerified) = true then 1 else 0 := List.countP_cons ..

theorem sessions_cons (v : MailboxVerification) (e : CodeEntry) (rest : List CodeEntry) :
    v.sessions (e :: rest) = sessions (Machine.advance entered v e) rest +
      if (v.check e).toOption.any CodeCheck.isVerified = true then 1 else 0 := List.countP_cons ..

theorem results_consumed {time expires : CanonicalTime} {token : SessionTokenDigest}
    (h : v.state = .consumed time expires token) (entries : List CodeEntry) :
    v.wrongCodes entries = 0 ∧ v.sessions entries = 0 := by
  induction entries with
  | nil => exact ⟨rfl, rfl⟩
  | cons e rest ih =>
    rw [wrongCodes_cons, sessions_cons, check_consumed h, advance_consumed h]
    exact ih

theorem advance_of_error {err : GuestError} (h : v.check e = .error err) : Machine.advance entered v e = v := by
  rw [Machine.advance, entered, h]
  rfl

theorem advance_of_check (h : v.check e = .ok r) : Machine.advance entered v e = r.next :=
  Machine.advance_of_ok (map_eq_ok.mpr ⟨r, h, rfl⟩)

/-- Every wrong code uses up an attempt, and nothing else does. -/
theorem attempts_run (v : MailboxVerification) (entries : List CodeEntry) :
    (v.run entries).attempts.val = v.wrongCodes entries + v.attempts.val := by
  induction entries generalizing v with
  | nil => exact (Nat.zero_add _).symm
  | cons e rest ih =>
    rw [run, Machine.run_cons, wrongCodes_cons]
    refine (ih _).trans ?_
    rw [Nat.add_assoc, Nat.add_left_cancel_iff]
    cases hcheck : v.check e with
    | error err =>
      rw [advance_of_error hcheck]
      exact (Nat.zero_add _).symm
    | ok r =>
      rw [advance_of_check hcheck]
      obtain ⟨expected, -, -, hopen, ⟨-, rfl⟩ | ⟨-, expires, -, rfl⟩⟩ := check_eq_ok.mp hcheck
      · exact (attempts_succ hopen).trans (Nat.add_comm ..)
      · exact (Nat.zero_add _).symm

theorem sessions_le_one (v : MailboxVerification) (entries : List CodeEntry) : v.sessions entries ≤ 1 := by
  induction entries generalizing v with
  | nil => exact Nat.zero_le 1
  | cons e rest ih =>
    rw [sessions_cons]
    cases hcheck : v.check e with
    | error err =>
      rw [advance_of_error hcheck]
      exact ih v
    | ok r =>
      rw [advance_of_check hcheck]
      obtain ⟨expected, -, -, -, ⟨-, rfl⟩ | ⟨-, expires, -, rfl⟩⟩ := check_eq_ok.mp hcheck
      · exact ih _
      · have hnone := (@results_consumed _ {v with state := .consumed e.now expires e.token} _ _ _ rfl rest).2
        exact (congrArg (· + 1) hnone).le

/-! ### Runs of an issued verification -/

omit [Crypto] in
theorem Stage.attempts_le (h : Stage issued v) : v.attempts ≤ verificationAttempts := by
  cases h with
  | awaiting hn => exact hn
  | consumed hn => exact hn.le

/-- When the attempts are used up, every check is refused. -/
theorem refused_of_attempts (h : v.attempts = verificationAttempts) (e : CodeEntry) : ∃ err, v.check e = .error err := by
  cases hcheck : v.check e with
  | error err => exact ⟨err, rfl⟩
  | ok r =>
    obtain ⟨-, -, -, hopen, -⟩ := check_eq_ok.mp hcheck
    exact absurd (h ▸ hopen) (lt_irrefl _)

/-- The verification still awaits its code. -/
def IsOpen (v : MailboxVerification) : Prop := ∃ expected, v.state = .awaitingCode expected

/-- The calls behind the one that opened the session leave the verification as it is. -/
theorem run_of_verified {before : List CodeEntry} (h : (v.run before).check e = .ok (.verified w s))
    (after : List CodeEntry) : v.run (before ++ e :: after) = w ∧ ∃ expires,
      w.state = .consumed e.now expires e.token ∧ s = ⟨w.mailbox, e.now, expires⟩ := by
  have hnext : Machine.advance entered (v.run before) e = w := advance_of_check h
  obtain ⟨-, -, -, -, ⟨-, heq⟩ | ⟨-, expires, -, heq⟩⟩ := check_eq_ok.mp h
  · cases heq
  · cases heq
    refine ⟨?_, expires, rfl, rfl⟩
    have hrun : v.run (before ++ e :: after) = (Machine.advance entered (v.run before) e).run after :=
      (Machine.run_append v before (e :: after)).trans (Machine.run_cons ..)
    rw [hrun, hnext]
    exact run_consumed rfl after

/-- A consumed verification was consumed by a call that opened its session. -/
theorem opened_of_consumed (hopen : v.IsOpen) {time expires : CanonicalTime} {token : SessionTokenDigest}
    (h : (v.run entries).state = .consumed time expires token) :
    ∃ before e after, entries = before ++ e :: after ∧ token = e.token ∧
      (v.run before).check e = .ok (.verified (v.run entries) ⟨(v.run entries).mailbox, time, expires⟩) := by
  have hclosed : ¬(v.run entries).IsOpen := by
    rintro ⟨expected, hexpected⟩
    cases hexpected.symm.trans h
  obtain ⟨before, e, after, rfl, hbefore, hafter⟩ := @Machine.run_first_loss _ _ _ entered IsOpen v entries hopen hclosed
  refine ⟨before, e, after, rfl, ?_⟩
  have hrun : Machine.run entered v before = v.run before := rfl
  rw [hrun] at hbefore hafter
  cases hcheck : (v.run before).check e with
  | error err =>
    rw [advance_of_error hcheck] at hafter
    exact absurd hbefore hafter
  | ok r =>
    cases r with
    | wrong w =>
      rw [advance_of_check hcheck] at hafter
      obtain ⟨-, -, -, -, ⟨-, heq⟩ | ⟨-, _, -, heq⟩⟩ := check_eq_ok.mp hcheck
      · cases heq
        exact absurd hbefore hafter
      · cases heq
    | verified w s =>
      obtain ⟨hw, expires', hstate, rfl⟩ := run_of_verified hcheck after
      rw [hw, hstate] at h
      cases h
      exact ⟨rfl, by rw [hw]⟩

omit [Crypto] in
theorem restoreSession_eq_ok {token : SessionTokenDigest} {time : CanonicalTime} :
    v.restoreSession token time = .ok s ↔ ∃ verifiedAt expires, v.state = .consumed verifiedAt expires token ∧
      s = ⟨v.mailbox, verifiedAt, expires⟩ ∧ verifiedAt ≤ time ∧ time ≤ expires := by
  unfold restoreSession
  cases hstate : v.state with
  | awaitingCode => simp
  | consumed verifiedAt expires tokenDigest =>
    simp only [bind_eq_ok, refuseIf_eq_ok, GuestSession.authorize, not_not, not_or, not_lt, Except.ok.injEq,
      VerificationState.consumed.injEq]
    constructor
    · rintro ⟨⟨⟩, rfl, -, ⟨⟨⟩, htime, -⟩, rfl⟩
      exact ⟨_, _, ⟨rfl, rfl, rfl⟩, rfl, htime⟩
    · rintro ⟨_, _, ⟨rfl, rfl, rfl⟩, rfl, htime⟩
      exact ⟨⟨⟩, rfl, _, ⟨⟨⟩, htime, rfl⟩, rfl⟩

theorem issue_eq_ok {mailbox : GuestMailbox} {code : Text} {salt : Bytes32} {now : CanonicalTime} :
    issue mailbox code salt now = .ok v ↔ deadline now verificationLifetime = .ok v.expiresAt ∧
      v = ⟨mailbox, now, v.expiresAt, 0, .awaitingCode (codeDigest code salt)⟩ := by
  simp only [issue, bind_eq_ok, Except.ok.injEq]
  constructor
  · rintro ⟨expires, hexpires, rfl⟩
    exact ⟨hexpires, rfl⟩
  · rintro ⟨hexpires, hv⟩
    exact ⟨_, hexpires, hv.symm⟩

/-- **Mailbox verification is bounded and single use.** Of a verification issued at any time, whatever
calls are made: at most five wrong codes are evaluated, after which every call is refused; at most one
session is opened, by a code whose digest matches within the lifetime, after which every call is
refused; every value reached passes what restoring it checks; and a session is restored only for the
token of the call that opened it, as it was opened. -/
theorem check_once (mailbox : GuestMailbox) (code : Text) (salt : Bytes32) (now : CanonicalTime)
    (v : MailboxVerification) (h : issue mailbox code salt now = .ok v) (entries : List CodeEntry) :
    v.wrongCodes entries ≤ 5 ∧ v.sessions entries ≤ 1 ∧ (v.run entries).validate = .ok () ∧
    (v.wrongCodes entries = 5 → ∀ e, ∃ err, (v.run entries).check e = .error err) ∧
    (∀ before e after w s, entries = before ++ e :: after → (v.run before).check e = .ok (.verified w s) →
      codeDigest e.code.trim e.salt = codeDigest code salt ∧ now ≤ e.now ∧
        e.now.millis ≤ now.millis + verificationLifetime.val.val ∧
        ∀ e', (v.run entries).check e' = .error .verificationClosed) ∧
    ∀ token time s', (v.run entries).restoreSession token time = .ok s' →
      ∃ before e after w s, entries = before ++ e :: after ∧ (v.run before).check e = .ok (.verified w s) ∧
        token = e.token ∧ s' = s := by
  obtain ⟨hdeadline, hv⟩ := issue_eq_ok.mp h
  have hstate : v.state = .awaitingCode (codeDigest code salt) := by rw [hv]
  have hissued : v.issuedAt = now := by rw [hv]
  have hzero : v.attempts = 0 := by rw [hv]
  have hstart : Stage v v := .awaiting (n := v.attempts) (by rw [hzero]; decide)
  have hcount : (v.run entries).attempts.val = v.wrongCodes entries := by
    rw [attempts_run, hzero]
    rfl
  have hattempts : (v.run entries).attempts ≤ verificationAttempts := (hstart.run entries).attempts_le
  refine ⟨hcount ▸ hattempts, sessions_le_one v entries, (hstart.run entries).valid hstate (hissued ▸ hdeadline),
    fun hfive => refused_of_attempts (Fin.ext (hcount.trans hfive)), ?_, ?_⟩
  · rintro before e after w s rfl hcheck
    obtain ⟨hrun, expires, hconsumed, -⟩ := run_of_verified hcheck after
    obtain ⟨expected, hexpected, htime, -, ⟨-, heq⟩ | ⟨hcode, -⟩⟩ := check_eq_ok.mp hcheck
    · cases heq
    · obtain ⟨hawaited, hsince, huntil⟩ := (hstart.run before).open_eq hexpected
      cases hstate.symm.trans hawaited
      rw [hsince, huntil, hissued] at htime
      have hlifetime : v.expiresAt.millis = now.millis + verificationLifetime.val.val :=
        CanonicalTime.checkedAdd_eq_some.mp (okOr_eq_ok.mp hdeadline)
      exact ⟨hcode, htime.1, hlifetime ▸ CanonicalTime.le_iff_millis.mp htime.2,
        fun e' => hrun ▸ check_consumed hconsumed e'⟩
  · intro token time s' hrestore
    obtain ⟨verifiedAt, expires, hconsumed, rfl, -⟩ := restoreSession_eq_ok.mp hrestore
    obtain ⟨before, e, after, hentries, htoken, hcheck⟩ := opened_of_consumed ⟨_, hstate⟩ hconsumed
    exact ⟨before, e, after, _, _, hentries, hcheck, htoken, rfl⟩

end Runs

/-! ### A wrong code, and the right one -/

namespace Example

/-- The last bytes stand for the digest. -/
local instance : Crypto := ⟨fun b => Vector.ofFn fun i => b.reverse.getD i.val 0, fun _ => true, fun _ _ _ => true⟩

def mailbox : GuestMailbox := ⟨"ann".toList, ⟨"mail.example".toList⟩⟩

def verification : MailboxVerification :=
  ⟨mailbox, ⟨10⟩, ⟨900_010⟩, 0, .awaitingCode (codeDigest "1234".toList zero32)⟩

def token : SessionTokenDigest := ⟨zero32⟩

def entries : List CodeEntry := [⟨"4321".toList, zero32, token, ⟨11⟩⟩, ⟨" 1234".toList, zero32, token, ⟨12⟩⟩]

theorem verification_issued : issue mailbox "1234".toList zero32 ⟨10⟩ = .ok verification := rfl

/-- One wrong code is counted, the session is that of the second call, and nobody opens another. -/
theorem check_once_entered : verification.wrongCodes entries ≤ 5 ∧
    (verification.run entries).restoreSession token ⟨13⟩ = .ok ⟨mailbox, ⟨12⟩, ⟨7_200_012⟩⟩ ∧
    ∀ e, (verification.run entries).check e = .error .verificationClosed := by
  obtain ⟨hwrong, -, -, -, hverified, -⟩ :=
    check_once mailbox "1234".toList zero32 ⟨10⟩ verification verification_issued entries
  refine ⟨hwrong, by decide +kernel, ?_⟩
  have hcheck : (verification.run [⟨"4321".toList, zero32, token, ⟨11⟩⟩]).check
      ⟨" 1234".toList, zero32, token, ⟨12⟩⟩ = .ok (.verified (verification.run entries)
        ⟨mailbox, ⟨12⟩, ⟨7_200_012⟩⟩) := by decide +kernel
  exact (hverified _ _ [] _ _ rfl hcheck).2.2.2

end Example
end MailboxVerification
end CsMail
