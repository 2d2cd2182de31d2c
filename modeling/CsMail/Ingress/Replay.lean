import CsMail.Billing.AccountProofs
import CsMail.Ingress.Progress
import CsMail.Requests.Agreement
import CsMail.Wire.RoundTrip

/-! What lasts: the identity of a command, and its outcome.

A repetition is answered from the row of the first receipt, however the inbox, the keys and the
relationships have changed since. What a command came to is only ever replaced by its own digest. -/
namespace CsMail.Ingress
open Library

section
variable {W : Type} {H : Handlers W} [Crypto]

/-! ### Repetitions -/

theorem Moved.ingressScopes {l l' : Log W} {c : Option (BigInt × Received)} (h : Moved H l c l') {key : Text}
    {stored : IngressScope} (hstored : l.ingressScopes.get? key = some stored) :
    l'.ingressScopes.get? key = some stored := by
  cases h with
  | kept _ _ _ _ scopes => exact scopes key stored hstored
  | _ => exact hstored

/-- The command an entry was received as, for as long as the inbox lasts. -/
structure Known (H : Handlers W) (l : Log W) (p : BigInt) (s : Submission W) (stored : IngressScope) : Prop where
  sound : Sound H l
  scope : l.ingressScopes.get? s.aggregate = some stored
  row : ∃ r, l.rows.get? p = some r ∧ r.aggregate = s.aggregate ∧ r.idempotencyKey = s.replay.id ∧
    r.fingerprint = s.replay.fingerprint

theorem Known.step {l l' : Log W} {p : BigInt} {s : Submission W} {stored : IngressScope} {c : Call W}
    (h : Known H l p s stored) (hcall : call H l c = .ok l') : Known H l' p s stored := by
  have hmoved := call_moved hcall
  refine ⟨h.sound.step hcall, hmoved.ingressScopes h.scope, ?_⟩
  obtain ⟨r, hr, hagg, hid, hprint⟩ := h.row
  obtain ⟨r', hr', hsame, -⟩ := (hmoved.carried h.sound).kept p r hr
  exact ⟨r', hr', hsame.aggregate.trans hagg, hsame.idempotencyKey.trans hid, hsame.fingerprint.trans hprint⟩

omit [Crypto] in
theorem Log.find_eq_some {l : Log W} (hordered : Ordered l) {p : BigInt} {r : Received}
    (hr : l.rows.get? p = some r) : l.find r.aggregate r.idempotencyKey = some (p, r) := by
  cases hfind : l.find r.aggregate r.idempotencyKey with
  | none => exact absurd ⟨rfl, rfl⟩ (Log.find_eq_none hfind hr)
  | some e =>
    have hat : l.rows.get? e.1 = some e.2 := SortedMap.mem_entries.mp (List.mem_of_find?_eq_some hfind)
    have hsame := List.find?_some hfind
    simp only [decide_eq_true_eq] at hsame
    have hp := hordered.identities e.1 p e.2 r hat hr hsame.1 hsame.2
    rw [hp, hr] at hat
    rw [← Prod.mk.eta (p := e), hp, ← Option.some.inj hat]

/-- A command of this identity: the same evidence gets the same position, other evidence nothing. -/
theorem Known.receive {l : Log W} {p : BigInt} {s t : Submission W} {stored : IngressScope}
    (h : Known H l p s stored) (haggregate : t.aggregate = s.aggregate) (hid : t.replay.id = s.replay.id)
    (hscope : stored.admits t.deployment t.policy = true) :
    t.replay.fingerprint = s.replay.fingerprint ∧ l.receive H t = .ok (l, ⟨p, s.aggregate, true⟩) ∨
      t.replay.fingerprint ≠ s.replay.fingerprint ∧ l.receive H t = .error .duplicateConflict := by
  obtain ⟨r, hr, hagg, hkey, hprint⟩ := h.row
  have hfind : l.find t.aggregate t.replay.id = some (p, r) := by
    rw [haggregate, hid, ← hagg, ← hkey]
    exact Log.find_eq_some h.sound.ordered hr
  have hvalid : l.validateIngressScope t.aggregate t.deployment t.policy = .ok ⟨⟩ := by
    simp [Log.validateIngressScope, haggregate, h.scope, hscope, okOr, refuseIf]
  rw [Log.receive, hvalid, ok_bind, hfind]
  dsimp only
  by_cases hsame : t.replay.fingerprint = s.replay.fingerprint
  · refine .inl ⟨hsame, ?_⟩
    rw [refuseIf, if_neg (by simp [hprint, hsame]), haggregate]
    rfl
  · refine .inr ⟨hsame, ?_⟩
    rw [refuseIf, if_pos (by rw [hprint]; exact Ne.symm hsame)]
    rfl

/-- Every way in records a command under the identity it is looked up by. -/
theorem Entry.verify_id [Cbor] [Json] {entry : Entry} {replay : ReplayIdentity} {deployment : Bytes32}
    (hreplay : entry.replay = .ok replay) {world world' : W} {key : Text} {now : CanonicalTime}
    {policy : PolicySnapshot} {id : IdempotencyKey} {digest : Bytes32} {operation : Operation}
    (h : entry.verify H deployment world key now policy = .ok (world', id, digest, operation)) :
    id = replay.id := by
  cases entry with
  | signed s =>
    simp only [Entry.replay, bind_eq_ok, mapError_eq_ok] at hreplay
    obtain ⟨envelope, henvelope, hreplay⟩ := hreplay
    simp only [Entry.verify, verifySigned, AuthoritySnapshot.verify, bind_eq_ok, mapError_eq_ok] at h
    obtain ⟨_, _, _, _, verified, ⟨_, _, _, _, hverified⟩, h⟩ := h
    obtain ⟨envelope', _, henvelope', _, _, rfl⟩ := KeyRegistry.verify_eq_ok.mp hverified
    rw [henvelope] at henvelope'
    cases henvelope'
    cases hreplay
    cases h
    rfl
  | grant s idempotency =>
    simp only [Entry.replay, bind_eq_ok] at hreplay
    obtain ⟨_, _, hreplay⟩ := hreplay
    simp only [Entry.verify, verifyGrant, bind_eq_ok] at h
    obtain ⟨_, _, _, _, _, _, _, _, _, _, _, _, h⟩ := h
    cases hreplay
    cases h
    rfl
  | control s =>
    simp only [Entry.verify, verifyControl, bind_eq_ok] at h
    obtain ⟨_, _, _, _, _, _, _, _, h⟩ := h
    cases hreplay
    cases h
    rfl
  | legacy a =>
    simp only [Entry.replay, bind_eq_ok] at hreplay
    obtain ⟨_, _, hreplay⟩ := hreplay
    simp only [Entry.verify, verifyLegacy, bind_eq_ok] at h
    obtain ⟨_, _, _, _, h⟩ := h
    cases hreplay
    cases h
    rfl

/-- A receipt leaves a row that knows the command. -/
theorem Log.receive_known {l l' : Log W} {s : Submission W} {handle : ReceivedCommand} (hsound : Sound H l)
    (hid : ∀ world id digest operation, s.verify l.world s.aggregate s.now s.policy =
      .ok (world, id, digest, operation) → id = s.replay.id)
    (h : l.receive H s = .ok (l', handle)) : handle.aggregate = s.aggregate ∧
      ∃ stored, stored.admits s.deployment s.policy = true ∧ Known H l' handle.position s stored := by
  have hmoved := Log.receive_moved h
  have hsound' : Sound H l' := hsound.step (c := .receive s) (by rw [call, h]; rfl)
  simp only [Log.receive, Log.validateIngressScope, bind_eq_ok, okOr_eq_ok, refuseIf_eq_ok,
    Bool.not_eq_false] at h
  obtain ⟨_, ⟨stored, hstored, hadmits⟩, h⟩ := h
  have hscope := hmoved.ingressScopes hstored
  cases hfind : l.find s.aggregate s.replay.id with
  | some e =>
    obtain ⟨p, r⟩ := e
    rw [hfind] at h
    simp only [bind_eq_ok, refuseIf_eq_ok, not_not] at h
    obtain ⟨_, hprint, h⟩ := h
    cases h
    have hsame := List.find?_some hfind
    simp only [decide_eq_true_eq] at hsame
    have hat : l.rows.get? p = some r := SortedMap.mem_entries.mp (List.mem_of_find?_eq_some hfind)
    exact ⟨rfl, stored, hadmits, hsound', hscope, r, hat, hsame.1, hsame.2, hprint⟩
  | none =>
    rw [hfind] at h
    simp only [bind_eq_ok] at h
    obtain ⟨_, _, _, _, ⟨world, id, digest, operation⟩, hverify, ⟨_, position⟩, hrecord, h⟩ := h
    cases h
    simp only [Log.record, bind_eq_ok] at hrecord
    obtain ⟨_, _, _, _, _, _, _, _, _, _, hrecord⟩ := hrecord
    cases hrecord
    refine ⟨rfl, stored, hadmits, hsound', hscope, _, SortedMap.get?_insert_self .., rfl, ?_, rfl⟩
    exact hid world id digest operation hverify

omit [Crypto] in
theorem IngressScope.admits_congr {deployment deployment' : Bytes32} {policy policy' : PolicySnapshot}
    (h : of deployment' policy' = of deployment policy) (stored : IngressScope) :
    stored.admits deployment' policy' = stored.admits deployment policy := by
  have hparts := h
  simp only [of, IngressScope.mk.injEq] at hparts
  obtain ⟨hdeployment, hprovider, hversion, hfinancial⟩ := hparts
  rw [Bool.eq_iff_iff]
  simp only [admits, decide_eq_true_eq]
  rw [h, hdeployment, hprovider, hversion, hfinancial]

/-- A command once received is known for good. Its repetition is answered with the position it got, and
changes nothing; another command under its identity is refused. -/
theorem receive_replays [Cbor] [Json] (world : W) (before : List (Call W)) {entry : Entry} {aggregate : Text}
    {deployment : Bytes32} {now : CanonicalTime} {policy : PolicySnapshot} {s : Submission W}
    (hentry : entry.submission H aggregate deployment now policy = .ok s) {l' : Log W}
    {handle : ReceivedCommand}
    (hreceive : (Machine.run (call H) (Log.start world) before).receive H s = .ok (l', handle))
    (after : List (Call W)) {t : Submission W} (haggregate : t.aggregate = aggregate)
    (hid : t.replay.id = s.replay.id)
    (hscope : IngressScope.of t.deployment t.policy = IngressScope.of deployment policy) :
    let l := Machine.run (call H) l' after
    t.replay.fingerprint = s.replay.fingerprint ∧
        l.receive H t = .ok (l, ⟨handle.position, handle.aggregate, true⟩) ∨
      t.replay.fingerprint ≠ s.replay.fingerprint ∧ l.receive H t = .error .duplicateConflict := by
  intro l
  simp only [Entry.submission, bind_eq_ok] at hentry
  obtain ⟨replay, hreplay, hentry⟩ := hentry
  cases hentry
  obtain ⟨hhandle, stored, hadmits, hknown⟩ :=
    Log.receive_known ((Sound.start world).run before) (fun _ _ _ _ => Entry.verify_id hreplay) hreceive
  have hlast : Known H l handle.position _ stored :=
    Machine.run_preserves (P := fun l => Known H l handle.position _ stored)
      (fun _ _ _ h hcall => h.step hcall) hknown after
  rw [hhandle]
  refine hlast.receive haggregate hid ?_
  rw [IngressScope.admits_congr hscope]
  exact hadmits

/-! ### Outcomes -/

/-- An outcome, or what retirement leaves of it. -/
def ReceivedOutcome.Becomes (H : Handlers W) (o o' : ReceivedOutcome) : Prop :=
  o' = o ∨ ∃ digest, o' = .retired digest ∧ o.digest H = some digest

theorem ReceivedOutcome.Becomes.trans {a b c : ReceivedOutcome} (hab : a.Becomes H b) (hbc : b.Becomes H c) :
    a.Becomes H c := by
  rcases hab with rfl | ⟨digest, rfl, hdigest⟩
  · exact hbc
  · rcases hbc with rfl | ⟨digest', rfl, hdigest'⟩
    · exact .inr ⟨digest, rfl, hdigest⟩
    · cases hdigest'
      exact .inr ⟨digest, rfl, hdigest⟩

/-- Settled commands stay what they are. -/
def Lasting (H : Handlers W) (l l' : Log W) : Prop :=
  ∀ p r o, l.rows.get? p = some r → r.outcome = some o →
    ∃ r' o', l'.rows.get? p = some r' ∧ r.SameCommand r' ∧ r'.outcome = some o' ∧ o.Becomes H o'

theorem Lasting.refl (l : Log W) : Lasting H l l := fun _ r o hr ho => ⟨r, o, hr, .refl r, ho, .inl rfl⟩

theorem Lasting.trans {a b c : Log W} (hab : Lasting H a b) (hbc : Lasting H b c) : Lasting H a c := by
  intro p r o hr ho
  obtain ⟨r₁, o₁, hr₁, hs₁, ho₁, hb₁⟩ := hab p r o hr ho
  obtain ⟨r₂, o₂, hr₂, hs₂, ho₂, hb₂⟩ := hbc p r₁ o₁ hr₁ ho₁
  exact ⟨r₂, o₂, hr₂, hs₁.trans hs₂, ho₂, hb₁.trans hb₂⟩

/-- A row that was pending may change; the others are as they were. -/
theorem Lasting.insert {l l' : Log W} {p : BigInt} {r' : Received} (hrows : l'.rows = l.rows.insert p r')
    (hpending : ∀ r, l.rows.get? p = some r → r.outcome = none) : Lasting H l l' := by
  intro q s o hs ho
  have hne : q ≠ p := by
    rintro rfl
    rw [hpending s hs] at ho
    cases ho
  exact ⟨s, o, by rw [hrows, SortedMap.get?_insert_ne _ _ hne]; exact hs, .refl s, ho, .inl rfl⟩

theorem Moved.lasting {l l' : Log W} {c : Option (BigInt × Received)} (h : Sound H l)
    (hmoved : Moved H l c l') : Lasting H l l' := by
  cases hmoved with
  | kept rows _ _ _ _ => exact fun _ r o hr ho => ⟨r, o, rows ▸ hr, .refl r, ho, .inl rfl⟩
  | received position _ _ _ _ =>
    refine .insert rfl fun s hs => ?_
    have := h.ordered.drawn _ s hs
    omega
  | settled next row =>
    obtain ⟨hrow, heligible⟩ := Log.nextEligible_eq_some next
    refine .insert rfl fun s hs => ?_
    rw [hrow] at hs
    cases hs
    exact Log.eligible_pending heligible
  | marked row pending =>
    refine .insert rfl fun s hs => ?_
    rw [row] at hs
    cases hs
    exact pending
  | signed _ _ => exact .refl l
  | stored _ _ => exact fun _ r o hr ho => ⟨r, o, hr, .refl r, ho, .inl rfl⟩
  | @retired p r aggregate receipt world row attested =>
    intro q s o hs ho
    by_cases hq : q = p
    · subst hq
      rw [row] at hs
      cases hs
      obtain ⟨payload, hpayload, habout⟩ := h.receipted.attested q r o row ho
      obtain rfl := h.receipted.agree q payload receipt.payload hpayload
        (.inr (.inr ⟨aggregate, receipt, attested, rfl⟩))
      exact ⟨_, _, SortedMap.get?_insert_self .., ⟨rfl, rfl, rfl, rfl, rfl, rfl⟩, rfl,
        .inr ⟨_, rfl, habout.outcome⟩⟩
    · exact ⟨s, o, by rw [SortedMap.get?_insert_ne _ _ hq]; exact hs, .refl s, ho, .inl rfl⟩

/-- The outcome of a command lasts, or its digest does; and of the command there is one receipt only,
whoever signed it and when: it names the command, its position and that outcome. -/
theorem outcome_lasts (world : W) (before after : List (Call W)) {p : BigInt} {r : Received}
    {o : ReceivedOutcome} (hr : (Machine.run (call H) (Log.start world) before).rows.get? p = some r)
    (ho : r.outcome = some o) :
    let l := Machine.run (call H) (Log.start world) (before ++ after)
    ∃ r' o' payload, l.rows.get? p = some r' ∧ r.SameCommand r' ∧ r'.outcome = some o' ∧ o.Becomes H o' ∧
      (∀ x, l.Attested p x ↔ x = payload) ∧ payload.About H p r o := by
  intro l
  have hsound : Sound H (Machine.run (call H) (Log.start world) before) := (Sound.start world).run before
  have hlast : Sound H l := (Sound.start world).run (before ++ after)
  have hlasting : Lasting H (Machine.run (call H) (Log.start world) before) l := by
    show Lasting H _ (Machine.run (call H) (Log.start world) (before ++ after))
    rw [Machine.run_append]
    exact Machine.run_relates (P := Sound H) Lasting.refl (fun _ _ _ => Lasting.trans)
      (fun _ _ _ hs hcall => ⟨hs.step hcall, (call_moved hcall).lasting hs⟩) hsound after
  obtain ⟨r', o', hr', hsame, ho', hbecomes⟩ := hlasting p r o hr ho
  obtain ⟨payload, hpayload, habout⟩ := hlast.receipted.attested p r' o' hr' ho'
  refine ⟨r', o', payload, hr', hsame, ho', hbecomes, fun x => ⟨fun hx => ?_, fun hx => hx ▸ hpayload⟩, ?_⟩
  · exact hlast.receipted.agree p x payload hx hpayload
  · refine ⟨habout.command.trans hsame.digest, habout.position, ?_⟩
    rcases hbecomes with rfl | ⟨digest, rfl, hdigest⟩
    · exact habout.outcome
    · rw [hdigest]
      exact habout.outcome

end

/-! ### A lane control that finds no lane -/

namespace Example

local instance : Crypto := ⟨fun b => Vector.ofFn fun i => b.getD i.val 7, fun _ => true, fun _ _ _ => true⟩
local instance : Cbor := CanonicalCommandEnvelope.Example.cbor
local instance : Json := BillingAccount.Example.json

def member : ProtocolIdentity := ⟨12⟩
def aggregate : Text := "pair".toList
def deployment : Bytes32 := Vector.replicate 32 1

def registry : KeyRegistry := {KeyRegistry.empty with
  keys := SortedMap.empty.insert ⟨6⟩ ⟨⟨6⟩, .recipient member, zero32, ⟨0⟩, .active, .initial⟩}

def authority : AuthoritySnapshot :=
  ⟨.empty, SortedMap.empty.insert ⟨5⟩ ⟨SortedMap.empty.insert member (), registry⟩⟩

/-- The rest of the database counts the receipts it is asked for. -/
def handlers : Handlers ℕ where
  relationship _ _ := .ok ⟨⟨1, Vector.replicate 32 3⟩, ⟨11⟩, member⟩
  registryLocked _ _ := .ok authority
  participants _ _ := .ok [⟨⟨11⟩, none⟩, ⟨member, some ⟨5⟩⟩]
  personaAccount _ _ := none
  contentStored _ _ _ := true
  verifies _ _ _ := true
  isGuest _ _ := .ok false
  registerLegacyDomain w _ _ _ := .ok w
  applyProtocol _ _ _ _ _ _ _ _ := .error .database
  applyFree _ _ _ _ _ _ _ := .error .database
  applyGrant _ _ _ _ _ _ := .error .database
  applyControl _ _ _ _ _ := .error (.capability .missingLane)
  outcomeBytes _ := some [1]
  enqueueArtifacts w _ _ _ := .ok (w + 1)
  registerRecords w _ := .ok w
  recordQuote w _ _ := w
  workOpen _ _ _ := false
  forget w _ _ := w

def control : SignedLaneControl where
  control := ⟨⟨1⟩, member, .revoke, .initial, ⟨40⟩, ⟨2⟩, deployment, ⟨1⟩, ⟨6⟩⟩
  signature := Vector.replicate 64 0

def submission (now : CanonicalTime) : Submission ℕ where
  aggregate := aggregate
  deployment := deployment
  now := now
  policy := CsMail.Example.policy
  replay := .signed ⟨40⟩ control.control.signingBytes control.signature
  verify := verifyControl handlers control deployment

def configured : List (Call ℕ) :=
  [.configureIngress aggregate deployment CsMail.Example.policy ⟨.initial, []⟩]

/-- The control as it was received. -/
def row : Received where
  aggregate := aggregate
  idempotencyKey := ⟨40⟩
  digest := Crypto.sha256 control.control.signingBytes
  deployment := deployment
  receivedAt := 9
  evidence := some ⟨.control control.control, CsMail.Example.policy, authority⟩
  fingerprint := (submission ⟨9⟩).replay.fingerprint
  contentAvailable := true
  scopes := ["persona:11".toList, "persona:12".toList, "account:5".toList]
  outcome := none
  receipt := none
  failure := none
  failedAttempts := 0

def recorded : Log ℕ := {Machine.run (call handlers) (Log.start 0) configured with
  rows := SortedMap.empty.insert 1 row
  nextPosition := 2}

theorem received_once :
    (Machine.run (call handlers) (Log.start 0) configured).receive handlers (submission ⟨9⟩) =
      .ok (recorded, ⟨1, aggregate, false⟩) := by
  rfl

theorem entered : (Entry.control control).submission handlers aggregate deployment ⟨9⟩
    CsMail.Example.policy = .ok (submission ⟨9⟩) := rfl

/-- The control comes again, after it was refused, with a later clock. -/
theorem receive_replays_example :
    let l := Machine.run (call handlers) recorded [.processNext, .draw]
    (submission ⟨30⟩).replay.fingerprint = (submission ⟨9⟩).replay.fingerprint ∧
        l.receive handlers (submission ⟨30⟩) = .ok (l, ⟨1, aggregate, true⟩) ∨
      (submission ⟨30⟩).replay.fingerprint ≠ (submission ⟨9⟩).replay.fingerprint ∧
        l.receive handlers (submission ⟨30⟩) = .error .duplicateConflict :=
  receive_replays 0 configured entered received_once [.processNext, .draw] rfl rfl rfl

/-- The control was refused: there is no lane to revoke. -/
def refusedRow : Received := {row with
  outcome := some (.refused (.capability .missingLane))
  receipt := some {
    deploymentDomain := deployment
    receiptId := 1
    kind := .refused
    relationship := ⟨1, Vector.replicate 32 3⟩
    commandDigest := row.digest
    journalPosition := ⟨1⟩
    receivedAt := ⟨9⟩
    outcomeDigest := Crypto.sha256 [1]
    provider := ⟨1⟩
    protocolVersion := ⟨2⟩}}

theorem settled : (Machine.run (call handlers) (Log.start 0)
    (configured ++ [.receive (submission ⟨9⟩), .processNext])).rows.get? 1 = some refusedRow := by
  rfl

theorem outcome_lasts_example :
    let l := Machine.run (call handlers) (Log.start 0)
      ((configured ++ [.receive (submission ⟨9⟩), .processNext]) ++ [.processNext])
    ∃ r' o' payload, l.rows.get? 1 = some r' ∧ refusedRow.SameCommand r' ∧ r'.outcome = some o' ∧
      (ReceivedOutcome.refused (.capability .missingLane)).Becomes handlers o' ∧
      (∀ x, l.Attested 1 x ↔ x = payload) ∧
      payload.About handlers 1 refusedRow (.refused (.capability .missingLane)) :=
  outcome_lasts 0 (configured ++ [.receive (submission ⟨9⟩), .processNext]) [.processNext] settled rfl

theorem waits : (Machine.run (call handlers) (Log.start 0) (configured ++ [.receive (submission ⟨9⟩)])).row
    aggregate 1 = some row := by
  rfl

theorem received_told_example :
    let l := Machine.run (call handlers) (Log.start 0) (configured ++ [.receive (submission ⟨9⟩)])
    ∃ n, (processReceived handlers ⟨1, aggregate, false⟩ false l).1 =
        Machine.run (call handlers) l (List.replicate n .processNext) ∧
      Told ⟨1, aggregate, false⟩ (processReceived handlers ⟨1, aggregate, false⟩ false l).1
        (processReceived handlers ⟨1, aggregate, false⟩ false l).2 :=
  received_told 0 (configured ++ [.receive (submission ⟨9⟩)]) waits

end Example

end CsMail.Ingress
