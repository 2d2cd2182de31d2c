import CsMail.Declarations

/-! Lanes: moneyless permission to write, scoped to one sender and one recipient.

A lane is granted by its recipient or derived from an accepted request under the reply
terms agreed in it. -/
namespace CsMail
open Library

inductive CapabilityError
  | invalidGrant
  | invalidPublicKey
  | invalidSignature
  | duplicateConflict
  | missingLane
  | notAuthorized
  | rateLimitExceeded
  | capacityExceeded
  | arithmeticOverflow
  | invalidDeclaration
  | scopeMismatch
  | messageValidityClosed
  | unsupportedCriticalExtension
  | unsupportedWireVersion
  deriving DecidableEq

/-- A domain name, as evidence about legacy mail carries it. -/
structure DomainIdentity where
  name : Text
  deriving DecidableEq

def DomainIdentity.isSelfOrSubdomainOf (d parent : DomainIdentity) : Bool :=
  d = parent ∨ ('.' :: parent.name).isSuffixOf d.name = true

inductive DmarcAlignment
  | strict
  | relaxed
  deriving DecidableEq

structure DmarcPass where
  alignment : DmarcAlignment
  deriving DecidableEq

structure VerifiedDomain where
  authorDomain : DomainIdentity
  dkim : Option DmarcPass
  spf : Option DmarcPass
  evaluatedAt : CanonicalTime
  deriving DecidableEq

/-- Versioned binding between verifier evidence and the recipient's lane scope. -/
structure LegacyDmarcEvidence where
  formatVersion : U16
  laneDomain : DomainIdentity
  verification : VerifiedDomain
  deriving DecidableEq

inductive DmarcEvidenceError
  | noPassingMechanism
  | outsideLaneDomain
  deriving DecidableEq

/-- Binds an authenticated author to a recipient-granted domain scope. -/
def LegacyDmarcEvidence.new (laneDomain : DomainIdentity) (verification : VerifiedDomain) :
    Except DmarcEvidenceError LegacyDmarcEvidence := do
  refuseIf (verification.authorDomain.isSelfOrSubdomainOf laneDomain = false) .outsideLaneDomain
  .ok ⟨1, laneDomain, verification⟩

structure ScopedHandle where
  bytes : Bytes32
  deriving DecidableEq

inductive LaneSubject
  | native (handle : ScopedHandle)
  | legacyDomain (domain : DomainIdentity)
  | guestMailbox (identity : ProtocolIdentity)
  deriving DecidableEq

inductive LaneMode
  | expiring
  | persistent
  deriving DecidableEq

inductive DeclarationAuthorityConstraint
  | nativeSender
  | legacyGateway
  | guestGateway
  deriving DecidableEq

def DeclarationAuthorityConstraint.admits :
    DeclarationAuthorityConstraint → DeclarationAuthority → Bool
  | nativeSender, .nativeSender _ => true
  | legacyGateway, .legacyGateway _ | legacyGateway, .guestSmtp _ => true
  | guestGateway, .guestGateway _ | guestGateway, .guestSmtp _ => true
  | _, _ => false

structure RateLimit where
  maxMessages : U32
  interval : Duration
  deriving DecidableEq

def RateLimit.valid (r : RateLimit) : Bool := 0 < r.maxMessages.val && 0 < r.interval.val.val

structure SenderScopedGrant where
  id : LaneId
  subject : LaneSubject
  sender : ProtocolIdentity
  recipient : ProtocolIdentity
  protocolVersion : ProtocolVersion
  deploymentDomain : Bytes32
  intendedProvider : ProviderRef
  recipientOperationalKey : OperationalKeyRef
  purpose : DeclaredPurpose
  origin : Option OriginMode
  declarationAuthority : DeclarationAuthorityConstraint
  lifetime : Duration
  rateLimit : RateLimit
  mode : LaneMode
  issuedAt : CanonicalTime
  notBefore : CanonicalTime
  notAfter : CanonicalTime
  version : Version
  deriving DecidableEq

/-- The authority a grant may demand depends on whom it is for. -/
def LaneSubject.permits : LaneSubject → DeclarationAuthorityConstraint → Bool
  | native _, .nativeSender => true
  | legacyDomain _, .legacyGateway => true
  | guestMailbox _, .guestGateway => true
  | _, _ => false

def LaneSubject.foreignGuest (sender : ProtocolIdentity) : LaneSubject → Bool
  | guestMailbox p => p.val = 0 || p ≠ sender
  | _ => false

def SenderScopedGrant.validate (g : SenderScopedGrant) : Except CapabilityError Unit := do
  g.purpose.validate.mapError fun _ => .invalidDeclaration
  refuseIf (g.id.val = 0 ∨ g.sender.val = 0 ∨ g.recipient.val = 0 ∨ g.intendedProvider.val = 0 ∨
    g.recipientOperationalKey.val = 0 ∨ g.subject.foreignGuest g.sender = true ∨
    g.lifetime.val = 0 ∨ g.protocolVersion.val = 0 ∨ g.rateLimit.valid = false ∨
    g.notBefore < g.issuedAt ∨ g.notAfter ≤ g.notBefore ∨
    g.subject.permits g.declarationAuthority = false ∨
    (g.declarationAuthority = .legacyGateway ∧ g.origin ≠ none ∧
      g.origin ≠ some .legacyOrUnspecified)) .invalidGrant

inductive LaneState
  | active
  | awaitingReconfirmation
  | expired
  | revoked
  deriving DecidableEq

inductive LaneAuthority
  | recipientGrant
  | requestAcceptance (request : RequestId) (relationship : RelationshipRef)
      (creation acceptance : EventRef)
  deriving DecidableEq

/-- An acceptance must name its request and its two events. -/
def LaneAuthority.unidentified : LaneAuthority → Bool
  | recipientGrant => false
  | requestAcceptance request _ creation acceptance =>
    request.val = 0 || creation.position.val = 0 || acceptance.position.val = 0

structure SenderScopedLane where
  authority : LaneAuthority
  grant : SenderScopedGrant
  state : LaneState
  lastActivity : CanonicalTime
  horizonAt : CanonicalTime
  rateWindowStartedAt : CanonicalTime
  messagesInRateWindow : U32
  version : Version
  admittedMessages : SortedMap MessageId Unit
  deriving DecidableEq

inductive LaneHorizonEffect
  | none
  | reviewReminder
  | reconfirmationRequired
  deriving DecidableEq

/-- The complete, revision-bound consequence of ending an existing lane. -/
structure LaneRevocation where
  expectedVersion : Version
  lane : SenderScopedLane
  deriving DecidableEq

inductive LaneEvidence
  | native (handle : ScopedHandle)
  | legacy (evidence : LegacyDmarcEvidence)
  | guestMailbox (identity : ProtocolIdentity)
  deriving DecidableEq

def LaneEvidence.supports : LaneEvidence → LaneSubject → Bool
  | guestMailbox actual, .guestMailbox expected => actual = expected
  | native actual, .native expected => actual = expected
  | legacy actual, .legacyDomain expected => actual.laneDomain = expected
  | _, _ => false

namespace SenderScopedLane

def fromGrant (grant : SenderScopedGrant) : Except CapabilityError SenderScopedLane := do
  grant.validate
  let horizon ← okOr (grant.issuedAt.checkedAdd grant.lifetime) .arithmeticOverflow
  let _ ← okOr (grant.issuedAt.checkedAdd grant.rateLimit.interval) .arithmeticOverflow
  .ok {
    authority := .recipientGrant
    rateWindowStartedAt := grant.issuedAt
    lastActivity := grant.issuedAt
    grant
    state := .active
    horizonAt := min horizon grant.notAfter
    messagesInRateWindow := 0
    version := .initial
    admittedMessages := ∅}

/-- Checks pair, evidence, state and validity without consuming allowance. -/
def authorizes (l : SenderScopedLane) (sender recipient : ProtocolIdentity)
    (capability : Option LaneId) (declarations : MessageDeclarations) (evidence : LaneEvidence)
    (now : CanonicalTime) : Except CapabilityError Unit := do
  declarations.validate.mapError fun _ => .invalidDeclaration
  refuseIf (capability ≠ some l.grant.id ∨ declarations.purpose ≠ l.grant.purpose ∨
    (l.grant.origin ≠ none ∧ l.grant.origin ≠ some declarations.origin.mode) ∨
    l.grant.declarationAuthority.admits declarations.origin.authority = false) .scopeMismatch
  refuseIf (l.state ≠ .active ∨ sender ≠ l.grant.sender ∨ recipient ≠ l.grant.recipient ∨
    now < l.grant.notBefore ∨ l.grant.notAfter ≤ now ∨
    (l.grant.mode = .expiring ∧ l.horizonAt ≤ now) ∨
    evidence.supports l.grant.subject = false) .notAuthorized

/-- Idempotently consumes one message from the current rate window. The flag says
whether the message had already been admitted. -/
def consume (l : SenderScopedLane) (message : MessageId) (capability : Option LaneId)
    (declarations : MessageDeclarations) (evidence : LaneEvidence) (now : CanonicalTime) :
    Except CapabilityError (SenderScopedLane × Bool) := do
  l.authorizes l.grant.sender l.grant.recipient capability declarations evidence now
  if l.admittedMessages.contains message then .ok (l, true)
  else
    let rateWindowEnd ← okOr (l.rateWindowStartedAt.checkedAdd l.grant.rateLimit.interval)
      .arithmeticOverflow
    refuseIf (message.val = 0 ∨ now < l.lastActivity) .notAuthorized
    let (window, count) ←
      if rateWindowEnd ≤ now then do
        let _ ← okOr (now.checkedAdd l.grant.rateLimit.interval) .arithmeticOverflow
        .ok (now, (0 : U32))
      else .ok (l.rateWindowStartedAt, l.messagesInRateWindow)
    refuseIf (l.grant.rateLimit.maxMessages ≤ count) .rateLimitExceeded
    let count ← okOr (Checked.succ count) .arithmeticOverflow
    let horizon ← okOr (now.checkedAdd l.grant.lifetime) .arithmeticOverflow
    let version ← okOr l.version.checkedNext .arithmeticOverflow
    .ok ({l with
      rateWindowStartedAt := window
      messagesInRateWindow := count
      lastActivity := now
      horizonAt := min horizon l.grant.notAfter
      version
      admittedMessages := l.admittedMessages.insert message ()}, false)

/-- The horizon a persistent lane goes on to; another lane keeps its own. -/
def nextHorizon (l : SenderScopedLane) (now : CanonicalTime) : Except CapabilityError CanonicalTime :=
  if l.grant.mode = .persistent ∧ now < l.grant.notAfter then do
    let horizon ← okOr (now.checkedAdd l.grant.lifetime) .arithmeticOverflow
    .ok (min horizon l.grant.notAfter)
  else .ok l.horizonAt

/-- Applies a due lifetime horizon. -/
def reachHorizon (l : SenderScopedLane) (now : CanonicalTime) :
    Except CapabilityError (SenderScopedLane × LaneHorizonEffect) :=
  if now < l.horizonAt ∨ l.state ≠ .active then .ok (l, .none)
  else do
    let version ← okOr l.version.checkedNext .arithmeticOverflow
    let horizon ← l.nextHorizon now
    if l.grant.notAfter ≤ now then
      .ok ({l with version, state := .expired}, .reconfirmationRequired)
    else match l.grant.mode with
      | .expiring => .ok ({l with version, state := .awaitingReconfirmation}, .reconfirmationRequired)
      | .persistent => .ok ({l with version, horizonAt := horizon}, .reviewReminder)

/-- Reactivates an awaiting lane within its signed hard validity interval. -/
def reconfirm (l : SenderScopedLane) (now : CanonicalTime) : Except CapabilityError SenderScopedLane := do
  refuseIf (l.state ≠ .awaitingReconfirmation ∨ l.grant.notAfter ≤ now ∨ now < l.horizonAt)
    .notAuthorized
  let horizon ← okOr (now.checkedAdd l.grant.lifetime) .arithmeticOverflow
  let version ← okOr l.version.checkedNext .arithmeticOverflow
  .ok {l with
    state := .active
    lastActivity := now
    horizonAt := min horizon l.grant.notAfter
    version}

/-- Irreversibly revokes this version of the lane. -/
def revoke (l : SenderScopedLane) : Except CapabilityError SenderScopedLane :=
  if l.state = .revoked then .ok l
  else do
    let version ← okOr l.version.checkedNext .arithmeticOverflow
    .ok {l with state := .revoked, version}

/-- Plans revocation without modifying the protected input snapshot. -/
def planRevocation (l : SenderScopedLane) : Except CapabilityError (Option LaneRevocation) :=
  if l.state = .revoked then .ok none
  else do
    let lane ← l.revoke
    .ok (some ⟨l.version, lane⟩)

def scheduleChange (l : SenderScopedLane) : ScheduleChange :=
  .schedule (.laneHorizon l.grant.id) l.horizonAt

/-- Established access, including a scheduled start; admission checks `notBefore`. -/
def providesRelationshipAccess (l : SenderScopedLane) (now : CanonicalTime) : Bool :=
  l.state = .active ∧ l.grant.issuedAt ≤ now ∧ now < l.grant.notAfter ∧
    (l.grant.mode ≠ .expiring ∨ now < l.horizonAt)

end SenderScopedLane

/-! ### Reply terms -/

structure ReplyTermsRecord where
  lifetime : Duration
  rateLimit : RateLimit
  purpose : DeclaredPurpose
  deriving DecidableEq

/-- Reply terms with a lifetime, an allowance and a well-formed purpose. -/
structure ReplyLaneTerms where
  record : ReplyTermsRecord
  lifetime : record.lifetime.val ≠ 0
  rateLimit : record.rateLimit.valid = true
  purpose : record.purpose.validate = .ok ()
  deriving DecidableEq

def ReplyLaneTerms.new (record : ReplyTermsRecord) : Except CapabilityError ReplyLaneTerms :=
  if h : record.lifetime.val = 0 ∨ record.rateLimit.valid = false then .error .invalidGrant
  else match hpurpose : record.purpose.validate with
    | .ok () => .ok ⟨record, fun hzero => h (.inl hzero), by simpa using fun hempty => h (.inr hempty), hpurpose⟩
    | .error _ => .error .invalidDeclaration

/-- Reply terms pass their own check. -/
theorem ReplyLaneTerms.new_record (t : ReplyLaneTerms) : ReplyLaneTerms.new t.record = .ok t := by
  have hvalid : ¬(t.record.lifetime.val = 0 ∨ t.record.rateLimit.valid = false) := by
    simp [t.lifetime, t.rateLimit]
  rw [new, dif_neg hvalid]
  split
  · rfl
  · next e he =>
    rw [t.purpose] at he
    cases he

/-- Facts selected by the request's owners, never a public command. -/
structure ReplyAcceptance where
  request : RequestId
  originatingRelationship : RelationshipRef
  reverseRelationship : RelationshipRef
  sender : ProtocolIdentity
  recipient : ProtocolIdentity
  creationKey : OperationalKeyRef
  creationEvent : EventRef
  acceptanceEvent : EventRef
  time : CanonicalTime
  version : Version
  deployment : Bytes32
  protocolVersion : ProtocolVersion
  provider : ProviderRef
  deriving DecidableEq

/-- The lane identifier hashes the accepted request; its lowest bit keeps it nonzero. -/
def ReplyAcceptance.laneId [Crypto] (a : ReplyAcceptance) : LaneId :=
  ⟨firstU128 (Crypto.sha256 (byteString "cs-mail/accepted-reply-lane/v1" ++ a.deployment.toList ++
    a.originatingRelationship.bytes.toList ++ a.request.toBeBytes)) ||| 1⟩

/-- Derives a lane from recorded agreement and acceptance; no signature is invented. -/
def ReplyLaneTerms.acceptedLane [Crypto] (t : ReplyLaneTerms) (a : ReplyAcceptance) :
    Except CapabilityError SenderScopedLane := do
  refuseIf (a.request.val = 0 ∨ a.creationKey.val = 0 ∨ a.creationEvent.position.val = 0 ∨
    a.acceptanceEvent.position.val = 0) .invalidGrant
  let notAfter ← okOr (a.time.checkedAdd t.record.lifetime) .arithmeticOverflow
  let lane ← SenderScopedLane.fromGrant {
    id := a.laneId
    subject := .native ⟨a.reverseRelationship.bytes⟩
    sender := a.recipient
    recipient := a.sender
    protocolVersion := a.protocolVersion
    deploymentDomain := a.deployment
    intendedProvider := a.provider
    recipientOperationalKey := a.creationKey
    purpose := t.record.purpose
    origin := some .humanInitiated
    declarationAuthority := .nativeSender
    lifetime := t.record.lifetime
    rateLimit := t.record.rateLimit
    mode := .expiring
    issuedAt := a.time
    notBefore := a.time
    notAfter
    version := a.version}
  .ok {lane with
    authority := .requestAcceptance a.request a.originatingRelationship a.creationEvent
      a.acceptanceEvent}

/-! ### Messages without a bond -/

inductive AdmissionAuthentication
  | nativeKey (key : OperationalKeyRef)
  | legacyDmarc
  deriving DecidableEq

/-- A message sent under a standing permission: an accepted relationship or a lane. -/
structure BondFreeAdmission where
  wireVersion : WireVersion
  sender : ProtocolIdentity
  recipient : ProtocolIdentity
  message : MessageId
  content : ContentRef
  deliveryIntent : DeliveryIntentRef
  declarations : MessageDeclarations
  messageValidUntil : MessageValidityUntil
  capability : Option LaneId
  evidence : Option LaneEvidence
  idempotencyKey : IdempotencyKey
  protocolVersion : ProtocolVersion
  deploymentDomain : Bytes32
  intendedProvider : ProviderRef
  authentication : AdmissionAuthentication
  deriving DecidableEq

end CsMail
