import CsMail.Protocol.Command

/-! The deterministic protocol kernel.

`transition` performs no input or output: from a complete snapshot and an authenticated
command it computes the whole atomic consequence, or refuses. Every handler works on a
builder that starts as a copy of the snapshot, so a refusal changes nothing. -/
namespace CsMail
open Library

structure ManifestBuilder where
  deliveryRoute : RequestDeliveryRoute
  mailboxDeliveries : List MessageId := []
  lane : Option SenderScopedLane
  laneRevocation : Option LaneRevocation := none
  next : ProtocolState
  history : RequestHistory
  payments : SortedMap RequestId RequestFinancials
  messages : SortedMap MessageId Message
  forfeitures : List Forfeiture := []
  forfeitureHolds : List PaymentOperationId := []
  batch : LedgerBatch := ∅
  schedules : List ScheduleChange := []
  events : List ProtocolEvent := []
  effects : List EffectIntent := []
  terms : Option TermsOutcome := none
  event : EventRef
  now : CanonicalTime
  deriving DecidableEq

namespace ManifestBuilder

def new (snapshot : SettlementSnapshot) (context : TransitionContext) : ManifestBuilder where
  deliveryRoute := context.requestDelivery
  lane := snapshot.lane
  next := snapshot.state
  history := snapshot.history
  payments := snapshot.payments
  messages := snapshot.messages
  event := ⟨context.journalPosition⟩
  now := context.now

def deliver (m : ManifestBuilder) (message : MessageId) (content : ContentRef)
    (intent : DeliveryIntentRef) : ManifestBuilder :=
  match m.deliveryRoute with
  | .nativeMailboxes => {m with mailboxDeliveries := m.mailboxDeliveries ++ [message]}
  | .guestRelay => {m with effects := m.effects ++ [.deliverMessage message content intent]}

def pushEvent (m : ManifestBuilder) (kind : ProtocolEventKind) : ManifestBuilder :=
  {m with events := m.events ++ [⟨m.event, m.now, kind⟩]}

def pushSchedule (m : ManifestBuilder) (change : ScheduleChange) : ManifestBuilder :=
  {m with schedules := m.schedules ++ [change]}

def setRequest (m : ManifestBuilder) (id : RequestId) (request : RelationshipRequest) :
    ManifestBuilder :=
  {m with next := {m.next with requests := m.next.requests.insert id request}}

/-- A status the recipient gives the relationship, as of this event. -/
def setRelationshipState (m : ManifestBuilder) (state : RelationshipState) :
    Except ProtocolError ManifestBuilder := do
  let version ← okOr m.next.relationship.version.checkedNext .arithmeticOverflow
  .ok {m with next := {m.next with relationship := {m.next.relationship with
    state
    version
    lastEvent := some m.event
    changedAt := m.now}}}

def finish (m : ManifestBuilder) (snapshot : SettlementSnapshot) :
    Except ProtocolError TransitionManifest := do
  let _ ← (snapshot.ledger.apply m.batch).mapError .ofLedger
  .ok {
    mailboxDeliveries := m.mailboxDeliveries
    laneRevocation := m.laneRevocation
    forfeitures := m.forfeitures
    forfeitureHolds := m.forfeitureHolds
    expectedSnapshotRevision := snapshot.revision
    expectedLedgerRevision := snapshot.ledger.revision
    nextState := m.next
    nextHistory := m.history
    nextPayments := m.payments
    nextMessages := m.messages
    ledgerBatch := m.batch
    scheduleChanges := m.schedules
    protocolEvents := m.events
    outboxIntents := m.effects
    termsOutcome := m.terms}

end ManifestBuilder

def nextRequestVersion (version : RequestVersion) : Except ProtocolError RequestVersion :=
  okOr version.checkedNext .arithmeticOverflow

/-! ### Money -/

def paymentError : PaymentError → ProtocolError
  | .duplicateConflict => .duplicateConflict
  | _ => .paymentInvalid

/-- The batch with another batch's transfers posted after its own. -/
def LedgerBatch.extend (b more : LedgerBatch) : LedgerBatch :=
  more.transfers.foldl (fun b t => b.transfer t.fromAccount t.toAccount t.amount) b

def applyFinancialEffects (m : ManifestBuilder) (id : RequestId)
    (effects : RequestFinancialEffects) : ManifestBuilder :=
  {m with
    batch := m.batch.extend effects.postings
    effects := m.effects ++ effects.operations.map (EffectIntent.executePayment id)
    forfeitures := m.forfeitures ++ effects.forfeitures
    forfeitureHolds := m.forfeitureHolds ++ effects.holds}

def settleFinancials (m : ManifestBuilder) (id : RequestId) (settlement : RequestSettlement) :
    Except ProtocolError ManifestBuilder := do
  let record ← okOr (m.payments.get? id) .incompleteSnapshot
  let (record, effects) ← (record.settle settlement m.now).mapError paymentError
  .ok (applyFinancialEffects {m with payments := m.payments.insert id record} id effects)

def applyCooldown (m : ManifestBuilder) (start : CanonicalTime) (duration : Duration) :
    Except ProtocolError ManifestBuilder := do
  let history ← m.history.extendCooldown start duration m.now m.event
  .ok {m with history}

/-! ### Follow-up policy and terms -/

def setFollowupPolicy (m : ManifestBuilder) (expectedVersion : Version) (policy : FollowupPolicy) :
    Except ProtocolError ManifestBuilder := do
  refuseIf (m.next.followupPolicy.version ≠ expectedVersion) .versionConflict
  refuseIf (0 < policy.maxMessages.val ∧
    (policy.maxPerInterval = 0 ∨ policy.interval.val = 0)) .policyInvalid
  let version ← okOr expectedVersion.checkedNext .arithmeticOverflow
  .ok ({m with next := {m.next with followupPolicy := {policy with version}}}.pushEvent
    .followupPolicyChanged)

def authorized (state : ProtocolState) (actor : ActorRef) (provider : ProviderRef) :
    ProtocolCommand → Bool
  | .recordPayment _ _ => actor = .provider provider
  | .admitFollowup .. | .issueRequestTerms .. | .createRequest .. | .submitRequestToRecipient .. =>
    actor = .sender state.relationship.key.sender
  | .cancelRequestSubmission _ _ reason =>
    match reason with
    | .senderRequested => actor = .sender state.relationship.key.sender
    | .submissionTimeout => actor = .scheduler provider
    | .preSubmissionFailure => actor = .provider provider
  | .setFollowupPolicy .. | .acceptRelationship _ | .rejectRelationship _ | .blockRelationship _
  | .unblockRelationship _ | .revokeRelationship _ =>
    actor = .recipient state.relationship.key.recipient
  | .expireRequest _ _ => actor = .scheduler provider ∨ actor = .provider provider

def authorize (state : ProtocolState) (actor : ActorRef) (command : ProtocolCommand)
    (provider : ProviderRef) : Except ProtocolError Unit :=
  refuseIf (authorized state actor provider command = false) .authenticationFailed

def issueTerms (m : ManifestBuilder) (context : TransitionContext)
    (returnRoute : RequestReturnRoute) (address : AliasId) (classId : RequestClassId)
    (quote : QuoteId) (declarationDigest : Option MessageDeclarationDigest) :
    Except ProtocolError ManifestBuilder :=
  match m.next.activeRequest with
  | some request => do
    refuseIf (m.next.relationship.state = .blocked) .contactBlocked
    .ok ({m with terms := some (.existingRequest request.id)}.pushEvent .termsIssued)
  | none => do
    refuseIf (m.next.relationship.state = .blocked) .contactBlocked
    match context.requestPermission with
    | .notRequested => .error .incompleteSnapshot
    | .directContact => .ok ({m with terms := some .noChargeRequired}.pushEvent .termsIssued)
    | .bondedRequest => do
      refuseIf (m.history.pendingSubmission.isSome = true) .requestAlreadyExists
      refuseIf (context.now < m.history.earliestNextSubmission)
        (.backoffActive m.history.earliestNextSubmission)
      let policy := context.policy
      let expiresAt ← okOr (context.now.checkedAdd policy.quoteLifetime) .arithmeticOverflow
      let price ← context.pricing.price
      refuseIf (price.selected.id ≠ classId ∨ price.unit ≠ policy.unit) .policyInvalid
      let nextLevel ← okOr (Checked.succ m.history.level) .arithmeticOverflow
      let terms : RequestTerms := {
        returnRoute
        receivingAlias := address
        replyLane := .agreed policy.replyLane
        selectedClass := price.selected
        pricingPolicyVersion := price.policyVersion
        quoteId := quote
        protocolVersion := context.protocolVersion
        policyVersion := policy.policyVersion
        privacyProfileVersion := policy.privacyProfileVersion
        retentionPolicyVersion := policy.retentionPolicyVersion
        relationship := m.next.relationship.key.reference
        requestHistory := m.history.reference
        sender := m.next.relationship.key.sender
        recipient := m.next.relationship.key.recipient
        recipientProvider := policy.recipientProvider
        relationshipVersion := m.next.relationship.version
        historyVersion := m.history.version
        processingCharge := price.processingCharge
        collateral := price.collateral
        requestLevel := m.history.level
        eligibilityTime := m.history.earliestNextSubmission
        unit := policy.unit
        submissionWindow := policy.submissionWindow
        decisionWindow := policy.decisionWindow
        issuedAt := context.now
        expiresAt
        declarationDigest
        financial := policy.financial
        paymentProviderKey := policy.paymentProviderKey
        expiryCooldown := policy.expiryCooldown
        rejectionCooldown := policy.rejectionCooldown
        nextRequestBackoff := policy.backoffFor nextLevel}
      let _ ← terms.chargeAmount
      refuseIf (m.next.quotes.contains quote = true ∨ m.next.usedQuotes.contains quote = true)
        .duplicateConflict
      .ok ({m with
        next := {m.next with quotes := m.next.quotes.insert quote terms}
        terms := some (.chargeRequired terms)}.pushEvent .termsIssued)

/-! ### Preparing a request -/

/-- The submission deadline under terms still valid for the current state. -/
def validateRequestTerms (m : ManifestBuilder) (context : TransitionContext) (terms : RequestTerms) :
    Except ProtocolError CanonicalTime := do
  refuseIf (context.now < terms.issuedAt ∨ terms.expiresAt < terms.issuedAt ∨
    terms.expiresAt < context.now) .quoteExpired
  refuseIf (terms.protocolVersion ≠ context.protocolVersion ∨ terms.unit ≠ context.policy.unit ∨
    terms.relationship ≠ m.next.relationship.key.reference ∨
    terms.requestHistory ≠ m.history.reference ∨
    terms.sender ≠ m.next.relationship.key.sender ∨
    terms.recipient ≠ m.next.relationship.key.recipient ∨
    terms.recipientProvider ≠ context.policy.recipientProvider ∨
    terms.requestLevel ≠ m.history.level ∨
    terms.eligibilityTime ≠ m.history.earliestNextSubmission) .amountMismatch
  refuseIf (terms.relationshipVersion ≠ m.next.relationship.version ∨
    terms.historyVersion ≠ m.history.version) .quoteVersionStale
  okOr (context.now.checkedAdd terms.submissionWindow) .arithmeticOverflow

def RequestTerms.capture [Crypto] (t : RequestTerms) (id : RequestId) (amount : Money)
    (paymentMethod : Bytes32) : PaymentOperation where
  scope := t.financial.scope
  id := requestPaymentId t.financial.scope t.relationship id false
  kind := .capture
  amount := amount
  unit := t.unit
  destination := paymentMethod

def RequestTerms.contract [Crypto] (t : RequestTerms) (id : RequestId) :
    RequestFinancialContract where
  refundId := requestPaymentId t.financial.scope t.relationship id true
  processingCharge := t.processingCharge
  collateral := t.collateral
  terms := t.financial
  providerKey := t.paymentProviderKey

def createRequest [Crypto] (m : ManifestBuilder) (context : TransitionContext) (id : RequestId)
    (message : MessageId) (paymentMethod : Bytes32) (terms : RequestTerms)
    (creationKey : OperationalKeyRef) : Except ProtocolError ManifestBuilder := do
  refuseIf (terms.replyLane.agreed? = none) .policyInvalid
  refuseIf (m.next.relationship.state = .blocked) .contactBlocked
  refuseIf (context.requestPermission = .notRequested) .incompleteSnapshot
  refuseIf (context.requestPermission = .directContact) .relationshipAccepted
  let submissionDeadline ← validateRequestTerms m context terms
  refuseIf (m.next.requests.contains id = true ∨ m.payments.contains id = true) .duplicateConflict
  refuseIf (m.next.requests.values.any (fun r => !r.lifecycle.isTerminal) = true ∨
    m.history.pendingSubmission.isSome = true) .requestAlreadyExists
  refuseIf (m.next.usedQuotes.contains terms.quoteId = true ∨
    m.next.quotes.get? terms.quoteId ≠ some terms) .quoteVersionStale
  refuseIf (paymentMethod = zero32) .policyInvalid
  refuseIf (context.now < m.history.earliestNextSubmission)
    (.backoffActive m.history.earliestNextSubmission)
  let amount ← terms.chargeAmount
  let capture := terms.capture id amount paymentMethod
  refuseIf (capture.amount.isZero = true) .policyInvalid
  let generation ← okOr (Checked.succ m.next.relationship.generation) .arithmeticOverflow
  let record ← (RequestFinancials.new capture (terms.contract id)).mapError paymentError
  let request : RelationshipRequest := {
    creationKey
    creationEvent := m.event
    id
    generation
    initialMessage := message
    funding := capture.id
    terms
    createdAt := context.now
    lifecycle := .preparingSubmission ⟨submissionDeadline⟩
    version := .initial}
  .ok (({m with
    history := {m.history with pendingSubmission := some ⟨terms.relationship, id⟩}
    next := {m.next with
      usedQuotes := m.next.usedQuotes.insert terms.quoteId ()
      relationship := {m.next.relationship with generation}
      requests := m.next.requests.insert id request}
    effects := m.effects ++ [EffectIntent.executePayment id capture.id]
    payments := m.payments.insert id record}.pushSchedule
      (.schedule (.submissionTimeout id) submissionDeadline)).pushEvent (.requestCreated id))

/-! ### Ending a preparation -/

inductive ReservedCancellation
  | historyChanged
  | ordinary
  | messageValidityClosed
  | declarationMismatch
  deriving DecidableEq

def ReservedCancellation.event (id : RequestId) : ReservedCancellation → ProtocolEventKind
  | historyChanged => .requestHistoryChanged id
  | ordinary => .requestSubmissionCancelled id
  | messageValidityClosed => .messageValidityClosed id
  | declarationMismatch => .declarationMismatch id

def cancelSubmission (m : ManifestBuilder) (id : RequestId) (cancellation : ReservedCancellation) :
    Except ProtocolError ManifestBuilder := do
  let request ← okOr (m.next.requests.get? id) .missingRecord
  refuseIf (request.lifecycle.isPreparingSubmission = false) .alreadyTerminal
  let preparation ← okOr request.lifecycle.preparation .invalidState
  let version ← nextRequestVersion request.version
  let request := {request with lifecycle := .cancelled preparation m.event, version}
  let m := {m with history := m.history.release request.reservation}
  let m ← settleFinancials m request.id .cancelled
  .ok (((m.setRequest request.id request).pushSchedule
    (.cancel (.submissionTimeout request.id))).pushEvent (cancellation.event request.id))

def cancelRequestSubmission (m : ManifestBuilder) (actor : ActorRef) (id : RequestId)
    (expectedVersion : Version) (reason : CancellationReason) :
    Except ProtocolError ManifestBuilder := do
  let request ← okOr (m.next.requests.get? id) .missingRecord
  if request.lifecycle.isPreparingSubmission = false then
    match actor with
    | .scheduler _ => .ok m
    | _ => .error .alreadyTerminal
  else do
    refuseIf (request.version ≠ expectedVersion.into) .versionConflict
    if reason = .submissionTimeout then do
      let preparation ← okOr request.lifecycle.preparation .invalidState
      refuseIf (m.now < preparation.deadline) .invalidState
      cancelSubmission m id .ordinary
    else cancelSubmission m id .ordinary

/-! ### Submitting -/

structure RequestSubmissionInput where
  request : RequestId
  expectedVersion : Version
  content : ContentRef
  deliveryIntent : DeliveryIntentRef
  declarationDigest : MessageDeclarationDigest
  messageValidUntil : MessageValidityUntil
  deriving DecidableEq

/-- Why a preparation must be cancelled before any submission effect is created. -/
def submissionFailure (m : ManifestBuilder) (request : RelationshipRequest)
    (submission : RequestSubmissionInput) (permission : RequestPermission) :
    Except ProtocolError (Option ReservedCancellation) := do
  let preparation ← okOr request.lifecycle.preparation .invalidState
  .ok (
    if permission = .directContact ∨ preparation.deadline < m.now then some .ordinary
    else if submission.messageValidUntil.time < m.now then some .messageValidityClosed
    else if request.terms.declarationDigest.any (· ≠ submission.declarationDigest) = true then
      some .declarationMismatch
    else if request.terms.historyVersion ≠ m.history.version ∨
        m.now < m.history.earliestNextSubmission then some .historyChanged
    else none)

/-- The payment record is present: the snapshot was refused otherwise. -/
def validateSubmissionAuthority (m : ManifestBuilder) (context : TransitionContext)
    (request : RelationshipRequest) : Except ProtocolError Unit := do
  let record ← okOr (m.payments.get? request.id) .incompleteSnapshot
  refuseIf (record.fundingFinalized = false ∨ record.captureReversed = true) .paymentNotConfirmed
  refuseIf (context.now < request.terms.eligibilityTime)
    (.backoffActive request.terms.eligibilityTime)
  refuseIf (m.history.pendingSubmission ≠ some request.reservation ∨
    request.terms.relationshipVersion ≠ m.next.relationship.version) .quoteVersionStale

/-- The initial message as it is stored once the request is submitted. -/
def RelationshipRequest.firstMessage (r : RelationshipRequest) (submission : RequestSubmissionInput)
    (now : CanonicalTime) : Message where
  id := r.initialMessage
  relationship := r.terms.relationship
  content := submission.content
  delivery := submission.deliveryIntent
  declaration := submission.declarationDigest
  validUntil := submission.messageValidUntil
  admittedAt := now
  basis := .initialRequest submission.request

def commitSubmission (m : ManifestBuilder) (context : TransitionContext)
    (submission : RequestSubmissionInput) (request : RelationshipRequest) :
    Except ProtocolError ManifestBuilder := do
  let id := submission.request
  validateSubmissionAuthority m context request
  let deadline ← okOr (context.now.checkedAdd request.terms.decisionWindow) .arithmeticOverflow
  refuseIf (m.messages.contains request.initialMessage = true) .duplicateConflict
  let version ← nextRequestVersion request.version
  let history ← m.history.recordSubmission request.reservation context.now
    request.terms.nextRequestBackoff m.event
  let submitted : RelationshipRequest := {request with
    lifecycle := .awaitingRecipientDecision ⟨context.now, deadline⟩
    version}
  let m := {m with
    history
    messages := m.messages.insert request.initialMessage
      (request.firstMessage submission context.now)}
  let m := ((m.setRequest id submitted).pushSchedule (.cancel (.submissionTimeout id))).pushSchedule
    (.schedule (.requestExpiry id) deadline)
  let m := m.deliver request.initialMessage submission.content submission.deliveryIntent
  .ok ({m with effects := m.effects ++
    [EffectIntent.establishRequestSolicitation id request.generation]}.pushEvent (.requestSubmitted id))

def submitRequestToRecipient (m : ManifestBuilder) (context : TransitionContext)
    (submission : RequestSubmissionInput) : Except ProtocolError ManifestBuilder := do
  let id := submission.request
  refuseIf (m.next.relationship.state = .blocked) .contactBlocked
  let request ← okOr (m.next.requests.get? id) .missingRecord
  refuseIf (request.version ≠ submission.expectedVersion.into) .versionConflict
  if request.lifecycle.isPreparingSubmission = false then
    if request.lifecycle.isCancelled then .error .requestSubmissionCancelled
    else .error .alreadyTerminal
  else do
    match ← submissionFailure m request submission context.requestPermission with
    | some reason => cancelSubmission m id reason
    | none =>
      match context.admission with
      | .error _ => cancelSubmission m id .ordinary
      | .ok () => commitSubmission m context submission request

/-! ### Settling an awaited decision -/

/-- A request whose decision is awaited, under a key the caller has just read. -/
def awaitedRequest (m : ManifestBuilder) (id : RequestId) :
    Except ProtocolError (RelationshipRequest × RequestSubmission) := do
  let request ← okOr (m.next.requests.get? id) .missingRecord
  refuseIf (request.lifecycle.isAwaitingRecipientDecision = false) .invalidState
  let submission ← okOr request.lifecycle.submission .invalidState
  .ok (request, submission)

/-- Stores the final lifecycle and ends the decision timer. -/
def closeRequest (m : ManifestBuilder) (id : RequestId) (request : RelationshipRequest)
    (lifecycle : RequestLifecycle) : Except ProtocolError ManifestBuilder := do
  let version ← nextRequestVersion request.version
  .ok ((m.setRequest id {request with lifecycle, version}).pushSchedule
    (.cancel (.requestExpiry id)))

def settleAccepted (m : ManifestBuilder) (id : RequestId) (permission : AcceptancePermission) :
    Except ProtocolError ManifestBuilder := do
  let (request, submission) ← awaitedRequest m id
  let m ← settleFinancials m id .accepted
  closeRequest m id request (.accepted permission submission m.event)

def settleRejected (m : ManifestBuilder) (id : RequestId) : Except ProtocolError ManifestBuilder := do
  let (request, submission) ← awaitedRequest m id
  let m ← settleFinancials m id .rejected
  let m ← applyCooldown m m.now request.terms.rejectionCooldown
  closeRequest m id request (.rejected submission m.event)

def settleExpired (m : ManifestBuilder) (id : RequestId) : Except ProtocolError ManifestBuilder := do
  let (request, submission) ← awaitedRequest m id
  let m ← settleFinancials m id .expired
  let m ← applyCooldown m submission.decisionDeadline request.terms.expiryCooldown
  closeRequest m id request (.expired submission m.event)

/-! ### The recipient's decisions -/

def laneError : CapabilityError → ProtocolError
  | .arithmeticOverflow => .arithmeticOverflow
  | _ => .invalidState

/-- Ends the attached lane and withdraws every reply offered so far. -/
def terminateLane (m : ManifestBuilder) : Except ProtocolError ManifestBuilder := do
  let epoch ← okOr (Checked.succ m.next.relationship.replyEpoch.val) .arithmeticOverflow
  let m := {m with next := {m.next with relationship := {m.next.relationship with
    replyEpoch := ⟨epoch⟩}}}
  match m.lane with
  | none => .ok m
  | some lane => do
    match ← lane.planRevocation.mapError laneError with
    | none => .ok m
    | some effect =>
      .ok {m.pushSchedule (.cancel (.laneHorizon effect.lane.grant.id)) with
        laneRevocation := some effect}

inductive Decision
  | accept
  | reject
  | block
  deriving DecidableEq

namespace Decision

def target : Decision → RelationshipState
  | accept => .accepted
  | reject => .rejected
  | block => .blocked

def event : Decision → ProtocolEventKind
  | accept => .relationshipAccepted
  | reject => .relationshipRejected
  | block => .relationshipBlocked

end Decision

/-- What a decision means for the one unresolved request. -/
def decideRequest (m : ManifestBuilder) (decision : Decision) :
    Except ProtocolError ManifestBuilder :=
  match m.next.activeRequest with
  | none => .ok m
  | some request =>
    match request.lifecycle with
    | .preparingSubmission _ => cancelSubmission m request.id .ordinary
    | .awaitingRecipientDecision submission =>
      if m.now ≤ submission.decisionDeadline then
        match decision with
        | .accept => settleAccepted m request.id .standing
        | .reject | .block => settleRejected m request.id
      else settleExpired m request.id
    | _ => .ok m

def relationshipDecision (m : ManifestBuilder) (expectedVersion : Version) (decision : Decision) :
    Except ProtocolError ManifestBuilder := do
  refuseIf (m.next.relationship.version ≠ expectedVersion.into) .versionConflict
  refuseIf (decision = .reject ∧ m.next.relationship.state = .accepted) .invalidState
  refuseIf (decision ≠ .block ∧ m.next.relationship.state = .blocked) .contactBlocked
  refuseIf (decision = .accept ∧ m.next.relationship.state = .accepted ∧
    m.next.activeRequest = none) .invalidState
  let m ← m.setRelationshipState decision.target
  let m ← if decision = .block then terminateLane m else .ok m
  let m ← decideRequest m decision
  .ok (m.pushEvent decision.event)

def unblock (m : ManifestBuilder) (expected : Version) : Except ProtocolError ManifestBuilder := do
  refuseIf (m.next.relationship.version ≠ expected.into) .versionConflict
  refuseIf (m.next.relationship.state ≠ .blocked) .invalidState
  let m ← m.setRelationshipState .rejected
  .ok (m.pushEvent .relationshipUnblocked)

def revoke (m : ManifestBuilder) (expected : Version) : Except ProtocolError ManifestBuilder := do
  refuseIf (m.next.relationship.version ≠ expected.into) .versionConflict
  let m ← terminateLane m
  let m ← m.setRelationshipState .revoked
  .ok (m.pushEvent .relationshipRevoked)

def expireRequest (m : ManifestBuilder) (id : RequestId) (expected : Version) :
    Except ProtocolError ManifestBuilder := do
  let request ← okOr (m.next.requests.get? id) .missingRecord
  if request.lifecycle.isTerminal then .ok m
  else do
    refuseIf (request.version ≠ expected.into) .versionConflict
    refuseIf (request.lifecycle.isAwaitingRecipientDecision = false) .invalidState
    let submission ← okOr request.lifecycle.submission .invalidState
    refuseIf (m.now ≤ submission.decisionDeadline) .decisionWindowClosed
    let m ← settleExpired m id
    .ok (m.pushEvent (.requestExpired id))

/-! ### Payment evidence and follow-ups -/

/-- A voided capture ends the preparation it was to fund. -/
def voidSubmission (m : ManifestBuilder) (id : RequestId) : Except ProtocolError ManifestBuilder :=
  match m.next.requests.get? id with
  | none => .ok m
  | some request =>
    match request.lifecycle with
    | .preparingSubmission preparation => do
      let version ← nextRequestVersion request.version
      let request := {request with lifecycle := .cancelled preparation m.event, version}
      .ok (({m with history := m.history.release request.reservation}.setRequest id
        request).pushSchedule (.cancel (.submissionTimeout id)))
    | _ => .ok m

def recordPayment [Crypto] (m : ManifestBuilder) (id : RequestId)
    (receipt : SignedPaymentEvidence) : Except ProtocolError ManifestBuilder := do
  let record ← okOr (m.payments.get? id) .missingRecord
  let (record, effects) ← (record.recordPayment receipt).mapError paymentError
  let m := {m with payments := m.payments.insert id record}
  let m ← if effects.captureVoided then voidSubmission m id else .ok m
  .ok ((applyFinancialEffects m id effects).pushEvent (.paymentRecorded id))

/-- The follow-ups already admitted to a request. -/
def followups (m : ManifestBuilder) (id : RequestId) : List Message :=
  m.messages.values.filter fun message => message.basis.followsUp id

def admitFollowup (m : ManifestBuilder) (id : RequestId) (messageId : MessageId)
    (content : ContentRef) (deliveryIntent : DeliveryIntentRef) (digest : MessageDeclarationDigest)
    (validUntil : MessageValidityUntil) (expectedPolicy : Version)
    (admission : Except AdmissionFailure Unit) : Except ProtocolError ManifestBuilder := do
  refuseIf (m.next.relationship.state = .blocked) .contactBlocked
  let policy := m.next.followupPolicy
  refuseIf (policy.version ≠ expectedPolicy) .versionConflict
  let request ← okOr (m.next.requests.get? id) .missingRecord
  refuseIf (request.lifecycle.isAwaitingRecipientDecision = false ∨
    request.lifecycle.submission.all (fun a => a.decisionDeadline < m.now) = true)
    .decisionWindowClosed
  refuseIf (validUntil.time < m.now) .messageValidityClosed
  admission.mapError .admissionRefused
  refuseIf (messageId = request.initialMessage ∨ m.messages.contains messageId = true)
    .duplicateConflict
  let recent := (followups m id).countP fun message =>
    m.now.millis - message.admittedAt.millis < policy.interval.val.val
  refuseIf (policy.maxMessages = 0 ∨ policy.maxMessages.val ≤ (followups m id).length ∨
    policy.maxPerInterval.val ≤ recent) .followupNotAllowed
  let message : Message := {
    id := messageId
    relationship := request.terms.relationship
    content
    delivery := deliveryIntent
    declaration := digest
    validUntil
    admittedAt := m.now
    basis := .requestFollowup id policy.version}
  .ok (({m with messages := m.messages.insert messageId message}.deliver messageId content
    deliveryIntent).pushEvent (.followupAdmitted id messageId))

/-! ### The kernel -/

/-- A stored request whose payment record is missing or is not its own. -/
def SettlementSnapshot.unpaid (s : SettlementSnapshot) (r : RelationshipRequest) : Bool :=
  (s.payments.get? r.id).all fun p => p.capture.id ≠ r.funding

def validateSnapshot (s : SettlementSnapshot) (context : TransitionContext) :
    Except ProtocolError Unit := do
  refuseIf (context.protocolVersion ≠ ⟨2⟩) .protocolVersionMismatch
  refuseIf (s.complete = false) .incompleteSnapshot
  refuseIf (context.protocolVersion ≠ context.policy.protocolVersion) .protocolVersionMismatch
  s.state.validate
  context.policy.validate
  refuseIf (s.ledger.unit ≠ context.policy.unit) .amountMismatch
  refuseIf (s.history.reference ≠ s.state.relationship.history ∨
    s.history.recipient ≠ s.state.relationship.key.recipient ∨
    s.state.requests.values.any s.unpaid = true) .incompleteSnapshot
  refuseIf (s.lane.any (fun lane => lane.grant.sender ≠ s.state.relationship.key.sender ∨
    lane.grant.recipient ≠ s.state.relationship.key.recipient) = true) .incompleteSnapshot

def applyCommand [Crypto] (m : ManifestBuilder) (context : TransitionContext) (actor : ActorRef)
    (key : OperationalKeyRef) : ProtocolCommand → Except ProtocolError ManifestBuilder
  | .recordPayment request receipt => recordPayment m request receipt
  | .setFollowupPolicy expectedVersion policy => setFollowupPolicy m expectedVersion policy
  | .admitFollowup request message content deliveryIntent digest validUntil expectedPolicy =>
    admitFollowup m request message content deliveryIntent digest validUntil expectedPolicy
      context.admission
  | .issueRequestTerms returnRoute address classId quote digest =>
    issueTerms m context returnRoute address classId quote digest
  | .createRequest paymentMethod request message terms =>
    createRequest m context request message paymentMethod terms key
  | .submitRequestToRecipient request expectedVersion content deliveryIntent digest validUntil =>
    submitRequestToRecipient m context
      ⟨request, expectedVersion, content, deliveryIntent, digest, validUntil⟩
  | .cancelRequestSubmission request expectedVersion reason =>
    cancelRequestSubmission m actor request expectedVersion reason
  | .acceptRelationship expectedVersion => relationshipDecision m expectedVersion .accept
  | .rejectRelationship expectedVersion => relationshipDecision m expectedVersion .reject
  | .blockRelationship expectedVersion => relationshipDecision m expectedVersion .block
  | .unblockRelationship expectedVersion => unblock m expectedVersion
  | .expireRequest request expectedVersion => expireRequest m request expectedVersion
  | .revokeRelationship expectedVersion => revoke m expectedVersion

/-- Computes the complete atomic consequence of one authorized command. -/
def transition [Crypto] (s : SettlementSnapshot) (authorized : KernelCommand ProtocolCommand)
    (context : TransitionContext) : Except ProtocolError TransitionManifest := do
  validateSnapshot s context
  authorize s.state authorized.actor authorized.command context.policy.recipientProvider
  let m ← applyCommand (.new s context) context authorized.actor authorized.key authorized.command
  m.finish s

/-- Cancels an opposite preparation as a consequence of a submitted incoming request. -/
def receiveNativeRequest (s : SettlementSnapshot) (incoming : RelationshipRequest)
    (context : TransitionContext) : Except ProtocolError (Option TransitionManifest) := do
  validateSnapshot s context
  let pair := s.state.relationship.key
  refuseIf (incoming.terms.sender ≠ pair.recipient ∨ incoming.terms.recipient ≠ pair.sender ∨
    incoming.lifecycle.submission.all (fun a => context.now < a.submittedAt) = true) .invalidState
  match s.state.relationship.state.senderReplyRestriction with
  | some reason => .error (.senderReplyRestricted reason)
  | none =>
    match s.state.activeRequest.filter fun r => r.lifecycle.isPreparingSubmission with
    | none => .ok none
    | some request => do
      let m ← cancelSubmission (.new s context) request.id .ordinary
      let manifest ← (m.pushEvent (.requestPreparationSuperseded request.id
        incoming.reservation)).finish s
      .ok (some manifest)

/-- What a lane granted by the recipient means for the one unresolved request. -/
def settleForLane (m : ManifestBuilder) (lane : LaneId) : Except ProtocolError ManifestBuilder :=
  match m.next.activeRequest with
  | none => .ok m
  | some request =>
    match request.lifecycle with
    | .preparingSubmission _ => cancelSubmission m request.id .ordinary
    | .awaitingRecipientDecision _ => settleAccepted m request.id (.expressLane lane)
    | _ => .ok m

/-- Plans request settlement and the relationship status accompanying a lane grant. -/
def acceptExpressLane (s : SettlementSnapshot) (lane : LaneId) (context : TransitionContext) :
    Except ProtocolError TransitionManifest := do
  validateSnapshot s context
  refuseIf (s.state.relationship.state = .blocked) .contactBlocked
  let m ← (ManifestBuilder.new s context).setRelationshipState (.expressLane lane)
  let m ← settleForLane m lane
  (m.pushEvent (.relationshipLaneGranted lane)).finish s

end CsMail
