import CsMail.Consent.Store

/-! What a consent transaction asks for, and what every call keeps.

An accepted transaction is one of five answers (`ConsentStore.Answers`), each with what it
rests on. Whatever is called, keys are good for no more than before, grants keep their terms
and their revocation, receipts stay (`ConsentStore.Keeps`). -/
namespace CsMail
open Library

/-! ### Keys of accounts -/

namespace AccountService
variable [Crypto] {r r' : KeyRegistry} {time : CanonicalTime}

theorem revokeEach_keeps {keys : List OperationalKeyRecord}
    (h : (KeyRegistry.revokeEach time keys).on r = (.ok (), r')) : r.Keeps r' := by
  induction keys generalizing r with
  | nil =>
    have hsame : r = r' := (InPlace.on_pure.mp h).2
    exact hsame ▸ .refl r
  | cons key rest ih =>
    obtain ⟨next, hnext, hrest⟩ := KeyRegistry.revokeEach_cons.mp h
    have hmoves := @KeyRegistry.method_moves _ (.revoke key.reference key.version time) r next hnext
    exact (KeyRegistry.moves_keeps hmoves).1.trans (ih hrest)

theorem register_keeps {reference : OperationalKeyRef} {actor : ActorRef} {key : Bytes32}
    (h : (KeyRegistry.register reference actor key time).on r = (.ok (), r')) : r.Keeps r' :=
  (KeyRegistry.moves_keeps (@KeyRegistry.method_moves _ (.register reference actor key time) r r' h)).1

theorem replaceDeviceKey_keeps {reference : OperationalKeyRef} {persona : ProtocolIdentity} {key : Bytes32}
    (h : (replaceDeviceKey reference persona key time).on r = (.ok (), r')) : r.Keeps r' := by
  obtain ⟨withdrawn, hwithdrawn, hregister⟩ := replaceDeviceKey_iff.mp h
  exact (revokeEach_keeps hwithdrawn).trans (register_keeps hregister)

variable [Json]

theorem executeCommand_keeps {context : CommandContext} {signed : SignedAccountCommand} {outcome : AccountControl}
    {effects : AccountEffects} (h : executeCommand context signed time = .ok ⟨outcome, some effects⟩) :
    context.state.registry.Keeps effects.state.registry := by
  unfold executeCommand at h
  simp only [bind_eq_ok, mapError_eq_ok, refuseIf_eq_ok] at h
  obtain ⟨_, -, _, -, _, -, h⟩ := h
  split at h
  · simp only [bind_eq_ok, refuseIf_eq_ok, Except.ok.injEq, AccountDecision.mk.injEq, reduceCtorEq,
      and_false, exists_const] at h
  simp only [bind_eq_ok, mapError_eq_ok, refuseIf_eq_ok, Except.ok.injEq, AccountDecision.mk.injEq,
    Option.some.injEq] at h
  obtain ⟨_, -, _, -, ⟨registry, claim⟩, hregister, control, -, -, rfl⟩ := h
  rcases registerKey_eq_ok hregister with rfl | ⟨key, -, hregister⟩
  · exact .refl _
  · exact register_keeps hregister

end AccountService

namespace ManagedAccount
variable [Crypto] [Json] [IdentityContract] {m m' : ManagedAccount}

/-- No command and no event makes a key good for more. -/
theorem method_keeps {subject : Text} {trust : DecisionVerifier} {input : AccountInput}
    (h : (input.method subject trust).on m = (.ok (), m')) : m.state.registry.Keeps m'.state.registry := by
  cases input with
  | command signed time permit =>
    obtain ⟨outcome, _, hcommand, hpure⟩ := InPlace.on_bind.mp h
    obtain ⟨-, rfl⟩ := InPlace.on_pure.mp hpure
    obtain ⟨effects, hdecision, heffects⟩ := command_eq_ok.mp hcommand
    cases effects with
    | none =>
      subst heffects
      exact .refl _
    | some effects =>
      obtain ⟨-, rfl⟩ := heffects
      exact AccountService.executeCommand_keeps hdecision
  | securityChange signed bank bankContext time permit =>
    obtain ⟨effects, hdecision, heffects⟩ := securityChange_eq_ok.mp h
    cases effects with
    | none =>
      subst heffects
      exact .refl _
    | some effects =>
      obtain ⟨-, rfl⟩ := heffects
      rcases (AccountService.applyIdentityChange_cases hdecision).2 with
        ⟨_, _, _, _, -, -, -, hrecovered⟩ | ⟨-, hregistry, -⟩
      · exact AccountService.replaceDeviceKey_keeps hrecovered.registry
      · exact hregistry ▸ .refl _

end ManagedAccount

/-- The key of a persona: in force, the persona's, and of an account in service. -/
theorem AccountState.personaKey_eq_ok {s : AccountState} {product : Text} {persona : ProtocolIdentity}
    {reference : OperationalKeyRef} {time : CanonicalTime} {key : Bytes32} :
    s.personaKey product persona reference time = .ok key ↔ ∃ record,
      s.registry.keys.get? reference = some record ∧ record.validFrom ≤ time ∧ record.status.isRevoked = false ∧
      record.status.validAtReceipt time = true ∧ record.verifyingKey = key ∧ record.actor.persona = some persona ∧
      s.product = product ∧ s.control.allowsService = true ∧ s.control.personas.contains persona = true := by
  simp only [personaKey, bind_eq_ok, KeyRegistry.activeActor_eq_ok, KeyRegistry.activeVerifyingKey_eq_ok,
    refuseIf_eq_ok, not_or, not_not, Bool.not_eq_false, Except.ok.injEq, Prod.exists]
  constructor
  · rintro ⟨_, _, ⟨record, hrecord, rfl, hfrom, hactive, hvalid, rfl⟩, _, ⟨hproduct, hservice, hpersonas, hactor⟩, rfl⟩
    exact ⟨record, hrecord, hfrom, hactive, hvalid, rfl, hactor, hproduct, hservice, hpersonas⟩
  · rintro ⟨record, hrecord, hfrom, hactive, hvalid, rfl, hactor, hproduct, hservice, hpersonas⟩
    exact ⟨_, _, ⟨record, hrecord, rfl, hfrom, hactive, hvalid, rfl⟩, ⟨⟩, ⟨hproduct, hservice, hpersonas, hactor⟩, rfl⟩

/-! ### What the service checks -/

namespace ConsentService
variable {r : SignedConsentRequest} {c : ConsentContext} {now : CanonicalTime} {message : MessageId}

theorem ownedGrant_eq_ok {g : DecryptionGrant} : ownedGrant r c = .ok g ↔ c.grant = some g ∧
    g.terms.account = r.account ∧ g.terms.persona = r.persona ∧ g.terms.id = r.command.grantId := by
  simp only [ownedGrant, okOr_eq_ok, Option.filter_eq_some_iff, decide_eq_true_eq]

/-- The copy of a message is there, of the persona's, and neither it nor the recovery copy
has expired. -/
structure Entitled (c : ConsentContext) (r : SignedConsentRequest) (message : MessageId) (now : CanonicalTime)
    (v : RetainedRecovery) : Prop where
  held : c.retained.get? message = some v
  live : now < v.expiresAt
  recoverable : now < v.recovery.ciphertext.expiresAt
  manifest : v.record.manifest.message = message
  message : v.recovery.ciphertext.binding.message = message
  recipient : v.recovery.ciphertext.binding.recipient = r.persona
  sender : v.recovery.ciphertext.binding.sender = v.record.fields.author
  senderKey : v.recovery.sender.reference = v.recovery.ciphertext.envelope.senderKey
  custody : v.recovery.ciphertext.envelope.recipientKey = c.custodyKey.reference

theorem entitled_eq_ok {v : RetainedRecovery} (h : entitled c r message now = .ok v) :
    Entitled c r message now v := by
  simp only [entitled, bind_eq_ok, okOr_eq_ok, Option.filter_eq_some_iff, decide_eq_true_eq, refuseIf_eq_ok,
    not_or, not_not, Except.ok.injEq] at h
  obtain ⟨_, ⟨hheld, hlive, hrecoverable⟩, _, ⟨hmanifest, hmessage, hrecipient, hsender, hkey, hcustody⟩, rfl⟩ := h
  exact ⟨hheld, hlive, hrecoverable, hmanifest, hmessage, hrecipient, hsender, hkey, hcustody⟩

variable [Crypto]

theorem checkProcessor_eq_ok {usage : GrantUse} (h : checkProcessor c usage = .ok ()) {key : OperationalKeyRef}
    (hactor : usage.actor = .csqdProcessor key) :
    ∃ p, c.processor = some p ∧ p.active = true ∧ p.key = key ∧ p.usage = usage := by
  simp only [checkProcessor, hactor, bind_eq_ok, okOr_eq_ok, Option.filter_eq_some_iff, decide_eq_true_eq] at h
  obtain ⟨p, ⟨hp, hactive, hkey, husage⟩, -⟩ := h
  exact ⟨p, hp, hactive, hkey, husage⟩

/-- An issued grant has the terms of its request, and its identity was free. -/
theorem issue_eq_ok {g : DecryptionGrant} (h : issue r c now = .ok g) : c.grant = none ∧ g.state = .active ∧
    ∃ issuer id scope usage expiresAt, r.actor = .userDevice issuer ∧
      r.command = .authorize id scope usage expiresAt ∧
      g.terms = ⟨id, r.account, r.persona, issuer, scope, usage, now, expiresAt⟩ := by
  unfold issue at h
  split at h
  · cases h
  · next issuer id scope usage expiresAt hactor hcommand =>
    simp only [bind_eq_ok, refuseIf_eq_ok, Bool.not_eq_true, Option.isSome_eq_false_iff,
      Option.isNone_iff_eq_none] at h
    obtain ⟨_, hfree, _, -, _, -, hissue⟩ := h
    obtain ⟨hterms, hactive⟩ := DecryptionGrant.issue_eq_ok hissue
    exact ⟨hfree, hactive, issuer, id, scope, usage, expiresAt, hactor, hcommand, hterms⟩
  · cases h

/-- What a release rests on. -/
structure Reads (r : SignedConsentRequest) (c : ConsentContext) (now : CanonicalTime) (g : DecryptionGrant)
    (message : MessageId) (v : RetainedRecovery) (copy : ReleasedCopy) : Prop where
  command : r.command = .read g.terms.id message g.terms.usage.purpose
  grant : c.grant = some g
  account : g.terms.account = r.account
  persona : g.terms.persona = r.persona
  issuer : ∃ key, c.authority.personaKey r.product r.persona g.terms.issuer now = .ok key
  issued : g.terms.issuedAt ≤ now
  active : g.state = .active
  unexpired : now < g.terms.expiresAt
  actor : g.terms.usage.actor = r.actor
  scope : g.terms.scope.messages.contains message = true
  processor : ∀ key, r.actor = .csqdProcessor key →
    ∃ p, c.processor = some p ∧ p.active = true ∧ p.key = key ∧ p.usage = g.terms.usage
  entitled : Entitled c r message now v
  manifest : copy.manifest = v.record.manifest
  binding : copy.ciphertext.binding = v.recovery.ciphertext.binding
  destination : copy.ciphertext.envelope.recipientKey = g.terms.usage.destination.reference
  expires : copy.ciphertext.expiresAt = releaseExpiry g v

theorem read_eq_ok {custodian : LocalKeyCustody} {copy : ReleasedCopy} (h : read r c custodian now = .ok copy) :
    ∃ g message v, Reads r c now g message v copy := by
  unfold read at h
  split at h
  · next id message purpose hcommand =>
    simp only [bind_eq_ok, mapError_eq_ok, ownedGrant_eq_ok, DecryptionGrant.authorize_eq_ok, refuseIf_eq_ok,
      not_or, not_not, Except.ok.injEq] at h
    obtain ⟨g, ⟨hgrant, haccount, hpersona, hid⟩, key, hissuer, _, ⟨hissued, ⟨hactive, hunexpired⟩, hactor, hpurpose,
      hscope⟩, _, hprocessor, v, hentitled, _, -, released, -, _, ⟨hmanifest, -, hbinding, hdestination, hexpires⟩,
      rfl⟩ := h
    refine ⟨g, message, v, ⟨?_, hgrant, haccount, hpersona, ⟨key, hissuer⟩, hissued, hactive, hunexpired, hactor,
      hscope, fun k hk => ?_, entitled_eq_ok hentitled, hmanifest, hbinding, hdestination, hexpires⟩⟩
    · rw [hid, hcommand, hpurpose]
      rfl
    · exact checkProcessor_eq_ok hprocessor (hactor.trans hk)
  · cases h

end ConsentService

/-! ### Transactions -/

namespace ConsentStore
variable [Crypto] [ConsentJson] {s s' : ConsentStore} {r : SignedConsentRequest} {c : ConsentContext}
  {custodian : LocalKeyCustody} {loaded now : CanonicalTime}

omit [Crypto] [ConsentJson] in
theorem get?_retainedCopies {message : MessageId} {v : RetainedRecovery}
    (h : (s.retainedCopies r).get? message = some v) : s.retained.get? (toLex (message, r.persona)) = some v := by
  refine List.foldlRecOn
    (motive := fun m : SortedMap MessageId RetainedRecovery =>
      ∀ k x, m.get? k = some x → s.retained.get? (toLex (k, r.persona)) = some x)
    r.messages _ (fun k x hx => ?_) (fun m hm first _ k x hx => ?_) message v h
  · cases hx
  · split at hx
    · next copy hcopy =>
      rcases SortedMap.get?_insert_eq_some.mp hx with ⟨rfl, rfl⟩ | ⟨-, hold⟩
      · exact hcopy
      · exact hm k x hold
    · exact hm k x hx

omit [ConsentJson] in
theorem loadProcessor_eq_ok {key : OperationalKeyRef} {p : Option ProcessorRegistration}
    (h : s.loadProcessor key = .ok p) : p = s.processors.get? key := by
  unfold loadProcessor at h
  split at h
  · next hnone =>
    cases h
    exact hnone.symm
  · next stored hstored =>
    simp only [bind_eq_ok, Except.ok.injEq] at h
    obtain ⟨_, -, _, -, rfl⟩ := h
    exact hstored.symm

/-- What a loaded context is of what is stored. -/
structure Loads (s : ConsentStore) (r : SignedConsentRequest) (c : ConsentContext) : Prop where
  account : ∃ m, s.accounts.get? r.account = some m ∧ c.authority = m.state
  owner : s.owners.get? r.persona = some r.account
  processor : ∀ key, r.processorKey = some key → c.processor = s.processors.get? key
  custody : s.custody = some c.custodyKey
  prior : c.prior = s.receipts.get? r.slot
  grant : c.prior = none → c.grant = s.grants.get? r.command.grantId
  retained : ∀ message v, c.retained.get? message = some v → s.retained.get? (toLex (message, r.persona)) = some v

theorem loadContext_eq_ok (h : s.loadContext r loaded = .ok c) : s.Loads r c := by
  simp only [loadContext, bind_eq_ok, okOr_eq_ok, refuseIf_eq_ok, not_not] at h
  obtain ⟨m, hm, _, howner, processor, hprocessor, _, -, custody, hcustody, h⟩ := h
  have hloaded : ∀ key, r.processorKey = some key → processor = s.processors.get? key := fun key hkey => by
    rw [processorFor, hkey] at hprocessor
    exact loadProcessor_eq_ok hprocessor
  have hcustody : s.custody = some custody := by
    simp only [custodyKey, bind_eq_ok, okOr_eq_ok, Except.ok.injEq] at hcustody
    obtain ⟨_, hsome, _, -, rfl⟩ := hcustody
    exact hsome
  split at h
  · next prior hprior =>
    cases h
    refine ⟨⟨m, hm, rfl⟩, howner, hloaded, hcustody, hprior.symm, fun hnone => ?_, fun _ _ hv => ?_⟩
    · cases hnone
    · cases hv
  · next hprior =>
    simp only [bind_eq_ok, Except.ok.injEq] at h
    obtain ⟨_, -, rfl⟩ := h
    exact ⟨⟨m, hm, rfl⟩, howner, hloaded, hcustody, hprior.symm, fun _ => rfl,
      fun _ _ hv => get?_retainedCopies hv⟩

/-- What an accepted transaction answers, and what it stores. -/
inductive Answers (s : ConsentStore) (r : SignedConsentRequest) (c : ConsentContext) (custodian : LocalKeyCustody)
    (now : CanonicalTime) (key digest : Bytes32) : ConsentResponse → ConsentStore → Prop
  | repeated (prior : ConsentReceipt) (hprior : s.receipts.get? r.slot = some prior)
      (hreplay : ConsentService.replay r prior digest key = .ok ⟨prior.outcome.repeated, none⟩) :
      Answers s r c custodian now key digest prior.outcome.repeated s
  | inspected (id : GrantId) (g : DecryptionGrant) (hprior : s.receipts.get? r.slot = none)
      (hcommand : r.command = .inspect id) :
      Answers s r c custodian now key digest (.grant g) s
  | granted (id : GrantId) (g : DecryptionGrant) (hprior : s.receipts.get? r.slot = none)
      (hfree : s.grants.get? id = none) (hid : r.command.grantId = id)
      (hissue : ConsentService.issue r c now = .ok g) :
      Answers s r c custodian now key digest (.outcome (.granted id))
        (s.persist r ⟨some g, ConsentService.receipt r digest key now (.granted id)⟩)
  | revoked (id : GrantId) (g g' : DecryptionGrant) (hprior : s.receipts.get? r.slot = none)
      (hcommand : r.command = .revoke id) (hg : s.grants.get? id = some g) (hid : g.terms.id = id)
      (hrevoke : g.revoke now = .ok g') :
      Answers s r c custodian now key digest (.outcome (.revoked id))
        (s.persist r ⟨some g', ConsentService.receipt r digest key now (.revoked id)⟩)
  | released (id : GrantId) (message : MessageId) (purpose : DecryptionPurpose) (copy : ReleasedCopy)
      (hprior : s.receipts.get? r.slot = none) (hcommand : r.command = .read id message purpose)
      (hread : ConsentService.read r c custodian now = .ok copy) :
      Answers s r c custodian now key digest (.released copy)
        (s.persist r ⟨none, ConsentService.receipt r digest key now (.released id message)⟩)

theorem consentTransaction_eq_ok {response : ConsentResponse}
    (h : s.consentTransaction r custodian loaded now = .ok (response, s')) : ∃ c key digest,
      s.loadContext r loaded = .ok c ∧ ConsentService.authenticate r c.authority c.processor now = .ok key ∧
      r.digest = .ok digest ∧ s.Answers r c custodian now key digest response s' := by
  simp only [consentTransaction, bind_eq_ok, Except.ok.injEq, Prod.mk.injEq] at h
  obtain ⟨c, hload, decision, hdecide, rfl, rfl⟩ := h
  have hloads := loadContext_eq_ok hload
  simp only [ConsentService.decide, bind_eq_ok] at hdecide
  obtain ⟨key, hkey, digest, hdigest, hdecide⟩ := hdecide
  refine ⟨c, key, digest, hload, hkey, hdigest, ?_⟩
  split at hdecide
  · next prior hprior =>
    have hreplay := hdecide
    simp only [ConsentService.replay, bind_eq_ok, Except.ok.injEq] at hdecide
    obtain ⟨_, -, _, -, rfl⟩ := hdecide
    exact .repeated prior (hloads.prior.symm.trans hprior) hreplay
  · next id hprior hcommand =>
    simp only [ConsentService.inspect, bind_eq_ok, Except.ok.injEq] at hdecide
    obtain ⟨_, -, g, -, rfl⟩ := hdecide
    exact .inspected id g (hloads.prior.symm.trans hprior) hcommand
  · next hprior _ =>
    simp only [bind_eq_ok, Except.ok.injEq, Prod.exists] at hdecide
    obtain ⟨response, outcome, grant, hexecute, rfl⟩ := hdecide
    have hnew := hloads.prior.symm.trans hprior
    have hgrant := hloads.grant hprior
    unfold ConsentService.execute at hexecute
    split at hexecute
    · next id scope usage expiresAt hcommand =>
      simp only [bind_eq_ok, Except.ok.injEq, Prod.mk.injEq] at hexecute
      obtain ⟨g, hissue, rfl, rfl, rfl⟩ := hexecute
      have hid : r.command.grantId = id := by rw [hcommand]; rfl
      refine .granted id g hnew ?_ hid hissue
      rw [← hid, ← hgrant]
      exact (ConsentService.issue_eq_ok hissue).1
    · next id hcommand =>
      simp only [bind_eq_ok, Except.ok.injEq, Prod.mk.injEq, ConsentService.ownedGrant_eq_ok] at hexecute
      obtain ⟨_, -, g, ⟨hg, -, -, hid⟩, g', hrevoke, rfl, rfl, rfl⟩ := hexecute
      have hid' : r.command.grantId = id := by rw [hcommand]; rfl
      refine .revoked id g g' hnew hcommand ?_ (hid.trans hid') hrevoke
      rw [← hid', ← hgrant, hg]
    · next id message purpose hcommand =>
      simp only [bind_eq_ok, Except.ok.injEq, Prod.mk.injEq] at hexecute
      obtain ⟨copy, hread, rfl, rfl, rfl⟩ := hexecute
      exact .released id message purpose copy hnew hcommand hread
    · cases hexecute

omit [ConsentJson] in
/-- The receipt of an answered request answers the request again. -/
theorem Answers.receipt {key digest : Bytes32} {response : ConsentResponse} {receipt : ConsentReceipt}
    (h : s.Answers r c custodian now key digest response s') (hreceipt : s'.receipts.get? r.slot = some receipt) :
    r.command.hasOutcome receipt.outcome = true ∧
      ConsentService.replay r receipt digest key = .ok ⟨receipt.outcome.repeated, none⟩ := by
  have hfiled : ∀ outcome, r.command.hasOutcome outcome = true →
      receipt = ConsentService.receipt r digest key now outcome →
      r.command.hasOutcome receipt.outcome = true ∧
        ConsentService.replay r receipt digest key = .ok ⟨receipt.outcome.repeated, none⟩ := by
    rintro outcome houtcome rfl
    exact ⟨houtcome, by simp [ConsentService.replay, ConsentService.receipt, refuseIf, houtcome]⟩
  cases h with
  | repeated prior hprior hreplay =>
    rw [hprior] at hreceipt
    cases hreceipt
    have hmatches := hreplay
    simp only [ConsentService.replay, bind_eq_ok, refuseIf_eq_ok, not_or, Bool.not_eq_false] at hmatches
    obtain ⟨_, -, _, ⟨houtcome, -⟩, -⟩ := hmatches
    exact ⟨houtcome, hreplay⟩
  | inspected id g hprior hcommand =>
    rw [hprior] at hreceipt
    cases hreceipt
  | granted id g hprior hfree hid hissue =>
    obtain ⟨-, -, issuer, id', scope, usage, expiresAt, -, hcommand, -⟩ := ConsentService.issue_eq_ok hissue
    refine hfiled (.granted id) ?_ (Option.some.inj ((SortedMap.get?_insert_self ..).symm.trans hreceipt)).symm
    rw [hcommand] at hid ⊢
    exact decide_eq_true hid
  | revoked id g g' hprior hcommand hg hid hrevoke =>
    refine hfiled (.revoked id) ?_ (Option.some.inj ((SortedMap.get?_insert_self ..).symm.trans hreceipt)).symm
    rw [hcommand]
    exact decide_eq_true rfl
  | released id message purpose copy hprior hcommand hread =>
    refine hfiled (.released id message) ?_ (Option.some.inj ((SortedMap.get?_insert_self ..).symm.trans hreceipt)).symm
    rw [hcommand]
    exact decide_eq_true ⟨rfl, rfl⟩

omit [ConsentJson] in
/-- Whatever is answered but a query leaves a receipt. -/
theorem Answers.filed {key digest : Bytes32} {response : ConsentResponse}
    (h : s.Answers r c custodian now key digest response s') (hnot : ∀ g, response ≠ .grant g) :
    ∃ receipt, s'.receipts.get? r.slot = some receipt := by
  cases h with
  | repeated prior hprior => exact ⟨prior, hprior⟩
  | inspected id g => exact absurd rfl (hnot g)
  | granted | revoked | released => exact ⟨_, SortedMap.get?_insert_self ..⟩

/-! ### What every call keeps -/

/-- Keys are good for no more, grants keep their terms and their revocation, receipts stay. -/
structure Keeps (s s' : ConsentStore) : Prop where
  accounts : ∀ id m, s.accounts.get? id = some m →
    ∃ m', s'.accounts.get? id = some m' ∧ m.state.registry.Keeps m'.state.registry
  custody : ∀ key, s.custody = some key → s'.custody = some key
  processors : ∀ key p, s.processors.get? key = some p →
    ∃ p', s'.processors.get? key = some p' ∧ p'.verifyingKey = p.verifyingKey
  grants : ∀ id g, s.grants.get? id = some g →
    ∃ g', s'.grants.get? id = some g' ∧ g'.terms = g.terms ∧ (g.state ≠ .active → g' = g)
  receipts : ∀ slot receipt, s.receipts.get? slot = some receipt → s'.receipts.get? slot = some receipt

omit [Crypto] [ConsentJson]

namespace Keeps

theorem refl (s : ConsentStore) : s.Keeps s where
  accounts _ m hm := ⟨m, hm, .refl _⟩
  custody _ hkey := hkey
  processors _ p hp := ⟨p, hp, rfl⟩
  grants _ g hg := ⟨g, hg, rfl, fun _ => rfl⟩
  receipts _ _ h := h

theorem trans {s'' : ConsentStore} (h : s.Keeps s') (h' : s'.Keeps s'') : s.Keeps s'' where
  accounts id m hm := by
    obtain ⟨m', hm', hkeeps⟩ := h.accounts id m hm
    obtain ⟨m'', hm'', hkeeps'⟩ := h'.accounts id m' hm'
    exact ⟨m'', hm'', hkeeps.trans hkeeps'⟩
  custody key hkey := h'.custody key (h.custody key hkey)
  processors key p hp := by
    obtain ⟨p', hp', hkey⟩ := h.processors key p hp
    obtain ⟨p'', hp'', hkey'⟩ := h'.processors key p' hp'
    exact ⟨p'', hp'', hkey'.trans hkey⟩
  grants id g hg := by
    obtain ⟨g', hg', hterms, hrevoked⟩ := h.grants id g hg
    obtain ⟨g'', hg'', hterms', hrevoked'⟩ := h'.grants id g' hg'
    refine ⟨g'', hg'', hterms'.trans hterms, fun hnot => ?_⟩
    have hsame := hrevoked hnot
    exact (hrevoked' (hsame.symm ▸ hnot)).trans hsame
  receipts slot receipt hreceipt := h'.receipts slot receipt (h.receipts slot receipt hreceipt)

/-- One account is written. -/
theorem of_account {id : AccountId} {m' : ManagedAccount} (h : ∀ m, s.accounts.get? id = some m →
    m.state.registry.Keeps m'.state.registry) : s.Keeps {s with accounts := s.accounts.insert id m'} :=
  {refl s with
    accounts := fun other m hm => by
      by_cases heq : other = id
      · subst heq
        exact ⟨m', SortedMap.get?_insert_self .., h m hm⟩
      · exact ⟨m, (SortedMap.get?_insert_ne _ _ heq).trans hm, .refl _⟩}

/-- One processor is written. -/
theorem of_processor {key : OperationalKeyRef} {p' : ProcessorRegistration}
    (h : ∀ p, s.processors.get? key = some p → p'.verifyingKey = p.verifyingKey) :
    s.Keeps {s with processors := s.processors.insert key p'} :=
  {refl s with
    processors := fun other p hp => by
      by_cases heq : other = key
      · subst heq
        exact ⟨p', SortedMap.get?_insert_self .., h p hp⟩
      · exact ⟨p, (SortedMap.get?_insert_ne _ _ heq).trans hp, rfl⟩}

/-- A receipt is filed where there was none, and a grant may be written. -/
theorem of_persist {effects : ConsentEffects} (hslot : s.receipts.get? r.slot = none)
    (hgrant : ∀ g', effects.grant = some g' → ∀ g, s.grants.get? g'.terms.id = some g →
      g'.terms = g.terms ∧ (g.state ≠ .active → g' = g)) : s.Keeps (s.persist r effects) :=
  {refl s with
    receipts := fun slot receipt hreceipt => by
      have hne : slot ≠ r.slot := fun heq => by
        rw [heq, hslot] at hreceipt
        cases hreceipt
      exact (SortedMap.get?_insert_ne _ _ hne).trans hreceipt
    grants := fun id g hg => by
      show ∃ g', ((effects.grant.map fun g => s.grants.insert g.terms.id g).getD s.grants).get? id = some g' ∧ _
      cases heffects : effects.grant with
      | none => exact ⟨g, hg, rfl, fun _ => rfl⟩
      | some g' =>
        by_cases heq : id = g'.terms.id
        · subst heq
          obtain ⟨hterms, hrevoked⟩ := hgrant g' heffects g hg
          exact ⟨g', SortedMap.get?_insert_self .., hterms, hrevoked⟩
        · exact ⟨g, (SortedMap.get?_insert_ne _ _ heq).trans hg, rfl, fun _ => rfl⟩}

end Keeps

section
variable [Crypto] [ConsentJson]

omit [ConsentJson] in
theorem Answers.keeps {key digest : Bytes32} {response : ConsentResponse}
    (h : s.Answers r c custodian now key digest response s') : s.Keeps s' := by
  cases h with
  | repeated => exact .refl s
  | inspected => exact .refl s
  | granted id g hprior hfree hid hissue =>
    refine .of_persist hprior fun g' hg' old hold => ?_
    cases hg'
    obtain ⟨-, -, issuer, id', scope, usage, expiresAt, -, hcommand, hterms⟩ := ConsentService.issue_eq_ok hissue
    rw [hcommand] at hid
    rw [hterms, show id' = id from hid, hfree] at hold
    cases hold
  | revoked id g g' hprior hcommand hg hid hrevoke =>
    refine .of_persist hprior fun written hwritten old hold => ?_
    cases hwritten
    obtain ⟨hterms, -, hsame⟩ := DecryptionGrant.revoke_eq_ok hrevoke
    rw [hterms, hid, hg] at hold
    cases hold
    exact ⟨hterms, hsame⟩
  | released id message purpose copy hprior hcommand hread =>
    refine .of_persist hprior fun g' hg' => ?_
    cases hg'

variable [Json] [IdentityContract]

theorem call_keeps {call : ConsentCall} (h : s.call call = .ok s') : s.Keeps s' := by
  cases call with
  | enroll account input product time =>
    simp only [ConsentStore.call, bind_eq_ok, refuseIf_eq_ok, Bool.not_eq_true, mapError_eq_ok, Except.ok.injEq] at h
    obtain ⟨_, hnew, m, -, rfl⟩ := h
    refine .of_account fun old hold => ?_
    rw [SortedMap.contains_eq_false.mp hnew] at hold
    cases hold
  | manage account subject trust input =>
    simp only [ConsentStore.call, bind_eq_ok, okOr_eq_ok, mapError_eq_ok, Except.ok.injEq,
      InPlace.accepted_eq_ok] at h
    obtain ⟨m, hm, m', ⟨⟨⟩, hmethod⟩, rfl⟩ := h
    refine .of_account fun old hold => ?_
    rw [hm] at hold
    cases hold
    exact ManagedAccount.method_keeps hmethod
  | revokeAccountKey account reference expectedVersion time =>
    simp only [ConsentStore.call, bind_eq_ok, okOr_eq_ok, mapError_eq_ok, Except.ok.injEq,
      InPlace.accepted_eq_ok] at h
    obtain ⟨m, hm, registry, ⟨⟨⟩, hrevoke⟩, rfl⟩ := h
    refine .of_account fun old hold => ?_
    rw [hm] at hold
    cases hold
    exact (KeyRegistry.moves_keeps (@KeyRegistry.method_moves _ (.revoke reference expectedVersion time) _ _ hrevoke)).1
  | own persona account =>
    simp only [ConsentStore.call, bind_eq_ok, refuseIf_eq_ok, Except.ok.injEq] at h
    obtain ⟨_, -, rfl⟩ := h
    exact {Keeps.refl s with}
  | configureCustody key =>
    simp only [ConsentStore.call, configureCustody, bind_eq_ok, refuseIf_eq_ok, mapError_eq_ok, Except.ok.injEq] at h
    obtain ⟨_, -, _, -, _, -, rfl⟩ := h
    exact {Keeps.refl s with custody := fun stored hstored => by rw [hstored]; rfl}
  | configureContentProcessor processor =>
    simp only [ConsentStore.call, configureContentProcessor, bind_eq_ok, refuseIf_eq_ok, mapError_eq_ok,
      Except.ok.injEq] at h
    obtain ⟨_, -, _, -, _, -, rfl⟩ := h
    split_ifs with hheld
    · exact .refl s
    · refine .of_processor fun p hp => ?_
      exact absurd (SortedMap.contains_eq_true.mpr ⟨p, hp⟩) hheld
  | disableContentProcessor key =>
    simp only [ConsentStore.call, disableContentProcessor, bind_eq_ok, okOr_eq_ok, mapError_eq_ok,
      Except.ok.injEq] at h
    obtain ⟨stored, hstored, processor, rfl, rfl⟩ := h
    refine .of_processor fun p hp => ?_
    rw [← loadProcessor_eq_ok hstored] at hp
    cases hp
    rfl
  | retain message owner copy =>
    cases h
    exact {Keeps.refl s with}
  | erase message owner =>
    cases h
    exact {Keeps.refl s with}
  | consent request custodian loaded now =>
    simp only [ConsentStore.call, bind_eq_ok, mapError_eq_ok, Except.ok.injEq, Prod.exists] at h
    obtain ⟨response, _, htransaction, rfl⟩ := h
    obtain ⟨c, key, digest, -, -, -, hanswers⟩ := consentTransaction_eq_ok htransaction
    exact hanswers.keeps

end

end ConsentStore

end CsMail
