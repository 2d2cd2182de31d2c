import CsMail.Application.EngineProofs
import CsMail.LedgerRuns
import CsMail.Requests.Agreement
import CsMail.Requests.Quotes

/-! Whole sequences of calls on the engines of one store.

A receipt is never lost, so a command that was carried out once is answered from it ever
after. What a sequence leaves of relationships and histories is a run of the store, so
whatever holds of every such run holds here. -/
namespace CsMail
open Library InMemoryEngine

section
variable [Crypto] [EngineEncoding] {w w' : InMemoryStore} {R : RelationshipRef}
  {a : KernelCommand ProtocolCommand} {now : CanonicalTime} {policy : PolicySnapshot}

/-- An encoded command can be read back. -/
class LawfulEngineEncoding : Prop where
  injective : ∀ (a a' : KernelCommand ProtocolCommand) (bytes : Bytes),
    EngineEncoding.command a = some bytes → EngineEncoding.command a' = some bytes → a = a'

/-- The digests of two different encodings differ. -/
def NoCollision (a a' : KernelCommand ProtocolCommand) : Prop :=
  ∀ bytes bytes', EngineEncoding.command a = some bytes → EngineEncoding.command a' = some bytes' →
    bytes ≠ bytes' → Crypto.sha256 bytes ≠ Crypto.sha256 bytes'

namespace InMemoryStore
variable {scope : FinancialScope} {cs rest : List EngineCall}

theorem calls_preserves {P : InMemoryStore → Prop} (h : P w)
    (heffect : ∀ w w', P w → EngineCall.Effect w w' → P w') :
    P (InPlace.calls EngineCall.method w cs) := by
  rw [InPlace.calls_eq_run EngineCall.method_atomic]
  exact Machine.run_preserves (fun w c w' hw hc => heffect w w' hw (EngineCall.method_effect hc)) h cs

/-- A store's run, as far as relationships and histories go. -/
theorem calls_refines : ∃ inputs, (calls scope cs).Refines (StoreState.run inputs) := by
  refine calls_preserves (P := fun w => ∃ inputs, w.Refines (StoreState.run inputs))
    ⟨[], rfl, fun R => rfl⟩ ?_
  rintro w w' ⟨inputs, h⟩ heffect
  rcases h.effect heffect with hsame | ⟨i, s', hstep, hnext⟩
  · exact ⟨inputs, hsame⟩
  · refine ⟨inputs ++ [i], ?_⟩
    rw [StoreState.run_concat, Machine.advance, hstep]
    exact hnext

theorem calls_scope : (calls scope cs).scope = scope := by
  refine calls_preserves (P := fun w => w.scope = scope) rfl ?_
  intro w w' h heffect
  cases heffect <;> exact h

theorem calls_append : calls scope (cs ++ rest) = InPlace.calls EngineCall.method (calls scope cs) rest :=
  List.foldl_append ..

/-- **Receipts are never lost.** -/
theorem Receipt.calls {key : IdempotencyKey} {record : ExecutionRecord} (h : w.Receipt R key record) :
    (InPlace.calls EngineCall.method w rest).Receipt R key record := by
  refine calls_preserves (P := fun w => w.Receipt R key record) h ?_
  intro w w' h heffect
  cases heffect with
  | kept => exact h
  | configured => exact h
  | administered => exact h
  | registered host hnew hpair hhistory hrecipient =>
    obtain ⟨inner, hinner, hrecord⟩ := h
    refine ⟨inner, ?_, hrecord⟩
    rw [SortedMap.get?_insert_ne _ _ fun hR => by rw [hR, hnew] at hinner; cases hinner]
    exact hinner
  | executed digest hinner hnew hplan hhost => exact h.written hinner hnew

/-- The histories and programs of every registered relationship are present. -/
structure Hosted (w : InMemoryStore) : Prop where
  history : ∀ R inner, w.relationships.get? R = some inner →
    ∃ h, w.histories.get? inner.protocol.relationship.history = some h
  program : ∀ R inner, w.relationships.get? R = some inner →
    ∃ host, w.programs.get? inner.ledger.view.unit = some host

omit [Crypto] [EngineEncoding] in
theorem program_insert {programs : SortedMap SettlementUnit ProgramState} {unit unit' : SettlementUnit}
    (host : ProgramState) (h : unit' = unit ∨ ∃ host', programs.get? unit' = some host') :
    ∃ host', (programs.insert unit host).get? unit' = some host' := by
  rw [SortedMap.get?_insert]
  split_ifs with hunit
  · exact ⟨host, rfl⟩
  · exact h.resolve_left hunit

theorem calls_hosted : (calls scope cs).Hosted where
  history R inner hinner := by
    obtain ⟨inputs, hrefines⟩ : ∃ inputs, (calls scope cs).Refines (StoreState.run inputs) := calls_refines
    obtain ⟨h, hh, -⟩ := (StoreState.run_sound inputs).filed.shared R _ (hrefines.get? hinner)
    rw [hrefines.histories] at hh
    exact ⟨h, hh⟩
  program := by
    refine calls_preserves (P := fun w => ∀ R inner, w.relationships.get? R = some inner →
      ∃ host, w.programs.get? inner.ledger.view.unit = some host) (fun R inner h => by cases h) ?_
    intro w w' hw heffect
    cases heffect with
    | kept => exact hw
    | configured => exact hw
    | administered unit host =>
      intro R inner hinner
      exact program_insert host (.inr (hw R inner hinner))
    | registered host hnew hpair hhistory hrecipient =>
      intro R inner hinner
      rw [SortedMap.get?_insert] at hinner
      split_ifs at hinner
      · cases hinner
        exact program_insert host (.inl rfl)
      · exact program_insert host (.inr (hw R inner hinner))
    | @executed R₀ inner₀ a now policy p host digest hinner₀ hnew hplan hhost =>
      intro R inner hinner
      have hget : (w.relationships.insert R₀ _).get? R = some inner := hinner
      rw [SortedMap.get?_insert] at hget
      split_ifs at hget
      · cases hget
        obtain ⟨-, -, -, -, -, hledger, hunit⟩ := plan_eq_ok hplan
        obtain ⟨-, hview⟩ := LedgerState.apply_eq_ok.mp hledger
        have hsame : p.ledger.view.unit = p.unit := (LedgerView.apply_spec hview).2.2.1.trans hunit.symm
        exact program_insert _ (.inl hsame)
      · exact program_insert _ (.inr (hw R inner hget))

/-! ### What a registered relationship is never refused for -/

omit [EngineEncoding] in
theorem Hosted.plan_refuses (hw : w.Hosted) {inner : HostedRelationship}
    (hinner : w.relationships.get? R = some inner) :
    RefusesOnly (· ≠ ExecutionError.engine .unknownRelationship) (w.plan inner a now policy) := by
  obtain ⟨h, hh⟩ := hw.history R inner hinner
  obtain ⟨host, hhost⟩ := hw.program R inner hinner
  refine .bind (.okOr fun hnone => by rw [hh] at hnone; cases hnone) fun _ _ => ?_
  refine .bind (.mapError fun _ _ => nofun) fun _ _ => ?_
  refine .bind (.refuseIf fun _ => nofun) fun _ _ => ?_
  refine .bind (.okOr fun _ => nofun) fun _ _ => .bind (.okOr fun _ => nofun) fun _ _ => ?_
  refine .bind (.mapError fun _ _ => nofun) fun _ _ => ?_
  refine .bind (.okOr fun hnone => by rw [hhost] at hnone; cases hnone) fun _ _ => ?_
  exact .bind (.mapError fun _ _ => nofun) fun _ _ => .ok _

/-- Everything an execution looks up for a registered relationship is there. -/
theorem Hosted.execute_refuses (hw : w.Hosted) {inner : HostedRelationship} {e : ExecutionError}
    (hinner : w.relationships.get? R = some inner)
    (h : (execute R a now policy).on w = (.error e, w')) :
    e ≠ .engine .unknownRelationship := by
  by_cases hscope : policy.financial.scope = w.scope
  swap
  · rw [execute_foreign hinner hscope] at h
    cases h
    simp only [ne_eq, ExecutionError.engine.injEq, reduceCtorEq, not_false_eq_true]
  cases hdigest : fingerprint a with
  | error e' =>
    rw [execute_unencodable hinner hscope hdigest] at h
    cases h
    simp only [fingerprint, bind_eq_error, okOr_eq_error] at hdigest
    rcases hdigest with ⟨-, rfl⟩ | ⟨_, -, hdigest⟩
    · simp only [ne_eq, reduceCtorEq, not_false_eq_true]
    · cases hdigest
  | ok digest =>
    cases hrecord : inner.idempotency.get? a.idempotencyKey with
    | some record =>
      rw [execute_known hinner hscope hrecord hdigest] at h
      split_ifs at h <;> cases h
      simp only [ne_eq, ExecutionError.engine.injEq, reduceCtorEq, not_false_eq_true]
    | none =>
      rw [execute_new hinner hscope hdigest hrecord] at h
      split at h
      · rename_i p hplan
        obtain ⟨-, -, -, -, -, -, hunit⟩ := plan_eq_ok hplan
        obtain ⟨host, hhost⟩ := hw.program R inner hinner
        rw [← hunit] at hhost
        rw [commit, InPlace.on_get, InPlace.on_pass (okOr_eq_ok.mpr hhost)] at h
        cases h
      · rename_i e' hplan
        cases h
        exact hw.plan_refuses hinner _ hplan

/-! ### Exactly once -/

theorem fingerprint_eq_ok {digest : Bytes32} (h : fingerprint a = .ok digest) :
    ∃ bytes, EngineEncoding.command a = some bytes ∧ digest = Crypto.sha256 bytes := by
  simp only [fingerprint, bind_eq_ok, okOr_eq_ok] at h
  obtain ⟨bytes, hbytes, h⟩ := h
  exact ⟨bytes, hbytes, (Except.ok.inj h).symm⟩

/-- An accepted execution leaves, or found, the receipt it is answered from. -/
theorem execute_receipt {o : ExecutionOutcome} (h : (execute R a now policy).on w = (.ok o, w')) :
    policy.financial.scope = w.scope ∧ ∃ digest, fingerprint a = .ok digest ∧
      w'.Receipt R a.idempotencyKey ⟨digest, o.transition⟩ := by
  obtain ⟨inner, digest, hinner, hscope, hdigest, ⟨rfl, record, hrecord, rfl, rfl⟩ |
    ⟨hnew, p, host, hplan, rfl, hhost, rfl⟩⟩ := execute_eq_ok h
  · exact ⟨hscope, _, hdigest, inner, hinner, hrecord⟩
  · exact ⟨hscope, digest, hdigest, receipt_written⟩

/-- A command with a receipt is answered from it, and nothing else is done. -/
theorem Receipt.replays {digest : Bytes32} {t : CommittedTransition}
    (h : w.Receipt R a.idempotencyKey ⟨digest, t⟩) (hdigest : fingerprint a = .ok digest)
    (hscope : policy.financial.scope = w.scope) :
    (execute R a now policy).on w = (.ok ⟨t, true⟩, w) := by
  obtain ⟨inner, hinner, hrecord⟩ := h
  rw [execute_known hinner hscope hrecord hdigest, if_pos rfl]

/-- A different command under a used key is refused. -/
theorem Receipt.conflicts [LawfulEngineEncoding] {digest : Bytes32} {t : CommittedTransition}
    {a' : KernelCommand ProtocolCommand} (h : w.Receipt R a.idempotencyKey ⟨digest, t⟩)
    (hdigest : fingerprint a = .ok digest) (hkey : a'.idempotencyKey = a.idempotencyKey)
    (hne : a' ≠ a) (hcollision : NoCollision a a') (hscope : policy.financial.scope = w.scope) :
    ∃ e, (execute R a' now policy).on w = (.error e, w) := by
  obtain ⟨inner, hinner, hrecord⟩ := h
  cases hdigest' : fingerprint a' with
  | error e => exact ⟨e, execute_unencodable hinner hscope hdigest'⟩
  | ok digest' =>
    refine ⟨.engine .duplicateConflict, ?_⟩
    rw [execute_known hinner hscope (hkey ▸ hrecord) hdigest', if_neg]
    obtain ⟨bytes, hbytes, rfl⟩ := fingerprint_eq_ok hdigest
    obtain ⟨bytes', hbytes', rfl⟩ := fingerprint_eq_ok hdigest'
    refine hcollision bytes bytes' hbytes hbytes' ?_
    rintro rfl
    exact hne (LawfulEngineEncoding.injective a' a bytes hbytes' hbytes)

/-- **Exactly once.** Whatever was called before: a refused execution changes nothing. An
accepted one is answered from its receipt whenever it is repeated under a policy of the
store's scope, and changes nothing then; another command under its key is refused; a policy
of another scope is refused before anything is looked up. Every request holds the terms of
a quote issued for it, and no other request of the relationship holds the same quote. -/
theorem executed_exactly_once [LawfulEngineEncoding] (scope : FinancialScope)
    (earlier : List EngineCall) (R : RelationshipRef) (a : KernelCommand ProtocolCommand)
    (now : CanonicalTime) (policy : PolicySnapshot) :
    (∀ e w', (execute R a now policy).on (calls scope earlier) = (.error e, w') →
      w' = calls scope earlier) ∧
    (∀ o w', (execute R a now policy).on (calls scope earlier) = (.ok o, w') →
      ∀ later now' policy' w'', w'' = calls scope (earlier ++ .execute R a now policy :: later) →
        (policy'.financial.scope = scope →
          (execute R a now' policy').on w'' = (.ok ⟨o.transition, true⟩, w'')) ∧
        (policy'.financial.scope ≠ scope →
          (execute R a now' policy').on w'' = (.error (.engine .versionConflict), w'')) ∧
        ∀ a', a'.idempotencyKey = a.idempotencyKey → a' ≠ a → NoCollision a a' →
          ∃ e, (execute R a' now' policy').on w'' = (.error e, w'')) ∧
    ∀ R' inner, (calls scope earlier).relationships.get? R' = some inner →
      (∀ id r, inner.protocol.requests.get? id = some r →
        inner.protocol.quotes.get? r.terms.quoteId = some r.terms) ∧
      ∀ id id' r r', inner.protocol.requests.get? id = some r →
        inner.protocol.requests.get? id' = some r' → r.terms.quoteId = r'.terms.quoteId → id = id' := by
  refine ⟨fun e w' h => execute_atomic _ e w' h, fun o w' h later now' policy' w'' hw'' => ?_,
    fun R' inner hinner => ?_⟩
  · obtain ⟨hscope, digest, hdigest, hreceipt⟩ := execute_receipt h
    have hlater : w'' = InPlace.calls EngineCall.method w' later := by
      have hmethod : InPlace.after (EngineCall.method (.execute R a now policy)) (calls scope earlier) = w' := by
        have hcall : (EngineCall.method (.execute R a now policy)).on (calls scope earlier) = (.ok (), w') := by
          simp only [EngineCall.method, InPlace.on_bind, InPlace.on_pure]
          exact ⟨o, w', h, trivial, rfl⟩
        rw [InPlace.after, hcall]
      rw [hw'', calls_append, ← hmethod]
      rfl
    have hscope'' : w''.scope = scope := hw'' ▸ calls_scope
    have hreceipt'' : w''.Receipt R a.idempotencyKey ⟨digest, o.transition⟩ := hlater ▸ hreceipt.calls
    refine ⟨fun hown => hreceipt''.replays hdigest (hown.trans hscope''.symm), fun hforeign => ?_,
      fun a' hkey hne hcollision => ?_⟩
    · obtain ⟨inner, hinner, -⟩ := hreceipt''
      exact execute_foreign hinner (hscope''.symm ▸ hforeign)
    · by_cases hown : policy'.financial.scope = scope
      · exact hreceipt''.conflicts hdigest hkey hne hcollision (hown.trans hscope''.symm)
      · obtain ⟨inner, hinner, -⟩ := hreceipt''
        exact ⟨_, execute_foreign hinner (hscope''.symm ▸ hown)⟩
  · obtain ⟨inputs, hrefines⟩ : ∃ inputs, (calls scope earlier).Refines (StoreState.run inputs) := calls_refines
    have hquotes := StoreState.run_quotesOnce inputs R' _ (hrefines.get? hinner)
    have hterms : ∀ id r, inner.protocol.requests.get? id = some r →
        inner.protocol.terms id = some r.terms := fun id r hr => by rw [ProtocolState.terms, hr]; rfl
    exact ⟨fun id r hr => hquotes.issued id r.terms (hterms id r hr), fun id id' r r' hr hr' hsame =>
      hquotes.once id id' r.terms r'.terms (hterms id r hr) (hterms id' r' hr') hsame⟩

end InMemoryStore

end

/-! ### A recipient blocks, and the call is repeated -/

namespace Example

def blockJson : Bytes := byteString
  "\x7b\"command\":\x7b\"BlockRelationship\":\x7b\"expected_version\":0\x7d\x7d,\"actor\":\x7b\"Recipient\":20\x7d,\"key\":1,\"idempotency_key\":900\x7d"

def rejectJson : Bytes := byteString
  "\x7b\"command\":\x7b\"RejectRelationship\":\x7b\"expected_version\":0\x7d\x7d,\"actor\":\x7b\"Recipient\":20\x7d,\"key\":1,\"idempotency_key\":900\x7d"

def blockDigest : Bytes32 :=
  #v[212, 191, 124, 138, 6, 106, 1, 107, 133, 194, 43, 115, 182, 144, 69, 211, 7, 183, 185, 235,
     213, 160, 67, 58, 180, 164, 162, 145, 0, 71, 5, 188]

def rejectDigest : Bytes32 :=
  #v[111, 68, 246, 230, 123, 98, 242, 202, 242, 124, 110, 154, 116, 72, 49, 79, 167, 137, 77, 171,
     175, 144, 111, 50, 197, 248, 92, 108, 180, 184, 71, 140]

def blockCommand : KernelCommand ProtocolCommand :=
  ⟨.blockRelationship .initial, .recipient recipient, ⟨1⟩, ⟨900⟩⟩

def rejectCommand : KernelCommand ProtocolCommand :=
  ⟨.rejectRelationship .initial, .recipient recipient, ⟨1⟩, ⟨900⟩⟩

/-- The two digests of the example, and no signatures. -/
@[reducible] def engineCrypto : Crypto where
  sha256 bytes := if bytes = blockJson then blockDigest else rejectDigest
  validKey _ := false
  verifyStrict _ _ _ := false

/-- The two encodings of the example, and no others. -/
@[reducible] def engineEncoding : EngineEncoding where
  command a :=
    if a = blockCommand then some blockJson
    else if a = rejectCommand then some rejectJson
    else none
  financial _ _ _ _ _ := none

theorem blockJson_ne : blockJson ≠ rejectJson := by decide +kernel

theorem engineEncoding_lawful : @LawfulEngineEncoding engineEncoding := by
  refine @LawfulEngineEncoding.mk engineEncoding fun a a' bytes h h' => ?_
  simp only [EngineEncoding.command] at h h'
  split_ifs at h h' with ha ha' ha' ha ha' ha'
  · rw [ha, ha']
  · exact absurd ((Option.some.inj h).trans (Option.some.inj h').symm) blockJson_ne
  · exact absurd ((Option.some.inj h').trans (Option.some.inj h).symm) blockJson_ne
  · rw [ha, ha']

def registered : List EngineCall := [.register relationship history sender recipient ⟨100⟩ unit]

/-- A policy of another payment account. -/
def foreignPolicy : PolicySnapshot :=
  {policy with financial := {financial with
    scope := {RequestBooks.exampleScope with paymentAccount := zero32}}}

def blocked : ExecutionOutcome where
  transition := ⟨⟨1⟩, [⟨⟨⟨1⟩⟩, ⟨200⟩, .relationshipBlocked⟩], none, false⟩
  replayed := false

@[reducible] def blockExecution : InMemoryEngine.Method ExecutionOutcome :=
  @InMemoryEngine.execute engineCrypto engineEncoding relationship blockCommand ⟨200⟩ policy

def registeredStore : InMemoryStore :=
  @InMemoryStore.calls engineCrypto engineEncoding RequestBooks.exampleScope registered

theorem blockExecution_accepted :
    blockExecution.on registeredStore = (.ok blocked, blockExecution.after registeredStore) := by
  have haccepted : (blockExecution.on registeredStore).1 = .ok blocked := by decide +kernel
  exact Prod.ext haccepted rfl

/-- The store after the block. -/
def blockedStore : InMemoryStore :=
  @InMemoryStore.calls engineCrypto engineEncoding RequestBooks.exampleScope
    (registered ++ [.execute relationship blockCommand ⟨200⟩ policy])

end Example

namespace InMemoryStore

/-- A block carried out, repeated and contradicted under its key. -/
theorem executed_exactly_once_block :
    (@execute Example.engineCrypto Example.engineEncoding Example.relationship
        Example.blockCommand ⟨300⟩ Example.policy).on Example.blockedStore =
      (.ok ⟨Example.blocked.transition, true⟩, Example.blockedStore) ∧
    ∃ e, (@execute Example.engineCrypto Example.engineEncoding Example.relationship
      Example.rejectCommand ⟨300⟩ Example.policy).on Example.blockedStore =
        (.error e, Example.blockedStore) := by
  obtain ⟨-, honce, -⟩ := @executed_exactly_once Example.engineCrypto Example.engineEncoding
    Example.engineEncoding_lawful RequestBooks.exampleScope Example.registered Example.relationship
    Example.blockCommand ⟨200⟩ Example.policy
  obtain ⟨hreplay, -, hconflict⟩ := honce _ _ Example.blockExecution_accepted [] ⟨300⟩ Example.policy
    Example.blockedStore rfl
  refine ⟨hreplay rfl, hconflict Example.rejectCommand rfl (by decide) ?_⟩
  intro bytes bytes' h h' hne
  cases h
  cases h'
  decide +kernel

/-- Repeated under a policy of another scope, a command that was carried out is refused. -/
theorem repeated_execution_refused : ¬∀ (C : Crypto) (E : EngineEncoding) (scope : FinancialScope)
    (earlier later : List EngineCall) (R : RelationshipRef) (a : KernelCommand ProtocolCommand)
    (now now' : CanonicalTime) (policy policy' : PolicySnapshot) (o : ExecutionOutcome)
    (w' w'' : InMemoryStore),
    (@execute C E R a now policy).on (@calls C E scope earlier) = (.ok o, w') →
    w'' = @calls C E scope (earlier ++ .execute R a now policy :: later) →
    (@execute C E R a now' policy').on w'' = (.ok ⟨o.transition, true⟩, w'') := by
  intro h
  have hreplay := h Example.engineCrypto Example.engineEncoding RequestBooks.exampleScope
    Example.registered [] Example.relationship Example.blockCommand ⟨200⟩ ⟨200⟩ Example.policy
    Example.foreignPolicy _ _ _ Example.blockExecution_accepted rfl
  obtain ⟨-, -, -, hscope, -⟩ := @execute_eq_ok Example.engineCrypto Example.engineEncoding _ _ _ _ _ _ _ hreplay
  rw [@calls_scope Example.engineCrypto Example.engineEncoding] at hscope
  exact absurd hscope (by decide)

end InMemoryStore

end CsMail
