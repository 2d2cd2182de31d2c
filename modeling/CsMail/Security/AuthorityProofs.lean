import CsMail.Library.Machine
import CsMail.Security.Authority
import CsMail.Wire.RoundTrip

/-! Ownership in a snapshot is unambiguous.

An account is accepted exactly when nothing it brings is held already (`Admissible`), so
every persona and every key has one owner in whatever was added. Two accounts that can be
added one after the other can be added the other way round. -/
namespace CsMail
open Library

/-- Every record is filed under its own reference, as the methods of a registry leave it. -/
def KeyRegistry.Filed (r : KeyRegistry) : Prop :=
  ∀ reference key, r.keys.get? reference = some key → key.reference = reference

theorem KeyRegistry.filed_after [Crypto] (calls : List KeyCall) : (KeyRegistry.after calls).Filed :=
  (moves_sound (calls_moves _ calls) sound_empty).filed

theorem KeyRegistry.containsKey_iff {r : KeyRegistry} {reference : OperationalKeyRef} :
    r.containsKey reference = true ↔ ∃ key, r.keys.get? reference = some key :=
  SortedMap.contains_eq_true

theorem KeyRegistry.mem_records {r : KeyRegistry} {key : OperationalKeyRecord} :
    key ∈ r.records ↔ ∃ reference, r.keys.get? reference = some key := SortedMap.mem_values

namespace AuthoritySnapshot
variable {s s' : AuthoritySnapshot} {id : AccountId} {account : AccountAuthority}

def add (s : AuthoritySnapshot) (entry : AccountId × AccountAuthority) :
    Except SecurityError AuthoritySnapshot :=
  s.addAccount entry.1 entry.2.personas entry.2.registry

/-! ### One account -/

/-- Two accounts have no persona and no key in common. -/
structure Apart (a b : AccountAuthority) : Prop where
  personas : ∀ p, a.personas.contains p = true → b.personas.contains p = false
  keys : ∀ reference, a.registry.containsKey reference = true → b.registry.containsKey reference = false

theorem Apart.symm {a b : AccountAuthority} (h : Apart a b) : Apart b a where
  personas p hp := by
    by_contra hnot
    have := h.personas p (Bool.eq_true_of_not_eq_false hnot)
    rw [hp] at this
    cases this
  keys reference hreference := by
    by_contra hnot
    have := h.keys reference (Bool.eq_true_of_not_eq_false hnot)
    rw [hreference] at this
    cases this

/-- An account that is in order by itself and brings nothing the relationship holds. -/
structure Proper (relationship : KeyRegistry) (id : AccountId) (a : AccountAuthority) : Prop where
  named : id.val ≠ 0
  inhabited : a.personas.keys ≠ []
  actors : ∀ reference key, a.registry.keys.get? reference = some key →
    ∃ p, key.actor.persona = some p ∧ a.personas.contains p = true
  keys : ∀ reference, a.registry.containsKey reference = true →
    relationship.containsKey reference = false

/-- An account the snapshot accepts: proper, new, and apart from every other. -/
structure Admissible (s : AuthoritySnapshot) (id : AccountId) (a : AccountAuthority) : Prop where
  proper : Proper s.relationship id a
  fresh : s.accounts.get? id = none
  apart : ∀ id' a', s.accounts.get? id' = some a' → Apart a a'

theorem checkRecord_eq_ok {r : OperationalKeyRecord} :
    s.checkRecord account.personas r = .ok () ↔
      (∃ p, r.actor.persona = some p ∧ account.personas.contains p = true) ∧
      s.relationship.containsKey r.reference = false ∧
      ∀ id' a', s.accounts.get? id' = some a' → a'.registry.containsKey r.reference = false := by
  unfold checkRecord
  simp only [bind_eq_ok, refuseIf_eq_ok, exists_const, Bool.not_eq_false, Option.any_eq_true, not_or,
    Bool.not_eq_true, List.any_eq_false, SortedMap.mem_values]
  refine and_congr_right fun _ => and_congr_right fun _ => ?_
  constructor
  · exact fun h id' a' ha => h a' ⟨id', ha⟩
  · rintro h a' ⟨id', ha⟩
    exact h id' a' ha

theorem add_eq_ok (hfiled : account.registry.Filed) :
    s.add (id, account) = .ok s' ↔ s.Admissible id account ∧
      s' = {s with accounts := s.accounts.insert id account} := by
  have hrecords : account.registry.records.forM (s.checkRecord account.personas) = .ok ⟨⟩ ↔
      ∀ reference key, account.registry.keys.get? reference = some key →
        (∃ p, key.actor.persona = some p ∧ account.personas.contains p = true) ∧
        s.relationship.containsKey reference = false ∧
        ∀ id' a', s.accounts.get? id' = some a' → a'.registry.containsKey reference = false := by
    rw [forM_eq_ok]
    constructor
    · intro h reference key hkey
      have hcheck := checkRecord_eq_ok.mp (h key (KeyRegistry.mem_records.mpr ⟨reference, hkey⟩))
      rwa [hfiled reference key hkey] at hcheck
    · intro h key hin
      obtain ⟨reference, hkey⟩ := KeyRegistry.mem_records.mp hin
      exact checkRecord_eq_ok.mpr ((hfiled reference key hkey).symm ▸ h reference key hkey)
  have hpersonas : ¬(s.accounts.values.any
      (fun a => a.personas.keys.any account.personas.contains) = true) ↔
      ∀ id' a', s.accounts.get? id' = some a' → ∀ p, account.personas.contains p = true →
        a'.personas.contains p = false := by
    simp only [List.any_eq_true, not_exists, not_and, SortedMap.mem_values, SortedMap.mem_keys]
    constructor
    · intro h id' a' ha p hp
      by_contra hnot
      obtain ⟨u, hu⟩ := SortedMap.contains_eq_true.mp (Bool.eq_true_of_not_eq_false hnot)
      exact h a' ⟨id', ha⟩ p ⟨u, hu⟩ hp
    · rintro h a' ⟨id', ha⟩ p ⟨u, hu⟩ hp
      have := h id' a' ha p hp
      rw [SortedMap.contains_eq_true.mpr ⟨u, hu⟩] at this
      cases this
  unfold add addAccount
  simp only [bind_eq_ok, refuseIf_eq_ok, not_or, Bool.not_eq_true,
    SortedMap.contains_eq_false, Except.ok.injEq, Unique.exists_iff, PUnit.default_eq_unit]
  rw [← Bool.not_eq_true (s.accounts.values.any _), hpersonas, hrecords, @eq_comm _ s']
  constructor
  · rintro ⟨⟨hnamed, hinhabited, hfresh, hapart⟩, hkeys, hnext⟩
    refine ⟨⟨⟨hnamed, hinhabited, fun reference key hkey => (hkeys reference key hkey).1,
      fun reference hreference => ?_⟩, hfresh, fun id' a' ha => ⟨hapart id' a' ha, fun reference hreference => ?_⟩⟩,
      hnext⟩
    · obtain ⟨key, hkey⟩ := KeyRegistry.containsKey_iff.mp hreference
      exact (hkeys reference key hkey).2.1
    · obtain ⟨key, hkey⟩ := KeyRegistry.containsKey_iff.mp hreference
      exact (hkeys reference key hkey).2.2 id' a' ha
  · rintro ⟨h, hnext⟩
    refine ⟨⟨h.proper.named, h.proper.inhabited, h.fresh, fun id' a' ha => (h.apart id' a' ha).personas⟩,
      fun reference key hkey => ⟨h.proper.actors reference key hkey, ?_, fun id' a' ha => ?_⟩, hnext⟩
    · exact h.proper.keys reference (KeyRegistry.containsKey_iff.mpr ⟨key, hkey⟩)
    · exact (h.apart id' a' ha).keys reference (KeyRegistry.containsKey_iff.mpr ⟨key, hkey⟩)

/-! ### Any order -/

/-- After another account, an account is accepted if it was before and the two are apart. -/
theorem admissible_insert {other : AccountAuthority} {id' : AccountId} :
    AuthoritySnapshot.Admissible {s with accounts := s.accounts.insert id' other} id account ↔
      id ≠ id' ∧ Apart account other ∧
        Proper s.relationship id account ∧ s.accounts.get? id = none ∧
        ∀ k a, k ≠ id' → s.accounts.get? k = some a → Apart account a := by
  constructor
  · intro h
    have hfresh := h.fresh
    rw [SortedMap.get?_insert] at hfresh
    split_ifs at hfresh with heq
    refine ⟨heq, h.apart id' other (SortedMap.get?_insert_self ..), h.proper, hfresh, fun k a hk ha => ?_⟩
    exact h.apart k a ((SortedMap.get?_insert_ne _ _ hk).trans ha)
  · rintro ⟨hne, hapart, hproper, hfresh, hothers⟩
    refine ⟨hproper, (SortedMap.get?_insert_ne _ _ hne).trans hfresh, fun k a ha => ?_⟩
    dsimp only at ha
    rw [SortedMap.get?_insert] at ha
    split_ifs at ha with heq
    · cases ha
      exact hapart
    · exact hothers k a heq ha

/-- Two accounts accepted one after the other are accepted the other way round. -/
theorem add_swap {x y : AccountId × AccountAuthority} (hx : x.2.registry.Filed) (hy : y.2.registry.Filed)
    (h : (s.add x >>= (·.add y)) = .ok s') : (s.add y >>= (·.add x)) = .ok s' := by
  obtain ⟨t, ht, hs'⟩ := bind_eq_ok.mp h
  obtain ⟨hadmissible, rfl⟩ := (add_eq_ok hx).mp ht
  obtain ⟨hsecond, rfl⟩ := (add_eq_ok hy).mp hs'
  obtain ⟨hne, hapart, hproper, hfresh, hothers⟩ := admissible_insert.mp hsecond
  have hy' : s.Admissible y.1 y.2 := ⟨hproper, hfresh, fun k a ha => hothers k a (fun heq => by
    rw [heq, hadmissible.fresh] at ha
    cases ha) ha⟩
  refine bind_eq_ok.mpr ⟨_, (add_eq_ok hy).mpr ⟨hy', rfl⟩, (add_eq_ok hx).mpr ⟨?_, ?_⟩⟩
  · exact admissible_insert.mpr ⟨hne.symm, hapart.symm, hadmissible.proper, hadmissible.fresh,
      fun k a _ ha => hadmissible.apart k a ha⟩
  · have hcommute : (s.accounts.insert x.1 x.2).insert y.1 y.2 =
        (s.accounts.insert y.1 y.2).insert x.1 x.2 := by
      refine SortedMap.ext_get fun k => ?_
      simp only [SortedMap.get?_insert]
      split_ifs with hky hkx
      · exact absurd (hky.symm.trans hkx) hne
      · rfl
      · rfl
      · rfl
    exact congrArg _ hcommute

/-! ### Owners -/

/-- The registry of an owner: an account's, or the relationship's. -/
def registryOf (s : AuthoritySnapshot) : Option AccountId → Option KeyRegistry
  | some id => (s.accounts.get? id).map (·.registry)
  | none => some s.relationship

/-- The owner's registry has the key. -/
def Holds (s : AuthoritySnapshot) (owner : Option AccountId) (reference : OperationalKeyRef) : Prop :=
  ∃ registry, s.registryOf owner = some registry ∧ registry.containsKey reference = true

/-- A user's actor is owned by the account of its persona, the others by the relationship. -/
inductive Owns (s : AuthoritySnapshot) : Option AccountId → ActorRef → Prop
  | account {id : AccountId} {a : AccountAuthority} {p : ProtocolIdentity} {actor : ActorRef} :
      s.accounts.get? id = some a → a.personas.contains p = true → actor.persona = some p →
      s.Owns (some id) actor
  | relationship {actor : ActorRef} : actor.persona = none → s.Owns none actor

/-- Nothing in the snapshot is held twice, and no user's key by the relationship. -/
structure Unambiguous (s : AuthoritySnapshot) : Prop where
  relationship : ∀ reference key, s.relationship.keys.get? reference = some key → key.actor.persona = none
  proper : ∀ id a, s.accounts.get? id = some a → Proper s.relationship id a
  apart : ∀ id a id' a', s.accounts.get? id = some a → s.accounts.get? id' = some a' → id ≠ id' → Apart a a'

theorem new_unambiguous {relationship : KeyRegistry} (h : new relationship = .ok s) : s.Unambiguous := by
  obtain ⟨_, hnone, hs⟩ := bind_eq_ok.mp h
  cases hs
  refine ⟨fun reference key hkey => ?_, nofun, nofun⟩
  by_contra hsome
  refine (refuseIf_eq_ok.mp hnone) (List.any_eq_true.mpr ⟨key, ?_, Option.isSome_iff_ne_none.mpr hsome⟩)
  exact KeyRegistry.mem_records.mpr ⟨reference, hkey⟩

theorem Admissible.unambiguous (h : s.Admissible id account) (hs : s.Unambiguous) :
    AuthoritySnapshot.Unambiguous {s with accounts := s.accounts.insert id account} := by
  refine ⟨hs.relationship, fun k a hk => ?_, fun k a k' a' hk hk' hne => ?_⟩
  · dsimp only at hk
    rw [SortedMap.get?_insert] at hk
    split_ifs at hk with heq
    · cases hk
      exact heq ▸ h.proper
    · exact hs.proper k a hk
  · dsimp only at hk hk'
    rw [SortedMap.get?_insert] at hk hk'
    split_ifs at hk hk' with heq heq' heq'
    · exact absurd (heq.trans heq'.symm) hne
    · cases hk
      exact h.apart k' a' hk'
    · cases hk'
      exact (h.apart k a hk).symm
    · exact hs.apart k a k' a' hk hk' hne

/-- The snapshot after the additions, those that were refused among them. -/
def composed (start : AuthoritySnapshot) (additions : List (AccountId × AccountAuthority)) :
    AuthoritySnapshot := Machine.run add start additions

theorem composed_unambiguous {relationship : KeyRegistry} (h : new relationship = .ok s)
    {additions : List (AccountId × AccountAuthority)} (hfiled : ∀ entry ∈ additions, entry.2.registry.Filed) :
    (s.composed additions).Unambiguous :=
  Machine.run_preserves_of (fun _ _ _ hentry hs hadd => by
    obtain ⟨hadmissible, rfl⟩ := (add_eq_ok hentry).mp hadd
    exact hadmissible.unambiguous hs) (new_unambiguous h) hfiled

namespace Unambiguous

theorem persona_unique (hs : s.Unambiguous) {id' : AccountId} {a a' : AccountAuthority} {p : ProtocolIdentity}
    (ha : s.accounts.get? id = some a) (ha' : s.accounts.get? id' = some a')
    (hp : a.personas.contains p = true) (hp' : a'.personas.contains p = true) : id = id' := by
  by_contra hne
  have := (hs.apart id a id' a' ha ha' hne).personas p hp
  rw [hp'] at this
  cases this

theorem holder_unique (hs : s.Unambiguous) {owner owner' : Option AccountId} {reference : OperationalKeyRef}
    (h : s.Holds owner reference) (h' : s.Holds owner' reference) : owner = owner' := by
  have happart : ∀ id a, s.accounts.get? id = some a → a.registry.containsKey reference = true →
      s.relationship.containsKey reference ≠ true := fun id a ha hkey hrelationship => by
    have := (hs.proper id a ha).keys reference hkey
    rw [hrelationship] at this
    cases this
  obtain ⟨r, hr, hkey⟩ := h
  obtain ⟨r', hr', hkey'⟩ := h'
  cases owner with
  | none =>
    cases hr
    cases owner' with
    | none => rfl
    | some id' =>
      obtain ⟨a', ha', rfl⟩ := Option.map_eq_some_iff.mp hr'
      exact absurd hkey (happart id' a' ha' hkey')
  | some id =>
    obtain ⟨a, ha, rfl⟩ := Option.map_eq_some_iff.mp hr
    cases owner' with
    | none =>
      cases hr'
      exact absurd hkey' (happart id a ha hkey)
    | some id' =>
      obtain ⟨a', ha', rfl⟩ := Option.map_eq_some_iff.mp hr'
      by_contra hne
      have := (hs.apart id a id' a' ha ha' fun heq => hne (heq ▸ rfl)).keys reference hkey
      rw [hkey'] at this
      cases this

end Unambiguous

/-! ### Lookups -/

/-- An account found among the others is the only one the search fits. -/
theorem find_account {test : AccountAuthority → Bool} {registry : KeyRegistry}
    (hunique : ∀ id a id' a', s.accounts.get? id = some a → s.accounts.get? id' = some a' →
      test a = true → test a' = true → id = id') :
    (s.accounts.values.find? test).map (·.registry) = some registry ↔
      ∃ id a, s.accounts.get? id = some a ∧ test a = true ∧ a.registry = registry := by
  constructor
  · intro h
    obtain ⟨a, ha, hregistry⟩ := Option.map_eq_some_iff.mp h
    obtain ⟨id, hid⟩ := SortedMap.mem_values.mp (List.mem_of_find?_eq_some ha)
    exact ⟨id, a, hid, List.find?_some ha, hregistry⟩
  · rintro ⟨id, a, ha, htest, rfl⟩
    cases hfound : s.accounts.values.find? test with
    | none => exact absurd htest (List.find?_eq_none.mp hfound a (SortedMap.mem_values.mpr ⟨id, ha⟩))
    | some a' =>
      obtain ⟨id', ha'⟩ := SortedMap.mem_values.mp (List.mem_of_find?_eq_some hfound)
      have heq := hunique id a id' a' ha ha' htest (List.find?_some hfound)
      rw [← heq, ha] at ha'
      cases ha'
      rfl

namespace Unambiguous
variable {reference : OperationalKeyRef} {actor : ActorRef} {time : CanonicalTime}

/-- The registry that answers for an actor is its owner's. -/
theorem registry_eq_ok (hs : s.Unambiguous) {registry : KeyRegistry} :
    s.registry actor = .ok registry ↔ ∃ owner, s.Owns owner actor ∧ s.registryOf owner = some registry := by
  have haccount : ∀ p, actor.persona = some p → (okOr ((s.accounts.values.find?
      fun a => a.personas.contains p).map (·.registry)) SecurityError.unknownKey = .ok registry ↔
      ∃ owner, s.Owns owner actor ∧ s.registryOf owner = some registry) := fun p hp => by
    rw [okOr_eq_ok, find_account fun id a id' a' ha ha' => hs.persona_unique ha ha']
    constructor
    · rintro ⟨id, a, ha, hin, rfl⟩
      exact ⟨some id, .account ha hin hp, by rw [registryOf, ha]; rfl⟩
    · rintro ⟨_, howner, hregistry⟩
      cases howner with
      | relationship hnone =>
        rw [hp] at hnone
        cases hnone
      | @account id a p' _ ha hin hp' =>
        rw [registryOf, ha] at hregistry
        cases hregistry
        rw [hp] at hp'
        cases hp'
        exact ⟨id, a, ha, hin, rfl⟩
  have hrelationship : actor.persona = none → ((Except.ok s.relationship : Except SecurityError KeyRegistry) =
      .ok registry ↔ ∃ owner, s.Owns owner actor ∧ s.registryOf owner = some registry) := fun hnone => by
    constructor
    · intro h
      cases h
      exact ⟨none, .relationship hnone, rfl⟩
    · rintro ⟨_, howner, hregistry⟩
      cases howner with
      | relationship =>
        cases hregistry
        rfl
      | account _ _ hp =>
        rw [hnone] at hp
        cases hp
  cases actor with
  | sender p => exact haccount p rfl
  | recipient p => exact haccount p rfl
  | provider p => exact hrelationship rfl
  | scheduler p => exact hrelationship rfl

/-- The search through the accounts, and then the relationship, ends where the key is held. -/
theorem holder_eq (hs : s.Unambiguous) {owner : Option AccountId} {registry : KeyRegistry}
    (howner : s.registryOf owner = some registry) (hkey : registry.containsKey reference = true) :
    s.holder reference = registry := by
  unfold holder
  cases hfound : s.accounts.values.find? fun a => a.registry.containsKey reference with
  | none =>
    cases owner with
    | none => exact Option.some.inj howner
    | some id =>
      obtain ⟨a, ha, rfl⟩ := Option.map_eq_some_iff.mp howner
      exact absurd hkey (List.find?_eq_none.mp hfound a (SortedMap.mem_values.mpr ⟨id, ha⟩))
  | some a =>
    obtain ⟨id, ha⟩ := SortedMap.mem_values.mp (List.mem_of_find?_eq_some hfound)
    have hregistry : s.registryOf (some id) = some a.registry := by
      rw [registryOf, ha]
      rfl
    have hheld : a.registry.containsKey reference = true :=
      List.find?_some (p := fun a : AccountAuthority => a.registry.containsKey reference) hfound
    have hsame := hs.holder_unique ⟨_, hregistry, hheld⟩ ⟨_, howner, hkey⟩
    rw [← hsame, hregistry] at howner
    exact Option.some.inj howner

theorem activeVerifyingKey_eq_ok (hs : s.Unambiguous) {verifyingKey : Bytes32} :
    s.activeVerifyingKey reference actor time = .ok verifyingKey ↔ ∃ owner registry,
      s.Owns owner actor ∧ s.registryOf owner = some registry ∧
      registry.activeVerifyingKey reference actor time = .ok verifyingKey := by
  rw [activeVerifyingKey, bind_eq_ok]
  simp only [hs.registry_eq_ok]
  constructor
  · rintro ⟨registry, ⟨owner, howner, hregistry⟩, hactive⟩
    exact ⟨owner, registry, howner, hregistry, hactive⟩
  · rintro ⟨owner, registry, howner, hregistry, hactive⟩
    exact ⟨registry, ⟨owner, howner, hregistry⟩, hactive⟩

/-- Who a key speaks for now, and whether an actor may use it now, is one question. -/
theorem activeActor_eq_ok (hs : s.Unambiguous) {found : ActorRef × Bytes32} :
    s.activeActor reference time = .ok found ↔
      s.activeVerifyingKey reference found.1 time = .ok found.2 := by
  unfold activeActor
  simp only [bind_eq_ok, Except.ok.injEq]
  constructor
  · rintro ⟨_, -, _, hactive, rfl⟩
    exact hactive
  · intro hactive
    obtain ⟨owner, registry, howner, hregistry, hkey⟩ := hs.activeVerifyingKey_eq_ok.mp hactive
    obtain ⟨key, hfound, -⟩ := KeyRegistry.activeVerifyingKey_eq_ok.mp hkey
    have hholder := hs.holder_eq hregistry (KeyRegistry.containsKey_iff.mpr ⟨key, hfound⟩)
    exact ⟨found, hholder ▸ KeyRegistry.activeActor_eq_ok.mpr hkey, found.2, hactive, rfl⟩

end Unambiguous

/-- Accounts the snapshot accepts in one order it accepts in any, with the same result. -/
theorem add_perm {accounts accounts' : List (AccountId × AccountAuthority)} (hperm : accounts.Perm accounts')
    (hfiled : ∀ entry ∈ accounts, entry.2.registry.Filed) (h : accounts.foldlM add s = .ok s') :
    accounts'.foldlM add s = .ok s' :=
  foldlM_perm (f := add) (C := fun entry => entry.2.registry.Filed)
    (fun _ _ _ _ hx hy hadded => add_swap hx hy hadded) hperm hfiled h

section Ownership
variable [Crypto] [Cbor] [Json]

/-- **Ownership is unambiguous.** After any additions, refused ones included, of registries
that file each key under its reference, as the methods of a registry leave them
(`KeyRegistry.filed_after`): a persona has one account and a key one holder, and the
relationship holds no user's key. Current authority comes from the holder alone, and is the
same whichever way it is asked for. What is verified was signed with a key that the owner
of the command's actor holds for this actor. Accounts that can be added can be added in any order. -/
theorem ownership {relationship : KeyRegistry} {start : AuthoritySnapshot} (hnew : new relationship = .ok start)
    (additions : List (AccountId × AccountAuthority)) (hfiled : ∀ entry ∈ additions, entry.2.registry.Filed) :
    (∀ p id id' a a', (start.composed additions).accounts.get? id = some a →
      (start.composed additions).accounts.get? id' = some a' →
      a.personas.contains p = true → a'.personas.contains p = true → id = id') ∧
    (∀ reference owner owner', (start.composed additions).Holds owner reference →
      (start.composed additions).Holds owner' reference → owner = owner') ∧
    (∀ key ∈ (start.composed additions).relationship.records, key.actor.persona = none) ∧
    (∀ reference time actor verifyingKey,
      ((start.composed additions).activeActor reference time = .ok (actor, verifyingKey) ↔
        (start.composed additions).activeVerifyingKey reference actor time = .ok verifyingKey) ∧
      ((start.composed additions).activeActor reference time = .ok (actor, verifyingKey) →
        ∃ owner registry, (start.composed additions).registryOf owner = some registry ∧
          (∀ other, (start.composed additions).Holds other reference ↔ other = owner) ∧
          (start.composed additions).Owns owner actor ∧
          registry.activeActor reference time = .ok (actor, verifyingKey))) ∧
    (∀ signed time version scope command,
      (start.composed additions).verify signed time version scope = .ok command →
      ∃ envelope owner registry key, decodeCommandEnvelope signed.payload = .ok envelope ∧
        command.authorized.actor = envelope.actor ∧ (start.composed additions).Owns owner envelope.actor ∧
        (start.composed additions).registryOf owner = some registry ∧
        (∀ other, (start.composed additions).Holds other envelope.operationalKey ↔ other = owner) ∧
        registry.keys.get? envelope.operationalKey = some key ∧ key.actor = envelope.actor) ∧
    ∀ (accounts accounts' : List (AccountId × AccountAuthority)) (result : AuthoritySnapshot),
      accounts.Perm accounts' → (∀ entry ∈ accounts, entry.2.registry.Filed) →
      accounts.foldlM add (start.composed additions) = .ok result →
      accounts'.foldlM add (start.composed additions) = .ok result := by
  have hs := composed_unambiguous hnew hfiled
  generalize start.composed additions = s at hs
  have honly : ∀ {owner registry reference key}, s.registryOf owner = some registry →
      registry.keys.get? reference = some key → ∀ other, s.Holds other reference ↔ other = owner :=
    fun hregistry hkey other => by
      have hholds := (⟨_, hregistry, KeyRegistry.containsKey_iff.mpr ⟨_, hkey⟩⟩ : s.Holds _ _)
      exact ⟨fun hother => hs.holder_unique hother hholds, fun heq => heq ▸ hholds⟩
  refine ⟨fun p id id' a a' ha ha' hp hp' => hs.persona_unique ha ha' hp hp',
    fun reference owner owner' h h' => hs.holder_unique h h', fun key hin => ?_,
    fun reference time actor verifyingKey => ⟨hs.activeActor_eq_ok, fun hactive => ?_⟩,
    fun signed time version scope command hverify => ?_,
    fun accounts accounts' result hperm hall hresult => add_perm hperm hall hresult⟩
  · obtain ⟨reference, hkey⟩ := KeyRegistry.mem_records.mp hin
    exact hs.relationship reference key hkey
  · obtain ⟨owner, registry, howner, hregistry, hkey⟩ :=
      hs.activeVerifyingKey_eq_ok.mp (hs.activeActor_eq_ok.mp hactive)
    obtain ⟨key, hfound, -⟩ := KeyRegistry.activeVerifyingKey_eq_ok.mp hkey
    exact ⟨owner, registry, hregistry, honly hregistry hfound, howner, KeyRegistry.activeActor_eq_ok.mpr hkey⟩
  · obtain ⟨envelope, hdecode, hverify⟩ := bind_eq_ok.mp hverify
    obtain ⟨registry, hregistry, hverify⟩ := bind_eq_ok.mp hverify
    rw [mapError_eq_ok] at hdecode
    obtain ⟨envelope', key, hdecode', hkey, hauthenticates, rfl⟩ := KeyRegistry.verify_eq_ok.mp hverify
    rw [hdecode] at hdecode'
    cases hdecode'
    obtain ⟨owner, howner, howned⟩ := hs.registry_eq_ok.mp hregistry
    exact ⟨envelope, owner, registry, key, hdecode, rfl, howner, howned, honly howned hkey, hkey,
      hauthenticates.actor⟩

end Ownership

namespace Example

@[reducible] def crypto : Crypto := ⟨fun _ => zero32, fun _ => true, fun _ _ _ => true⟩

def sender (persona : ProtocolIdentity) (key : OperationalKeyRef) : AccountAuthority :=
  ⟨SortedMap.ofList [(persona, ())], @KeyRegistry.after crypto [.register key (.sender persona) zero32 ⟨10⟩]⟩

/-- The second account brings the first one's persona, and is refused. -/
def additions : List (AccountId × AccountAuthority) :=
  [(⟨1⟩, sender ⟨2⟩ ⟨3⟩), (⟨4⟩, sender ⟨2⟩ ⟨5⟩), (⟨4⟩, sender ⟨6⟩ ⟨5⟩)]

theorem filed : ∀ entry ∈ additions, entry.2.registry.Filed := by
  intro entry hin
  simp only [additions, List.mem_cons, List.not_mem_nil, or_false] at hin
  rcases hin with rfl | rfl | rfl <;> exact @KeyRegistry.filed_after crypto _

def start : AuthoritySnapshot := ⟨.empty, ∅⟩

end Example

/-- In the example both accounts are there, and the first alone answers for its key. -/
theorem ownership_accounts :
    (Example.start.composed Example.additions).accounts.keys = [⟨1⟩, ⟨4⟩] ∧
    ∃ owner registry, (Example.start.composed Example.additions).registryOf owner = some registry ∧
      (∀ other, (Example.start.composed Example.additions).Holds other ⟨3⟩ ↔ other = owner) ∧
      (Example.start.composed Example.additions).Owns owner (.sender ⟨2⟩) ∧
      registry.activeActor ⟨3⟩ ⟨10⟩ = .ok (.sender ⟨2⟩, zero32) := by
  refine ⟨by decide +kernel, ?_⟩
  have h := @ownership Example.crypto CanonicalCommandEnvelope.Example.cbor
    CanonicalCommandEnvelope.Example.json .empty Example.start rfl Example.additions Example.filed
  exact (h.2.2.2.1 ⟨3⟩ ⟨10⟩ (.sender ⟨2⟩) zero32).2 (by decide +kernel)

end AuthoritySnapshot

end CsMail
