import CsMail.Application.Accounts
import CsMail.Security.AuthorityProofs

/-! What replacing a device key does to a registry.

Every key there is gets revoked, those that were retired or revoked before among them, and
one new key is registered. On a registry whose records are about the past this is refused
only for what the new key is, or for a counter; afterwards the new key alone has current
authority, and what was received before is verified as it was. -/
namespace CsMail
open Library

/-! ### Records about the past -/

/-- Whatever happened to the key, happened by now. -/
def KeyStatus.Past (now : CanonicalTime) : KeyStatus → Prop
  | active => True
  | retired validUntil => validUntil ≤ now
  | revoked revokedAt | retiredRevoked _ revokedAt => revokedAt ≤ now

structure OperationalKeyRecord.Past (now : CanonicalTime) (key : OperationalKeyRecord) : Prop where
  validFrom : key.validFrom ≤ now
  status : key.status.Past now

theorem KeyStatus.Past.mono {s : KeyStatus} {now later : CanonicalTime} (h : s.Past now) (hle : now ≤ later) :
    s.Past later := by
  cases s with
  | active => trivial
  | retired validUntil => exact LE.le.trans h hle
  | revoked revokedAt => exact LE.le.trans h hle
  | retiredRevoked validUntil revokedAt => exact LE.le.trans h hle

theorem OperationalKeyRecord.Past.mono {key : OperationalKeyRecord} {now later : CanonicalTime} (h : key.Past now)
    (hle : now ≤ later) : key.Past later where
  validFrom := LE.le.trans h.validFrom hle
  status := h.status.mono hle

theorem KeyStatus.Past.afterRevocation {s : KeyStatus} {now : CanonicalTime} (h : s.Past now) :
    (s.afterRevocation now).Past now := by
  cases s with
  | active => exact le_refl now
  | retired validUntil => exact le_refl now
  | revoked revokedAt => exact h
  | retiredRevoked validUntil revokedAt => exact h

/-- What a revocation leaves of a key. -/
def OperationalKeyRecord.withdrawn (time : CanonicalTime) (key : OperationalKeyRecord) : OperationalKeyRecord :=
  if key.status.isRevoked = true then key
  else {key with
    status := key.status.afterRevocation time
    version := key.version.checkedNext.getD key.version}

namespace OperationalKeyRecord
variable {key : OperationalKeyRecord} {time : CanonicalTime}

theorem withdrawn_isRevoked : (key.withdrawn time).status.isRevoked = true := by
  unfold withdrawn
  split_ifs with h
  · exact h
  · cases hstatus : key.status with
    | active => rfl
    | retired validUntil => rfl
    | revoked revokedAt => simp [hstatus, KeyStatus.isRevoked] at h
    | retiredRevoked validUntil revokedAt => simp [hstatus, KeyStatus.isRevoked] at h

theorem withdrawn_same : (key.withdrawn time).reference = key.reference ∧
    (key.withdrawn time).actor = key.actor ∧ (key.withdrawn time).verifyingKey = key.verifyingKey ∧
    (key.withdrawn time).validFrom = key.validFrom := by
  unfold withdrawn
  split_ifs <;> exact ⟨rfl, rfl, rfl, rfl⟩

theorem withdrawn_past (h : key.Past time) : (key.withdrawn time).Past time := by
  refine ⟨withdrawn_same.2.2.2.symm ▸ h.validFrom, ?_⟩
  unfold withdrawn
  split_ifs
  · exact h.status
  · exact h.status.afterRevocation

/-- What was received before a revocation is not touched by it. -/
theorem withdrawn_receipt {receipt : CanonicalTime} (h : receipt < time) :
    (key.withdrawn time).status.validAtReceipt receipt = key.status.validAtReceipt receipt := by
  unfold withdrawn
  split_ifs
  · rfl
  · cases hstatus : key.status <;> simp [KeyStatus.afterRevocation, KeyStatus.validAtReceipt, h]

end OperationalKeyRecord

namespace KeyRegistry
variable {r r' : KeyRegistry} {time : CanonicalTime}

theorem revokedStatus_past {status : KeyStatus} (h : status.Past time) : revokedStatus status time =
    .ok (if status.isRevoked = true then none else some (status.afterRevocation time)) := by
  cases status with
  | active => rfl
  | retired validUntil =>
    have hle : ¬time < validUntil := not_lt.mpr h
    simp [revokedStatus, refuseIf, hle, KeyStatus.isRevoked, KeyStatus.afterRevocation]
  | revoked revokedAt => exact if_pos h
  | retiredRevoked validUntil revokedAt => exact if_pos h

/-- The records of a registry are filed under their references, each once. -/
theorem Filed.references (h : r.Filed) : r.records.map (·.reference) = r.keys.keys := by
  rw [records, SortedMap.values, List.map_map, SortedMap.keys]
  exact List.map_congr_left fun e he => h e.1 e.2 (SortedMap.mem_entries.mp he)

variable [Crypto]

theorem revoke_past {key : OperationalKeyRecord} (hkey : r.keys.get? key.reference = some key) (h : key.Past time) :
    (revoke key.reference key.version time).on r = (.ok (), r') ↔
      (key.status.isRevoked = true ∧ r' = r) ∨ (key.status.isRevoked = false ∧ ∃ keyVersion version,
        key.version.checkedNext = some keyVersion ∧ r.version.checkedNext = some version ∧
        r' = ⟨r.keys.insert key.reference (key.withdrawn time), version,
          r.transparency.append (key.withdrawn time) .revoked time⟩) := by
  rw [revoke_eq_ok]
  constructor
  · rintro ⟨found, hfound, -, -, hcases⟩
    rw [hkey] at hfound
    cases hfound
    rw [revokedStatus_past h.status] at hcases
    rcases hcases with ⟨hstatus, rfl⟩ | ⟨status, keyVersion, version, hstatus, hnext, hnext', rfl⟩
    · refine .inl ⟨?_, rfl⟩
      by_contra hnot
      rw [if_neg hnot] at hstatus
      cases hstatus
    · have hnot : ¬key.status.isRevoked = true := fun hrevoked => by
        rw [if_pos hrevoked] at hstatus
        cases hstatus
      rw [if_neg hnot] at hstatus
      cases hstatus
      refine .inr ⟨Bool.eq_false_of_not_eq_true hnot, keyVersion, version, hnext, hnext', ?_⟩
      simp only [OperationalKeyRecord.withdrawn, hnot, hnext, Option.getD_some, Bool.false_eq_true, if_false]
  · rintro (⟨hrevoked, rfl⟩ | ⟨hnot, keyVersion, version, hnext, hnext', rfl⟩)
    · refine ⟨key, hkey, rfl, h.validFrom, .inl ⟨?_, rfl⟩⟩
      rw [revokedStatus_past h.status, if_pos hrevoked]
    · refine ⟨key, hkey, rfl, h.validFrom, .inr ⟨key.status.afterRevocation time, keyVersion, version, ?_, hnext,
        hnext', ?_⟩⟩
      · rw [revokedStatus_past h.status, hnot]
        rfl
      · simp only [OperationalKeyRecord.withdrawn, hnot, hnext, Option.getD_some, Bool.false_eq_true, if_false]

/-! ### Revoking one key after another -/

def revokeEach (time : CanonicalTime) (keys : List OperationalKeyRecord) : Method Unit :=
  (keys.map fun key => (key.reference, key.version)).forM fun (reference, version) => revoke reference version time

/-- How many of the keys a revocation would still change. -/
def unrevoked (keys : List OperationalKeyRecord) : ℕ := keys.countP fun key => !key.status.isRevoked

theorem revokeEach_cons {key : OperationalKeyRecord} {rest : List OperationalKeyRecord} :
    (revokeEach time (key :: rest)).on r = (.ok (), r') ↔ ∃ next,
      (revoke key.reference key.version time).on r = (.ok (), next) ∧
      (revokeEach time rest).on next = (.ok (), r') := by
  rw [show revokeEach time (key :: rest) = (revoke key.reference key.version time >>= fun _ => revokeEach time rest)
    from rfl, InPlace.on_bind]
  constructor
  · rintro ⟨_, next, hfirst, hrest⟩
    exact ⟨next, hfirst, hrest⟩
  · rintro ⟨next, hfirst, hrest⟩
    exact ⟨(), next, hfirst, hrest⟩

/-- The keys to be revoked are in the registry, each once, and their records are about the past. -/
structure Pending (r : KeyRegistry) (time : CanonicalTime) (keys : List OperationalKeyRecord) : Prop where
  held : ∀ key ∈ keys, r.keys.get? key.reference = some key
  past : ∀ key ∈ keys, key.Past time
  distinct : (keys.map (·.reference)).Nodup

theorem Pending.step {key : OperationalKeyRecord} {rest : List OperationalKeyRecord}
    (h : r.Pending time (key :: rest)) (hrevoke : (revoke key.reference key.version time).on r = (.ok (), r')) :
    r'.Pending time rest ∧ r'.keys = r.keys.insert key.reference (key.withdrawn time) ∧
      r'.version.val.val = r.version.val.val + unrevoked [key] ∧
      (key.status.isRevoked = false → key.version.val.val + 1 < 2 ^ 64) := by
  obtain ⟨hheld, hrest⟩ := List.forall_mem_cons.mp h.held
  obtain ⟨hpast, hpasts⟩ := List.forall_mem_cons.mp h.past
  obtain ⟨hnot, hdistinct⟩ := List.nodup_cons.mp h.distinct
  have hkeys : r'.keys = r.keys.insert key.reference (key.withdrawn time) ∧
      r'.version.val.val = r.version.val.val + unrevoked [key] ∧
      (key.status.isRevoked = false → key.version.val.val + 1 < 2 ^ 64) := by
    rcases (revoke_past hheld hpast).mp hrevoke with ⟨hrevoked, rfl⟩ |
      ⟨hactive, keyVersion, version, hnext, hnext', rfl⟩
    · refine ⟨?_, ?_, fun hactive => ?_⟩
      · rw [OperationalKeyRecord.withdrawn, if_pos hrevoked, SortedMap.insert_get?_self hheld]
      · simp [unrevoked, hrevoked]
      · rw [hrevoked] at hactive
        cases hactive
    · refine ⟨rfl, ?_, fun _ => ?_⟩
      · rw [Counter.checkedNext_eq_some.mp hnext']
        simp [unrevoked, hactive]
      · have := Counter.checkedNext_eq_some.mp hnext
        have := keyVersion.val.isLt
        omega
  refine ⟨⟨fun other hother => ?_, hpasts, hdistinct⟩, hkeys⟩
  have hne : other.reference ≠ key.reference := fun heq => hnot (List.mem_map.mpr ⟨other, hother, heq⟩)
  rw [hkeys.1, SortedMap.get?_insert_ne _ _ hne]
  exact hrest other hother

theorem revokeEach_spec {keys : List OperationalKeyRecord} (h : r.Pending time keys)
    (hrun : (revokeEach time keys).on r = (.ok (), r')) :
    (∀ reference, r'.keys.get? reference = if reference ∈ keys.map (·.reference) then
        (r.keys.get? reference).map (·.withdrawn time) else r.keys.get? reference) ∧
      r'.version.val.val = r.version.val.val + unrevoked keys ∧
      ∀ key ∈ keys, key.status.isRevoked = false → key.version.val.val + 1 < 2 ^ 64 := by
  induction keys generalizing r with
  | nil =>
    have hsame : r = r' := (InPlace.on_pure.mp hrun).2
    subst hsame
    exact ⟨fun _ => rfl, rfl, nofun⟩
  | cons key rest ih =>
    obtain ⟨next, hnext, hrest⟩ := revokeEach_cons.mp hrun
    obtain ⟨hpending, hkeys, hversion, hroom⟩ := h.step hnext
    obtain ⟨hget, hversion', hrooms⟩ := ih hpending hrest
    have hheld := h.held key (List.mem_cons_self ..)
    have hnot := (List.nodup_cons.mp h.distinct).1
    refine ⟨fun reference => ?_, ?_, List.forall_mem_cons.mpr ⟨hroom, hrooms⟩⟩
    · rw [hget, hkeys, SortedMap.get?_insert]
      by_cases heq : reference = key.reference
      · subst heq
        rw [if_neg hnot, if_pos rfl, hheld, List.map_cons, if_pos (List.mem_cons_self ..)]
        rfl
      · rw [if_neg heq]
        simp only [List.map_cons, List.mem_cons, heq, false_or]
    · rw [hversion', hversion, unrevoked, unrevoked, unrevoked, ← List.singleton_append (l := rest),
        List.countP_append, Nat.add_assoc]

/-- Revoking key after key is refused for nothing but a counter. -/
theorem revokeEach_succeeds {keys : List OperationalKeyRecord} (h : r.Pending time keys)
    (hversion : r.version.val.val + unrevoked keys < 2 ^ 64)
    (hkeys : ∀ key ∈ keys, key.status.isRevoked = false → key.version.val.val + 1 < 2 ^ 64) :
    ∃ r', (revokeEach time keys).on r = (.ok (), r') := by
  induction keys generalizing r with
  | nil => exact ⟨r, rfl⟩
  | cons key rest ih =>
    obtain ⟨hroom, hrooms⟩ := List.forall_mem_cons.mp hkeys
    have hsplit : unrevoked (key :: rest) = unrevoked [key] + unrevoked rest := by
      rw [unrevoked, unrevoked, unrevoked, ← List.singleton_append (l := rest), List.countP_append]
    have hheld := h.held key (List.mem_cons_self ..)
    have hpast := h.past key (List.mem_cons_self ..)
    have hfirst : ∃ next, (revoke key.reference key.version time).on r = (.ok (), next) := by
      cases hrevoked : key.status.isRevoked with
      | true => exact ⟨r, (revoke_past hheld hpast).mpr (.inl ⟨hrevoked, rfl⟩)⟩
      | false =>
        have hone : unrevoked [key] = 1 := by simp [unrevoked, hrevoked]
        have hk := hroom hrevoked
        have hr : r.version.val.val + 1 < 2 ^ 64 := by omega
        exact ⟨_, (revoke_past hheld hpast).mpr (.inr ⟨hrevoked, ⟨⟨_, hk⟩⟩, ⟨⟨_, hr⟩⟩,
          Counter.checkedNext_eq_some.mpr rfl, Counter.checkedNext_eq_some.mpr rfl, rfl⟩)⟩
    obtain ⟨next, hnext⟩ := hfirst
    obtain ⟨hpending, -, hversion', -⟩ := h.step hnext
    obtain ⟨r', hr'⟩ := ih hpending (by omega) hrooms
    exact ⟨r', revokeEach_cons.mpr ⟨next, hnext, hr'⟩⟩

/-! ### Replacing the device key -/

omit [Crypto]

/-- A registry of records about the past, each under its own reference. -/
structure Settled (r : KeyRegistry) (now : CanonicalTime) : Prop where
  filed : r.Filed
  past : ∀ reference key, r.keys.get? reference = some key → key.Past now

theorem Settled.mono {now : CanonicalTime} (h : r.Settled time) (hle : time ≤ now) : r.Settled now where
  filed := h.filed
  past reference key hkey := (h.past reference key hkey).mono hle

/-- Every key is revoked but a new one. -/
structure Replaced (r : KeyRegistry) (reference : OperationalKeyRef) (actor : ActorRef) (key : Bytes32)
    (time : CanonicalTime) (r' : KeyRegistry) : Prop where
  fresh : r.keys.get? reference = none
  keys : ∀ other, r'.keys.get? other =
    if other = reference then some ⟨reference, actor, key, time, .active, .initial⟩
    else (r.keys.get? other).map (·.withdrawn time)

/-- The counters that a revocation of everything and one registration would move can be moved. -/
structure Room (r : KeyRegistry) : Prop where
  registry : r.version.val.val + unrevoked r.records + 1 < 2 ^ 64
  keys : ∀ key ∈ r.records, key.status.isRevoked = false → key.version.val.val + 1 < 2 ^ 64

theorem Settled.pending (h : r.Settled time) : r.Pending time r.records where
  held key hkey := by
    obtain ⟨reference, hfound⟩ := mem_records.mp hkey
    rw [h.filed reference key hfound]
    exact hfound
  past key hkey := by
    obtain ⟨reference, hfound⟩ := mem_records.mp hkey
    exact h.past reference key hfound
  distinct := by
    rw [h.filed.references]
    exact r.keys.keys_nodup

theorem Filed.get?_of_not_mem {reference : OperationalKeyRef} (h : r.Filed)
    (hnot : reference ∉ r.records.map (·.reference)) : r.keys.get? reference = none := by
  rw [h.references] at hnot
  by_contra hsome
  obtain ⟨key, hkey⟩ := Option.ne_none_iff_exists'.mp hsome
  exact hnot (SortedMap.mem_keys.mpr ⟨key, hkey⟩)

namespace Replaced
variable {reference other : OperationalKeyRef} {actor : ActorRef} {key : Bytes32}

theorem new (h : Replaced r reference actor key time r') :
    r'.keys.get? reference = some ⟨reference, actor, key, time, .active, .initial⟩ := by
  rw [h.keys, if_pos rfl]

theorem old {record : OperationalKeyRecord} (h : Replaced r reference actor key time r')
    (hne : other ≠ reference) (hrecord : r'.keys.get? other = some record) :
    ∃ before, r.keys.get? other = some before ∧ record = before.withdrawn time := by
  rw [h.keys, if_neg hne] at hrecord
  obtain ⟨before, hbefore, rfl⟩ := Option.map_eq_some_iff.mp hrecord
  exact ⟨before, hbefore, rfl⟩

theorem settled (h : Replaced r reference actor key time r') (hr : r.Settled time) : r'.Settled time where
  filed other record hrecord := by
    by_cases heq : other = reference
    · subst heq
      rw [h.new] at hrecord
      cases hrecord
      rfl
    · obtain ⟨before, hbefore, rfl⟩ := h.old heq hrecord
      rw [OperationalKeyRecord.withdrawn_same.1]
      exact hr.filed other before hbefore
  past other record hrecord := by
    by_cases heq : other = reference
    · subst heq
      rw [h.new] at hrecord
      cases hrecord
      exact ⟨le_refl time, trivial⟩
    · obtain ⟨before, hbefore, rfl⟩ := h.old heq hrecord
      exact OperationalKeyRecord.withdrawn_past (hr.past other before hbefore)

/-- The new key, and no other, has current authority. -/
theorem activeVerifyingKey_iff {t : CanonicalTime} {expectedActor : ActorRef} {verifyingKey : Bytes32}
    (h : Replaced r reference actor key time r') (ht : time ≤ t) :
    r'.activeVerifyingKey other expectedActor t = .ok verifyingKey ↔
      other = reference ∧ expectedActor = actor ∧ verifyingKey = key := by
  rw [activeVerifyingKey_eq_ok]
  constructor
  · rintro ⟨record, hrecord, hactor, -, hactive, -, hkey⟩
    by_cases heq : other = reference
    · subst heq
      rw [h.new] at hrecord
      cases hrecord
      exact ⟨rfl, hactor.symm, hkey.symm⟩
    · obtain ⟨before, -, rfl⟩ := h.old heq hrecord
      rw [OperationalKeyRecord.withdrawn_isRevoked] at hactive
      cases hactive
  · rintro ⟨rfl, rfl, rfl⟩
    exact ⟨_, h.new, rfl, ht, rfl, rfl, rfl⟩

theorem activeActor_iff {t : CanonicalTime} {owner : ActorRef × Bytes32}
    (h : Replaced r reference actor key time r') (ht : time ≤ t) :
    r'.activeActor other t = .ok owner ↔ other = reference ∧ owner = (actor, key) := by
  rw [activeActor_eq_ok, h.activeVerifyingKey_iff ht, Prod.ext_iff]

section Receipts
variable [Crypto] [Cbor] [Json] {signed : SignedCommandBytes} {receiptTime : CanonicalTime}
  {version : ProtocolVersion} {scope : SigningScope}

/-- A command received before is verified as it was, with the same error if it is refused,
unless it names the key there was not. -/
theorem verify_eq (h : Replaced r reference actor key time r') (hreceipt : receiptTime < time)
    (hother : ∀ envelope, decodeCommandEnvelope signed.payload = .ok envelope →
      envelope.operationalKey ≠ reference) :
    r'.verify signed receiptTime version scope = r.verify signed receiptTime version scope := by
  unfold verify
  cases hdecode : decodeCommandEnvelope signed.payload with
  | error e => rfl
  | ok envelope =>
    have hget := h.keys envelope.operationalKey
    rw [if_neg (hother envelope hdecode)] at hget
    cases hkey : r.keys.get? envelope.operationalKey with
    | none =>
      rw [hkey, Option.map_none] at hget
      simp only [Except.mapError, ok_bind, hget, hkey]
    | some before =>
      rw [hkey, Option.map_some] at hget
      obtain ⟨-, hactor, hverifying, hfrom⟩ := @OperationalKeyRecord.withdrawn_same before time
      simp only [Except.mapError, ok_bind, hget, hkey, okOr, hactor, hverifying, hfrom,
        OperationalKeyRecord.withdrawn_receipt hreceipt]

/-- What was verified is verified still, and nothing else is: the new key is not valid yet. -/
theorem verify_iff (h : Replaced r reference actor key time r') (hreceipt : receiptTime < time)
    {command : VerifiedCommand} : r'.verify signed receiptTime version scope = .ok command ↔
      r.verify signed receiptTime version scope = .ok command := by
  by_cases hother : ∀ envelope, decodeCommandEnvelope signed.payload = .ok envelope →
      envelope.operationalKey ≠ reference
  · rw [h.verify_eq hreceipt hother]
  · push Not at hother
    obtain ⟨envelope, hdecode, heq⟩ := hother
    rw [verify_eq_ok, verify_eq_ok]
    constructor
    · rintro ⟨envelope', found, hdecode', hfound, hauth, -⟩
      rw [hdecode] at hdecode'
      cases hdecode'
      rw [heq, h.new] at hfound
      cases hfound
      exact absurd hauth.validFrom (not_le.mpr hreceipt)
    · rintro ⟨envelope', found, hdecode', hfound, -, -⟩
      rw [hdecode] at hdecode'
      cases hdecode'
      rw [heq, h.fresh] at hfound
      cases hfound

end Receipts

end Replaced

end KeyRegistry

namespace AccountService
open KeyRegistry
variable [Crypto] {r r' : KeyRegistry} {reference : OperationalKeyRef} {persona : ProtocolIdentity}
  {key : Bytes32} {time : CanonicalTime}

theorem replaceDeviceKey_iff : (replaceDeviceKey reference persona key time).on r = (.ok (), r') ↔
    ∃ withdrawn, (revokeEach time r.records).on r = (.ok (), withdrawn) ∧
      (register reference (.sender persona) key time).on withdrawn = (.ok (), r') := by
  unfold replaceDeviceKey
  rw [InPlace.on_bind]
  constructor
  · rintro ⟨registry, start, hread, h⟩
    obtain ⟨rfl, rfl⟩ := InPlace.on_read.mp hread
    obtain ⟨_, withdrawn, hrevoke, hregister⟩ := InPlace.on_bind.mp h
    exact ⟨withdrawn, hrevoke, hregister⟩
  · rintro ⟨withdrawn, hrevoke, hregister⟩
    exact ⟨r, r, InPlace.on_read.mpr ⟨rfl, rfl⟩, InPlace.on_bind.mpr ⟨(), withdrawn, hrevoke, hregister⟩⟩

/-- A replacement succeeds exactly when the new key can be registered and no counter is at its end. -/
theorem replaceDeviceKey_spec (h : r.Settled time)
    (hrun : (replaceDeviceKey reference persona key time).on r = (.ok (), r')) :
    Replaced r reference (.sender persona) key time r' ∧ Crypto.validKey key = true ∧ r.Room := by
  obtain ⟨withdrawn, hrevoke, hregister⟩ := replaceDeviceKey_iff.mp hrun
  obtain ⟨hget, hversion, hrooms⟩ := revokeEach_spec h.pending hrevoke
  obtain ⟨hnew, hvalid, version, hnext, rfl⟩ := register_eq_ok.mp hregister
  have hget' : ∀ other, withdrawn.keys.get? other = (r.keys.get? other).map (·.withdrawn time) := fun other => by
    rw [hget]
    split_ifs with hmem
    · rfl
    · rw [h.filed.get?_of_not_mem hmem]
      rfl
  rw [hget', Option.map_eq_none_iff] at hnew
  refine ⟨⟨hnew, fun other => ?_⟩, hvalid, ?_, hrooms⟩
  · rw [SortedMap.get?_insert]
    split_ifs
    · rfl
    · exact hget' other
  · have hlast := Counter.checkedNext_eq_some.mp hnext
    have := version.val.isLt
    omega

theorem replaceDeviceKey_succeeds (h : r.Settled time) (hnew : r.keys.get? reference = none)
    (hvalid : Crypto.validKey key = true) (hroom : r.Room) :
    ∃ r', (replaceDeviceKey reference persona key time).on r = (.ok (), r') := by
  have hregistry := hroom.registry
  obtain ⟨withdrawn, hrevoke⟩ := revokeEach_succeeds h.pending (by omega) hroom.keys
  obtain ⟨hget, hversion, -⟩ := revokeEach_spec h.pending hrevoke
  have hnew' : withdrawn.keys.get? reference = none := by
    rw [hget, hnew]
    split_ifs <;> rfl
  have hlast : withdrawn.version.val.val + 1 < 2 ^ 64 := by omega
  exact ⟨_, replaceDeviceKey_iff.mpr ⟨withdrawn, hrevoke, register_eq_ok.mpr ⟨hnew', hvalid, ⟨⟨_, hlast⟩⟩,
    Counter.checkedNext_eq_some.mpr rfl, rfl⟩⟩⟩

end AccountService

end CsMail
