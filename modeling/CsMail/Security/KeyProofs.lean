import CsMail.Security.Keys
import Mathlib.Logic.Relation

/-! The history of a key registry.

Whatever a call does is a sequence of moves of three kinds, each with its entry in the
log: a registration, a retirement, a revocation (`KeyRegistry.Move`). What holds of a
registry over any run is checked on these. -/
namespace CsMail
open Library

/-! ### Records over time -/

/-- The same key, good for no more than before. -/
structure OperationalKeyRecord.Narrows (key key' : OperationalKeyRecord) : Prop where
  actor : key'.actor = key.actor
  verifyingKey : key'.verifyingKey = key.verifyingKey
  validFrom : key'.validFrom = key.validFrom
  receipts : ∀ t, key'.status.validAtReceipt t = true → key.status.validAtReceipt t = true
  revoked : key.status.isRevoked = true → key'.status = key.status

/-- A status after a revocation, with the retirement before it. -/
def KeyStatus.afterRevocation (time : CanonicalTime) : KeyStatus → KeyStatus
  | active => revoked time
  | retired validUntil => retiredRevoked validUntil time
  | revoked revokedAt => revoked revokedAt
  | retiredRevoked validUntil revokedAt => retiredRevoked validUntil revokedAt

theorem OperationalKeyRecord.Narrows.refl (key : OperationalKeyRecord) : key.Narrows key :=
  ⟨rfl, rfl, rfl, fun _ => id, fun _ => rfl⟩

theorem OperationalKeyRecord.Narrows.trans {a b c : OperationalKeyRecord} (h : a.Narrows b)
    (h' : b.Narrows c) : a.Narrows c where
  actor := h'.actor.trans h.actor
  verifyingKey := h'.verifyingKey.trans h.verifyingKey
  validFrom := h'.validFrom.trans h.validFrom
  receipts t ht := h.receipts t (h'.receipts t ht)
  revoked ha := by
    have hb := h.revoked ha
    exact (h'.revoked (hb ▸ ha)).trans hb

namespace KeyRegistry

theorem revokedStatus_spec {status status' : KeyStatus} {time : CanonicalTime}
    (h : revokedStatus status time = .ok (some status')) : status' = status.afterRevocation time ∧
      status.isRevoked = false ∧ status'.isRevoked = true ∧
      ∀ t, status'.validAtReceipt t = true → status.validAtReceipt t = true := by
  cases status with
  | active =>
    cases h
    exact ⟨rfl, rfl, rfl, fun _ _ => rfl⟩
  | retired validUntil =>
    obtain ⟨-, -, ⟨⟩⟩ := bind_eq_ok.mp h
    exact ⟨rfl, rfl, rfl, fun t ht => (Bool.and_eq_true_iff.mp ht).1⟩
  | revoked revokedAt =>
    simp only [revokedStatus] at h
    split_ifs at h
    cases h
  | retiredRevoked validUntil revokedAt =>
    simp only [revokedStatus] at h
    split_ifs at h
    cases h

/-- Every key is still there, and none is good for more. -/
def Keeps (r r' : KeyRegistry) : Prop := ∀ reference key, r.keys.get? reference = some key →
  ∃ key', r'.keys.get? reference = some key' ∧ key.Narrows key'

theorem Keeps.refl (r : KeyRegistry) : r.Keeps r := fun _ key hkey => ⟨key, hkey, .refl key⟩

theorem Keeps.trans {a b c : KeyRegistry} (h : a.Keeps b) (h' : b.Keeps c) : a.Keeps c :=
  fun reference key hkey => by
    obtain ⟨key', hkey', hnarrows⟩ := h reference key hkey
    obtain ⟨key'', hkey'', hnarrows'⟩ := h' reference key' hkey'
    exact ⟨key'', hkey'', hnarrows.trans hnarrows'⟩

/-- One key is replaced by what is left of it. -/
theorem keeps_insert {r r' : KeyRegistry} {reference : OperationalKeyRef}
    {old key : OperationalKeyRecord} (hold : r.keys.get? reference = some old)
    (hkeys : r'.keys = r.keys.insert reference key) (h : old.Narrows key) : r.Keeps r' := fun k x hx => by
  rw [hkeys, SortedMap.get?_insert]
  by_cases heq : k = reference
  · subst heq
    rw [hold] at hx
    cases hx
    exact ⟨key, if_pos rfl, h⟩
  · exact ⟨x, by rw [if_neg heq, hx], .refl x⟩

end KeyRegistry

/-! ### Calls -/

/-- A call of one of the methods that change a registry. -/
inductive KeyCall
  | register (reference : OperationalKeyRef) (actor : ActorRef) (verifyingKey : Bytes32)
      (validFrom : CanonicalTime)
  | rotate (oldReference : OperationalKeyRef) (expectedOldVersion : Version)
      (newReference : OperationalKeyRef) (newVerifyingKey : Bytes32) (time : CanonicalTime)
  | revoke (reference : OperationalKeyRef) (expectedVersion : Version) (time : CanonicalTime)

variable [Crypto]

def KeyCall.method : KeyCall → KeyRegistry.Method Unit
  | register reference actor verifyingKey validFrom =>
    KeyRegistry.register reference actor verifyingKey validFrom
  | rotate oldReference expectedOldVersion newReference newVerifyingKey time =>
    KeyRegistry.rotate oldReference expectedOldVersion newReference newVerifyingKey time
  | revoke reference expectedVersion time => KeyRegistry.revoke reference expectedVersion time

namespace KeyRegistry

/-- Every assignment comes after the last check. -/
theorem register_atomic (reference : OperationalKeyRef) (actor : ActorRef) (verifyingKey : Bytes32)
    (validFrom : CanonicalTime) : (register reference actor verifyingKey validFrom).Atomic := by
  refine .get fun r => .check fun _ _ => .check fun _ _ => .check fun version _ => ?_
  exact (InPlace.Assigns.assign _ <| .assign _ <| .assign_last _).atomic

theorem rotate_atomic (oldReference : OperationalKeyRef) (expectedOldVersion : Version)
    (newReference : OperationalKeyRef) (newVerifyingKey : Bytes32) (time : CanonicalTime) :
    (rotate oldReference expectedOldVersion newReference newVerifyingKey time).Atomic := by
  refine .get fun r => .check fun _ _ => .check fun _ _ => .check fun old _ => .check fun _ _ =>
    .check fun _ _ => .check fun _ _ => .check fun oldVersion _ => .check fun registryVersion _ => ?_
  exact (InPlace.Assigns.assign _ <| .assign _ <| .assign _ <| .assign _ <| .assign_last _).atomic

theorem revoke_atomic (reference : OperationalKeyRef) (expectedVersion : Version) (time : CanonicalTime) :
    (revoke reference expectedVersion time).Atomic := by
  refine .get fun r => .check fun key _ => .check fun _ _ => .check fun _ _ => .check fun status _ => ?_
  cases status with
  | none => exact (InPlace.Assigns.pure _).atomic
  | some status =>
    refine .check fun keyVersion _ => .check fun registryVersion _ => ?_
    exact (InPlace.Assigns.assign _ <| .assign _ <| .assign_last _).atomic

theorem method_atomic (call : KeyCall) : call.method.Atomic := by
  cases call with
  | register reference actor verifyingKey validFrom => exact register_atomic reference actor verifyingKey validFrom
  | rotate oldReference expectedOldVersion newReference newVerifyingKey time =>
    exact rotate_atomic oldReference expectedOldVersion newReference newVerifyingKey time
  | revoke reference expectedVersion time => exact revoke_atomic reference expectedVersion time

/-! ### What a call does -/

/-- One change of one key, with its entry in the log. -/
inductive Move (r : KeyRegistry) : KeyRegistry → Prop
  | register (record : OperationalKeyRecord) (version : Version) :
      r.keys.get? record.reference = none → record.status = .active →
      Move r ⟨r.keys.insert record.reference record, version,
        r.transparency.append record .registered record.validFrom⟩
  | retire {reference : OperationalKeyRef} (old : OperationalKeyRecord) (time : CanonicalTime)
      (version keyVersion : Version) : r.keys.get? reference = some old → old.status = .active →
      Move r ⟨r.keys.insert reference {old with status := .retired time, version := keyVersion}, version,
        r.transparency.append {old with status := .retired time, version := keyVersion} .retired time⟩
  | revoke {reference : OperationalKeyRef} (old : OperationalKeyRecord) (status : KeyStatus)
      (time : CanonicalTime) (version keyVersion : Version) : r.keys.get? reference = some old →
      revokedStatus old.status time = .ok (some status) →
      Move r ⟨r.keys.insert reference {old with status, version := keyVersion}, version,
        r.transparency.append {old with status, version := keyVersion} .revoked time⟩

theorem register_eq_ok {reference : OperationalKeyRef} {actor : ActorRef} {verifyingKey : Bytes32}
    {validFrom : CanonicalTime} {r r' : KeyRegistry} :
    (register reference actor verifyingKey validFrom).on r = (.ok (), r') ↔
      r.keys.get? reference = none ∧ Crypto.validKey verifyingKey = true ∧
      ∃ version, r.version.checkedNext = some version ∧
        r' = ⟨r.keys.insert reference ⟨reference, actor, verifyingKey, validFrom, .active, .initial⟩, version,
          r.transparency.append ⟨reference, actor, verifyingKey, validFrom, .active, .initial⟩ .registered
            validFrom⟩ := by
  unfold register
  simp only [InPlace.on_bind, InPlace.on_read, InPlace.on_lift, InPlace.on_modify, refuseIf_eq_ok,
    nextVersion, okOr_eq_ok, and_assoc, exists_and_left, exists_eq_left', exists_const]
  constructor
  · rintro ⟨hnew, hvalid, version, hversion, rfl⟩
    refine ⟨?_, by simpa using hvalid, version, hversion, rfl⟩
    exact SortedMap.contains_eq_false.mp (by simpa using hnew)
  · rintro ⟨hnew, hvalid, version, hversion, rfl⟩
    exact ⟨by simpa using SortedMap.contains_eq_false.mpr hnew, by simpa using hvalid, version, hversion, rfl⟩

theorem rotate_moves {oldReference newReference : OperationalKeyRef} {expectedOldVersion : Version}
    {newVerifyingKey : Bytes32} {time : CanonicalTime} {r r' : KeyRegistry}
    (h : (rotate oldReference expectedOldVersion newReference newVerifyingKey time).on r = (.ok (), r')) :
    ∃ retired, Move r retired ∧ Move retired r' := by
  unfold rotate at h
  simp only [InPlace.on_bind, InPlace.on_read, InPlace.on_lift, InPlace.on_modify, refuseIf_eq_ok,
    nextVersion, okOr_eq_ok, and_assoc, exists_and_left, exists_eq_left', exists_const] at h
  obtain ⟨hnew, -, old, hold, -, hactive, -, oldVersion, -, version, -, rfl⟩ := h
  have hfresh : r.keys.get? newReference = none :=
    SortedMap.contains_eq_false.mp (by simpa using hnew)
  have hother : newReference ≠ oldReference := fun heq => by
    rw [heq, hold] at hfresh
    cases hfresh
  refine ⟨_, .retire old time version oldVersion hold (not_not.mp hactive), ?_⟩
  refine .register ⟨newReference, old.actor, newVerifyingKey, time, .active, .initial⟩ version ?_ rfl
  rw [SortedMap.get?_insert_ne _ _ hother]
  exact hfresh

/-- A revocation repeated later changes nothing. -/
theorem revoke_eq_ok {reference : OperationalKeyRef} {expectedVersion : Version} {time : CanonicalTime}
    {r r' : KeyRegistry} : (revoke reference expectedVersion time).on r = (.ok (), r') ↔
      ∃ key, r.keys.get? reference = some key ∧ key.version = expectedVersion ∧ key.validFrom ≤ time ∧
        ((revokedStatus key.status time = .ok none ∧ r' = r) ∨
        ∃ status keyVersion version, revokedStatus key.status time = .ok (some status) ∧
          key.version.checkedNext = some keyVersion ∧ r.version.checkedNext = some version ∧
          r' = ⟨r.keys.insert reference {key with status, version := keyVersion}, version,
            r.transparency.append {key with status, version := keyVersion} .revoked time⟩) := by
  unfold revoke
  simp only [InPlace.on_bind, InPlace.on_read, InPlace.on_lift, refuseIf_eq_ok, nextVersion, okOr_eq_ok,
    and_assoc, exists_and_left, exists_eq_left', exists_const, not_not, not_lt]
  refine exists_congr fun key => and_congr_right fun _ => and_congr_right fun _ => and_congr_right fun _ => ?_
  constructor
  · rintro ⟨status, hstatus, h⟩
    cases status with
    | none =>
      simp only [InPlace.on_pure] at h
      exact .inl ⟨hstatus, h.2.symm⟩
    | some status =>
      simp only [InPlace.on_bind, InPlace.on_lift, InPlace.on_modify, okOr_eq_ok, and_assoc, exists_and_left,
        exists_eq_left', exists_const] at h
      obtain ⟨keyVersion, hnext, version, hnext', rfl⟩ := h
      exact .inr ⟨status, hstatus, keyVersion, hnext, version, hnext', rfl⟩
  · rintro (⟨hstatus, rfl⟩ | ⟨status, hstatus, keyVersion, hnext, version, hnext', rfl⟩)
    · refine ⟨none, hstatus, ?_⟩
      simp only [InPlace.on_pure, and_self]
    · refine ⟨some status, hstatus, ?_⟩
      simp only [InPlace.on_bind, InPlace.on_lift, InPlace.on_modify, okOr_eq_ok, and_assoc, exists_and_left,
        exists_eq_left', exists_const]
      exact ⟨keyVersion, hnext, version, hnext', rfl⟩

theorem method_moves {call : KeyCall} {r r' : KeyRegistry} (h : call.method.on r = (.ok (), r')) :
    Relation.ReflTransGen Move r r' := by
  cases call with
  | register reference actor verifyingKey validFrom =>
    obtain ⟨hnew, -, version, -, rfl⟩ := register_eq_ok.mp h
    exact .single (.register ⟨reference, actor, verifyingKey, validFrom, .active, .initial⟩ version hnew rfl)
  | rotate oldReference expectedOldVersion newReference newVerifyingKey time =>
    obtain ⟨retired, hretire, hregister⟩ := rotate_moves h
    exact .tail (.single hretire) hregister
  | revoke reference expectedVersion time =>
    obtain ⟨key, hkey, -, -, ⟨-, rfl⟩ | ⟨status, keyVersion, version, hstatus, -, -, rfl⟩⟩ := revoke_eq_ok.mp h
    · exact .refl
    · exact .single (.revoke key status time version keyVersion hkey hstatus)

/-! ### What every move keeps -/

theorem Move.keeps {r r' : KeyRegistry} (h : Move r r') : r.Keeps r' := by
  cases h with
  | register record version hnew hactive =>
    intro k x hx
    have hother : k ≠ record.reference := fun heq => by
      rw [heq, hnew] at hx
      cases hx
    exact ⟨x, (SortedMap.get?_insert_ne _ _ hother).trans hx, .refl x⟩
  | retire old time version keyVersion hold hactive =>
    refine keeps_insert hold rfl ⟨rfl, rfl, rfl, fun t _ => ?_, fun hrevoked => ?_⟩
    · rw [hactive]
      rfl
    · rw [hactive] at hrevoked
      cases hrevoked
  | revoke old status time version keyVersion hold hstatus =>
    obtain ⟨-, hnot, -, hreceipts⟩ := revokedStatus_spec hstatus
    refine keeps_insert hold rfl ⟨rfl, rfl, rfl, hreceipts, fun hrevoked => ?_⟩
    rw [hnot] at hrevoked
    cases hrevoked

/-! ### The log -/

end KeyRegistry

namespace KeyTransparencyLog

/-- The entry hashes what it says, at its position and after the hash before it. -/
def Sealed (index : Nat) (previous : Bytes32) (e : TransparencyEntry) : Prop :=
  e.sequence = sequenceAt index ∧ e.previousHash = previous ∧
    Crypto.sha256 (entryBytes e.sequence e.key e.actor e.verifyingKey e.action e.time previous) = e.hash

theorem verifyFrom_eq_true {index : Nat} {previous : Bytes32} {entries : List TransparencyEntry} :
    verifyFrom index previous entries = true ↔
      HashChain.Linked Sealed (·.hash) index previous entries := by
  induction entries generalizing index previous with
  | nil => simp [verifyFrom, HashChain.Linked]
  | cons e rest ih =>
    rw [verifyFrom, HashChain.Linked, ← ih, Sealed]
    split_ifs with hplace hhash
    · simp only [false_iff]
      rintro ⟨⟨hsequence, hprevious, -⟩, -⟩
      rcases hplace with h | h
      · exact h hsequence
      · exact h hprevious
    · simp only [false_iff]
      rintro ⟨⟨-, -, h⟩, -⟩
      exact hhash h
    · rw [not_or, not_not, not_not] at hplace
      rw [not_not] at hhash
      exact (and_iff_right ⟨hplace.1, hplace.2, hhash⟩).symm

theorem verify_append {l : KeyTransparencyLog} (record : OperationalKeyRecord)
    (action : TransparencyAction) (time : CanonicalTime) (h : l.verify = true) :
    (l.append record action time).verify = true := by
  rw [verify, verifyFrom_eq_true] at h ⊢
  refine HashChain.linked_append.mpr ⟨h, ?_, ?_, ?_⟩
  · rw [Nat.zero_add]
    rfl
  · rw [HashChain.tip_eq]
    rfl
  · rw [HashChain.tip_eq]
    rfl

end KeyTransparencyLog

/-! ### The registry the log tells -/

/-- What the log can say of a key. -/
structure KeyImage where
  actor : ActorRef
  verifyingKey : Bytes32
  validFrom : CanonicalTime
  status : KeyStatus
  deriving DecidableEq

def OperationalKeyRecord.image (key : OperationalKeyRecord) : KeyImage :=
  ⟨key.actor, key.verifyingKey, key.validFrom, key.status⟩

abbrev KeyImages := SortedMap OperationalKeyRef KeyImage

/-- One entry read as the change it records. -/
def TransparencyEntry.replay (images : KeyImages) (e : TransparencyEntry) : KeyImages :=
  match e.action, images.get? e.key with
  | .registered, _ => images.insert e.key ⟨e.actor, e.verifyingKey, e.time, .active⟩
  | .retired, some image => images.insert e.key {image with status := .retired e.time}
  | .revoked, some image => images.insert e.key {image with status := image.status.afterRevocation e.time}
  | .retired, none | .revoked, none => images

def KeyTransparencyLog.replay (l : KeyTransparencyLog) : KeyImages :=
  l.entries.foldl TransparencyEntry.replay ∅

omit [Crypto] in
theorem TransparencyEntry.replay_retired {images : KeyImages} {e : TransparencyEntry} {image : KeyImage}
    (haction : e.action = .retired) (h : images.get? e.key = some image) :
    e.replay images = images.insert e.key {image with status := .retired e.time} := by
  rw [replay, haction, h]

omit [Crypto] in
theorem TransparencyEntry.replay_revoked {images : KeyImages} {e : TransparencyEntry} {image : KeyImage}
    (haction : e.action = .revoked) (h : images.get? e.key = some image) :
    e.replay images = images.insert e.key {image with status := image.status.afterRevocation e.time} := by
  rw [replay, haction, h]

namespace KeyRegistry

/-- Records are filed under their references, the log verifies, and it tells every key. -/
structure Sound (r : KeyRegistry) : Prop where
  filed : ∀ reference key, r.keys.get? reference = some key → key.reference = reference
  verified : r.transparency.verify = true
  told : ∀ reference, r.transparency.replay.get? reference = (r.keys.get? reference).map (·.image)

theorem sound_empty : empty.Sound := ⟨nofun, rfl, fun _ => rfl⟩

theorem replay_append {l : KeyTransparencyLog} (record : OperationalKeyRecord)
    (action : TransparencyAction) (time : CanonicalTime) :
    (l.append record action time).replay = (l.entry record action time).replay l.replay := by
  rw [KeyTransparencyLog.replay, KeyTransparencyLog.append, List.foldl_append]
  rfl

omit [Crypto] in
theorem told_insert {r : KeyRegistry} {reference : OperationalKeyRef} {key : OperationalKeyRecord}
    {images : KeyImages} (h : ∀ k, r.transparency.replay.get? k = (r.keys.get? k).map (·.image))
    (himages : images = r.transparency.replay.insert reference key.image) (k : OperationalKeyRef) :
    images.get? k = ((r.keys.insert reference key).get? k).map (·.image) := by
  rw [himages, SortedMap.get?_insert, SortedMap.get?_insert]
  split_ifs
  · rfl
  · exact h k

omit [Crypto] in
theorem filed_insert {r : KeyRegistry} {reference : OperationalKeyRef} {key : OperationalKeyRecord}
    (h : ∀ k x, r.keys.get? k = some x → x.reference = k) (hkey : key.reference = reference)
    (k : OperationalKeyRef) (x : OperationalKeyRecord) (hx : (r.keys.insert reference key).get? k = some x) :
    x.reference = k := by
  rw [SortedMap.get?_insert] at hx
  split_ifs at hx with heq
  · cases hx
    exact hkey.trans heq.symm
  · exact h k x hx

theorem Move.sound {r r' : KeyRegistry} (h : Move r r') (hr : r.Sound) : r'.Sound := by
  cases h with
  | register record version hnew hactive =>
    refine ⟨filed_insert hr.filed rfl, KeyTransparencyLog.verify_append _ _ _ hr.verified, ?_⟩
    refine told_insert hr.told ((replay_append _ _ _).trans ?_)
    rw [OperationalKeyRecord.image, hactive]
    rfl
  | @retire reference old time version keyVersion hold hactive =>
    have hfiled := hr.filed reference old hold
    have htold : r.transparency.replay.get? old.reference = some old.image := by
      rw [hr.told, hfiled, hold]
      rfl
    refine ⟨filed_insert hr.filed hfiled, KeyTransparencyLog.verify_append _ _ _ hr.verified, ?_⟩
    refine told_insert hr.told ((replay_append _ _ _).trans ?_)
    rw [TransparencyEntry.replay_retired rfl htold, ← hfiled]
    rfl
  | @revoke reference old status time version keyVersion hold hstatus =>
    have hfiled := hr.filed reference old hold
    have htold : r.transparency.replay.get? old.reference = some old.image := by
      rw [hr.told, hfiled, hold]
      rfl
    refine ⟨filed_insert hr.filed hfiled, KeyTransparencyLog.verify_append _ _ _ hr.verified, ?_⟩
    refine told_insert hr.told ((replay_append _ _ _).trans ?_)
    rw [TransparencyEntry.replay_revoked rfl htold, ← hfiled, (revokedStatus_spec hstatus).1]
    rfl

theorem Move.appends {r r' : KeyRegistry} (h : Move r r') :
    r.transparency.entries <+: r'.transparency.entries := by
  cases h <;> exact List.prefix_append _ _

/-! ### Runs -/

/-- The registry after the calls, those that were refused among them. -/
def after (calls : List KeyCall) : KeyRegistry := InPlace.calls KeyCall.method empty calls

theorem after_append (before rest : List KeyCall) :
    after (before ++ rest) = InPlace.calls KeyCall.method (after before) rest := List.foldl_append ..

/-- What the moves preserve holds after any calls, and what they relate is related. -/
theorem calls_moves (r : KeyRegistry) (calls : List KeyCall) :
    Relation.ReflTransGen Move r (InPlace.calls KeyCall.method r calls) := by
  rw [InPlace.calls_eq_run method_atomic]
  exact Machine.run_relates (P := fun _ => True) (R := Relation.ReflTransGen Move) (fun _ => .refl)
    (fun _ _ _ => .trans) (fun s call s' _ h => by
      obtain ⟨⟨⟩, hcall⟩ := InPlace.accepted_eq_ok.mp h
      exact ⟨trivial, method_moves hcall⟩) trivial calls

theorem moves_sound {r r' : KeyRegistry} (h : Relation.ReflTransGen Move r r') (hr : r.Sound) : r'.Sound := by
  induction h with
  | refl => exact hr
  | tail _ hmove ih => exact hmove.sound ih

theorem moves_keeps {r r' : KeyRegistry} (h : Relation.ReflTransGen Move r r') :
    r.Keeps r' ∧ r.transparency.entries <+: r'.transparency.entries := by
  induction h with
  | refl => exact ⟨.refl _, List.prefix_refl _⟩
  | tail _ hmove ih => exact ⟨ih.1.trans hmove.keeps, ih.2.trans hmove.appends⟩

/-! ### Authority -/

omit [Crypto] in
theorem activeVerifyingKey_eq_ok {r : KeyRegistry} {reference : OperationalKeyRef} {actor : ActorRef}
    {time : CanonicalTime} {verifyingKey : Bytes32} :
    r.activeVerifyingKey reference actor time = .ok verifyingKey ↔ ∃ key,
      r.keys.get? reference = some key ∧ key.actor = actor ∧ key.validFrom ≤ time ∧
      key.status.isRevoked = false ∧ key.status.validAtReceipt time = true ∧
      key.verifyingKey = verifyingKey := by
  unfold activeVerifyingKey
  simp only [bind_eq_ok, okOr_eq_ok, refuseIf_eq_ok, exists_const, not_not, not_lt, not_or,
    Bool.not_eq_true, Bool.not_eq_false, Except.ok.injEq, and_assoc]

omit [Crypto] in
theorem activeActor_eq_ok {r : KeyRegistry} {reference : OperationalKeyRef} {time : CanonicalTime}
    {owner : ActorRef × Bytes32} : r.activeActor reference time = .ok owner ↔
      r.activeVerifyingKey reference owner.1 time = .ok owner.2 := by
  unfold activeActor
  simp only [bind_eq_ok, okOr_eq_ok, activeVerifyingKey_eq_ok, Except.ok.injEq]
  constructor
  · rintro ⟨key, hkey, _, ⟨key', hkey', -, hfrom, hrevoked, hvalid, rfl⟩, rfl⟩
    exact ⟨key', hkey', congrArg _ (Option.some.inj (hkey'.symm.trans hkey)), hfrom, hrevoked, hvalid, rfl⟩
  · rintro ⟨key, hkey, hactor, hfrom, hrevoked, hvalid, hverifying⟩
    exact ⟨key, hkey, _, ⟨key, hkey, rfl, hfrom, hrevoked, hvalid, rfl⟩, by rw [hactor, hverifying]⟩

section Verify
variable [Cbor] [Json]

/-- What a verification asks of the key an envelope names. -/
structure Authenticates (key : OperationalKeyRecord) (envelope : CanonicalCommandEnvelope)
    (signed : SignedCommandBytes) (receiptTime : CanonicalTime) (version : ProtocolVersion)
    (scope : SigningScope) : Prop where
  wire : envelope.wireVersion = ⟨7⟩
  version : envelope.protocolVersion = version
  deployment : envelope.deploymentDomain = scope.deploymentDomain
  provider : envelope.intendedProvider = scope.intendedProvider
  target : envelope.target = .relationship scope.relationship
  actor : key.actor = envelope.actor
  validFrom : key.validFrom ≤ receiptTime
  receipt : key.status.validAtReceipt receiptTime = true
  validKey : Crypto.validKey key.verifyingKey = true
  signature : Crypto.verifyStrict key.verifyingKey signed.payload signed.signature.toList = true

theorem verify_eq_ok {r : KeyRegistry} {signed : SignedCommandBytes} {receiptTime : CanonicalTime}
    {version : ProtocolVersion} {scope : SigningScope} {command : VerifiedCommand} :
    r.verify signed receiptTime version scope = .ok command ↔ ∃ envelope key,
      decodeCommandEnvelope signed.payload = .ok envelope ∧
      r.keys.get? envelope.operationalKey = some key ∧
      Authenticates key envelope signed receiptTime version scope ∧
      command = ⟨⟨envelope.command, envelope.actor, envelope.operationalKey, envelope.idempotencyKey⟩,
        scope.relationship, Crypto.sha256 signed.payload, signed.payload⟩ := by
  unfold verify
  simp only [bind_eq_ok, mapError_eq_ok, okOr_eq_ok, refuseIf_eq_ok, exists_const, not_not, not_lt,
    not_or, Bool.not_eq_false, Except.ok.injEq]
  constructor
  · rintro ⟨envelope, hdecode, hwire, hversion, ⟨hdeployment, hprovider, htarget⟩, key, hkey, hactor,
      hfrom, hreceipt, hvalid, hsignature, rfl⟩
    exact ⟨envelope, key, hdecode, hkey, ⟨hwire, hversion, hdeployment, hprovider, htarget, hactor, hfrom,
      hreceipt, hvalid, hsignature⟩, rfl⟩
  · rintro ⟨envelope, key, hdecode, hkey, h, rfl⟩
    exact ⟨envelope, hdecode, h.wire, h.version, ⟨h.deployment, h.provider, h.target⟩, key, hkey, h.actor,
      h.validFrom, h.receipt, h.validKey, h.signature, rfl⟩

/-- What is verified against what is left of a registry was verified before. -/
theorem Keeps.verify {r r' : KeyRegistry} (h : r.Keeps r') {signed : SignedCommandBytes}
    {receiptTime : CanonicalTime} {version : ProtocolVersion} {scope : SigningScope}
    {command : VerifiedCommand} {envelope : CanonicalCommandEnvelope}
    (hdecode : decodeCommandEnvelope signed.payload = .ok envelope)
    (hkey : r.keys.contains envelope.operationalKey = true)
    (hverify : r'.verify signed receiptTime version scope = .ok command) :
    r.verify signed receiptTime version scope = .ok command := by
  obtain ⟨envelope', key', hdecode', hkey', hauth, hcommand⟩ := verify_eq_ok.mp hverify
  rw [hdecode] at hdecode'
  cases hdecode'
  obtain ⟨key, hfound⟩ := SortedMap.contains_eq_true.mp hkey
  obtain ⟨left, hleft, hnarrows⟩ := h _ key hfound
  rw [hkey'] at hleft
  cases hleft
  refine verify_eq_ok.mpr ⟨envelope, key, hdecode, hfound, ⟨hauth.wire, hauth.version, hauth.deployment,
    hauth.provider, hauth.target, hnarrows.actor.symm.trans hauth.actor, ?_, hnarrows.receipts _ hauth.receipt,
    ?_, ?_⟩, hcommand⟩
  · exact hnarrows.validFrom ▸ hauth.validFrom
  · exact hnarrows.verifyingKey ▸ hauth.validKey
  · exact hnarrows.verifyingKey ▸ hauth.signature

end Verify

end KeyRegistry

end CsMail
