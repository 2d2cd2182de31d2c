import CsMail.Capabilities.SigningBytes
import CsMail.Security.KeyProofs
import Mathlib.Data.Set.Function

/-! What a checkpoint of the key log fixes.

What an entry is hashed as can be read back field by field, so where SHA-256 takes no two of the
hashed strings to one digest, an entry's hash tells everything it says, and with it the hash of the
entry before. A checkpoint therefore fixes the whole log behind it (`checkpoint_fixes`). -/
namespace CsMail
open Library Library.PrefixCode

/-- An actor is told by its tag and one identifier. -/
theorem ActorRef.delimits : Delimits (fun _ => True) actorBytes := by
  intro a a' s s' _ _ heq
  cases a <;> cases a' <;> first | exact absurd (List.head_eq_of_cons_eq heq) (by decide) | skip
  all_goals
    obtain ⟨rfl, hrest⟩ := Ident.delimits_toBeBytes trivial trivial (List.tail_eq_of_cons_eq heq)
    exact ⟨rfl, hrest⟩

theorem TransparencyAction.tag_injective : Function.Injective tag := by
  intro a a' heq
  cases a <;> cases a' <;> first | rfl | exact absurd heq (by decide)

theorem delimits_u64 : Delimits (fun _ => True) fun x : U64 => beBytes 8 x.val :=
  delimits_fin (by decide) Function.injective_id

namespace TransparencyEntry

/-- What the entry's hash is taken of. -/
def hashed (e : TransparencyEntry) : Bytes :=
  entryBytes e.sequence e.key e.actor e.verifyingKey e.action e.time e.previousHash

/-- Everything an entry says can be read back. -/
theorem hashed_tells {e e' : TransparencyEntry} (heq : e.hashed = e'.hashed) (hhash : e.hash = e'.hash) :
    e = e' := by
  rw [hashed, hashed, entryBytes, entryBytes] at heq
  simp only [List.append_assoc] at heq
  replace heq := List.append_cancel_left heq
  obtain ⟨hsequence, heq⟩ := delimits_u64 trivial trivial heq
  obtain ⟨hkey, heq⟩ := Ident.delimits_toBeBytes trivial trivial heq
  obtain ⟨hactor, heq⟩ := ActorRef.delimits trivial trivial heq
  obtain ⟨hverifyingKey, heq⟩ := delimits_bytes32 trivial trivial heq
  obtain ⟨haction, heq⟩ := delimits_byte TransparencyAction.tag_injective trivial trivial heq
  obtain ⟨htime, heq⟩ := CanonicalTime.delimits trivial trivial heq
  have hprevious := Vector.toList_inj.mp heq
  cases e
  cases e'
  exact mk.injEq .. |>.mpr ⟨hsequence, hkey, hactor, hverifyingKey, haction, htime, hprevious, hhash⟩

end TransparencyEntry

namespace KeyTransparencyLog
section
variable [Crypto] {l l' : KeyTransparencyLog}

/-- The strings that the hashes of both logs are taken of. -/
def hashedStrings (l l' : KeyTransparencyLog) : Set Bytes :=
  {bytes | ∃ e ∈ l.entries ++ l'.entries, bytes = e.hashed}

omit [Crypto] in
theorem sequenceAt_first {n n' : ℕ} (h : sequenceAt n = sequenceAt n') : n = 0 ↔ n' = 0 := by
  have hval := congrArg Fin.val h
  simp only [sequenceAt, u64Max] at hval
  omega

theorem Sealed.hash_eq {n : ℕ} {d : Bytes32} {e : TransparencyEntry} (h : Sealed n d e) :
    Crypto.sha256 e.hashed = e.hash := by
  rw [TransparencyEntry.hashed, h.2.1]
  exact h.2.2

/-- An entry's hash tells what was sealed. -/
theorem hash_tells (hsha : Set.InjOn Crypto.sha256 (hashedStrings l l')) {e e' : TransparencyEntry}
    (he : e ∈ l.entries) (he' : e' ∈ l'.entries) (hhash : e.hash = e'.hash) :
    HashChain.Tells Sealed 0 e e' := by
  intro n n' d d' h h'
  have hstrings : e.hashed = e'.hashed := hsha ⟨e, List.mem_append_left _ he, rfl⟩
    ⟨e', List.mem_append_right _ he', rfl⟩ (h.hash_eq.trans (hhash.trans h'.hash_eq.symm))
  obtain rfl := TransparencyEntry.hashed_tells hstrings hhash
  exact ⟨rfl, h.2.1.symm.trans h'.2.1, sequenceAt_first (h.1.symm.trans h'.1)⟩

omit [Crypto] in
theorem checkpoint_hash {sequence : U64} {hash : Bytes32} (h : l.checkpoint = some (sequence, hash)) :
    l.entries.getLast?.map (·.hash) = some hash := by
  obtain ⟨e, he, heq⟩ := Option.map_eq_some_iff.mp h
  cases heq
  rw [he]
  rfl

/-- **A checkpoint fixes the log**: verified logs of one checkpoint are one log, and a verified log
whose checkpoint is an entry of another is the other's beginning. -/
theorem checkpoint_fixes (h : l.verify = true) (h' : l'.verify = true)
    (hsha : Set.InjOn Crypto.sha256 (hashedStrings l l')) :
    (l.checkpoint = l'.checkpoint → l = l') ∧
      ∀ e ∈ l'.entries, l.checkpoint = some (e.sequence, e.hash) → l.entries <+: l'.entries := by
  rw [verify, verifyFrom_eq_true] at h h'
  have htells : ∀ e ∈ l.entries, ∀ e' ∈ l'.entries, e.hash = e'.hash → HashChain.Tells Sealed 0 e e' :=
    fun _ he _ he' hhash => hash_tells hsha he he' hhash
  constructor
  · intro hcheckpoint
    have hlast : l.entries.getLast?.map (·.hash) = l'.entries.getLast?.map (·.hash) := by
      have := congrArg (Option.map Prod.snd) hcheckpoint
      rwa [checkpoint, checkpoint, Option.map_map, Option.map_map] at this
    have hentries := HashChain.linked_unique h h' htells hlast
    cases l
    cases l'
    exact congrArg mk hentries
  · intro e he hcheckpoint
    exact HashChain.linked_prefix h h' htells he (checkpoint_hash hcheckpoint)

end

namespace Example

/-- A digest that tells the last byte of a short sequence number. -/
@[reducible] def crypto : Crypto :=
  ⟨fun bytes => Vector.replicate 32 (bytes.getD 34 0), fun _ => true, fun _ _ _ => true⟩

def record : OperationalKeyRecord := ⟨⟨1⟩, .provider ⟨2⟩, zero32, ⟨0⟩, .active, .initial⟩

/-- The registration of a key. -/
def registered : KeyTransparencyLog := @append crypto ⟨[]⟩ record .registered ⟨0⟩

/-- The key is revoked later. -/
def revoked : KeyTransparencyLog := @append crypto registered record .revoked ⟨5⟩

theorem hashes_apart :
    Set.InjOn crypto.sha256 (hashedStrings registered revoked) := by
  rintro _ ⟨e, he, rfl⟩ _ ⟨e', he', rfl⟩ hhash
  have hentries : registered.entries ++ revoked.entries = registered.entries ++ (registered.entries ++
    [@entry crypto registered record .revoked ⟨5⟩]) := rfl
  have hfirst : registered.entries = [@entry crypto ⟨[]⟩ record .registered ⟨0⟩] := rfl
  rw [hentries, hfirst] at he he'
  simp only [List.mem_append, List.mem_singleton] at he he'
  rcases he with rfl | rfl | rfl <;> rcases he' with rfl | rfl | rfl <;>
    first | rfl | exact absurd hhash (by decide +kernel)

end Example

/-- What is revoked later was registered before. -/
theorem checkpoint_fixes_registered : Example.registered.entries <+: Example.revoked.entries :=
  (@checkpoint_fixes Example.crypto Example.registered Example.revoked
    (@verify_append Example.crypto _ _ _ _ rfl)
    (@verify_append Example.crypto _ _ _ _ (@verify_append Example.crypto _ _ _ _ rfl)) Example.hashes_apart).2
    (@entry Example.crypto ⟨[]⟩ Example.record .registered ⟨0⟩) (List.mem_cons_self ..) rfl

end KeyTransparencyLog
end CsMail
