import CsMail.Library.Machine
import CsMail.Search.QueryProofs
import Mathlib.Data.List.Sort
import Mathlib.Data.Prod.Lex

/-! Search projections of retained copies.

A projection is built turn by turn. The local model proposes ranges of the canonical parts, a
turn accepts those that can be bound to their part, and the last turn checks that the chunks
cover every part up to white space. A search reads the text of a ready projection back from its
chunks, which overlap, instead of opening the copy again. -/
namespace CsMail
open Library

/-- `member::Error`, the errors of the member client. -/
inductive MemberError
  | invalidAliasName
  | draftChanged
  | copyDeletionRefused
  | notConfigured
  | alreadyConfigured
  | keyUnavailable
  | storageUnavailable
  | invalidData
  | offline
  | unauthorized
  | unavailable
  | retrievalUnavailable
  | searchSuperseded
  | externalPending
  | externalRefused
  | decisionPending
  | sendPending
  | sendRefused
  | quoteExpired
  | requestPending
  | requestRefused
  | policyRefused
  | sourceUnavailable
  | setupPending
  | setupRefused
  | noPendingRequest
  | decisionRefused
  | publicationRefused
  | publicationCollateral (requestClass : U128) (minimum maximum : U64)
  | addressUnavailable
  | enrollmentRequired
  | loginUnavailable
  | loginCancelled
  deriving DecidableEq

/-! ### Chunks -/

/-- An embedded passage; its values are the model's. -/
structure Chunk (Values : Type) where
  passage : Passage
  text : Text
  values : Values

inductive Projection (Values : Type)
  | pending
  | building (profile : Bytes32) (chunks : List (Chunk Values))
  | ready (profile : Bytes32) (chunks : List (Chunk Values))

structure PreparedChunk (Values : Type) where
  part : ℕ
  start : U32
  stop : U32
  values : Values

structure Prepared (Values : Type) where
  chunks : List (PreparedChunk Values)
  complete : Bool

variable {Values : Type}

/-- The chunk's range, in the order ranges are swept in. -/
def Chunk.range (c : Chunk Values) : ℕ ×ₗ ℕ := toLex c.passage.range

/-- The ranges of the chunks of one part, in order. -/
def rangesAt (chunks : List (Chunk Values)) (location : TextPart) : List (ℕ × ℕ) :=
  (((chunks.filter fun c => c.passage.location = location).map Chunk.range).insertionSort (· ≤ ·)).map ofLex

/-! ### Canonical parts -/

def canonicalStep (canonical : List (TextPart × Text)) (part : TextPart × Text) :
    Except MemberError (List (TextPart × Text)) :=
  match canonical.find? (·.1 = part.1) with
  | some (_, existing) => do
    refuseIf (existing ≠ part.2) .invalidData
    .ok canonical
  | none => .ok (canonical ++ [part])

/-- One canonical string per location: equal parts are harmless, conflicting ones are refused. -/
def canonical (parts : List (TextPart × Text)) : Except MemberError (List (TextPart × Text)) :=
  parts.foldlM canonicalStep []

/-! ### Indexing -/

/-- What a turn has captured: the source, its canonical parts and the runtime's profile, with the
values it takes for an embedding. -/
structure Indexing (Values : Type) where
  identity : SourceIdentity
  version : SourceVersion
  parts : List (TextPart × Text)
  profile : Bytes32
  embeds : Values → Bool

/-- What no range holds has to be white space. -/
def checkGap (text : Text) (reached start : ℕ) : Except MemberError PUnit :=
  if reached < start then do
    let gap ← okOr (text.slice? reached start) .invalidData
    refuseIf (gap.isBlank = false) .invalidData
  else .ok ⟨⟩

/-- The sweep over the ranges of a part. -/
def coverStep (text : Text) (reached : ℕ) (range : ℕ × ℕ) : Except MemberError ℕ := do
  checkGap text reached range.1
  .ok (max reached range.2)

/-- The chunks cover the part up to white space. -/
def checkCovered (chunks : List (Chunk Values)) (part : TextPart × Text) : Except MemberError PUnit := do
  let reached ← (rangesAt chunks part.1).foldlM (coverStep part.2) 0
  let rest ← okOr (part.2.from? reached) .invalidData
  refuseIf (rest.isBlank = false) .invalidData

namespace Indexing
variable [Crypto]

/-- A proposed range, bound to its part. -/
def accept (x : Indexing Values) (raw : PreparedChunk Values) : Except MemberError (Chunk Values) := do
  let (location, text) ← okOr x.parts[raw.part]? .invalidData
  let passage ← (Passage.new x.identity x.version 1 location text raw.start raw.stop).mapError
    fun _ => .invalidData
  let selected ← (passage.verify text).mapError fun _ => .invalidData
  refuseIf (x.embeds raw.values = false) .invalidData
  .ok ⟨passage, selected, raw.values⟩

/-- The chunks of the turns before, under the same profile. -/
def prior (x : Indexing Values) : Projection Values → List (Chunk Values)
  | .building profile chunks => if profile = x.profile then chunks else []
  | .pending | .ready .. => []

def push (x : Indexing Values) (chunks : List (Chunk Values)) (raw : PreparedChunk Values) :
    Except MemberError (List (Chunk Values)) := do
  let chunk ← x.accept raw
  .ok (chunks ++ [chunk])

def checkComplete (x : Indexing Values) (chunks : List (Chunk Values)) (complete : Bool) :
    Except MemberError PUnit :=
  if complete then x.parts.forM (checkCovered chunks) else .ok ⟨⟩

/-- Adds the proposed chunks to the projection, or completes it. -/
def extend (x : Indexing Values) (projection : Projection Values) (response : Prepared Values) :
    Except MemberError (Projection Values) := do
  refuseIf (4 < response.chunks.length ∨ (response.complete = false ∧ response.chunks.isEmpty = true))
    .invalidData
  let chunks ← response.chunks.foldlM x.push (x.prior projection)
  x.checkComplete chunks response.complete
  .ok (if response.complete then .ready x.profile chunks else .building x.profile chunks)

/-- One turn of `index_semantic` on a copy, from the answer of the model to the projection that
is published. A copy that is ready under the profile is not looked at again. -/
def turn (x : Indexing Values) (projection : Projection Values) (response : Prepared Values) :
    Except MemberError (Projection Values) :=
  match projection with
  | .ready profile chunks =>
    if profile = x.profile then .ok (.ready profile chunks) else x.extend projection response
  | .pending | .building .. => x.extend projection response

/-- The turns of the model on a copy that has no projection yet. -/
def run (x : Indexing Values) (responses : List (Prepared Values)) : Projection Values :=
  Machine.run x.turn .pending responses

end Indexing

/-! ### Reassembly -/

/-- Appends what a chunk adds to the text before it; where they overlap they have to agree. -/
def assembleStep (first : Passage) (text : Text) (chunk : Chunk Values) : Except MemberError Text := do
  let start := chunk.passage.start.val
  let stop := chunk.passage.stop.val
  refuseIf (chunk.passage.source ≠ first.source ∨ chunk.passage.version ≠ first.version ∨
    text.len < start ∨ stop - start ≠ chunk.text.len) .invalidData
  let overlap := min text.len stop - start
  refuseIf (text.slice? start (start + overlap) ≠ chunk.text.slice? 0 overlap) .invalidData
  let added ← okOr (chunk.text.from? overlap) .invalidData
  .ok (text ++ added)

def chunksAt (chunks : List (Chunk Values)) (location : TextPart) : List (Chunk Values) :=
  (chunks.filter fun c => c.passage.location = location).insertionSort (Chunk.range · ≤ Chunk.range ·)

def canonicalPart (chunks : List (Chunk Values)) (location : TextPart) :
    Except MemberError (TextPart × Text) :=
  match chunksAt chunks location with
  | [] => .ok (location, [])
  | first :: rest => do
    let text ← (first :: rest).foldlM (assembleStep first.passage) []
    .ok (location, text)

/-- `canonical_parts`: reassembles the overlapping ranges of every part, in the order in which
the parts first appear. -/
def canonicalParts (chunks : List (Chunk Values)) : Except MemberError (List (TextPart × Text)) :=
  ((chunks.map fun c => c.passage.location).eraseDups).mapM (canonicalPart chunks)

/-! ### Searching -/

/-- The passage that supports a match, as a search lists it. -/
def literalCandidate [Crypto] [Unicode] (identity : SourceIdentity) (version : SourceVersion) (query : Query)
    (canonical : List (TextPart × Text)) : Except MemberError (Option (Passage × Text)) :=
  match query.locate canonical with
  | none => .ok none
  | some (location, start, stop) => do
    let (_, text) ← okOr (canonical.find? (·.1 = location)) .invalidData
    let start ← okOr (Checked.ofNat (2 ^ 32) start) .invalidData
    let stop ← okOr (Checked.ofNat (2 ^ 32) stop) .invalidData
    let passage ← (Passage.new identity version 1 location text start stop).mapError fun _ => .invalidData
    let selected ← (passage.verify text).mapError fun _ => .invalidData
    .ok (some (passage, selected))

/-- The literal match of a ready projection. -/
def searchReady [Crypto] [Unicode] (identity : SourceIdentity) (version : SourceVersion) (query : Query)
    (chunks : List (Chunk Values)) : Except MemberError (Option (Passage × Text)) := do
  let canonical ← canonicalParts chunks
  literalCandidate identity version query canonical

end CsMail
