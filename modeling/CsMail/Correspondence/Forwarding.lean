import CsMail.Correspondence.Record
import CsMail.Library.Worklist

/-! What a message may draw on: the policies of the conversations behind its sources.

Policy inheritance is a conservative walk of the source edges; intermediate grouping cannot
remove one, and missing ancestors fail closed. -/
namespace CsMail
open Library

/-- At most so many messages lie behind one message. -/
def maxSourceGraph : ℕ := 1024

/-- Whether an element selects something of a block. -/
def SelectionElement.fits : SelectionElement → Option BlockDescriptor → Bool
  | textRange _ _ stop, some (.text bytes) => stop ≤ bytes
  | imageBlock _, some (.image _) => true
  | _, _ => false

/-- A selection is checked against the manifest of the very version it selects from. -/
def MessageSelection.validateTarget (s : MessageSelection) (manifest : MessageManifest) :
    Except CorrespondenceError Unit := do
  refuseIf (s.message ≠ manifest.message ∨ s.version ≠ manifest.version) .invalid
  s.elements.forM fun e => refuseIf (e.fits manifest.blocks[e.block.val]? = false) .invalid

/-- Of what is read under protection, the conversations and the messages behind a command.
A conversation is loaded under its own identifier. -/
structure SourceContext where
  conversations : SortedMap ConversationId Conversation
  messages : SortedMap MessageId MessageRecord
  identified : ∀ id c, conversations.get? id = some c → c.id = id

namespace SourceContext
variable (context : SourceContext)

def owned (id : ConversationId) (actor : ProtocolIdentity) : Except CorrespondenceError Conversation :=
  okOr ((context.conversations.get? id).filter fun c => c.scope.contains actor) .unauthorized

/-- A source of the new message, which its author must have access to. -/
def cite (actor : ProtocolIdentity) (source : SourceUse) : Except CorrespondenceError MessageId := do
  let record ← okOr (context.messages.get? source.selection.message) .policyUnresolved
  let _ ← context.owned record.manifest.conversation actor
  source.selection.validateTarget record.manifest
  .ok source.selection.message

/-- A source of a source. -/
def inherit (source : SourceUse) : Except CorrespondenceError MessageId := do
  let ancestor ← okOr (context.messages.get? source.selection.message) .policyUnresolved
  source.selection.validateTarget ancestor.manifest
  .ok source.selection.message

/-- One message of the walk: the policy its conversation has, and its own sources. -/
def visit (destination : CorrespondenceRef) (id : MessageId) :
    Except CorrespondenceError ((ConversationId × U64) × List MessageId) := do
  let record ← okOr (context.messages.get? id) .policyUnresolved
  let conversation ← okOr (context.conversations.get? record.manifest.conversation) .policyUnresolved
  refuseIf (conversation.permits destination = false) .policyRestricted
  let sources ← record.manifest.sources.mapM context.inherit
  .ok ((conversation.id, conversation.revision), sources)

def observe (observed : SortedMap ConversationId U64) (policy : ConversationId × U64) :
    SortedMap ConversationId U64 := observed.insert policy.1 policy.2

/-- The revisions of all the policies a message depends on. -/
def policies (manifest : MessageManifest) (actor : ProtocolIdentity) :
    Except CorrespondenceError (SortedMap ConversationId U64) := do
  let destination ← context.owned manifest.conversation actor
  let pending ← manifest.sources.mapM (context.cite actor)
  let (_, observed) ← Worklist.walk maxSourceGraph .invalid (context.visit destination.scope) observe
    [] ∅ pending.reverse
  let destination ← context.owned manifest.conversation actor
  .ok (observed.insert destination.id destination.revision)

/-! ### What lies behind a message -/

/-- The messages reached through source edges. -/
inductive Behind (manifest : MessageManifest) : MessageId → Prop
  | cited {source : SourceUse} (h : source ∈ manifest.sources) : Behind manifest source.selection.message
  | inherited {id : MessageId} {record : MessageRecord} {source : SourceUse} (h : Behind manifest id)
      (hrecord : context.messages.get? id = some record) (hsource : source ∈ record.manifest.sources) :
      Behind manifest source.selection.message

/-- The source is there, as the version selected from. -/
def Edge (source : SourceUse) : Prop :=
  ∃ record, context.messages.get? source.selection.message = some record ∧
    source.selection.validateTarget record.manifest = .ok ()

/-- A message is there with its conversation, which permits the destination, and its own
sources are. -/
def Permitted (destination : CorrespondenceRef) (id : MessageId) : Prop :=
  ∃ record conversation, context.messages.get? id = some record ∧
    context.conversations.get? record.manifest.conversation = some conversation ∧
    conversation.permits destination = true ∧ ∀ source ∈ record.manifest.sources, context.Edge source

/-- Nothing behind the message is missing, restricted or too much. -/
structure Unbroken (manifest : MessageManifest) (destination : CorrespondenceRef) : Prop where
  edges : ∀ source ∈ manifest.sources, context.Edge source
  permitted : ∀ id, context.Behind manifest id → context.Permitted destination id
  bounded : Set.encard {id | context.Behind manifest id} ≤ maxSourceGraph

/-- The actor takes part in the conversation of a message. -/
def Accessible (actor : ProtocolIdentity) (id : MessageId) : Prop :=
  ∃ record conversation, context.messages.get? id = some record ∧
    context.owned record.manifest.conversation actor = .ok conversation

variable {context : SourceContext} {manifest : MessageManifest} {actor : ProtocolIdentity}
  {destination : CorrespondenceRef} {source : SourceUse} {id : MessageId}

theorem inherit_eq_ok : context.inherit source = .ok id ↔
    context.Edge source ∧ source.selection.message = id := by
  simp only [inherit, Edge, bind_eq_ok, okOr_eq_ok, Except.ok.injEq]
  constructor
  · rintro ⟨ancestor, hancestor, ⟨⟩, hvalid, hid⟩
    exact ⟨⟨ancestor, hancestor, hvalid⟩, hid⟩
  · rintro ⟨⟨ancestor, hancestor, hvalid⟩, hid⟩
    exact ⟨ancestor, hancestor, ⟨⟩, hvalid, hid⟩

theorem cite_eq_ok : context.cite actor source = .ok id ↔
    (context.Accessible actor source.selection.message ∧ context.Edge source) ∧
      source.selection.message = id := by
  simp only [cite, Accessible, Edge, bind_eq_ok, okOr_eq_ok, Except.ok.injEq]
  constructor
  · rintro ⟨record, hrecord, conversation, howned, ⟨⟩, hvalid, hid⟩
    exact ⟨⟨⟨record, conversation, hrecord, howned⟩, record, hrecord, hvalid⟩, hid⟩
  · rintro ⟨⟨⟨record, conversation, hrecord, howned⟩, record', hrecord', hvalid⟩, hid⟩
    cases hrecord.symm.trans hrecord'
    exact ⟨record, hrecord, conversation, howned, ⟨⟩, hvalid, hid⟩

/-- The source edges of a message. -/
def edges (context : SourceContext) (id : MessageId) : List MessageId :=
  match context.messages.get? id with
  | some record => record.manifest.sources.map fun s => s.selection.message
  | none => []

theorem visit_eq_ok {policy : ConversationId × U64} {next : List MessageId} :
    context.visit destination id = .ok (policy, next) ↔
      (∃ record conversation, context.messages.get? id = some record ∧
        context.conversations.get? record.manifest.conversation = some conversation ∧
        conversation.permits destination = true ∧ (∀ source ∈ record.manifest.sources, context.Edge source) ∧
        policy = (conversation.id, conversation.revision)) ∧ next = context.edges id := by
  simp only [visit, bind_eq_ok, okOr_eq_ok, refuseIf_eq_ok, Bool.not_eq_false, Except.ok.injEq]
  constructor
  · rintro ⟨record, hrecord, conversation, hconversation, ⟨⟩, hpermits, sources, hsources, ⟨⟩⟩
    obtain ⟨hedges, rfl⟩ := (mapM_eq_ok_map fun _ _ h => (inherit_eq_ok.mp h).2.symm).mp hsources
    refine ⟨⟨record, conversation, hrecord, hconversation, hpermits,
      fun source hsource => (inherit_eq_ok.mp (hedges source hsource)).1, rfl⟩, ?_⟩
    rw [edges, hrecord]
  · rintro ⟨⟨record, conversation, hrecord, hconversation, hpermits, hedges, rfl⟩, rfl⟩
    refine ⟨record, hrecord, conversation, hconversation, ⟨⟩, hpermits, _,
      (mapM_eq_ok_map fun _ _ h => (inherit_eq_ok.mp h).2.symm).mpr ⟨fun source hsource =>
        inherit_eq_ok.mpr ⟨hedges source hsource, rfl⟩, rfl⟩, ?_⟩
    rw [edges, hrecord]

theorem visit_edges {policy : ConversationId × U64} {next : List MessageId}
    (h : context.visit destination id = .ok (policy, next)) : next = context.edges id := (visit_eq_ok.mp h).2

def starting (manifest : MessageManifest) : List MessageId :=
  manifest.sources.map fun s => s.selection.message

theorem behind_iff : context.Behind manifest id ↔ Worklist.Reached context.edges (starting manifest) id := by
  constructor
  · intro h
    induction h with
    | cited hsource => exact .start (List.mem_map_of_mem hsource)
    | inherited _ hrecord hsource ih =>
      refine .edge ih ?_
      rw [edges, hrecord]
      exact List.mem_map_of_mem hsource
  · intro h
    induction h with
    | start hstart =>
      obtain ⟨source, hsource, rfl⟩ := List.mem_map.mp hstart
      exact .cited hsource
    | @edge a a' _ hedge ih =>
      unfold edges at hedge
      split at hedge
      · next record hrecord =>
        obtain ⟨source, hsource, rfl⟩ := List.mem_map.mp hedge
        exact .inherited ih hrecord hsource
      · cases hedge

theorem permitted_iff : context.Permitted destination id ↔
    ∃ policy next, context.visit destination id = .ok (policy, next) := by
  constructor
  · rintro ⟨record, conversation, hrecord, hconversation, hpermits, hedges⟩
    exact ⟨_, _, visit_eq_ok.mpr ⟨⟨record, conversation, hrecord, hconversation, hpermits, hedges, rfl⟩, rfl⟩⟩
  · rintro ⟨policy, next, h⟩
    obtain ⟨⟨record, conversation, hrecord, hconversation, hpermits, hedges, -⟩, -⟩ := visit_eq_ok.mp h
    exact ⟨record, conversation, hrecord, hconversation, hpermits, hedges⟩

theorem admissible_iff : Worklist.Admissible maxSourceGraph (context.visit destination) context.edges
    (starting manifest) ↔ (∀ id, context.Behind manifest id → context.Permitted destination id) ∧
      Set.encard {id | context.Behind manifest id} ≤ maxSourceGraph := by
  simp only [Worklist.Admissible, behind_iff, permitted_iff]

/-- The conversations a message depends on: its own, and those behind it. -/
def Concerns (context : SourceContext) (manifest : MessageManifest) (c : ConversationId) : Prop :=
  c = manifest.conversation ∨ ∃ id record, context.Behind manifest id ∧
    context.messages.get? id = some record ∧ record.manifest.conversation = c

/-- What a visit observes is the conversation's own policy, found under its identifier. -/
theorem observed_of_visit {c : ConversationId} {revision : U64} {next : List MessageId}
    (h : context.visit destination id = .ok ((c, revision), next)) :
    (∃ record, context.messages.get? id = some record ∧ record.manifest.conversation = c) ∧
      ∃ conversation, context.conversations.get? c = some conversation ∧ conversation.revision = revision := by
  obtain ⟨⟨record, conversation, hrecord, hconversation, -, -, hpolicy⟩, -⟩ := visit_eq_ok.mp h
  cases hpolicy
  rw [context.identified _ _ hconversation]
  exact ⟨⟨record, hrecord, rfl⟩, conversation, hconversation, rfl⟩

theorem notes_get? {visited : List MessageId} (c : ConversationId) (revision : U64)
    (h : ∀ id ∈ visited, ∃ policy, context.visit destination id = .ok (policy, context.edges id)) :
    (Worklist.notes (context.visit destination) observe ∅ visited).get? c = some revision ↔
      ∃ id ∈ visited, ∃ next, context.visit destination id = .ok ((c, revision), next) := by
  induction visited with
  | nil => simp [Worklist.notes]
  | cons id rest ih =>
    obtain ⟨⟨c', revision'⟩, hvisit⟩ := h id (List.mem_cons_self ..)
    have hrest := ih fun id hid => h id (List.mem_cons_of_mem _ hid)
    have hnotes : Worklist.notes (context.visit destination) observe ∅ (id :: rest) =
        (Worklist.notes (context.visit destination) observe ∅ rest).insert c' revision' := by
      rw [Worklist.notes, List.foldr_cons, hvisit]
      rfl
    rw [hnotes, SortedMap.get?_insert]
    split_ifs with hsame
    · subst hsame
      constructor
      · rintro ⟨⟩
        exact ⟨id, List.mem_cons_self .., _, hvisit⟩
      · rintro ⟨id', -, next, hvisit'⟩
        obtain ⟨-, conversation, hconversation, rfl⟩ := observed_of_visit hvisit
        obtain ⟨-, conversation', hconversation', rfl⟩ := observed_of_visit hvisit'
        cases hconversation.symm.trans hconversation'
        rfl
    · rw [hrest]
      constructor
      · rintro ⟨id', hid', hvisit'⟩
        exact ⟨id', List.mem_cons_of_mem _ hid', hvisit'⟩
      · rintro ⟨id', hid', next, hvisit'⟩
        rcases List.mem_cons.mp hid' with rfl | hid'
        · cases hvisit.symm.trans hvisit'
          exact absurd rfl hsame
        · exact ⟨id', hid', next, hvisit'⟩

/-- In any order, a completed walk has observed the conversations behind the message. -/
theorem observed_get? {visited start : List MessageId} {observed : SortedMap ConversationId U64}
    (hstart : start.Perm (starting manifest))
    (h : Worklist.Walks maxSourceGraph .invalid (context.visit destination) observe [] ∅ start
      (.ok (visited, observed))) (c : ConversationId) (revision : U64) :
    observed.get? c = some revision ↔
      (∃ id record, context.Behind manifest id ∧ context.messages.get? id = some record ∧
        record.manifest.conversation = c) ∧
      ∃ conversation, context.conversations.get? c = some conversation ∧ conversation.revision = revision := by
  have hsound := (h.perm hstart.symm).sound fun _ _ _ => visit_edges
  rw [hsound.noted, notes_get? c revision hsound.passed]
  constructor
  · rintro ⟨id, hid, next, hvisit⟩
    obtain ⟨⟨record, hrecord, hc⟩, hconversation⟩ := observed_of_visit hvisit
    exact ⟨⟨id, record, behind_iff.mpr ((hsound.visited_iff id).mp hid), hrecord, hc⟩, hconversation⟩
  · rintro ⟨⟨id, record, hbehind, hrecord, rfl⟩, conversation, hconversation, rfl⟩
    have hid := (hsound.visited_iff id).mpr (behind_iff.mp hbehind)
    obtain ⟨policy, hvisit⟩ := hsound.passed id hid
    obtain ⟨⟨record', conversation', hrecord', hconversation', -, -, rfl⟩, -⟩ := visit_eq_ok.mp hvisit
    cases hrecord.symm.trans hrecord'
    cases hconversation.symm.trans hconversation'
    rw [context.identified _ _ hconversation] at hvisit
    exact ⟨id, hid, _, hvisit⟩

/-- The walk of a message whose own sources have been cited. -/
theorem cite_all {sources : List SourceUse} {pending : List MessageId} :
    sources.mapM (context.cite actor) = .ok pending ↔
      (∀ source ∈ sources, context.Accessible actor source.selection.message ∧ context.Edge source) ∧
        pending = sources.map fun s => s.selection.message := by
  rw [mapM_eq_ok_map fun _ _ h => (cite_eq_ok.mp h).2.symm]
  simp only [cite_eq_ok, and_true]

/-- The policies read in any order of the walk. -/
inductive PoliciesIn (context : SourceContext) (manifest : MessageManifest) (actor : ProtocolIdentity) :
    Except CorrespondenceError (SortedMap ConversationId U64) → Prop
  | foreign {e} (h : context.owned manifest.conversation actor = .error e) :
      PoliciesIn context manifest actor (.error e)
  | uncited {destination e} (h : context.owned manifest.conversation actor = .ok destination)
      (hcite : manifest.sources.mapM (context.cite actor) = .error e) :
      PoliciesIn context manifest actor (.error e)
  | walked {destination pending result} (h : context.owned manifest.conversation actor = .ok destination)
      (hcite : manifest.sources.mapM (context.cite actor) = .ok pending)
      (hwalk : Worklist.Walks maxSourceGraph .invalid (context.visit destination.scope) observe [] ∅
        pending result) :
      PoliciesIn context manifest actor
        (result.map fun done => done.2.insert destination.id destination.revision)

/-- The walk of the source takes the sources named last first. -/
theorem policies_in (context : SourceContext) (manifest : MessageManifest) (actor : ProtocolIdentity) :
    PoliciesIn context manifest actor (context.policies manifest actor) := by
  unfold policies
  cases howned : context.owned manifest.conversation actor with
  | error e => exact .foreign howned
  | ok destination =>
    cases hcite : manifest.sources.mapM (context.cite actor) with
    | error e => exact .uncited howned hcite
    | ok pending =>
      have hwalk : Worklist.Walks maxSourceGraph .invalid (context.visit destination.scope) observe [] ∅
          pending.reverse _ := Worklist.walks_walk [] ∅ pending.reverse
      have hin := PoliciesIn.walked howned hcite (hwalk.perm (List.reverse_perm pending).symm)
      simp only [ok_bind]
      cases hdone : Worklist.walk maxSourceGraph .invalid (context.visit destination.scope) observe [] ∅
          pending.reverse with
      | error e =>
        rw [hdone] at hin
        exact hin
      | ok done =>
        rw [hdone] at hin
        exact hin

theorem PoliciesIn.succeeds_iff {result : Except CorrespondenceError (SortedMap ConversationId U64)}
    (h : PoliciesIn context manifest actor result) : (∃ observed, result = .ok observed) ↔
      ∃ destination, context.owned manifest.conversation actor = .ok destination ∧
        (∀ source ∈ manifest.sources, context.Accessible actor source.selection.message) ∧
        context.Unbroken manifest destination.scope := by
  cases h with
  | foreign h => exact iff_of_false (by simp) fun ⟨_, howned, _⟩ => by cases h.symm.trans howned
  | @uncited destination e h hcite =>
    refine iff_of_false (by simp) fun ⟨_, howned, haccess, hunbroken⟩ => ?_
    have hok := cite_all.mpr ⟨fun source hsource => ⟨haccess source hsource, hunbroken.edges source hsource⟩, rfl⟩
    cases hcite.symm.trans hok
  | @walked destination pending result h hcite hwalk =>
    obtain ⟨hsources, rfl⟩ := cite_all.mp hcite
    have hadmissible := (hwalk.succeeds_iff fun _ _ _ => visit_edges).trans admissible_iff
    constructor
    · rintro ⟨observed, hobserved⟩
      obtain ⟨done, hdone, -⟩ := map_eq_ok.mp hobserved
      obtain ⟨hpermitted, hbounded⟩ := hadmissible.mp ⟨done, hdone⟩
      exact ⟨destination, h, fun source hsource => (hsources source hsource).1,
        fun source hsource => (hsources source hsource).2, hpermitted, hbounded⟩
    · rintro ⟨destination', h', -, hunbroken⟩
      cases h.symm.trans h'
      obtain ⟨done, hdone⟩ := hadmissible.mpr ⟨hunbroken.permitted, hunbroken.bounded⟩
      exact ⟨_, map_eq_ok.mpr ⟨done, hdone, rfl⟩⟩

theorem owned_eq_ok {c : ConversationId} {conversation : Conversation} :
    context.owned c actor = .ok conversation ↔
      context.conversations.get? c = some conversation ∧ conversation.scope.contains actor = true := by
  rw [owned, okOr_eq_ok, Option.filter_eq_some_iff]

theorem PoliciesIn.observed {observed : SortedMap ConversationId U64}
    (h : PoliciesIn context manifest actor (.ok observed)) (c : ConversationId) (revision : U64) :
    observed.get? c = some revision ↔ context.Concerns manifest c ∧
      ∃ conversation, context.conversations.get? c = some conversation ∧ conversation.revision = revision := by
  generalize hresult : Except.ok observed = result at h
  cases h with
  | foreign => cases hresult
  | uncited => cases hresult
  | @walked destination pending result howned hcite hwalk =>
    obtain ⟨-, rfl⟩ := cite_all.mp hcite
    obtain ⟨⟨visited, noted⟩, rfl, rfl⟩ := map_eq_ok.mp hresult.symm
    obtain ⟨hdestination, -⟩ := owned_eq_ok.mp howned
    have hid := context.identified _ _ hdestination
    rw [SortedMap.get?_insert, hid]
    split_ifs with hc
    · rw [hc, hdestination]
      simp [Concerns]
    · rw [observed_get? (.refl _) hwalk, Concerns]
      simp only [hc, false_or]

/-- **Nothing behind a message escapes its policies.** The walk ends on every context, and
accepts exactly the messages whose author has access to the conversation written in and to
what is cited, and behind which nothing is missing, restricted or too much. Whatever the
order of the walk, it returns the policies of the conversations behind the message, with
that of its own. -/
theorem policies_walk (context : SourceContext) (manifest : MessageManifest) (actor : ProtocolIdentity) :
    ((∃ observed, context.policies manifest actor = .ok observed) ↔
      ∃ destination, context.owned manifest.conversation actor = .ok destination ∧
        (∀ source ∈ manifest.sources, context.Accessible actor source.selection.message) ∧
        context.Unbroken manifest destination.scope) ∧
    (∀ observed, context.policies manifest actor = .ok observed → ∀ c revision,
      observed.get? c = some revision ↔ context.Concerns manifest c ∧
        ∃ conversation, context.conversations.get? c = some conversation ∧ conversation.revision = revision) ∧
    ∀ result, PoliciesIn context manifest actor result →
      ((∃ observed, result = .ok observed) ↔ ∃ observed, context.policies manifest actor = .ok observed) ∧
        ∀ observed, result = .ok observed → context.policies manifest actor = .ok observed := by
  have hin := policies_in context manifest actor
  refine ⟨hin.succeeds_iff, fun observed hobserved => ?_, fun result hresult => ?_⟩
  · rw [hobserved] at hin
    exact hin.observed
  · have hsame := hresult.succeeds_iff.trans hin.succeeds_iff.symm
    refine ⟨hsame, ?_⟩
    rintro observed rfl
    obtain ⟨observed', hobserved'⟩ := hsame.mp ⟨observed, rfl⟩
    rw [hobserved'] at hin ⊢
    refine congrArg Except.ok (SortedMap.ext_get fun c => ?_)
    ext revision
    exact (hin.observed c revision).trans (hresult.observed c revision).symm

/-! ### A message that cites nothing -/

namespace Example

def thread : Conversation :=
  .new ⟨5, by decide⟩ ⟨⟨1⟩, ⟨2⟩, by decide, by decide⟩

def plain : MessageManifest where
  record := {
    subject := none
    message := ⟨7⟩
    conversation := thread.id
    version := ⟨zero32⟩
    blocks := [.text 1]
    sources := []}
  valid := by decide

/-- One conversation, and no message in it. -/
def quiet : SourceContext where
  conversations := SortedMap.empty.insert thread.id thread
  messages := .empty
  identified id c h := by
    rw [SortedMap.get?_insert] at h
    split_ifs at h with hid
    · cases h
      exact hid.symm
    · cases h

theorem nothing_behind_plain (id : MessageId) : ¬quiet.Behind plain id := by
  intro h
  induction h with
  | cited hsource => cases hsource
  | inherited _ _ _ ih => exact ih

theorem unbroken_plain : quiet.Unbroken plain thread.scope where
  edges _ hsource := by cases hsource
  permitted id h := absurd h (nothing_behind_plain id)
  bounded := by
    have hempty : {id | quiet.Behind plain id} = ∅ := Set.eq_empty_of_forall_notMem nothing_behind_plain
    rw [hempty, Set.encard_empty]
    exact zero_le

end Example

/-- The conversation written in is among the policies although nothing was cited, and a
persona that takes no part in it is refused although nothing is missing. -/
theorem policies_of_uncited :
    (∃ observed, Example.quiet.policies Example.plain ⟨1⟩ = .ok observed ∧
      observed.get? Example.thread.id = some 0 ∧
      ¬∃ id record, Example.quiet.Behind Example.plain id ∧ Example.quiet.messages.get? id = some record ∧
        record.manifest.conversation = Example.thread.id) ∧
    Example.quiet.Unbroken Example.plain Example.thread.scope ∧
    Example.quiet.policies Example.plain ⟨3⟩ = .error .unauthorized := by
  refine ⟨⟨SortedMap.empty.insert Example.thread.id 0, ?_, by decide, ?_⟩, Example.unbroken_plain, rfl⟩
  · have hwalk : Worklist.walk maxSourceGraph .invalid (Example.quiet.visit Example.thread.scope) observe []
        ∅ [] = .ok ([], ∅) := by rw [Worklist.walk]
    have hpolicies : Example.quiet.policies Example.plain ⟨1⟩ = (do
        let (_, observed) ← Worklist.walk maxSourceGraph .invalid
          (Example.quiet.visit Example.thread.scope) observe [] ∅ []
        .ok (observed.insert Example.thread.id Example.thread.revision)) := rfl
    rw [hpolicies, hwalk]
    rfl
  · rintro ⟨id, record, hbehind, -⟩
    exact Example.nothing_behind_plain id hbehind

end SourceContext
end CsMail
