import CsMail.Application.Soundness
import CsMail.Guests.HistoryStore

/-! What opening a guest's relationship does to the links and the histories.

An approach that is accepted either creates a history for evidence that had none, or selects the one
its evidence is linked to, or merges two (`GuestStore.Opened`). -/
namespace CsMail
open Library

/-! ### Resolving -/

/-- What `resolveHistory` decides. -/
inductive Resolution (recipient : ProtocolIdentity) (mailbox : GuestMailbox) (fingerprint : InstrumentFingerprint)
    (fresh merged : RequestHistoryRef) (now : CanonicalTime) :
    Option RequestHistory → Option RequestHistory → HistoryDecision → Prop
  | fresh : Resolution recipient mailbox fingerprint fresh merged now none none
      ⟨fresh, some (.new fresh recipient now), none, [.mailbox mailbox, .fingerprint fingerprint]⟩
  | mailbox (one : RequestHistory) : Resolution recipient mailbox fingerprint fresh merged now (some one) none
      ⟨one.reference, none, none, [.fingerprint fingerprint]⟩
  | fingerprint (one : RequestHistory) : Resolution recipient mailbox fingerprint fresh merged now none (some one)
      ⟨one.reference, none, none, [.mailbox mailbox]⟩
  | same (a b : RequestHistory) (hsame : a.reference = b.reference) :
    Resolution recipient mailbox fingerprint fresh merged now (some a) (some b) ⟨a.reference, none, none, []⟩
  | merged (a b : RequestHistory) (hne : a.reference ≠ b.reference)
    (hpending : ¬(a.pendingSubmission.isSome = true ∧ b.pendingSubmission.isSome = true)) :
    Resolution recipient mailbox fingerprint fresh merged now (some a) (some b)
      ⟨merged, some (a.mergeWith b merged recipient now), some (a.reference, b.reference),
        [.mailbox mailbox, .fingerprint fingerprint]⟩

theorem resolution_of_eq_ok {recipient : ProtocolIdentity} {mailbox : GuestMailbox}
    {fingerprint : InstrumentFingerprint} {a b : Option RequestHistory} {fresh merged : RequestHistoryRef}
    {now : CanonicalTime} {decision : HistoryDecision}
    (h : resolveHistory recipient (mailbox, a) (fingerprint, b) fresh merged now = .ok decision) :
    Resolution recipient mailbox fingerprint fresh merged now a b decision := by
  unfold resolveHistory at h
  obtain ⟨⟨⟩, -, h⟩ := bind_eq_ok.mp h
  cases a with
  | none =>
    cases b with
    | none =>
      cases h
      exact .fresh
    | some b =>
      cases h
      exact .fingerprint b
  | some a =>
    cases b with
    | none =>
      cases h
      exact .mailbox a
    | some b =>
      dsimp only at h
      split_ifs at h with hsame
      · cases h
        exact .same a b hsame
      · obtain ⟨⟨⟩, hpending, h⟩ := bind_eq_ok.mp h
        cases h
        exact .merged a b hsame (refuseIf_eq_ok.mp hpending)

/-! ### Committing -/

/-- What a history is called after the decision. -/
def HistoryDecision.renamed (decision : HistoryDecision) (history : RequestHistoryRef) : RequestHistoryRef :=
  match decision.merged with
  | none => history
  | some sources => if history = sources.1 ∨ history = sources.2 then decision.history else history

/-- The histories with the one the decision creates. -/
def HistoryDecision.created (decision : HistoryDecision) (histories : SortedMap RequestHistoryRef RequestHistory) :
    SortedMap RequestHistoryRef RequestHistory :=
  match decision.create with
  | none => histories
  | some h => histories.insert h.reference h

/-- What becomes of a relationship: one of a guest with this recipient goes by the new name. -/
def HistoryDecision.moved (decision : HistoryDecision) (guest : ProtocolIdentity → Bool) (recipient : ProtocolIdentity)
    (e : EngineState) : EngineState :=
  if guest e.protocol.relationship.key.sender = true ∧ e.protocol.relationship.key.recipient = recipient
    then e.withHistory (decision.renamed e.protocol.relationship.history) else e

namespace HistoryDecision
variable {decision : HistoryDecision} {guest : ProtocolIdentity → Bool} {recipient : ProtocolIdentity} {e : EngineState}

theorem renamed_eq_id (h : decision.merged = none) : decision.renamed = id := by
  funext history
  rw [renamed, h]
  rfl

theorem moved_key : (decision.moved guest recipient e).protocol.relationship.key = e.protocol.relationship.key := by
  unfold moved
  split_ifs
  · rfl
  · rfl

theorem moved_eq_self (h : decision.merged = none) : decision.moved guest recipient e = e := by
  unfold moved
  rw [renamed_eq_id h]
  split_ifs
  · rfl
  · rfl

/-- A relationship keeps its history, or is one of this recipient under the history of the decision. -/
theorem moved_history :
    (decision.moved guest recipient e).protocol.relationship.history = e.protocol.relationship.history ∨
      (decision.moved guest recipient e).protocol.relationship.history = decision.history ∧
        e.protocol.relationship.key.recipient = recipient := by
  unfold moved
  split_ifs with hmoved
  · show decision.renamed _ = _ ∨ decision.renamed _ = _ ∧ _
    unfold renamed
    cases decision.merged with
    | none => exact .inl rfl
    | some sources =>
      dsimp only
      split_ifs
      · exact .inr ⟨rfl, hmoved.2⟩
      · exact .inl rfl
  · exact .inl rfl

end HistoryDecision

namespace GuestStore
variable {w w' : GuestStore} {recipient : ProtocolIdentity} {decision : HistoryDecision} {now : CanonicalTime}

theorem moveSource_link {merged source : RequestHistoryRef} {r : ProtocolIdentity} {e : HistoryEvidence} :
    (w.moveSource recipient merged source).link r e =
      (w.link r e).map fun history => if history = source then merged else history :=
  SortedMap.get?_map ..

/-- Moving one source after the other renames both. -/
theorem renames {sources : RequestHistoryRef × RequestHistoryRef} (hmerged : decision.merged = some sources)
    (history : RequestHistoryRef) :
    (let first := if history = sources.1 then decision.history else history
    if first = sources.2 then decision.history else first) = decision.renamed history := by
  rw [HistoryDecision.renamed, hmerged]
  by_cases hfirst : history = sources.1
  · simp [hfirst]
  · simp [hfirst]

/-- Moving one source after the other moves what is renamed. -/
theorem moves {sources : RequestHistoryRef × RequestHistoryRef} (hmerged : decision.merged = some sources)
    (guest : ProtocolIdentity → Bool) (e : EngineState) :
    (let first := if guest e.protocol.relationship.key.sender = true ∧
        e.protocol.relationship.key.recipient = recipient ∧ e.protocol.relationship.history = sources.1
      then e.withHistory decision.history else e
    if guest first.protocol.relationship.key.sender = true ∧
        first.protocol.relationship.key.recipient = recipient ∧ first.protocol.relationship.history = sources.2
      then first.withHistory decision.history else first) = decision.moved guest recipient e := by
  rw [HistoryDecision.moved, ← renames hmerged]
  by_cases hkey : guest e.protocol.relationship.key.sender = true ∧ e.protocol.relationship.key.recipient = recipient
  · obtain ⟨hguest, hrecipient⟩ := hkey
    by_cases hfirst : e.protocol.relationship.history = sources.1
    · by_cases hsecond : decision.history = sources.2
      · simp [hguest, hrecipient, hfirst, hsecond, EngineState.withHistory]
      · simp [hguest, hrecipient, hfirst, hsecond, EngineState.withHistory]
    · simp only [hguest, hrecipient, hfirst, and_false, and_self, true_and, if_true, if_false]
      split_ifs
      · rfl
      · rfl
  · have hother : ∀ P : Prop, ¬(guest e.protocol.relationship.key.sender = true ∧
        e.protocol.relationship.key.recipient = recipient ∧ P) := fun P h => hkey ⟨h.1, h.2.1⟩
    simp only [hother, hkey, if_false]

theorem mergeSources_spec (h : w.mergeSources recipient decision now = .ok w') :
    (∀ r e, w'.link r e = (w.link r e).map decision.renamed) ∧ w'.histories = w.histories ∧
      w'.subjects = w.subjects ∧
      ∀ R, w'.relationships.get? R = (w.relationships.get? R).map (decision.moved w.isGuest recipient) := by
  unfold mergeSources at h
  cases hmerged : decision.merged with
  | none =>
    rw [hmerged] at h
    cases h
    refine ⟨fun r e => ?_, rfl, rfl, fun R => ?_⟩
    · rw [HistoryDecision.renamed_eq_id hmerged, Option.map_id]
      rfl
    · have hsame : decision.moved w.isGuest recipient = id := funext fun e => HistoryDecision.moved_eq_self hmerged
      rw [hsame, Option.map_id]
      rfl
  | some sources =>
    rw [hmerged] at h
    obtain ⟨⟨⟩, -, h⟩ := bind_eq_ok.mp h
    cases h
    refine ⟨fun r e => ?_, rfl, rfl, fun R => ?_⟩
    · show ((w.moveSource recipient _ sources.1).moveSource recipient _ sources.2).link r e = _
      rw [moveSource_link, moveSource_link, Option.map_map]
      exact congrArg (Option.map · (w.link r e)) (funext (renames hmerged))
    · show (((w.moveSource recipient _ sources.1).relationships.map _).get? R) = _
      rw [SortedMap.get?_map]
      show (((w.relationships.map _).get? R).map _) = _
      rw [SortedMap.get?_map, Option.map_map]
      exact congrArg (Option.map · (w.relationships.get? R)) (funext (moves hmerged w.isGuest))

theorem createHistory_spec (h : w.createHistory decision.create = .ok w') :
    w' = {w with histories := decision.created w.histories} ∧
      ∀ created, decision.create = some created → w.histories.get? created.reference = none := by
  unfold createHistory at h
  cases hcreate : decision.create with
  | none =>
    rw [hcreate] at h
    cases h
    exact ⟨by simp [HistoryDecision.created, hcreate], fun created hcreated => by cases hcreated⟩
  | some created =>
    rw [hcreate] at h
    obtain ⟨⟨⟩, hnew, h⟩ := bind_eq_ok.mp h
    cases h
    refine ⟨by simp [HistoryDecision.created, hcreate], fun _ hcreated => ?_⟩
    cases hcreated
    exact SortedMap.contains_eq_false.mp (Bool.eq_false_iff.mpr (refuseIf_eq_ok.mp hnew))

theorem linkEvidence_link {r : ProtocolIdentity} {e : HistoryEvidence} :
    (w.linkEvidence recipient decision).link r e =
      if r = recipient ∧ e ∈ decision.link then some decision.history else w.link r e := by
  have hfold : ∀ (l : List HistoryEvidence) (links : SortedMap (ProtocolIdentity ×ₗ HistoryEvidence) RequestHistoryRef),
      (l.foldl (fun links e => links.insert (toLex (recipient, e)) decision.history) links).get? (toLex (r, e)) =
        if r = recipient ∧ e ∈ l then some decision.history else links.get? (toLex (r, e)) := by
    intro l
    induction l with
    | nil => intro links; simp
    | cons x rest ih =>
      intro links
      rw [List.foldl_cons, ih, SortedMap.get?_insert]
      by_cases hr : r = recipient
      · by_cases hx : e = x
        · simp [hr, hx]
        · simp [hr, hx]
      · simp [hr]
  exact hfold decision.link w.links

theorem registerSubject_spec {subjects subjects' : SortedMap ProtocolIdentity SenderSubject}
    {identity : ProtocolIdentity} {subject : SenderSubject} (h : registerSubject subjects identity subject = .ok subjects') :
    subjects'.get? identity = some subject ∧ ∀ i s, subjects.get? i = some s → subjects'.get? i = some s := by
  obtain ⟨⟨⟩, hrows, h⟩ := bind_eq_ok.mp h
  cases h
  rw [refuseIf_eq_ok, not_not] at hrows
  refine ⟨?_, fun i s hs => ?_⟩
  · have hmem := List.mem_of_mem_filter (hrows ▸ List.mem_singleton_self (identity, subject))
    exact SortedMap.mem_entries.mp hmem
  · split_ifs with hnone
    · rw [SortedMap.get?_insert_ne, hs]
      rintro rfl
      have hrow : (i, s) ∈ subjectRows subjects i (subject.key i) :=
        List.mem_filter.mpr ⟨SortedMap.mem_entries.mpr hs, by simp⟩
      rw [hnone] at hrow
      cases hrow
    · exact hs

/-- Subjects are registered for good. -/
theorem registerPlanned_spec {identity : ProtocolIdentity} {planned : Option SenderSubject}
    (h : w.registerPlanned identity planned = .ok w') :
    w'.toStoreState = w.toStoreState ∧ w'.links = w.links ∧
      (∀ subject, planned = some subject → w'.subjects.get? identity = some subject) ∧
      ∀ i s, w.subjects.get? i = some s → w'.subjects.get? i = some s := by
  unfold registerPlanned at h
  cases planned with
  | none =>
    cases h
    exact ⟨rfl, rfl, fun subject hsome => (by cases hsome), fun i s => id⟩
  | some subject =>
    obtain ⟨subjects, hsubjects, rfl⟩ := map_eq_ok.mp h
    obtain ⟨hregistered, hkept⟩ := registerSubject_spec hsubjects
    exact ⟨rfl, rfl, fun _ hsome => Option.some.inj hsome ▸ hregistered, hkept⟩

end GuestStore

namespace StoreState
variable {w w' : StoreState} {state : ProtocolState} {unit : SettlementUnit}

theorem bootstrapIn_spec (h : w.bootstrapIn state unit = .ok w') :
    (w.histories.contains state.relationship.history = true → w'.histories = w.histories) ∧
      ∀ R, w'.relationships.get? R =
        if R = state.relationship.key.reference ∧ w.relationships.get? R = none then some (.new state unit)
        else w.relationships.get? R := by
  unfold bootstrapIn at h
  obtain ⟨⟨⟩, -, h⟩ := bind_eq_ok.mp h
  obtain ⟨⟨⟩, -, h⟩ := bind_eq_ok.mp h
  cases h
  refine ⟨fun hheld => if_pos hheld, fun R => ?_⟩
  dsimp only
  split_ifs with hheld hnew hnew
  · obtain ⟨e, he⟩ := SortedMap.contains_eq_true.mp hheld
    obtain ⟨rfl, hnone⟩ := hnew
    cases hnone.symm.trans he
  · rfl
  · obtain ⟨rfl, -⟩ := hnew
    exact SortedMap.get?_insert_self ..
  · rw [SortedMap.get?_insert_ne]
    rintro rfl
    exact hnew ⟨rfl, SortedMap.contains_eq_false.mp (Bool.eq_false_iff.mpr hheld)⟩

end StoreState

namespace GuestStore
variable {w w' : GuestStore} {approach : GuestApproach} {plan : GuestRelationshipPlan} {unit : SettlementUnit}

/-- What a committed plan leaves of the links, the histories, the subjects and the relationships. -/
structure Commits (w w' : GuestStore) (approach : GuestApproach) (decision : HistoryDecision) : Prop where
  fresh : ∀ created, decision.create = some created → w.histories.get? created.reference = none
  link : ∀ r e, w'.link r e =
    if r = approach.address.recipient ∧ e ∈ decision.link then some decision.history
    else (w.link r e).map decision.renamed
  histories : (decision.created w.histories).contains decision.history = true →
    w'.histories = decision.created w.histories
  subjects : ∀ i s, w.subjects.get? i = some s → w'.subjects.get? i = some s
  /-- A relationship moves with its history; only that of the approach may be new. -/
  moved : ∀ R e', w'.relationships.get? R = some e' →
    (∃ e, w.relationships.get? R = some e ∧ e' = decision.moved w'.isGuest approach.address.recipient e) ∨
      w.relationships.get? R = none ∧ R = approach.address.relationship ∧
        e'.protocol.relationship.history = decision.history ∧
        e'.protocol.relationship.key.recipient = approach.address.recipient
  kept : ∀ R e, w.relationships.get? R = some e →
    w'.relationships.get? R = some (decision.moved w'.isGuest approach.address.recipient e)
  here : ∃ e, w'.relationships.get? approach.address.relationship = some e ∧
    e.protocol.relationship.history = decision.history

theorem openPlanned_commits (h : w.openPlanned unit approach plan = .ok w') : w.Commits w' approach plan.history ∧
    ∀ subject, plan.register = some subject → w'.subjects.get? approach.identity = some subject := by
  obtain ⟨w₁, hregister, h⟩ := bind_eq_ok.mp h
  obtain ⟨w₂, hcreate, h⟩ := bind_eq_ok.mp h
  obtain ⟨w₃, hmerge, h⟩ := bind_eq_ok.mp h
  obtain ⟨_, -, h⟩ := bind_eq_ok.mp h
  obtain ⟨store, hbootstrap, h⟩ := bind_eq_ok.mp h
  obtain ⟨here, hhere, h⟩ := bind_eq_ok.mp h
  obtain ⟨⟨⟩, hsame, h⟩ := bind_eq_ok.mp h
  cases h
  rw [okOr_eq_ok] at hhere
  rw [refuseIf_eq_ok, not_not] at hsame
  obtain ⟨hstore₁, hlinks₁, hregistered, hsubjects⟩ := registerPlanned_spec hregister
  obtain ⟨rfl, hfresh⟩ := createHistory_spec hcreate
  obtain ⟨hlink₃, hhistories₃, hsubjects₃, hmoves₃⟩ := mergeSources_spec hmerge
  obtain ⟨hkept, hbootstrapped⟩ := StoreState.bootstrapIn_spec hbootstrap
  have hlink₁ : ∀ r e, w₁.link r e = w.link r e := fun r e => by rw [GuestStore.link, hlinks₁, GuestStore.link]
  have hhistories₁ : w₁.histories = w.histories := congrArg StoreState.histories hstore₁
  have hrelationships₁ : w₁.relationships = w.relationships := congrArg StoreState.relationships hstore₁
  have hguest : w₃.isGuest = w₁.isGuest := by
    funext identity
    rw [isGuest, hsubjects₃, isGuest]
  have hmoved : ∀ R, w₃.relationships.get? R =
      (w.relationships.get? R).map (plan.history.moved w₃.isGuest approach.address.recipient) := by
    intro R
    rw [hmoves₃, hguest, ← hrelationships₁]
    rfl
  have hnone : ∀ {R}, w₃.relationships.get? R = none ↔ w.relationships.get? R = none := by
    intro R
    rw [hmoved, Option.map_eq_none_iff]
  refine ⟨⟨?_, fun r e => ?_, fun hheld => ?_, fun i s hs => ?_, fun R e' he' => ?_, fun R e he => ?_, here, hhere, hsame⟩,
    fun subject hsubject => ?_⟩
  · rwa [← hhistories₁]
  · refine linkEvidence_link.trans ?_
    rw [hlink₃, ← hlink₁ r e]
    rfl
  · have hsame : (w₃.linkEvidence approach.address.recipient plan.history).histories =
        plan.history.created w.histories := hhistories₃.trans (by rw [hhistories₁])
    refine (hkept ?_).trans hsame
    rw [hsame]
    exact hheld
  · exact (congrArg (·.get? i) hsubjects₃).trans (hsubjects i s hs)
  · rw [hbootstrapped R] at he'
    split_ifs at he' with hnew
    · cases he'
      exact .inr ⟨hnone.mp hnew.2, hnew.1, rfl, rfl⟩
    · rw [show (w₃.linkEvidence _ _).relationships.get? R = _ from hmoved R, Option.map_eq_some_iff] at he'
      obtain ⟨e, he, rfl⟩ := he'
      exact .inl ⟨e, he, rfl⟩
  · have hheld : w₃.relationships.get? R = _ := hmoved R
    rw [he, Option.map_some] at hheld
    refine (hbootstrapped R).trans ?_
    rw [if_neg]
    · exact hheld
    · rintro ⟨-, hnew⟩
      cases hnew.symm.trans hheld
  · exact (congrArg (·.get? approach.identity) hsubjects₃).trans (hregistered subject hsubject)

/-! ### Opening -/

theorem linkedHistory_eq_ok (hfiled : w.toStoreState.Filed) {recipient : ProtocolIdentity} {e : HistoryEvidence}
    {o : Option RequestHistory} (h : w.linkedHistory recipient e = .ok o) :
    w.link recipient e = o.map RequestHistory.reference ∧ ∀ one, o = some one → w.histories.get? one.reference = some one := by
  unfold linkedHistory at h
  cases hlink : w.link recipient e with
  | none =>
    rw [hlink] at h
    cases h
    exact ⟨rfl, fun one hone => by cases hone⟩
  | some history =>
    rw [hlink] at h
    obtain ⟨one, hone, rfl⟩ := map_eq_ok.mp h
    rw [okOr_eq_ok] at hone
    have hreference := hfiled.reference history one hone
    refine ⟨by rw [Option.map_some, hreference], fun _ hsame => ?_⟩
    cases hsame
    rwa [hreference]

/-- An accepted approach with two pieces of evidence, by what they were linked to before. -/
inductive Opened (w w' : GuestStore) (recipient : ProtocolIdentity) (m f : HistoryEvidence) (now : CanonicalTime) :
    RequestHistoryRef → Prop
  | created {h : RequestHistory} (hm : w.link recipient m = none) (hf : w.link recipient f = none)
    (hnew : w.histories.get? h.reference = none) (howner : h.recipient = recipient)
    (hlink : ∀ r e, w'.link r e = if r = recipient ∧ (e = m ∨ e = f) then some h.reference else w.link r e)
    (hhistories : w'.histories = w.histories.insert h.reference h) : Opened w w' recipient m f now h.reference
  | selected {one : RequestHistory} (hone : w.histories.get? one.reference = some one)
    (hlinked : w.link recipient m = some one.reference ∨ w.link recipient f = some one.reference)
    (hm : ∀ H, w.link recipient m = some H → H = one.reference)
    (hf : ∀ H, w.link recipient f = some H → H = one.reference)
    (hlink : ∀ r e, w'.link r e = if r = recipient ∧ (e = m ∨ e = f) then some one.reference else w.link r e)
    (hhistories : w'.histories = w.histories) : Opened w w' recipient m f now one.reference
  | merged {a b : RequestHistory} {history : RequestHistoryRef} (hm : w.link recipient m = some a.reference)
    (hf : w.link recipient f = some b.reference) (ha : w.histories.get? a.reference = some a)
    (hb : w.histories.get? b.reference = some b) (hne : a.reference ≠ b.reference)
    (hpending : ¬(a.pendingSubmission.isSome = true ∧ b.pendingSubmission.isSome = true))
    (hnew : w.histories.get? history = none)
    (hlink : ∀ r e, w'.link r e =
      (w.link r e).map fun H => if H = a.reference ∨ H = b.reference then history else H)
    (hhistories : w'.histories = w.histories.insert history (a.mergeWith b history recipient now)) :
    Opened w w' recipient m f now history

/-- Where nothing is merged, only the two pieces of evidence are linked anew. -/
theorem Commits.link_eq {decision : HistoryDecision} (h : w.Commits w' approach decision)
    (hmerged : decision.merged = none) {m f : HistoryEvidence} (hlink : ∀ e ∈ decision.link, e = m ∨ e = f)
    (hrest : ∀ e, e = m ∨ e = f → e ∈ decision.link ∨ w.link approach.address.recipient e = some decision.history)
    (r : ProtocolIdentity) (e : HistoryEvidence) :
    w'.link r e = if r = approach.address.recipient ∧ (e = m ∨ e = f) then some decision.history else w.link r e := by
  rw [h.link, HistoryDecision.renamed_eq_id hmerged, Option.map_id]
  by_cases hr : r = approach.address.recipient
  · subst hr
    by_cases he : e ∈ decision.link
    · simp [he, hlink e he]
    · by_cases hof : e = m ∨ e = f
      · simp [hof, (hrest e hof).resolve_left he]
      · simp [he, hof]
  · simp [hr]

theorem Commits.opened {mailbox : GuestMailbox} {fingerprint : InstrumentFingerprint}
    {fresh merged : RequestHistoryRef} {now : CanonicalTime} {a b : Option RequestHistory} {decision : HistoryDecision}
    (h : w.Commits w' approach decision)
    (hresolution : Resolution approach.address.recipient mailbox fingerprint fresh merged now a b decision)
    (hm : w.link approach.address.recipient (.mailbox mailbox) = a.map RequestHistory.reference)
    (ha : ∀ one, a = some one → w.histories.get? one.reference = some one)
    (hf : w.link approach.address.recipient (.fingerprint fingerprint) = b.map RequestHistory.reference)
    (hb : ∀ one, b = some one → w.histories.get? one.reference = some one) :
    Opened w w' approach.address.recipient (.mailbox mailbox) (.fingerprint fingerprint) now decision.history := by
  have hcreated : ∀ {created}, decision.create = some created → created.reference = decision.history →
      w'.histories = w.histories.insert created.reference created := by
    intro created hcreate hreference
    have heq : decision.created w.histories = w.histories.insert created.reference created := by
      rw [HistoryDecision.created, hcreate]
    rw [← heq]
    refine h.histories ?_
    rw [heq, hreference, SortedMap.contains, SortedMap.get?_insert_self]
    rfl
  have hkept : ∀ {one}, decision.create = none → w.histories.get? decision.history = some one →
      w'.histories = w.histories := by
    intro one hnone hone
    have heq : decision.created w.histories = w.histories := by
      rw [HistoryDecision.created, hnone]
    rw [← heq]
    refine h.histories ?_
    rw [heq]
    exact SortedMap.contains_eq_true.mpr ⟨one, hone⟩
  cases hresolution with
  | fresh =>
    refine .created hm hf (h.fresh _ rfl) rfl (h.link_eq rfl ?_ ?_) (hcreated rfl rfl)
    · simp
    · simp
  | mailbox one =>
    refine .selected (ha one rfl) (.inl hm) ?_ ?_ (h.link_eq rfl ?_ ?_) (hkept rfl (ha one rfl))
    · intro H hH
      exact Option.some.inj (hH.symm.trans hm)
    · intro H hH
      cases hH.symm.trans hf
    · simp
    · rintro e (rfl | rfl)
      · exact .inr hm
      · exact .inl (List.mem_singleton_self _)
  | fingerprint one =>
    refine .selected (hb one rfl) (.inr hf) ?_ ?_ (h.link_eq rfl ?_ ?_) (hkept rfl (hb one rfl))
    · intro H hH
      cases hH.symm.trans hm
    · intro H hH
      exact Option.some.inj (hH.symm.trans hf)
    · simp
    · rintro e (rfl | rfl)
      · exact .inl (List.mem_singleton_self _)
      · exact .inr hf
  | same a b hsame =>
    have hf : w.link approach.address.recipient (.fingerprint fingerprint) = some a.reference := hf.trans (congrArg some hsame.symm)
    refine .selected (ha a rfl) (.inl hm) ?_ ?_ (h.link_eq rfl ?_ ?_) (hkept rfl (ha a rfl))
    · intro H hH
      exact Option.some.inj (hH.symm.trans hm)
    · intro H hH
      exact Option.some.inj (hH.symm.trans hf)
    · simp
    · rintro e (rfl | rfl)
      · exact .inr hm
      · exact .inr hf
  | merged a b hne hpending =>
    refine .merged hm hf (ha a rfl) (hb b rfl) hne hpending (h.fresh _ rfl) (fun r e => ?_) (hcreated rfl rfl)
    rw [h.link]
    split_ifs with hnew
    · obtain ⟨rfl, he⟩ := hnew
      rcases List.mem_pair.mp he with rfl | rfl
      · rw [hm]
        simp
      · rw [hf]
        simp
    · rfl

/-- Whatever was linked is linked to the same history, by its new name. -/
theorem Commits.linked {mailbox : GuestMailbox} {fingerprint : InstrumentFingerprint}
    {fresh merged : RequestHistoryRef} {now : CanonicalTime} {a b : Option RequestHistory} {decision : HistoryDecision}
    (h : w.Commits w' approach decision)
    (hresolution : Resolution approach.address.recipient mailbox fingerprint fresh merged now a b decision)
    (hm : w.link approach.address.recipient (.mailbox mailbox) = a.map RequestHistory.reference)
    (hf : w.link approach.address.recipient (.fingerprint fingerprint) = b.map RequestHistory.reference)
    {r : ProtocolIdentity} {e : HistoryEvidence} {H : RequestHistoryRef} (hlinked : w.link r e = some H) :
    w'.link r e = some (decision.renamed H) := by
  rw [h.link, hlinked, Option.map_some]
  split_ifs with hnew
  · -- what is linked anew either was linked to nothing or is merged
    obtain ⟨rfl, he⟩ := hnew
    cases hresolution with
    | fresh =>
      rcases List.mem_pair.mp he with rfl | rfl
      · cases hm.symm.trans hlinked
      · cases hf.symm.trans hlinked
    | mailbox one =>
      cases List.mem_singleton.mp he
      cases hf.symm.trans hlinked
    | fingerprint one =>
      cases List.mem_singleton.mp he
      cases hm.symm.trans hlinked
    | same => cases he
    | merged a b hne hpending =>
      rcases List.mem_pair.mp he with rfl | rfl
      · cases hm.symm.trans hlinked
        simp [HistoryDecision.renamed]
      · cases hf.symm.trans hlinked
        simp [HistoryDecision.renamed]
  · rfl

/-- A relationship shares the history it shared, or that of the approach. -/
theorem Commits.shares {decision : HistoryDecision} (h : w.Commits w' approach decision) {R : RelationshipRef}
    {e' : EngineState} (he' : w'.relationships.get? R = some e') :
    (∃ e, w.relationships.get? R = some e ∧
      e'.protocol.relationship.history = e.protocol.relationship.history ∧
      e'.protocol.relationship.key.recipient = e.protocol.relationship.key.recipient) ∨
    e'.protocol.relationship.history = decision.history ∧
      e'.protocol.relationship.key.recipient = approach.address.recipient := by
  rcases h.moved R e' he' with ⟨e, he, rfl⟩ | ⟨-, -, hnew⟩
  · rw [HistoryDecision.moved_key]
    rcases HistoryDecision.moved_history with hsame | hmoved
    · exact .inl ⟨e, he, hsame, rfl⟩
    · exact .inr hmoved
  · exact .inr hnew

section
variable [Crypto]

theorem transact_opened {d : GuestDeployment} {pendingCommands : Bool} {now : CanonicalTime}
    (hfiled : w.toStoreState.Filed)
    (h : w.transactGuestRelationship d approach pendingCommands now = .ok w') : ∃ decision,
      Opened w w' approach.address.recipient (.mailbox approach.session.mailbox) (.fingerprint approach.fingerprint)
        now decision.history ∧
      w.Commits w' approach decision ∧
      (∀ r e H, w.link r e = some H → w'.link r e = some (decision.renamed H)) ∧
      w'.subjects.get? approach.identity = some (.guest approach.session.mailbox) := by
  obtain ⟨⟨⟩, -, h⟩ := bind_eq_ok.mp h
  obtain ⟨a, ha, h⟩ := bind_eq_ok.mp h
  obtain ⟨b, hb, h⟩ := bind_eq_ok.mp h
  obtain ⟨_, -, h⟩ := bind_eq_ok.mp h
  obtain ⟨⟨⟩, -, h⟩ := bind_eq_ok.mp h
  obtain ⟨plan, hplan, h⟩ := bind_eq_ok.mp h
  rw [mapError_eq_ok] at hplan
  obtain ⟨mailbox, hmailbox, hplan⟩ := bind_eq_ok.mp hplan
  obtain ⟨register, hregister, hplan⟩ := bind_eq_ok.mp hplan
  obtain ⟨decision, hdecision, hplan⟩ := bind_eq_ok.mp hplan
  cases hplan
  rw [mapError_eq_ok] at hmailbox hdecision
  obtain ⟨⟨⟩, -, hmailbox⟩ := bind_eq_ok.mp hmailbox
  cases hmailbox
  obtain ⟨hm, ha⟩ := linkedHistory_eq_ok hfiled ha
  obtain ⟨hf, hb⟩ := linkedHistory_eq_ok hfiled hb
  obtain ⟨hcommits, hsubject⟩ := openPlanned_commits h
  have hresolution := resolution_of_eq_ok hdecision
  refine ⟨decision, hcommits.opened hresolution hm ha hf hb, hcommits,
    fun r e H => hcommits.linked hresolution hm hf, ?_⟩
  unfold registration at hregister
  cases hregistered : w.subjects.get? approach.identity with
  | none =>
    simp only [hregistered] at hregister
    cases hregister
    exact hsubject _ rfl
  | some existing =>
    simp only [hregistered] at hregister
    split_ifs at hregister with hsame
    exact hcommits.subjects _ _ (hsame ▸ hregistered)

end
end GuestStore
end CsMail
