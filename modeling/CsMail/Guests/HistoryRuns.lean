import CsMail.Application.StoreProofs
import CsMail.Guests.HistoryProofs
import CsMail.Library.Components

/-! Guest histories link soundly.

The links of a recipient are the components of the evidence that was presented to it together
(`GuestStore.Linked`): an approach joins two components under one history, and a command of the kernel
leaves the links alone. What a history holds against a sender only grows when it is merged, and two
histories with a pending request stay apart (`GuestStore.histories_link_soundly`). -/
namespace CsMail
open Library

/-- The second history holds against a sender what the first one does. -/
structure RequestHistory.Restricts (h h' : RequestHistory) : Prop where
  level : h.level ≤ h'.level
  earliest : h.earliestNextSubmission ≤ h'.earliestNextSubmission
  pending : ∀ reservation, h.pendingSubmission = some reservation → h'.pendingSubmission = some reservation

namespace RequestHistory
variable {a b : RequestHistory} {merged : RequestHistoryRef} {recipient : ProtocolIdentity} {now : CanonicalTime}

theorem Restricts.refl (h : RequestHistory) : h.Restricts h := ⟨le_rfl, le_rfl, fun _ => id⟩

theorem restricts_mergeWith_left : a.Restricts (a.mergeWith b merged recipient now) where
  level := le_max_left ..
  earliest := le_max_left ..
  pending reservation h := by simp [mergeWith, h]

theorem restricts_mergeWith_right (hpending : ¬(a.pendingSubmission.isSome = true ∧ b.pendingSubmission.isSome = true)) :
    b.Restricts (a.mergeWith b merged recipient now) where
  level := le_max_right ..
  earliest := le_max_right ..
  pending reservation h := by
    have hnone : a.pendingSubmission = none := by
      cases ha : a.pendingSubmission with
      | none => rfl
      | some _ => exact absurd ⟨by rw [ha]; rfl, by rw [h]; rfl⟩ hpending
    simp [mergeWith, h, hnone]

end RequestHistory

namespace GuestStore
variable {w w' : GuestStore}

/-- Whatever is linked for a recipient is linked to a history of that recipient. -/
def Owned (w : GuestStore) : Prop :=
  ∀ r e H, w.link r e = some H → ∃ h, w.histories.get? H = some h ∧ h.recipient = r

theorem Owned.recipient (howned : w.Owned) {r : ProtocolIdentity} {e : HistoryEvidence} {H : RequestHistoryRef}
    {h : RequestHistory} (hlinked : w.link r e = some H) (hh : w.histories.get? H = some h) : h.recipient = r := by
  obtain ⟨_, hheld, hrecipient⟩ := howned _ _ _ hlinked
  cases hh.symm.trans hheld
  exact hrecipient

/-- Nothing is linked to a history that is not there yet. -/
theorem Owned.ne_new (howned : w.Owned) {r : ProtocolIdentity} {e : HistoryEvidence} {H new : RequestHistoryRef}
    (hnew : w.histories.get? new = none) (hlinked : w.link r e = some H) : H ≠ new := by
  rintro rfl
  obtain ⟨_, hheld, -⟩ := howned _ _ _ hlinked
  cases hnew.symm.trans hheld

/-! ### One approach -/

namespace Opened
variable {recipient r : ProtocolIdentity} {m f e e' : HistoryEvidence} {now : CanonicalTime}
  {history H H' : RequestHistoryRef} {h h' : RequestHistory}

theorem joins (hopened : Opened w w' recipient m f now history) (howned : w.Owned) :
    Joins (w.link recipient) (w'.link recipient) m f history := by
  cases hopened with
  | created hm hf hnew howner hlink hhistories =>
    refine ⟨fun k hk => ?_, fun k hk => ?_, fun k hk => ?_⟩
    · have hof : k = m ∨ k = f := by
        rcases hk with rfl | rfl | ⟨l, -, hl | hl⟩
        · exact .inl rfl
        · exact .inr rfl
        · cases hm.symm.trans hl
        · cases hf.symm.trans hl
      rw [hlink, if_pos ⟨rfl, hof⟩]
    · rw [hlink, if_neg fun hof => hk (hof.2.imp_right .inl)]
    · exact absurd rfl (howned.ne_new hnew hk)
  | @selected one hone hlinked hm hf hlink hhistories =>
    refine ⟨fun k hk => ?_, fun k hk => ?_, fun k hk => ?_⟩
    · rw [hlink]
      split_ifs with hof
      · rfl
      · rcases hk with rfl | rfl | ⟨l, hl, hl' | hl'⟩
        · exact absurd ⟨rfl, .inl rfl⟩ hof
        · exact absurd ⟨rfl, .inr rfl⟩ hof
        · rw [hl, hm l hl']
        · rw [hl, hf l hl']
    · rw [hlink, if_neg fun hof => hk (hof.2.imp_right .inl)]
    · exact .inr (.inr ⟨_, hk, hlinked⟩)
  | @merged a b _ hm hf ha hb hne hpending hnew hlink hhistories =>
    refine ⟨fun k hk => ?_, fun k hk => ?_, fun k hk => ?_⟩
    · have hold : w.link recipient k = some a.reference ∨ w.link recipient k = some b.reference := by
        rcases hk with rfl | rfl | ⟨l, hl, hl' | hl'⟩
        · exact .inl hm
        · exact .inr hf
        · exact .inl (hl.trans (hl'.symm.trans hm))
        · exact .inr (hl.trans (hl'.symm.trans hf))
      rcases hold with hold | hold
      · rw [hlink, hold, Option.map_some, if_pos (.inl rfl)]
      · rw [hlink, hold, Option.map_some, if_pos (.inr rfl)]
    · rw [hlink]
      cases hold : w.link recipient k with
      | none => rfl
      | some H =>
        have hother : ¬(H = a.reference ∨ H = b.reference) := by
          rintro (rfl | rfl)
          · exact hk (.inr (.inr ⟨_, hold, .inl hm⟩))
          · exact hk (.inr (.inr ⟨_, hold, .inr hf⟩))
        rw [Option.map_some, if_neg hother]
    · exact absurd rfl (howned.ne_new hnew hk)

/-- Where the two pieces of evidence are linked to what they were linked to, if anything, nothing that
was linked changes. -/
theorem link_kept {one : RequestHistoryRef}
    (hlink : ∀ r e, w'.link r e = if r = recipient ∧ (e = m ∨ e = f) then some one else w.link r e)
    (hm : ∀ H, w.link recipient m = some H → H = one) (hf : ∀ H, w.link recipient f = some H → H = one)
    (hlinked : w.link r e = some H) : w'.link r e = some H := by
  rw [hlink]
  split_ifs with hof
  · obtain ⟨rfl, rfl | rfl⟩ := hof
    · rw [hm H hlinked]
    · rw [hf H hlinked]
  · exact hlinked

theorem eq_of_unlinked {one : RequestHistoryRef} (hnone : w.link r e = none) (H : RequestHistoryRef)
    (hlinked : w.link r e = some H) : H = one := by
  cases hnone.symm.trans hlinked

/-- What was linked stays linked, to a history that is as restrictive. -/
theorem restricts (hopened : Opened w w' recipient m f now history) (hlinked : w.link r e = some H)
    (hh : w.histories.get? H = some h) :
    ∃ H' h', w'.link r e = some H' ∧ w'.histories.get? H' = some h' ∧ h.Restricts h' := by
  cases hopened with
  | created hm hf hnew howner hlink hhistories =>
    refine ⟨H, h, link_kept hlink (eq_of_unlinked hm) (eq_of_unlinked hf) hlinked, ?_, .refl h⟩
    rw [hhistories, SortedMap.get?_insert_ne, hh]
    rintro rfl
    cases hnew.symm.trans hh
  | selected hone hsome hm hf hlink hhistories =>
    exact ⟨H, h, link_kept hlink hm hf hlinked, by rw [hhistories, hh], .refl h⟩
  | @merged a b _ hm hf ha hb hne hpending hnew hlink hhistories =>
    by_cases hof : H = a.reference ∨ H = b.reference
    · refine ⟨history, _, by rw [hlink, hlinked, Option.map_some, if_pos hof], by
        rw [hhistories, SortedMap.get?_insert_self], ?_⟩
      rcases hof with rfl | rfl
      · cases ha.symm.trans hh
        exact RequestHistory.restricts_mergeWith_left
      · cases hb.symm.trans hh
        exact RequestHistory.restricts_mergeWith_right hpending
    · refine ⟨H, h, by rw [hlink, hlinked, Option.map_some, if_neg hof], ?_, .refl h⟩
      rw [hhistories, SortedMap.get?_insert_ne, hh]
      rintro rfl
      cases hnew.symm.trans hh

/-- Two histories with a pending submission each are not merged. -/
theorem apart (hopened : Opened w w' recipient m f now history) (howned : w.Owned) (hne : H ≠ H')
    (hlinked : w.link r e = some H) (hlinked' : w.link r e' = some H') (hh : w.histories.get? H = some h)
    (hh' : w.histories.get? H' = some h') (hpending : h.pendingSubmission.isSome = true)
    (hpending' : h'.pendingSubmission.isSome = true) : w'.link r e ≠ w'.link r e' := by
  cases hopened with
  | created hm hf hnew howner hlink hhistories =>
    rw [link_kept hlink (eq_of_unlinked hm) (eq_of_unlinked hf) hlinked,
      link_kept hlink (eq_of_unlinked hm) (eq_of_unlinked hf) hlinked']
    exact fun heq => hne (Option.some.inj heq)
  | selected hone hsome hm hf hlink hhistories =>
    rw [link_kept hlink hm hf hlinked, link_kept hlink hm hf hlinked']
    exact fun heq => hne (Option.some.inj heq)
  | @merged a b _ hm hf ha hb hab hboth hnew hlink hhistories =>
    rw [hlink, hlink, hlinked, hlinked', Option.map_some, Option.map_some]
    intro heq
    have heq := Option.some.inj heq
    split_ifs at heq with hof hof' hof'
    · -- both were merged here, so they are the two
      have hpair : a.pendingSubmission.isSome = true ∧ b.pendingSubmission.isSome = true := by
        rcases hof with rfl | rfl
        · rcases hof' with rfl | rfl
          · exact absurd rfl hne
          · cases ha.symm.trans hh
            cases hb.symm.trans hh'
            exact ⟨hpending, hpending'⟩
        · rcases hof' with rfl | rfl
          · cases ha.symm.trans hh'
            cases hb.symm.trans hh
            exact ⟨hpending', hpending⟩
          · exact absurd rfl hne
      exact hboth hpair
    · exact howned.ne_new hnew hlinked' heq.symm
    · exact howned.ne_new hnew hlinked heq
    · exact hne heq

theorem elsewhere (hopened : Opened w w' recipient m f now history) (howned : w.Owned) (hr : r ≠ recipient) :
    w'.link r = w.link r := by
  funext e
  cases hopened with
  | created _ _ _ _ hlink | selected _ _ _ _ hlink => rw [hlink, if_neg fun hof => hr hof.1]
  | @merged a b _ hm hf ha hb hab hboth hnew hlink hhistories =>
    rw [hlink]
    cases hlinked : w.link r e with
    | none => rfl
    | some H =>
      rw [Option.map_some, if_neg]
      rintro (rfl | rfl)
      · exact hr ((howned.recipient hlinked ha).symm.trans (howned.recipient hm ha))
      · exact hr ((howned.recipient hlinked hb).symm.trans (howned.recipient hf hb))

/-- The histories there were are still there, and the one that is used is, for the recipient. -/
theorem histories_kept (hopened : Opened w w' recipient m f now history) (howned : w.Owned) :
    (∀ H h, w.histories.get? H = some h → w'.histories.get? H = some h) ∧
      ∃ h, w'.histories.get? history = some h ∧ h.reference = history ∧ h.recipient = recipient := by
  have hinsert : ∀ {created}, w.histories.get? created = none → ∀ {new H h}, w.histories.get? H = some h →
      (w.histories.insert created new).get? H = some h := by
    intro created hnew new H h hh
    rw [SortedMap.get?_insert_ne, hh]
    rintro rfl
    cases hnew.symm.trans hh
  cases hopened with
  | created hm hf hnew howner hlink hhistories =>
    rw [hhistories]
    exact ⟨fun H h => hinsert hnew, _, SortedMap.get?_insert_self .., rfl, howner⟩
  | @selected one hone hsome hm hf hlink hhistories =>
    rw [hhistories]
    refine ⟨fun H h => id, one, hone, rfl, ?_⟩
    rcases hsome with hlinked | hlinked
    · exact howned.recipient hlinked hone
    · exact howned.recipient hlinked hone
  | merged hm hf ha hb hab hboth hnew hlink hhistories =>
    rw [hhistories]
    exact ⟨fun H h => hinsert hnew, _, SortedMap.get?_insert_self .., rfl, rfl⟩

theorem histories_new (hopened : Opened w w' recipient m f now history) (hh : w'.histories.get? H = some h) :
    w.histories.get? H = some h ∨ h.reference = H := by
  cases hopened with
  | created _ _ _ _ _ hhistories | merged _ _ _ _ _ _ _ _ hhistories =>
    rw [hhistories] at hh
    rcases SortedMap.get?_insert_eq_some.mp hh with ⟨rfl, rfl⟩ | ⟨-, hold⟩
    · exact .inr rfl
    · exact .inl hold
  | selected _ _ _ _ _ hhistories => exact .inl (hhistories ▸ hh)

theorem owned (hopened : Opened w w' recipient m f now history) (howned : w.Owned) : w'.Owned := by
  obtain ⟨hkept, hused⟩ := hopened.histories_kept howned
  have hjoins := hopened.joins howned
  intro r e H hlinked
  by_cases hr : r = recipient
  · subst hr
    by_cases hinvolved : Involved (w.link r) m f e
    · obtain ⟨h, hh, -, hrecipient⟩ := hused
      cases (hjoins.involved e hinvolved).symm.trans hlinked
      exact ⟨h, hh, hrecipient⟩
    · rw [hjoins.others e hinvolved] at hlinked
      obtain ⟨h, hh, hrecipient⟩ := howned _ _ _ hlinked
      exact ⟨h, hkept _ _ hh, hrecipient⟩
  · rw [hopened.elsewhere howned hr] at hlinked
    obtain ⟨h, hh, hrecipient⟩ := howned _ _ _ hlinked
    exact ⟨h, hkept _ _ hh, hrecipient⟩

end Opened

theorem Commits.filed {approach : GuestApproach} {m f : HistoryEvidence} {now : CanonicalTime}
    {decision : HistoryDecision} (h : w.Commits w' approach decision)
    (hopened : Opened w w' approach.address.recipient m f now decision.history) (howned : w.Owned)
    (hfiled : w.toStoreState.Filed) : w'.toStoreState.Filed := by
  obtain ⟨hkept, one, hone, -, hrecipient⟩ := hopened.histories_kept howned
  refine ⟨fun H h hh => ?_, fun R e he => ?_⟩
  · exact (hopened.histories_new hh).elim (hfiled.reference H h) id
  · rcases h.shares he with ⟨old, hold, hhistory, howner⟩ | ⟨hhistory, howner⟩
    · obtain ⟨h, hh, hshared⟩ := hfiled.shared R old hold
      exact ⟨h, hhistory ▸ hkept _ _ hh, hshared.trans howner.symm⟩
    · exact ⟨one, hhistory ▸ hone, hrecipient.trans howner.symm⟩

/-! ### Runs -/

section
variable [Crypto] {d : GuestDeployment}

/-- Two pieces of evidence were presented to a recipient in one of the approaches. -/
def Together (past : List GuestInput) (recipient : ProtocolIdentity) (m f : HistoryEvidence) : Prop :=
  ∃ approach pendingCommands now, GuestInput.approach approach pendingCommands now ∈ past ∧
    approach.address.recipient = recipient ∧ m = .mailbox approach.session.mailbox ∧
    f = .fingerprint approach.fingerprint

/-- The links are the components of the evidence that was presented together, each under a history of
its recipient. -/
structure Linked (past : List GuestInput) (w : GuestStore) : Prop where
  filed : w.toStoreState.Filed
  owned : w.Owned
  components : ∀ r, Components (w.link r) (Together past r)

omit [Crypto] in
theorem Linked.empty : Linked [] empty where
  filed := StoreState.Sound.empty.filed
  owned r e H h := by cases h
  components r := Components.empty.congr fun m f => iff_of_false id (by rintro ⟨_, _, _, hmem, -⟩; cases hmem)

omit [Crypto] in
theorem together_concat {past : List GuestInput} {i : GuestInput} {r : ProtocolIdentity} {m f : HistoryEvidence} :
    Together (past ++ [i]) r m f ↔ Together past r m f ∨ Together [i] r m f := by
  simp only [Together, List.mem_append, or_and_right, exists_or]

/-- A command leaves every history with its recipient. -/
theorem change_histories {now : CanonicalTime} {s s' : StoreState} (hfiled : s.Filed) (hchange : Change now s s')
    {H : RequestHistoryRef} {h : RequestHistory} (hh : s.histories.get? H = some h) :
    ∃ h', s'.histories.get? H = some h' ∧ h'.recipient = h.recipient := by
  cases hchange with
  | kept | delivered => exact ⟨h, hh, rfl⟩
  | @registered R history sender recipient unit stored hnew hpair hhistory hrecipient =>
    by_cases hH : H = history
    · subst hH
      rcases hhistory with hstored | ⟨hnone, -⟩
      · cases hh.symm.trans hstored
        exact ⟨_, SortedMap.get?_insert_self .., rfl⟩
      · cases hnone.symm.trans hh
    · exact ⟨h, (SortedMap.get?_insert_ne _ _ hH).trans hh, rfl⟩
  | @committed R e stored lane context state m revision ledger extra he hstored hnow hconsequence =>
    obtain ⟨hreference, hrecipient⟩ : stored.SameOwner m.nextHistory := hconsequence.move.sameOwner
    rw [hfiled.reference _ _ hstored] at hreference
    by_cases hH : H = m.nextHistory.reference
    · subst hH
      rw [hreference] at hh
      cases hh.symm.trans hstored
      exact ⟨_, SortedMap.get?_insert_self .., hrecipient⟩
    · exact ⟨h, (SortedMap.get?_insert_ne _ _ hH).trans hh, rfl⟩

theorem Linked.kernel {past : List GuestInput} (h : Linked past w) {input : StoreInput} {s : StoreState}
    (hstep : w.toStoreState.step input = .ok s) : Linked (past ++ [.kernel input]) {w with toStoreState := s} where
  filed := h.filed.change (StoreState.step_change hstep)
  owned r e H hlinked := by
    obtain ⟨stored, hstored, hrecipient⟩ := h.owned r e H hlinked
    obtain ⟨h', hh', hsame⟩ := change_histories h.filed (StoreState.step_change hstep) hstored
    exact ⟨h', hh', hsame.trans hrecipient⟩
  components r := (h.components r).congr fun m f => by
    rw [together_concat, or_iff_left]
    rintro ⟨_, _, _, hmem, -⟩
    cases List.mem_singleton.mp hmem

omit [Crypto] in
theorem Linked.register {past : List GuestInput} (h : Linked past w) {identity : ProtocolIdentity}
    {subject : SenderSubject} (hstep : w.registerPlanned identity (some subject) = .ok w') :
    Linked (past ++ [.register identity subject]) w' := by
  obtain ⟨hstore, hlinks, -, -⟩ := registerPlanned_spec hstep
  have hlink : w'.link = w.link := by
    funext r e
    rw [GuestStore.link, hlinks, GuestStore.link]
  refine ⟨hstore ▸ h.filed, ?_, fun r => ?_⟩
  · rw [Owned, hlink, hstore]
    exact h.owned
  · rw [hlink]
    refine (h.components r).congr fun m f => ?_
    rw [together_concat, or_iff_left]
    rintro ⟨_, _, _, hmem, -⟩
    cases List.mem_singleton.mp hmem

theorem Linked.approach {past : List GuestInput} (h : Linked past w) {approach : GuestApproach}
    {pendingCommands : Bool} {now : CanonicalTime}
    (hstep : w.transactGuestRelationship d approach pendingCommands now = .ok w') :
    Linked (past ++ [.approach approach pendingCommands now]) w' := by
  obtain ⟨decision, hopened, hcommits, -⟩ := transact_opened h.filed hstep
  have hhere : ∀ {r m f}, Together [.approach approach pendingCommands now] r m f ↔
      approach.address.recipient = r ∧ m = .mailbox approach.session.mailbox ∧ f = .fingerprint approach.fingerprint := by
    intro r m f
    constructor
    · rintro ⟨_, _, _, hmem, hrest⟩
      cases List.mem_singleton.mp hmem
      exact hrest
    · exact fun hrest => ⟨_, _, _, List.mem_singleton_self _, hrest⟩
  refine ⟨hcommits.filed hopened h.owned h.filed, hopened.owned h.owned, fun r => ?_⟩
  by_cases hr : r = approach.address.recipient
  · subst hr
    refine ((h.components _).join (hopened.joins h.owned)).congr fun m f => ?_
    rw [together_concat, hhere]
    simp
  · rw [hopened.elsewhere h.owned hr]
    refine (h.components r).congr fun m f => ?_
    rw [together_concat, hhere, or_iff_left]
    exact fun hof => hr hof.1.symm

theorem Linked.step {past : List GuestInput} {i : GuestInput} (h : Linked past w) (hstep : w.step d i = .ok w') :
    Linked (past ++ [i]) w' := by
  cases i with
  | approach approach pendingCommands now => exact h.approach hstep
  | kernel input =>
    obtain ⟨s, hs, rfl⟩ := map_eq_ok.mp hstep
    exact h.kernel (mapError_eq_ok.mp hs)
  | register identity subject => exact h.register hstep

theorem linked_run (inputs : List GuestInput) : Linked (Machine.accepted (step d) empty inputs) (run d inputs) :=
  Machine.run_accepted (Q := Linked) (fun _ _ _ _ => Linked.step) Linked.empty inputs

/-! ### Relationships follow their evidence -/

/-- Whoever approached is registered, and the relationship that was opened is under the history the
mailbox is linked to. -/
structure Followed (w : GuestStore) (approach : GuestApproach) : Prop where
  registered : w.subjects.get? approach.identity = some (.guest approach.session.mailbox)
  relationship : ∃ e, w.relationships.get? approach.address.relationship = some e ∧
    (e.protocol.relationship.key.sender = approach.identity →
      e.protocol.relationship.key.recipient = approach.address.recipient →
      w.link approach.address.recipient (.mailbox approach.session.mailbox) = some e.protocol.relationship.history)

/-- A command leaves every relationship under its key and its history. -/
theorem change_relationships {now : CanonicalTime} {s s' : StoreState} (hchange : Change now s s') {R : RelationshipRef}
    {e : EngineState} (he : s.relationships.get? R = some e) :
    ∃ e', s'.relationships.get? R = some e' ∧ e'.protocol.relationship.key = e.protocol.relationship.key ∧
      e'.protocol.relationship.history = e.protocol.relationship.history := by
  have hinsert : ∀ {R₀ e₀ e'}, s.relationships.get? R₀ = some e₀ →
      e'.protocol.relationship.key = e₀.protocol.relationship.key →
      e'.protocol.relationship.history = e₀.protocol.relationship.history →
      ∃ e'', (s.relationships.insert R₀ e').get? R = some e'' ∧
        e''.protocol.relationship.key = e.protocol.relationship.key ∧
        e''.protocol.relationship.history = e.protocol.relationship.history := by
    intro R₀ e₀ e' he₀ hkey hhistory
    by_cases hR : R = R₀
    · subst hR
      cases he.symm.trans he₀
      exact ⟨e', SortedMap.get?_insert_self .., hkey, hhistory⟩
    · exact ⟨e, (SortedMap.get?_insert_ne _ _ hR).trans he, rfl, rfl⟩
  cases hchange with
  | kept => exact ⟨e, he, rfl, rfl⟩
  | @registered R₀ history sender recipient unit stored hnew =>
    refine ⟨e, (SortedMap.get?_insert_ne _ _ ?_).trans he, rfl, rfl⟩
    rintro rfl
    cases hnew.symm.trans he
  | committed he₀ _ _ hconsequence => exact hinsert he₀ hconsequence.key hconsequence.history
  | delivered he₀ => exact hinsert he₀ rfl rfl

theorem Followed.step {past : List GuestInput} {i : GuestInput} {approach : GuestApproach} (h : w.Followed approach)
    (hlinked : Linked past w) (hstep : w.step d i = .ok w') : w'.Followed approach := by
  obtain ⟨hregistered, e, he, hlink⟩ := h
  cases i with
  | kernel input =>
    obtain ⟨s, hs, rfl⟩ := map_eq_ok.mp hstep
    obtain ⟨e', he', hkey, hhistory⟩ := change_relationships (StoreState.step_change (mapError_eq_ok.mp hs)) he
    refine ⟨hregistered, e', he', ?_⟩
    rw [hkey, hhistory]
    exact hlink
  | register identity subject =>
    have hstep : w.registerPlanned identity (some subject) = .ok w' := hstep
    obtain ⟨hstore, hlinks, -, hsubjects⟩ := registerPlanned_spec hstep
    refine ⟨hsubjects _ _ hregistered, e, ?_, ?_⟩
    · rw [hstore]
      exact he
    · rw [GuestStore.link, hlinks]
      exact hlink
  | approach other pendingCommands now =>
    obtain ⟨decision, hopened, hcommits, hrenamed, -⟩ := transact_opened hlinked.filed hstep
    have hregistered := hcommits.subjects _ _ hregistered
    refine ⟨hregistered, _, hcommits.kept _ e he, ?_⟩
    rw [HistoryDecision.moved_key]
    intro hsender hrecipient
    have hold := hlink hsender hrecipient
    by_cases hhere : approach.address.recipient = other.address.recipient
    · have hguest : w'.isGuest e.protocol.relationship.key.sender = true := by
        rw [isGuest, hsender, hregistered]
        rfl
      rw [hrenamed _ _ _ hold, HistoryDecision.moved, if_pos ⟨hguest, hrecipient.trans hhere⟩]
      rfl
    · rw [hopened.elsewhere hlinked.owned hhere, hold, HistoryDecision.moved,
        if_neg fun hof => hhere (hrecipient.symm.trans hof.2)]

theorem Followed.opened {past : List GuestInput} {approach : GuestApproach} {pendingCommands : Bool}
    {now : CanonicalTime} (hlinked : Linked past w)
    (hstep : w.step d (.approach approach pendingCommands now) = .ok w') : w'.Followed approach := by
  obtain ⟨decision, hopened, hcommits, -, hregistered⟩ := transact_opened hlinked.filed hstep
  obtain ⟨e, he, hhistory⟩ := hcommits.here
  refine ⟨hregistered, e, he, fun _ _ => ?_⟩
  rw [hhistory]
  exact (hopened.joins hlinked.owned).involved _ (.inl rfl)

/-- All that approached are followed. -/
def AllFollowed (past : List GuestInput) (w : GuestStore) : Prop :=
  ∀ approach pendingCommands now, .approach approach pendingCommands now ∈ past → w.Followed approach

theorem AllFollowed.step {past : List GuestInput} {i : GuestInput} (h : AllFollowed past w) (hlinked : Linked past w)
    (hstep : w.step d i = .ok w') : AllFollowed (past ++ [i]) w' := by
  intro approach pendingCommands now hmem
  rcases List.mem_append.mp hmem with hpast | hhere
  · exact (h approach pendingCommands now hpast).step hlinked hstep
  · cases List.mem_singleton.mp hhere
    exact .opened hlinked hstep

/-- **A guest's relationship is under the history its mailbox is linked to**, whatever has been merged
since it was opened and whatever the kernel has made of it. -/
theorem relationships_follow (d : GuestDeployment) (inputs : List GuestInput) :
    AllFollowed (Machine.accepted (step d) empty inputs) (run d inputs) := by
  have hstart : Linked [] empty ∧ AllFollowed [] empty := ⟨.empty, fun _ _ _ hmem => by cases hmem⟩
  have hstep : ∀ past w i w', Linked past w ∧ AllFollowed past w → step d w i = .ok w' →
      Linked (past ++ [i]) w' ∧ AllFollowed (past ++ [i]) w' :=
    fun past w i w' h hstep => ⟨h.1.step hstep, h.2.step h.1 hstep⟩
  exact (Machine.run_accepted hstep hstart inputs).2

/-- **Guest histories link soundly**: after any run, evidence that was presented together in an approach
that was not refused is linked to one history; every piece that was presented is linked to exactly one,
and two to the same just when accepted approaches connect them. An approach keeps whatever was linked
under a history that is as restrictive, and two histories with a pending submission apart; one that
would merge these is refused, and changes nothing. -/
theorem histories_link_soundly (d : GuestDeployment) (inputs : List GuestInput) (recipient : ProtocolIdentity) :
    let w := run d inputs
    let together := Together (Machine.accepted (step d) empty inputs) recipient
    (∀ m f, together m f → ∃ H, w.link recipient m = some H ∧ w.link recipient f = some H) ∧
    (∀ e, (∃ e', together e e' ∨ together e' e) ↔ ∃! H, w.link recipient e = some H) ∧
    (∀ e H, w.link recipient e = some H →
      ∃ h, w.histories.get? H = some h ∧ h.reference = H ∧ h.recipient = recipient) ∧
    (∀ e e' H, w.link recipient e = some H →
      (w.link recipient e' = some H ↔ Relation.EqvGen together e e')) ∧
    (∀ approach pendingCommands now w', w.step d (.approach approach pendingCommands now) = .ok w' →
      (∀ e H h, w.link recipient e = some H → w.histories.get? H = some h →
        ∃ H' h', w'.link recipient e = some H' ∧ w'.histories.get? H' = some h' ∧ h.level ≤ h'.level ∧
          h.earliestNextSubmission ≤ h'.earliestNextSubmission ∧
          ∀ reservation, h.pendingSubmission = some reservation → h'.pendingSubmission = some reservation) ∧
      ∀ e e' H H' h h', w.link recipient e = some H → w.link recipient e' = some H' → H ≠ H' →
        w.histories.get? H = some h → w.histories.get? H' = some h' →
        h.pendingSubmission.isSome = true → h'.pendingSubmission.isSome = true →
        w'.link recipient e ≠ w'.link recipient e') ∧
    ∀ approach pendingCommands now H H' h h', approach.address.recipient = recipient →
      w.link recipient (.mailbox approach.session.mailbox) = some H →
      w.link recipient (.fingerprint approach.fingerprint) = some H' → H ≠ H' →
      w.histories.get? H = some h → w.histories.get? H' = some h' →
      h.pendingSubmission.isSome = true → h'.pendingSubmission.isSome = true →
      (∃ error, w.step d (.approach approach pendingCommands now) = .error error) ∧
      Machine.advance (step d) w (.approach approach pendingCommands now) = w := by
  intro w together
  have hlinked : Linked _ w := linked_run inputs
  have hcomponents := hlinked.components recipient
  refine ⟨fun m f hmf => ?_, fun e => ?_, fun e H he => ?_, fun e e' H he => ?_, ?_, ?_⟩
  · obtain ⟨H, hH⟩ := (hcomponents.labelled m).mpr ⟨f, .inl hmf⟩
    exact ⟨H, hH, (hcomponents.agrees m f hmf).symm.trans hH⟩
  · rw [← hcomponents.labelled e]
    refine ⟨?_, ExistsUnique.exists⟩
    rintro ⟨H, hH⟩
    exact ⟨H, hH, fun H' hH' => Option.some.inj (hH'.symm.trans hH)⟩
  · obtain ⟨h, hh, hrecipient⟩ := hlinked.owned _ _ _ he
    exact ⟨h, hh, hlinked.filed.reference H h hh, hrecipient⟩
  · rw [← hcomponents.eq_iff_connected ⟨H, he⟩, he, eq_comm]
  · intro approach pendingCommands now w' hstep
    obtain ⟨decision, hopened, -⟩ := transact_opened hlinked.filed hstep
    constructor
    · intro e H h he hh
      obtain ⟨H', h', he', hh', hrestricts⟩ := hopened.restricts he hh
      exact ⟨H', h', he', hh', hrestricts.level, hrestricts.earliest, hrestricts.pending⟩
    · intro e e' H H' h h' he he' hne hh hh' hpending hpending'
      exact hopened.apart hlinked.owned hne he he' hh hh' hpending hpending'
  · intro approach pendingCommands now H H' h h' hrecipient hm hf hne hh hh' hpending hpending'
    cases hstep : w.step d (.approach approach pendingCommands now) with
    | error error => exact ⟨⟨error, rfl⟩, by rw [Machine.advance, hstep]⟩
    | ok w' =>
      obtain ⟨decision, hopened, -⟩ := transact_opened hlinked.filed hstep
      have hjoins := hopened.joins hlinked.owned
      subst hrecipient
      refine absurd ?_ (hopened.apart hlinked.owned hne hm hf hh hh' hpending hpending')
      rw [hjoins.involved _ (.inl rfl), hjoins.involved _ (.inr (.inl rfl))]

end
end GuestStore
end CsMail
