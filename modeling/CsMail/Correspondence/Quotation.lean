import CsMail.Correspondence.Document

/-! Selecting and quoting.

A selection resolves in the document it was made of exactly when it suits the manifest and cuts no
character, to the bytes and pictures selected. What resolves can be quoted: ordered elements take
disjoint parts of the blocks, so no excerpt exceeds a limit that the document it is taken of keeps
(`takes_le`), and where it is quoted it contributes the very same blocks. -/
namespace CsMail
open Library

/-! ### Boundaries -/

namespace Text

/-- An offset between two characters, or at an end. -/
def IsCharBoundary (t : Text) (n : ℕ) : Prop := ∃ p q : Text, t = p ++ q ∧ p.len = n

theorem exists_slice {t : Text} {start stop : ℕ} (hle : start ≤ stop) :
    (∃ s, t.slice? start stop = some s) ↔ t.IsCharBoundary start ∧ t.IsCharBoundary stop := by
  constructor
  · rintro ⟨s, hs⟩
    obtain ⟨p, q, rfl, rfl, rfl⟩ := slice?_eq_some.mp hs
    exact ⟨⟨p, s ++ q, rfl, rfl⟩, p ++ s, q, (List.append_assoc ..).symm, len_append ..⟩
  · rintro ⟨⟨p, q, hp, rfl⟩, p', q', hp', rfl⟩
    obtain ⟨s, rfl, -⟩ := prefix_of_len hp hp' hle
    exact ⟨s, slice?_eq_some.mpr ⟨p, q', by rw [hp', List.append_assoc], rfl, (len_append ..).symm⟩⟩

end Text

/-! ### What an element selects -/

/-- The bytes of one text, or one picture. -/
inductive Selects (blocks : List BlockRef) : SelectionElement → ContentBlock → Prop
  | text {block start stop : U32} {t before selected after : Text} (h : blocks[block.val]? = some (.text t))
      (ht : t = before ++ (selected ++ after)) (hstart : before.len = start.val)
      (hstop : start.val + selected.len = stop.val) : Selects blocks (.textRange block start stop) (.text selected)
  | image {block : U32} {i : ImageContent} (h : blocks[block.val]? = some (.image i)) :
      Selects blocks (.imageBlock block) (.image i)

/-- Every text range begins and ends on character boundaries of its block. -/
def MessageSelection.OnBoundaries (s : MessageSelection) (blocks : List BlockRef) : Prop :=
  ∀ block start stop t, .textRange block start stop ∈ s.elements → blocks[block.val]? = some (.text t) →
    t.IsCharBoundary start.val ∧ t.IsCharBoundary stop.val

variable {blocks : List BlockRef} {descriptors : List BlockDescriptor} {contents : List ContentBlock}
  {e : SelectionElement} {c : ContentBlock} {s : MessageSelection}

theorem pick_eq_ok : Document.pick blocks e = .ok c ↔ Selects blocks e c := by
  constructor
  · intro h
    unfold Document.pick at h
    split at h
    · next block start stop t hblock =>
      obtain ⟨selected, hselected, rfl⟩ := map_eq_ok.mp h
      obtain ⟨before, after, ht, hstart, hstop⟩ := Text.slice?_eq_some.mp (okOr_eq_ok.mp hselected)
      exact .text hblock ht hstart hstop
    · next block i hblock =>
      cases h
      exact .image hblock
    · cases h
  · intro h
    cases h with
    | @text block start stop t before selected after h ht hstart hstop =>
      simp only [Document.pick, SelectionElement.block, h]
      exact map_eq_ok.mpr ⟨selected, okOr_eq_ok.mpr
        (Text.slice?_eq_some.mpr ⟨before, after, ht, hstart, hstop⟩), rfl⟩
    | image h => simp only [Document.pick, SelectionElement.block, h]

/-! ### Descriptors -/

namespace BlockRef

def textBytes : BlockRef → ℕ
  | text t => t.len
  | _ => 0

def imageBytes : BlockRef → ℕ
  | image i => i.bytes.length
  | _ => 0

def fileBytes : BlockRef → ℕ
  | file bytes => bytes
  | _ => 0

variable {b : BlockRef} {x : BlockDescriptor} {n : ℕ} {y : U32}

theorem bounded_eq_ok : bounded n = .ok y ↔ y.val = n := by
  unfold bounded
  constructor
  · intro h
    split_ifs at h
    cases h
    rfl
  · rintro rfl
    rw [dif_pos y.isLt]

/-- A descriptor measures its block. -/
theorem measures_of_descriptor (h : b.descriptor = .ok x) :
    x.textBytes = b.textBytes ∧ x.imageBytes = b.imageBytes ∧ x.fileBytes = b.fileBytes := by
  cases b with
  | text t =>
    obtain ⟨y, hy, rfl⟩ := map_eq_ok.mp h
    exact ⟨bounded_eq_ok.mp hy, rfl, rfl⟩
  | image i =>
    obtain ⟨y, hy, rfl⟩ := map_eq_ok.mp h
    exact ⟨rfl, bounded_eq_ok.mp hy, rfl⟩
  | file bytes =>
    obtain ⟨y, hy, rfl⟩ := map_eq_ok.mp h
    exact ⟨rfl, rfl, bounded_eq_ok.mp hy⟩
  | reference =>
    cases h
    exact ⟨rfl, rfl, rfl⟩
  | email bytes =>
    obtain ⟨y, hy, rfl⟩ := map_eq_ok.mp h
    exact ⟨rfl, rfl, rfl⟩

theorem text_of_descriptor (h : b.descriptor = .ok (.text y)) : ∃ t, b = .text t := by
  cases b with
  | text t => exact ⟨t, rfl⟩
  | reference => cases h
  | _ =>
    obtain ⟨_, _, hy⟩ := map_eq_ok.mp h
    cases hy

theorem image_of_descriptor (h : b.descriptor = .ok (.image y)) : ∃ i, b = .image i := by
  cases b with
  | image i => exact ⟨i, rfl⟩
  | reference => cases h
  | _ =>
    obtain ⟨_, _, hy⟩ := map_eq_ok.mp h
    cases hy

end BlockRef

theorem validateBlocks_eq_ok : validateBlocks descriptors = .ok ⟨⟩ ↔
    (descriptors ≠ [] ∧ descriptors.length ≤ maxBlocks) ∧ (∀ x ∈ descriptors, x.sized = true) ∧
      (descriptors.map BlockDescriptor.textBytes).sum ≤ maxTextBytes ∧
      (descriptors.map BlockDescriptor.imageBytes).sum ≤ maxImageBytes ∧
      (descriptors.map BlockDescriptor.fileBytes).sum ≤ maxComposedBytes := by
  simp only [validateBlocks, bind_eq_ok, refuseIf_eq_ok, not_or, not_lt, not_not, List.all_eq_true]
  constructor
  · rintro ⟨⟨⟩, hlength, ⟨⟩, hsized, hsums⟩
    exact ⟨hlength, hsized, hsums⟩
  · rintro ⟨hlength, hsized, hsums⟩
    exact ⟨⟨⟩, hlength, ⟨⟩, hsized, hsums⟩

/-- An element that fits the descriptors and cuts no character selects something. -/
theorem exists_selects (hblocks : blocks.mapM BlockRef.descriptor = .ok descriptors)
    (hfits : e.fits descriptors[e.block.val]? = true) (hranged : e.ranged = true)
    (hboundary : ∀ block start stop t, e = .textRange block start stop → blocks[block.val]? = some (.text t) →
      t.IsCharBoundary start.val ∧ t.IsCharBoundary stop.val) : ∃ c, Selects blocks e c := by
  unfold SelectionElement.fits at hfits
  split at hfits
  · next block start stop bytes hdescriptor =>
    obtain ⟨b, hb, hdescribed⟩ := getElem?_of_mapM_eq_ok hblocks hdescriptor
    obtain ⟨t, rfl⟩ := BlockRef.text_of_descriptor hdescribed
    have hlt : start < stop := (of_decide_eq_true hranged).1
    obtain ⟨selected, hselected⟩ := (Text.exists_slice (Nat.le_of_lt hlt)).mpr (hboundary _ _ _ _ rfl hb)
    obtain ⟨before, after, ht, hstart, hstop⟩ := Text.slice?_eq_some.mp hselected
    exact ⟨_, .text hb ht hstart hstop⟩
  · next block bytes hdescriptor =>
    obtain ⟨b, hb, hdescribed⟩ := getElem?_of_mapM_eq_ok hblocks hdescriptor
    obtain ⟨i, rfl⟩ := BlockRef.image_of_descriptor hdescribed
    exact ⟨_, .image hb⟩
  · cases hfits

/-! ### Limits -/

namespace SelectionElement

theorem ordered_iff {l : List SelectionElement} :
    ordered l = true ↔ l.IsChain fun prior e => e.follows prior = true := by
  induction l with
  | nil => exact iff_of_true rfl .nil
  | cons prior rest ih =>
    cases rest with
    | nil => exact iff_of_true rfl (.singleton prior)
    | cons e rest => rw [ordered, Bool.and_eq_true, List.isChain_cons_cons, ih]

theorem block_of_follows {prior e : SelectionElement} (h : e.follows prior = true) :
    prior.block.val < e.block.val ∨ prior.block.val = e.block.val := by
  cases e with
  | textRange b start stop =>
    cases prior with
    | textRange a start' stop' => exact (of_decide_eq_true h).imp id fun h => congrArg Fin.val h.1
    | imageBlock a => exact .inl (of_decide_eq_true h)
  | imageBlock b =>
    cases prior with
    | _ => exact .inl (of_decide_eq_true h)

/-- The part of a text that an element takes. -/
def textPart : SelectionElement → ℕ × ℕ
  | textRange _ start stop => (start.val, stop.val)
  | imageBlock _ => (0, 0)

/-- The part of a picture that an element takes. -/
def imagePart (blocks : List BlockRef) : SelectionElement → ℕ × ℕ
  | textRange .. => (0, 0)
  | imageBlock block => (0, (blocks[block.val]?).elim 0 BlockRef.imageBytes)

theorem textPart_of_follows {prior e : SelectionElement} (h : e.follows prior = true)
    (hblock : prior.block.val = e.block.val) : prior.textPart.2 ≤ e.textPart.1 := by
  cases e with
  | textRange b start stop =>
    cases prior with
    | textRange a start' stop' =>
      rcases of_decide_eq_true h with hlt | ⟨-, hle⟩
      · exact absurd hblock (Nat.ne_of_lt hlt)
      · exact hle
    | imageBlock a => exact Nat.zero_le _
  | imageBlock b =>
    cases prior with
    | _ => exact absurd hblock (Nat.ne_of_lt (of_decide_eq_true h))

theorem imagePart_of_follows {prior e : SelectionElement} (h : e.follows prior = true)
    (hblock : prior.block.val = e.block.val) : (prior.imagePart blocks).2 ≤ (e.imagePart blocks).1 := by
  cases prior with
  | textRange a start stop => exact Nat.zero_le _
  | imageBlock a =>
    cases e with
    | _ => exact absurd hblock (Nat.ne_of_lt (of_decide_eq_true h))

end SelectionElement

/-- Ordered elements take no more of the blocks than there is. -/
theorem MessageSelection.takes_le (s : MessageSelection) {size : BlockRef → ℕ}
    {part : SelectionElement → ℕ × ℕ}
    (hinside : ∀ e ∈ s.elements, ∃ b, blocks[e.block.val]? = some b ∧ (part e).1 ≤ (part e).2 ∧ (part e).2 ≤ size b)
    (hbehind : ∀ prior e : SelectionElement, e.follows prior = true → prior.block.val = e.block.val →
      (part prior).2 ≤ (part e).1) :
    (s.elements.map fun e => (part e).2 - (part e).1).sum ≤ (blocks.map size).sum := by
  have hranges : ∀ r ∈ s.elements.map (fun e => (e.block.val, part e)), ∃ b, blocks[r.1]? = some b ∧
      r.2.1 ≤ r.2.2 ∧ r.2.2 ≤ size b := by
    intro r hr
    obtain ⟨e, he, rfl⟩ := List.mem_map.mp hr
    exact hinside e he
  have hchain : (s.elements.map fun e => (e.block.val, part e)).IsChain fun r r' =>
      r.1 < r'.1 ∨ (r.1 = r'.1 ∧ r.2.2 ≤ r'.2.1) := by
    refine (List.isChain_map _).mpr ((SelectionElement.ordered_iff.mp s.ordered).imp fun prior e h => ?_)
    exact (SelectionElement.block_of_follows h).imp id fun hblock => ⟨hblock, hbehind prior e h hblock⟩
  have hsum : _ ≤ Slices.extent size blocks := Slices.ranges_le_extent hranges hchain
  rw [List.map_map] at hsum
  exact hsum

namespace Selects

theorem exists_of_mem (h : List.Forall₂ (Selects blocks) s.elements contents) (he : e ∈ s.elements) :
    ∃ c, Selects blocks e c := by
  obtain ⟨i, hi, rfl⟩ := List.mem_iff_getElem.mp he
  have hi' : i < contents.length := h.length_eq ▸ hi
  exact ⟨contents[i], h.get hi hi'⟩

theorem sum_le {size : BlockRef → ℕ} {part : SelectionElement → ℕ × ℕ}
    (hpart : ∀ e c, Selects blocks e c → ∃ b, blocks[e.block.val]? = some b ∧
      ((part e).1 ≤ (part e).2 ∧ (part e).2 ≤ size b) ∧ size c.borrowed = (part e).2 - (part e).1)
    (hbehind : ∀ prior e : SelectionElement, e.follows prior = true → prior.block.val = e.block.val →
      (part prior).2 ≤ (part e).1)
    (h : List.Forall₂ (Selects blocks) s.elements contents) :
    (contents.map fun c => size c.borrowed).sum ≤ (blocks.map size).sum := by
  have hsizes : contents.map (fun c => size c.borrowed) = s.elements.map fun e => (part e).2 - (part e).1 :=
    map_eq_map_of_forall₂ (fun e c hec => (hpart e c hec).choose_spec.2.2) h
  rw [hsizes]
  refine s.takes_le (fun e he => ?_) hbehind
  obtain ⟨c, hec⟩ := exists_of_mem h he
  obtain ⟨b, hb, hle, -⟩ := hpart e c hec
  exact ⟨b, hb, hle⟩

theorem text_le (h : List.Forall₂ (Selects blocks) s.elements contents) :
    (contents.map fun c => c.borrowed.textBytes).sum ≤ (blocks.map BlockRef.textBytes).sum := by
  refine sum_le (fun e c hec => ?_) (fun _ _ => SelectionElement.textPart_of_follows) h
  cases hec with
  | @text block start stop t before selected after h ht hstart hstop =>
    refine ⟨_, h, ⟨?_, ?_⟩, ?_⟩
    · show start.val ≤ stop.val
      omega
    · show stop.val ≤ t.len
      rw [ht, Text.len_append, Text.len_append]
      omega
    · show selected.len = stop.val - start.val
      omega
  | image h => exact ⟨_, h, ⟨Nat.le_refl _, Nat.zero_le _⟩, rfl⟩

theorem image_le (h : List.Forall₂ (Selects blocks) s.elements contents) :
    (contents.map fun c => c.borrowed.imageBytes).sum ≤ (blocks.map BlockRef.imageBytes).sum := by
  refine sum_le (fun e c hec => ?_) (fun prior e => @SelectionElement.imagePart_of_follows blocks prior e) h
  cases hec with
  | text h => exact ⟨_, h, ⟨Nat.le_refl _, Nat.zero_le _⟩, rfl⟩
  | @image block i h =>
    have hpart : SelectionElement.imagePart blocks (.imageBlock block) = (0, i.bytes.length) := by
      rw [SelectionElement.imagePart, h]
      rfl
    rw [hpart]
    exact ⟨_, h, ⟨Nat.zero_le _, Nat.le_refl _⟩, rfl⟩

/-- What is selected can be described, and is not empty where it is a picture. -/
theorem descriptor (h : Selects blocks e c) : ∃ x, c.borrowed.descriptor = .ok x := by
  cases h with
  | @text block start stop t before selected after h ht hstart hstop =>
    have hlt : selected.len < 2 ^ 32 := by
      have := stop.isLt
      omega
    exact ⟨_, map_eq_ok.mpr ⟨⟨selected.len, hlt⟩, BlockRef.bounded_eq_ok.mpr rfl, rfl⟩⟩
  | @image block i h =>
    have hlt : i.bytes.length < 2 ^ 32 := i.short.trans_lt (by decide)
    exact ⟨_, map_eq_ok.mpr ⟨⟨i.bytes.length, hlt⟩, BlockRef.bounded_eq_ok.mpr rfl, rfl⟩⟩

theorem suits (h : Selects blocks e c) : ExcerptRecord.suits (e, c) = true := by
  cases h with
  | text h ht hstart hstop => exact decide_eq_true (by omega)
  | image h => rfl

end Selects

/-- Retained content describes text and pictures, and no picture is empty. -/
theorem sized_of_borrowed {x : BlockDescriptor} (h : c.borrowed.descriptor = .ok x) :
    x.sized = true ∧ x.fileBytes = 0 := by
  cases c with
  | text t =>
    obtain ⟨y, -, rfl⟩ := map_eq_ok.mp h
    exact ⟨rfl, rfl⟩
  | image i =>
    obtain ⟨y, hy, rfl⟩ := map_eq_ok.mp h
    have hpos : 0 < i.bytes.length := List.length_pos_of_ne_nil i.nonempty
    rw [← BlockRef.bounded_eq_ok.mp hy] at hpos
    exact ⟨decide_eq_true hpos, rfl⟩

/-- What a document's blocks keep within their limits, an excerpt of them does. -/
theorem validate_excerpt (hblocks : blocks.mapM BlockRef.descriptor = .ok descriptors)
    (hvalid : validateBlocks descriptors = .ok ⟨⟩) (h : List.Forall₂ (Selects blocks) s.elements contents) :
    (⟨s, contents⟩ : ExcerptRecord).validate = .ok ⟨⟩ := by
  obtain ⟨-, -, htext, himage, -⟩ := validateBlocks_eq_ok.mp hvalid
  have hmeasures := fun b x => @BlockRef.measures_of_descriptor b x
  have hall := mapM_eq_ok_forall₂.mp hblocks
  rw [map_eq_map_of_forall₂ (fun b x hx => (hmeasures b x hx).1) hall] at htext
  rw [map_eq_map_of_forall₂ (fun b x hx => (hmeasures b x hx).2.1) hall] at himage
  have hlength : s.elements.length = contents.length := h.length_eq
  have hdescribed : ∀ c ∈ contents, ∃ x, c.borrowed.descriptor = .ok x := by
    intro c hc
    obtain ⟨i, hi, rfl⟩ := List.mem_iff_getElem.mp hc
    exact (h.get (hlength.symm ▸ hi) hi).descriptor
  obtain ⟨excerpted, hexcerpted⟩ := mapM_succeeds hdescribed
  have hall' := mapM_eq_ok_forall₂.mp hexcerpted
  have hlength' : excerpted.length = contents.length := hall'.length_eq.symm
  have hmem := (mem_of_mapM_eq_ok hexcerpted).2
  simp only [ExcerptRecord.validate, bind_eq_ok, refuseIf_eq_ok, not_not]
  refine ⟨⟨⟩, hlength.symm, ⟨⟩, forM_eq_ok.mpr fun pair hpair => ?_, excerpted, hexcerpted, ?_⟩
  · rw [refuseIf_eq_ok, (List.forall₂_zip h hpair).suits]
    exact Bool.noConfusion
  refine validateBlocks_eq_ok.mpr ⟨⟨?_, ?_⟩, fun x hx => ?_, ?_, ?_, ?_⟩
  · rw [← List.length_pos_iff, hlength', ← hlength]
    exact List.length_pos_of_ne_nil s.nonempty
  · rw [hlength', ← hlength]
    exact s.short
  · obtain ⟨c, -, hx⟩ := hmem x hx
    exact (sized_of_borrowed hx).1
  · rw [map_eq_map_of_forall₂ (fun c x hx => (hmeasures c.borrowed x hx).1) hall']
    exact (Selects.text_le h).trans htext
  · rw [map_eq_map_of_forall₂ (fun c x hx => (hmeasures c.borrowed x hx).2.1) hall']
    exact (Selects.image_le h).trans himage
  · have hzero : excerpted.map BlockDescriptor.fileBytes = contents.map fun _ => 0 :=
      map_eq_map_of_forall₂ (fun c x hx => (@sized_of_borrowed c x hx).2) hall'
    rw [hzero, List.map_const', List.sum_replicate]
    exact Nat.zero_le _

/-! ### Selecting and quoting -/

section Documents
variable [Crypto] [Html] [MailParser]

/-- The part quotes or shares the excerpt. -/
def DocumentPart.Retains (part : DocumentPart) (q : QuotedExcerpt) : Prop :=
  part = .quotation q ∨ part = .share ⟨q⟩

omit [Crypto] [Html] [MailParser] in
theorem QuotedExcerpt.restore_eq_ok {r : ExcerptRecord} (h : r.validate = .ok ⟨⟩) :
    restore r = .ok ⟨r, h⟩ := by
  unfold restore
  split
  · rfl
  · next hrefused =>
    rw [h] at hrefused
    cases hrefused

namespace Document
variable {d : Document}

theorem blockDescriptors_eq_ok (d : Document) :
    ∃ descriptors, d.blocks.mapM BlockRef.descriptor = .ok descriptors ∧ validateBlocks descriptors = .ok ⟨⟩ := by
  have h := d.valid
  unfold DocumentRecord.validate at h
  simp only [bind_eq_ok] at h
  obtain ⟨-, -, -, -, descriptors, hdescriptors, hvalid⟩ := h
  exact ⟨descriptors, hdescriptors, hvalid⟩

variable [DocumentJson] {m : MessageManifest}

theorem descriptors_of_manifest {message : MessageId} {conversation : ConversationId}
    (h : d.manifest message conversation = .ok m) : d.blocks.mapM BlockRef.descriptor = .ok m.blocks := by
  obtain ⟨bytes, -, h⟩ := bind_eq_ok.mp h
  obtain ⟨⟨⟩, -, h⟩ := bind_eq_ok.mp h
  obtain ⟨blocks, hblocks, h⟩ := bind_eq_ok.mp h
  unfold MessageManifest.restore at h
  split at h
  · cases h
    exact hblocks
  · cases h

theorem select_eq_ok (h : d.manifest m.message m.conversation = .ok m) : d.select m s = .ok contents ↔
    s.validateTarget m = .ok () ∧ List.Forall₂ (Selects d.blocks) s.elements contents := by
  simp only [select, h, ok_bind, bind_eq_ok, refuseIf_eq_ok, mapM_eq_ok_forall₂, pick_eq_ok]
  constructor
  · rintro ⟨⟨⟩, -, ⟨⟩, htarget, hall⟩
    exact ⟨htarget, hall⟩
  · rintro ⟨htarget, hall⟩
    exact ⟨⟨⟩, not_not_intro rfl, ⟨⟩, htarget, hall⟩

theorem select_succeeds (h : d.manifest m.message m.conversation = .ok m) :
    (∃ contents, d.select m s = .ok contents) ↔ s.validateTarget m = .ok () ∧ s.OnBoundaries d.blocks := by
  constructor
  · rintro ⟨contents, hcontents⟩
    obtain ⟨htarget, hall⟩ := (select_eq_ok h).mp hcontents
    refine ⟨htarget, fun block start stop t he hblock => ?_⟩
    obtain ⟨c, hc⟩ := Selects.exists_of_mem hall he
    cases hc with
    | @text _ _ _ t' before selected after hblock' ht hstart hstop =>
      cases hblock.symm.trans hblock'
      exact (Text.exists_slice (by omega)).mp ⟨selected, Text.slice?_eq_some.mpr ⟨before, after, ht, hstart, hstop⟩⟩
  · rintro ⟨htarget, hboundary⟩
    have hfits := htarget
    simp only [MessageSelection.validateTarget, bind_eq_ok, forM_eq_ok, refuseIf_eq_ok, Bool.not_eq_false] at hfits
    obtain ⟨⟨⟩, -, hfits⟩ := hfits
    have hpicks : ∀ e ∈ s.elements, ∃ c, pick d.blocks e = .ok c := by
      intro e he
      have hranged : e.ranged = true := (of_decide_eq_true (List.all_eq_true.mp s.bounded e he)).2
      obtain ⟨c, hc⟩ := exists_selects (descriptors_of_manifest h) (hfits e he) hranged
        fun block start stop t heq => hboundary block start stop t (heq ▸ he)
      exact ⟨c, pick_eq_ok.mpr hc⟩
    obtain ⟨contents, hcontents⟩ := mapM_succeeds hpicks
    refine ⟨contents, (select_eq_ok h).mpr ⟨htarget, ?_⟩⟩
    exact (mapM_eq_ok_forall₂.mp hcontents).imp fun e c => pick_eq_ok.mp

theorem quote_of_select (hselect : d.select m s = .ok contents)
    (hall : List.Forall₂ (Selects d.blocks) s.elements contents) :
    ∃ q, d.quote m s = .ok q ∧ q.source = s ∧ q.blocks = contents := by
  obtain ⟨descriptors, hdescriptors, hvalid⟩ := d.blockDescriptors_eq_ok
  have hexcerpt := validate_excerpt hdescriptors hvalid hall
  refine ⟨⟨⟨s, contents⟩, hexcerpt⟩, ?_, rfl, rfl⟩
  rw [quote, hselect, ok_bind, QuotedExcerpt.restore_eq_ok hexcerpt]

omit [DocumentJson] in
/-- A part that retains an excerpt contributes the blocks of the excerpt, in their place. -/
theorem blocks_of_retains {q : QuotedExcerpt} {part : DocumentPart} (hpart : part.Retains q) {d : Document}
    {before after : List DocumentPart} (h : d.parts = before ++ part :: after) :
    d.blocks = before.flatMap DocumentPart.blocks ++
      (q.blocks.map ContentBlock.borrowed ++ after.flatMap DocumentPart.blocks) := by
  have hblocks : part.blocks = q.blocks.map ContentBlock.borrowed := by
    rcases hpart with rfl | rfl
    · rfl
    · rfl
  have hparts : d.blocks = d.parts.flatMap DocumentPart.blocks := rfl
  rw [hparts, h, List.flatMap_append, List.flatMap_cons, hblocks]

/-- **Selection and quotation agree.** A selection resolves in a document exactly when it suits the
manifest and its ranges fall on character boundaries, to what it selects, in order; what resolves
can be quoted, and what quotes or shares the excerpt contributes the same blocks elsewhere. -/
theorem select_quote (d : Document) (m : MessageManifest) (h : d.manifest m.message m.conversation = .ok m)
    (s : MessageSelection) :
    ((∃ contents, d.select m s = .ok contents) ↔ s.validateTarget m = .ok () ∧ s.OnBoundaries d.blocks) ∧
    ∀ contents, d.select m s = .ok contents →
      List.Forall₂ (Selects d.blocks) s.elements contents ∧
      ∃ q, d.quote m s = .ok q ∧ q.source = s ∧ q.blocks = contents ∧
        ∀ part : DocumentPart, part.Retains q → ∀ (d' : Document) (before after : List DocumentPart),
          d'.parts = before ++ part :: after →
          d'.blocks = before.flatMap DocumentPart.blocks ++
            (contents.map ContentBlock.borrowed ++ after.flatMap DocumentPart.blocks) := by
  refine ⟨select_succeeds h, fun contents hselect => ?_⟩
  obtain ⟨-, hall⟩ := (select_eq_ok h).mp hselect
  obtain ⟨q, hquote, hsource, hblocks⟩ := quote_of_select hselect hall
  refine ⟨hall, q, hquote, hsource, hblocks, fun part hpart d' before after hparts => ?_⟩
  rw [blocks_of_retains hpart hparts, hblocks]

end Document
end Documents

namespace Document.Example

local instance : Crypto := ⟨fun _ => zero32, fun _ => true, fun _ _ _ => true⟩

local instance : Html where
  parseUrl _ := none
  pictures _ := []
  attributes _ := []
  clean _ page := page
  extract := id

local instance : MailParser where
  parse _ := none
  isContentType _ _ _ := false
  attributeOf _ _ := none
  hasDecoder _ := false
  sized := nofun

local instance : DocumentJson := ⟨fun _ => some []⟩

def chart : ImageContent := ⟨.png, [1, 2, 3], by decide, by decide⟩

/-- The second character takes two bytes. -/
def letter : Document := ⟨⟨none, Vector.replicate 32 1, [.text "héllo".toList, .image chart]⟩, rfl⟩

def shape : MessageManifest :=
  ⟨⟨none, ⟨7⟩, ⟨61, by decide⟩, ⟨zero32⟩, [.text 6, .image 3], []⟩, by decide⟩

def chosen (stop : U32) (h : (0 : U32) < stop ∧ stop.val ≤ maxTextBytes) : MessageSelection where
  message := ⟨7⟩
  version := ⟨zero32⟩
  elements := [.textRange 0 0 stop, .imageBlock 1]
  identified := by decide
  nonempty := nofun
  short := show 2 ≤ 128 by decide
  bounded := by simp [SelectionElement.bounded, SelectionElement.ranged, SelectionElement.block, h, maxBlocks]
  ordered := rfl

theorem letter_shape : letter.manifest shape.message shape.conversation = .ok shape := rfl

theorem letter_select : letter.select shape (chosen 3 (by decide)) = .ok [.text "hé".toList, .image chart] := rfl

/-- The first two characters and the picture can be quoted; a range that ends inside the second
character selects nothing. -/
theorem select_quote_letter :
    (∃ q, letter.quote shape (chosen 3 (by decide)) = .ok q ∧ q.blocks = [.text "hé".toList, .image chart]) ∧
      ¬((chosen 2 (by decide)).validateTarget shape = .ok () ∧ (chosen 2 (by decide)).OnBoundaries letter.blocks) := by
  constructor
  · obtain ⟨-, q, hquote, -, hblocks, -⟩ :=
      (select_quote letter shape letter_shape (chosen 3 (by decide))).2 _ letter_select
    exact ⟨q, hquote, hblocks⟩
  · rw [← (select_quote letter shape letter_shape (chosen 2 (by decide))).1]
    rintro ⟨contents, hcontents⟩
    have hrefused : letter.select shape (chosen 2 (by decide)) = .error .invalid := rfl
    cases hrefused.symm.trans hcontents

end Document.Example
end CsMail
