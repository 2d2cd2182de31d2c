import CsMail.Capabilities.SigningBytes
import CsMail.Correspondence.Email
import Mathlib.Data.Set.Function

/-! The delivery identity of an email is what it says.

The subject, the texts and the pages are written one after the other under tags of their own, the
pictures in the order of their identifiers, and every value behind its length; so what is hashed can
be read back (`deliveryBytes_eq`). An accepted email has no two pictures under one identifier, so
the pictures that are hashed are exactly those of its parts, in whatever order (`mem_resources`). -/
namespace CsMail
open Library Library.PrefixCode
namespace MimeMessage

/-! ### Pictures of an accepted email -/

section Pictures
variable [MailParser] {m : MimeMessage} {found found' : Found} {part : MimePart}

theorem resource_eq_some {r : Text × ImageFormat × Bytes}
    (h : resource part = some r) :
    part.contentId = some r.1 ∧ (part.body = .binary r.2.2 ∨ part.body = .inlineBinary r.2.2) := by
  unfold resource at h
  split at h
  · next hcid _ hbody =>
      obtain rfl := Option.some.inj h
      exact ⟨hcid, .inl hbody⟩
  · next hcid _ hbody =>
      obtain rfl := Option.some.inj h
      exact ⟨hcid, .inr hbody⟩
  · cases h

/-- Only bytes are a picture. -/
theorem resource_eq_none (h : ∀ bytes, part.body ≠ .binary bytes ∧ part.body ≠ .inlineBinary bytes) :
    resource part = none := by
  cases hresource : resource part with
  | none => rfl
  | some r =>
    rcases (resource_eq_some hresource).2 with hbody | hbody
    · exact absurd hbody (h _).1
    · exact absurd hbody (h _).2

theorem resource_picture {cid : Text} {kind : ImageFormat} {bytes : Bytes} (hcid : part.contentId = some cid)
    (hkind : part.raster = some kind) (h : part.body = .binary bytes ∨ part.body = .inlineBinary bytes) :
    resource part = some (cid, kind, bytes) := by
  unfold resource
  rcases h with h | h <;> rw [hcid, hkind, h]

/-- What a part adds to the identifiers found: its picture's, if it has one, which is new. -/
theorem validatePart_cids (h : m.validatePart found part = .ok found') :
    (resource part = none ∧ found'.cids = found.cids) ∨
      ∃ r, resource part = some r ∧ r.1 ∉ found.cids ∧ found'.cids = r.1 :: found.cids := by
  simp only [validatePart, bind_eq_ok] at h
  obtain ⟨_, -, _, -, _, -, _, -, _, -, h⟩ := h
  unfold validateBody at h
  have hpicture : ∀ bytes, (part.body = .binary bytes ∨ part.body = .inlineBinary bytes) →
      (do
        refuseIf (part.raster = none ∨ bytes = []) .invalid
        let cid ← okOr part.contentId .invalid
        refuseIf (cid ∈ found.cids) CorrespondenceError.invalid
        .ok {found with cids := cid :: found.cids}) = Except.ok found' →
      ∃ r, resource part = some r ∧ r.1 ∉ found.cids ∧ found'.cids = r.1 :: found.cids := by
    intro bytes hbody h
    obtain ⟨⟨⟩, hraster, h⟩ := bind_eq_ok.mp h
    obtain ⟨cid, hcid, h⟩ := bind_eq_ok.mp h
    obtain ⟨⟨⟩, hnew, h⟩ := bind_eq_ok.mp h
    rw [refuseIf_eq_ok, not_or] at hraster
    obtain ⟨kind, hkind⟩ := Option.ne_none_iff_exists'.mp hraster.1
    obtain rfl := Except.ok.inj h
    exact ⟨_, resource_picture (okOr_eq_ok.mp hcid) hkind hbody, refuseIf_eq_ok.mp hnew, rfl⟩
  cases hbody : part.body with
  | text t =>
    simp only [hbody, bind_eq_ok] at h
    obtain ⟨_, -, h⟩ := h
    obtain rfl := Except.ok.inj h
    exact .inl ⟨resource_eq_none fun _ => by simp [hbody], rfl⟩
  | html t =>
    simp only [hbody, bind_eq_ok] at h
    obtain ⟨_, -, h⟩ := h
    obtain rfl := Except.ok.inj h
    exact .inl ⟨resource_eq_none fun _ => by simp [hbody], rfl⟩
  | multipart ids =>
    simp only [hbody, bind_eq_ok] at h
    obtain ⟨_, -, _, -, _, -, h⟩ := h
    obtain rfl := Except.ok.inj h
    exact .inl ⟨resource_eq_none fun _ => by simp [hbody], rfl⟩
  | binary bytes =>
    rw [hbody] at h
    exact .inr (hpicture bytes (.inl hbody) h)
  | inlineBinary bytes =>
    rw [hbody] at h
    exact .inr (hpicture bytes (.inr hbody) h)
  | message =>
    rw [hbody] at h
    cases h

/-- No two pictures have one identifier, and none has one found before. -/
theorem foldlM_validatePart {parts : List MimePart} (h : parts.foldlM m.validatePart found = .ok found') :
    ((parts.filterMap resource).map Prod.fst).Nodup ∧ ∀ r ∈ parts.filterMap resource, r.1 ∉ found.cids := by
  induction parts generalizing found with
  | nil => exact ⟨List.nodup_nil, by simp⟩
  | cons part rest ih =>
    rw [List.foldlM_cons] at h
    obtain ⟨next, hnext, h⟩ := bind_eq_ok.mp h
    obtain ⟨hnodup, hnew⟩ := ih h
    rcases validatePart_cids hnext with ⟨hnone, hcids⟩ | ⟨r, hsome, hfresh, hcids⟩
    · rw [List.filterMap_cons_none hnone]
      exact ⟨hnodup, fun r hr => hcids ▸ hnew r hr⟩
    · rw [List.filterMap_cons_some hsome, List.map_cons, List.nodup_cons, List.forall_mem_cons]
      rw [hcids] at hnew
      refine ⟨⟨fun hmem => ?_, hnodup⟩, hfresh, fun x hx hold => hnew x hx (List.mem_cons_of_mem _ hold)⟩
      obtain ⟨x, hx, hsame⟩ := List.mem_map.mp hmem
      exact hnew x hx (hsame ▸ List.mem_cons_self ..)

/-- The pictures of a message: identifier, kind and bytes of each. -/
def pictures (m : MimeMessage) : Set (Text × ImageFormat × Bytes) := {r | ∃ part ∈ m.parts, resource part = some r}

theorem validateMime_spec {raw : Bytes} (h : validateMime raw = .ok m) : m.Sized ∧
    ((m.parts.filterMap resource).map Prod.fst).Nodup := by
  obtain ⟨⟨⟩, -, h⟩ := bind_eq_ok.mp h
  obtain ⟨message, hparse, h⟩ := bind_eq_ok.mp h
  obtain ⟨⟨⟩, -, h⟩ := bind_eq_ok.mp h
  obtain ⟨found, hfound, h⟩ := bind_eq_ok.mp h
  obtain ⟨⟨⟩, -, h⟩ := bind_eq_ok.mp h
  obtain rfl := Except.ok.inj h
  exact ⟨MailParser.sized raw message (okOr_eq_ok.mp hparse), (foldlM_validatePart hfound).1⟩

/-- What is hashed of the pictures is the pictures. -/
theorem mem_resources (h : ((m.parts.filterMap resource).map Prod.fst).Nodup) {r : Text × ImageFormat × Bytes} :
    r ∈ m.resources.entries ↔ r ∈ m.pictures := by
  rw [resources, SortedMap.mem_ofList h, List.mem_filterMap]
  rfl

theorem resources_eq {m' : MimeMessage} (h : ((m.parts.filterMap resource).map Prod.fst).Nodup)
    (h' : ((m'.parts.filterMap resource).map Prod.fst).Nodup) :
    m.resources = m'.resources ↔ m.pictures = m'.pictures := by
  constructor
  · intro heq
    ext r
    rw [← mem_resources h, ← mem_resources h', heq]
  · intro heq
    apply SortedMap.ext_get
    intro cid
    apply Option.ext
    intro r
    rw [← SortedMap.mem_entries, ← SortedMap.mem_entries, mem_resources h, mem_resources h', heq]

end Pictures

/-! ### What is hashed can be read back -/

theorem delimits_deliveryField (tag : String) :
    Delimits (fun value : Bytes => value.length < 256 ^ 8) (deliveryField tag) := by
  intro value value' s s' hvalue hvalue' heq
  rw [deliveryField, deliveryField, List.append_assoc, List.append_assoc] at heq
  exact delimits_counted 8 hvalue hvalue' (List.append_cancel_left heq)

/-- A text under a tag. -/
theorem delimits_deliveryText (tag : String) :
    Delimits (fun t : Text => t.utf8.length < 256 ^ 8) fun t => deliveryField tag t.utf8 := by
  intro t t' s s' ht ht' heq
  obtain ⟨hbytes, hrest⟩ := delimits_deliveryField tag ht ht' heq
  exact ⟨Text.utf8_injective hbytes, hrest⟩

theorem mimeType_injective : Function.Injective ImageFormat.mimeType := by
  intro f f' heq
  cases f <;> cases f' <;> first | rfl | exact absurd heq (by decide)

theorem mimeType_short (f : ImageFormat) : f.mimeType.utf8.length < 256 ^ 8 := by
  cases f <;> decide

theorem delimits_resourceBytes : Delimits (fun r : Text × ImageFormat × Bytes =>
    r.1.utf8.length < 256 ^ 8 ∧ r.2.2.length < 256 ^ 8) resourceBytes := by
  rintro ⟨cid, kind, bytes⟩ ⟨cid', kind', bytes'⟩ s s' ⟨hcid, hbytes⟩ ⟨hcid', hbytes'⟩ heq
  simp only [resourceBytes, List.append_assoc] at heq
  obtain ⟨hsamecid, heq⟩ := delimits_deliveryText "cid" hcid hcid' heq
  obtain ⟨hsamekind, heq⟩ := delimits_deliveryText "kind" (mimeType_short kind) (mimeType_short kind') heq
  obtain ⟨hsamebytes, heq⟩ := delimits_deliveryField "bytes" hbytes hbytes' heq
  exact ⟨Prod.ext hsamecid (Prod.ext (mimeType_injective hsamekind) hsamebytes), heq⟩

/-- The first of several encoded values begins as each of them does. -/
theorem flatMap_head {α : Type*} {enc : α → Bytes} {b : UInt8} (h : ∀ a, (enc a).head? = some b) (l : List α)
    {s : Bytes} {c : UInt8} (hb : b ≠ c) (hs : s.head? ≠ some c) : (l.flatMap enc ++ s).head? ≠ some c := by
  cases l with
  | nil => exact hs
  | cons a l =>
    rw [List.flatMap_cons, List.append_assoc, List.head?_append, h a]
    exact fun heq => hb (Option.some.inj heq)

/-! ### What one email hashes -/

section Sizes
variable {m : MimeMessage}

theorem mem_texts {t : Text} (h : t ∈ m.texts) : ∃ part ∈ m.parts, part.body = .text t := by
  obtain ⟨part, hpart, htext⟩ := List.mem_filterMap.mp h
  refine ⟨part, hpart, ?_⟩
  split at htext
  · next hbody => rw [hbody, Option.some.inj htext]
  · cases htext

theorem mem_htmls {t : Text} (h : t ∈ m.htmls) : ∃ part ∈ m.parts, part.body = .html t := by
  obtain ⟨part, hpart, hhtml⟩ := List.mem_filterMap.mp h
  refine ⟨part, hpart, ?_⟩
  split at hhtml
  · next hbody => rw [hbody, Option.some.inj hhtml]
  · cases hhtml

theorem Sized.subject_getD (h : m.Sized) : (m.subject.getD []).utf8.length < 256 ^ 8 := by
  cases hsubject : m.subject with
  | none => exact Nat.lt_of_le_of_lt (le_refl 0) (by decide)
  | some t => exact h.subject t hsubject

theorem Sized.texts (h : m.Sized) : ∀ t ∈ m.texts, t.utf8.length < 256 ^ 8 := by
  intro t ht
  obtain ⟨part, hpart, hbody⟩ := mem_texts ht
  exact h.text part hpart t hbody

theorem Sized.htmls (h : m.Sized) : ∀ t ∈ m.htmls, t.utf8.length < 256 ^ 8 := by
  intro t ht
  obtain ⟨part, hpart, hbody⟩ := mem_htmls ht
  exact h.html part hpart t hbody

theorem Sized.pictures [MailParser] (h : m.Sized) : ∀ r ∈ m.pictures,
    r.1.utf8.length < 256 ^ 8 ∧ r.2.2.length < 256 ^ 8 := by
  rintro r ⟨part, hpart, hr⟩
  obtain ⟨hcid, hbody⟩ := resource_eq_some hr
  exact ⟨h.contentId part hpart _ hcid, h.bytes part hpart _ hbody⟩

end Sizes

/-- What an email says: subject, texts, pages and pictures. -/
structure SaysTheSame [MailParser] (m m' : MimeMessage) : Prop where
  subject : m.subject.getD [] = m'.subject.getD []
  texts : m.texts = m'.texts
  htmls : m.htmls = m'.htmls
  pictures : m.pictures = m'.pictures

/-- Emails are hashed as the same bytes if and only if they say the same. -/
theorem deliveryBytes_eq [MailParser] {raw raw' : Bytes} {m m' : MimeMessage} (h : validateMime raw = .ok m)
    (h' : validateMime raw' = .ok m') : m.deliveryBytes = m'.deliveryBytes ↔ m.SaysTheSame m' := by
  obtain ⟨hsized, hnodup⟩ := validateMime_spec h
  obtain ⟨hsized', hnodup'⟩ := validateMime_spec h'
  constructor
  · intro heq
    simp only [deliveryBytes, List.append_assoc, List.append_cancel_left_eq] at heq
    obtain ⟨hsubject, heq⟩ := delimits_deliveryText "subject" hsized.subject_getD hsized'.subject_getD heq
    -- every kind of value begins with a letter of its own
    have htext : ∀ t : Text, (deliveryField "text" t.utf8).head? = some 116 := fun _ => rfl
    have hhtml : ∀ t : Text, (deliveryField "html" t.utf8).head? = some 104 := fun _ => rfl
    have hcid : ∀ r, (resourceBytes r).head? = some 99 := fun _ => rfl
    have hpictures : ∀ (m : MimeMessage) (b : UInt8), (99 : UInt8) ≠ b →
        (m.resources.entries.flatMap resourceBytes).head? ≠ some b := fun m b hb => by
      have := @flatMap_head _ _ _ hcid m.resources.entries [] _ hb nofun
      rwa [List.append_nil] at this
    have hpages : ∀ m : MimeMessage, (m.htmls.flatMap (fun t => deliveryField "html" t.utf8) ++
        m.resources.entries.flatMap resourceBytes).head? ≠ some 116 := fun m =>
      flatMap_head hhtml m.htmls (by decide) (hpictures m 116 (by decide))
    obtain ⟨htexts, heq⟩ := (delimits_deliveryText "text").flatMap (fun t _ => htext t) hsized.texts hsized'.texts
      (hpages m) (hpages m') heq
    obtain ⟨hhtmls, heq⟩ := (delimits_deliveryText "html").flatMap (fun t _ => hhtml t) hsized.htmls hsized'.htmls
      (hpictures m 104 (by decide)) (hpictures m' 104 (by decide)) heq
    have hentries : m.resources.entries = m'.resources.entries := by
      rw [← List.append_nil (m.resources.entries.flatMap _), ← List.append_nil (m'.resources.entries.flatMap _)] at heq
      have hnil : ([] : Bytes).head? ≠ some 99 := nofun
      exact (delimits_resourceBytes.flatMap (fun r _ => hcid r)
        (fun r hr => hsized.pictures r ((mem_resources hnodup).mp hr))
        (fun r hr => hsized'.pictures r ((mem_resources hnodup').mp hr)) hnil hnil heq).1
    refine ⟨hsubject, htexts, hhtmls, (resources_eq hnodup hnodup').mp ?_⟩
    rw [← SortedMap.ofList_entries m.resources, hentries, SortedMap.ofList_entries]
  · rintro ⟨hsubject, htexts, hhtmls, hpictures⟩
    rw [deliveryBytes, deliveryBytes, hsubject, htexts, hhtmls, (resources_eq hnodup hnodup').mpr hpictures]

end MimeMessage

/-- **Delivery identity is exact**: emails have one commitment if and only if they say the same, where
SHA-256 tells the two hashed strings apart. -/
theorem EmailContent.deliveryCommitment_eq [MailParser] [Crypto] (e e' : EmailContent)
    (hsha : Set.InjOn Crypto.sha256 {e.message.deliveryBytes, e'.message.deliveryBytes}) :
    e.deliveryCommitment = e'.deliveryCommitment ↔ e.message.SaysTheSame e'.message := by
  rw [← MimeMessage.deliveryBytes_eq e.accepted e'.accepted]
  exact hsha.eq_iff (Set.mem_insert ..) (Set.mem_insert_of_mem _ rfl)

namespace EmailContent.Example

def textPart : MimePart :=
  ⟨[], false, none, none, none, none, none, .text "Chart".toList, 0, 0, 0⟩

def picturePart : MimePart :=
  ⟨[], false, none, none, none, some ⟨"image".toList, some "png".toList, none⟩, some "chart".toList,
    .binary [1, 2], 0, 0, 0⟩

def message (parts : List MimePart) : MimeMessage := ⟨none, parts, []⟩

def parse (raw : Bytes) : Option MimeMessage :=
  if raw = [1] then some (message [textPart, picturePart])
  else if raw = [2] then some (message [picturePart, textPart])
  else none

theorem message_sized {parts : List MimePart} (h : parts ⊆ [textPart, picturePart]) : (message parts).Sized := by
  have hpart : ∀ part ∈ parts, part = textPart ∨ part = picturePart := fun part hin => by simpa using h hin
  refine ⟨nofun, ?_, ?_, ?_, ?_⟩
  · rintro part hin t ht
    rcases hpart part hin with rfl | rfl <;> cases ht
    decide
  · rintro part hin t ht
    rcases hpart part hin with rfl | rfl <;> cases ht
  · rintro part hin t ht
    rcases hpart part hin with rfl | rfl <;> cases ht
    decide
  · rintro part hin b hb
    rcases hpart part hin with rfl | rfl <;> rcases hb with hb | hb <;> cases hb
    decide

theorem parse_sized (raw : Bytes) (m : MimeMessage) (h : parse raw = some m) : m.Sized := by
  unfold parse at h
  split_ifs at h
  · obtain rfl := Option.some.inj h
    exact message_sized (List.Subset.refl _)
  · obtain rfl := Option.some.inj h
    exact message_sized (by simp)

@[reducible] def parser : MailParser where
  parse := parse
  isContentType part type subtype := part.contentType.any fun c => c.cType = type ∧ c.subtype = some subtype
  attributeOf _ _ := none
  hasDecoder _ := true
  sized := parse_sized

@[reducible] def crypto : Crypto := ⟨fun _ => zero32, fun _ => true, fun _ _ _ => true⟩

/-- The picture comes last. -/
def email : @EmailContent parser := @EmailContent.mk parser [1] (message [textPart, picturePart]) rfl

/-- The picture comes first. -/
def reordered : @EmailContent parser := @EmailContent.mk parser [2] (message [picturePart, textPart]) rfl

theorem hashed_same : @MimeMessage.deliveryBytes parser (@EmailContent.message parser email) =
    @MimeMessage.deliveryBytes parser (@EmailContent.message parser reordered) := rfl

end EmailContent.Example

/-- The order of the parts makes no difference. -/
theorem EmailContent.deliveryCommitment_reordered :
    @deliveryCommitment Example.parser Example.crypto Example.email =
        @deliveryCommitment Example.parser Example.crypto Example.reordered ↔
      @MimeMessage.SaysTheSame Example.parser (@message Example.parser Example.email)
        (@message Example.parser Example.reordered) :=
  @deliveryCommitment_eq Example.parser Example.crypto Example.email Example.reordered (by
    rw [Example.hashed_same, Set.pair_eq_singleton]
    exact Set.injOn_singleton _ _)

end CsMail
