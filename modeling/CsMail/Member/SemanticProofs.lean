import CsMail.Member.Semantic

/-! When a ready projection reads back as the text it was built from.

The turns leave chunks that are drawn from their parts and cover them up to white space
(`run_sound`). Reassembly goes on only where each chunk begins within the text before it, and
the last turn asks less than that: it passes over white space that no chunk holds. So a ready
projection reassembles exactly where its chunks leave no gap before any of them
(`search_reassembles`), and then up to the blanks at the end of a part. -/
namespace CsMail
open Library

variable {Values : Type}

/-! ### Canonical parts -/

theorem canonicalStep_nodup {parts parts' : List (TextPart × Text)} {part : TextPart × Text}
    (hparts : (parts.map Prod.fst).Nodup) (h : canonicalStep parts part = .ok parts') :
    (parts'.map Prod.fst).Nodup := by
  unfold canonicalStep at h
  cases hfind : parts.find? (·.1 = part.1) with
  | some found =>
    rw [hfind] at h
    obtain ⟨⟨⟩, -, h⟩ := bind_eq_ok.mp h
    cases h
    exact hparts
  | none =>
    rw [hfind] at h
    cases h
    rw [List.map_append, List.nodup_append]
    refine ⟨hparts, List.nodup_singleton _, fun a ha b hb => ?_⟩
    obtain ⟨existing, hexisting, rfl⟩ := List.mem_map.mp ha
    rw [List.map_singleton, List.mem_singleton] at hb
    subst hb
    simpa using List.find?_eq_none.mp hfind existing hexisting

theorem canonical_nodup {texts parts : List (TextPart × Text)} (h : canonical texts = .ok parts) :
    (parts.map Prod.fst).Nodup :=
  foldlM_preserves (P := fun parts => (parts.map Prod.fst).Nodup)
    (fun _ _ _ hparts h => canonicalStep_nodup hparts h) List.nodup_nil h

/-! ### Accepted chunks -/

/-- The chunk is a passage of its part. -/
structure Chunk.Drawn (x : Indexing Values) (c : Chunk Values) : Prop where
  source : c.passage.source = x.identity
  version : c.passage.version = x.version
  part : ∃ text, (c.passage.location, text) ∈ x.parts ∧
    text.slice? c.passage.start.val c.passage.stop.val = some c.text

namespace Indexing
variable [Crypto] {x : Indexing Values}

theorem accept_eq_ok {raw : PreparedChunk Values} {c : Chunk Values} (h : x.accept raw = .ok c) :
    c.Drawn x := by
  obtain ⟨⟨location, text⟩, hpart, h⟩ := bind_eq_ok.mp h
  obtain ⟨passage, hpassage, h⟩ := bind_eq_ok.mp h
  obtain ⟨selected, hverify, h⟩ := bind_eq_ok.mp h
  obtain ⟨⟨⟩, -, h⟩ := bind_eq_ok.mp h
  cases h
  obtain ⟨⟨hsource, hversion, hlocation⟩, ⟨hstart, hstop⟩, found, hselected, hfound⟩ :=
    Passage.new_eq_ok (mapError_eq_ok.mp hpassage)
  cases hfound.symm.trans (mapError_eq_ok.mp hverify)
  exact ⟨hsource, hversion, text, hlocation ▸ List.mem_of_getElem? (okOr_eq_ok.mp hpart),
    hstart ▸ hstop ▸ hselected⟩

/-- What the turns leave: drawn chunks, which cover the parts once they are complete. -/
def Sound (x : Indexing Values) : Projection Values → Prop
  | .pending => True
  | .building profile chunks => profile = x.profile → ∀ c ∈ chunks, c.Drawn x
  | .ready profile chunks => profile = x.profile →
    (∀ c ∈ chunks, c.Drawn x) ∧ ∀ part ∈ x.parts, checkCovered chunks part = .ok ⟨⟩

omit [Crypto] in
theorem prior_drawn {projection : Projection Values} (h : x.Sound projection) :
    ∀ c ∈ x.prior projection, c.Drawn x := by
  cases projection with
  | pending | ready => exact fun _ hc => nomatch hc
  | building profile chunks =>
    rw [prior]
    split_ifs with hprofile
    · exact h hprofile
    · exact fun _ hc => nomatch hc

theorem extend_sound {projection projection' : Projection Values} {response : Prepared Values}
    (hsound : x.Sound projection) (h : x.extend projection response = .ok projection') :
    x.Sound projection' := by
  obtain ⟨⟨⟩, -, h⟩ := bind_eq_ok.mp h
  obtain ⟨chunks, hchunks, h⟩ := bind_eq_ok.mp h
  obtain ⟨⟨⟩, hcomplete, h⟩ := bind_eq_ok.mp h
  cases h
  have hdrawn : ∀ c ∈ chunks, c.Drawn x := by
    refine foldlM_preserves (P := fun chunks => ∀ c ∈ chunks, Chunk.Drawn x c)
      (fun chunks raw next hchunks hpush => ?_) (prior_drawn hsound) hchunks
    obtain ⟨chunk, haccept, hpush⟩ := bind_eq_ok.mp hpush
    cases hpush
    exact List.forall_mem_append.mpr ⟨hchunks, List.forall_mem_singleton.mpr (accept_eq_ok haccept)⟩
  cases hlast : response.complete with
  | false => exact fun _ => hdrawn
  | true =>
    rw [checkComplete, hlast, if_pos rfl, forM_eq_ok] at hcomplete
    exact fun _ => ⟨hdrawn, hcomplete⟩

theorem turn_sound {projection projection' : Projection Values} {response : Prepared Values}
    (hsound : x.Sound projection) (h : x.turn projection response = .ok projection') :
    x.Sound projection' := by
  unfold turn at h
  split at h
  · split_ifs at h
    · cases h
      exact hsound
    · exact extend_sound hsound h
  · exact extend_sound hsound h
  · exact extend_sound hsound h

theorem run_sound (x : Indexing Values) (responses : List (Prepared Values)) : x.Sound (x.run responses) :=
  Machine.run_preserves (P := x.Sound) (fun _ _ _ hsound h => turn_sound hsound h)
    (show x.Sound .pending from trivial) responses

end Indexing

/-! ### The two sweeps -/

theorem coverStep_eq_ok {text : Text} {reached reached' : ℕ} {range : ℕ × ℕ}
    (h : coverStep text reached range = .ok reached') : reached' = max reached range.2 := by
  obtain ⟨_, -, h⟩ := bind_eq_ok.mp h
  cases h
  rfl

theorem foldlM_coverStep {text : Text} {ranges : List (ℕ × ℕ)} {reached reached' : ℕ}
    (h : ranges.foldlM (coverStep text) reached = .ok reached') :
    reached' = Slices.furthest reached ranges := by
  induction ranges generalizing reached with
  | nil =>
    cases h
    rfl
  | cons range rest ih =>
    obtain ⟨next, hnext, h⟩ := bind_eq_ok.mp h
    rw [Slices.furthest_cons, ← coverStep_eq_ok hnext]
    exact ih h

/-- A covered part is blank from where its chunks have reached. -/
theorem checkCovered_eq_ok {chunks : List (Chunk Values)} {part : TextPart × Text}
    (h : checkCovered chunks part = .ok ⟨⟩) : ∃ text rest : Text, part.2 = text ++ rest ∧
      text.len = Slices.furthest 0 (rangesAt chunks part.1) ∧ rest.isBlank = true := by
  obtain ⟨reached, hreached, h⟩ := bind_eq_ok.mp h
  obtain ⟨rest, hrest, h⟩ := bind_eq_ok.mp h
  obtain ⟨text, hpart, hlen⟩ := Text.from?_eq_some.mp (okOr_eq_ok.mp hrest)
  rw [refuseIf_eq_ok, Bool.not_eq_false] at h
  exact ⟨text, rest, hpart, hlen.trans (foldlM_coverStep hreached), h⟩

theorem mem_chunksAt {chunks : List (Chunk Values)} {location : TextPart} {c : Chunk Values} :
    c ∈ chunksAt chunks location ↔ c ∈ chunks ∧ c.passage.location = location := by
  rw [chunksAt, List.mem_insertionSort, List.mem_filter, decide_eq_true_eq]

/-- Both sweeps see the ranges in one order. -/
theorem map_range_chunksAt (chunks : List (Chunk Values)) (location : TextPart) :
    (chunksAt chunks location).map (fun c => c.passage.range) = rangesAt chunks location := by
  rw [rangesAt, chunksAt, ← List.map_insertionSort (r := fun c c' : Chunk Values => c.range ≤ c'.range)
    (s := (· ≤ ·)) Chunk.range _ fun _ _ _ _ => Iff.rfl, List.map_map]
  rfl

/-- A chunk extends a beginning of its part, if it begins within it. -/
theorem assembleStep_eq_ok {first : Passage} {original text rest : Text} {c : Chunk Values}
    (hsource : c.passage.source = first.source ∧ c.passage.version = first.version)
    (hslice : original.slice? c.passage.start.val c.passage.stop.val = some c.text)
    (htext : original = text ++ rest) (hstart : c.passage.range.1 ≤ text.len) :
    ∃ text' rest' : Text, assembleStep first text c = .ok text' ∧ original = text' ++ rest' ∧
      text'.len = max text.len c.passage.range.2 := by
  obtain ⟨common, added, hcommon, hchunk, hadded, ⟨rest', hrest'⟩, hlen⟩ :=
    Slices.prefix_append_slice Char.utf8Size_pos htext hslice hstart
  obtain ⟨p, q, -, -, hstop⟩ := Text.slice?_eq_some.mp hslice
  have hlt : c.passage.start.val < c.passage.stop.val := c.passage.valid.2.2
  have hwithin : c.passage.start.val + (min text.len c.passage.stop.val - c.passage.start.val) =
      min text.len c.passage.stop.val := Nat.add_sub_cancel' (le_min hstart hlt.le)
  refine ⟨text ++ added, rest', ?_, hrest', hlen⟩
  refine bind_eq_ok.mpr ⟨⟨⟩, refuseIf_eq_ok.mpr ?_, bind_eq_ok.mpr ⟨⟨⟩, refuseIf_eq_ok.mpr ?_,
    bind_eq_ok.mpr ⟨added, okOr_eq_ok.mpr hadded, rfl⟩⟩⟩
  · rintro (hne | hne | hgap | hne)
    · exact hne hsource.1
    · exact hne hsource.2
    · exact absurd hstart (not_le.mpr hgap)
    · omega
  · rw [hwithin, not_not]
    exact Eq.trans hcommon (Eq.symm hchunk)

/-- A chunk that begins behind the text is refused. -/
theorem start_le_of_assembleStep {first : Passage} {text text' : Text} {c : Chunk Values}
    (h : assembleStep first text c = .ok text') : c.passage.range.1 ≤ text.len := by
  obtain ⟨⟨⟩, hrefuse, -⟩ := bind_eq_ok.mp h
  rw [refuseIf_eq_ok] at hrefuse
  exact not_lt.mp fun hgap => hrefuse (.inr (.inr (.inl hgap)))

/-- The chunks of one part reassemble just where they leave no gap, to a beginning of it. -/
theorem foldlM_assembleStep (first : Passage) {original : Text} {cs : List (Chunk Values)}
    (hsource : ∀ c ∈ cs, c.passage.source = first.source ∧ c.passage.version = first.version)
    (hslice : ∀ c ∈ cs, original.slice? c.passage.start.val c.passage.stop.val = some c.text)
    {text rest : Text} (htext : original = text ++ rest) :
    (∀ text', cs.foldlM (assembleStep first) text = .ok text' →
      Slices.gapless text.len (cs.map fun c => c.passage.range) = true) ∧
    (Slices.gapless text.len (cs.map fun c => c.passage.range) = true → ∃ text' rest' : Text,
      cs.foldlM (assembleStep first) text = .ok text' ∧ original = text' ++ rest' ∧
        text'.len = Slices.furthest text.len (cs.map fun c => c.passage.range)) := by
  induction cs generalizing text rest with
  | nil => exact ⟨fun _ _ => rfl, fun _ => ⟨text, rest, rfl, htext, rfl⟩⟩
  | cons c more ih =>
    rw [List.forall_mem_cons] at hsource hslice
    have hgapless : Slices.gapless text.len ((c :: more).map fun c => c.passage.range) = true ↔
        c.passage.range.1 ≤ text.len ∧
          Slices.gapless (max text.len c.passage.range.2) (more.map fun c => c.passage.range) = true := by
      rw [List.map_cons, Slices.gapless, Bool.and_eq_true, decide_eq_true_eq]
    rw [hgapless, List.map_cons, Slices.furthest_cons]
    constructor
    · intro text' h
      obtain ⟨next, hnext, h⟩ := bind_eq_ok.mp h
      have hstart := start_le_of_assembleStep hnext
      obtain ⟨next', rest', hnext', hbegins, hlen⟩ := assembleStep_eq_ok hsource.1 hslice.1 htext hstart
      cases hnext.symm.trans hnext'
      exact ⟨hstart, hlen ▸ (ih hsource.2 hslice.2 hbegins).1 text' h⟩
    · rintro ⟨hstart, hmore⟩
      obtain ⟨next, rest', hnext, hbegins, hlen⟩ := assembleStep_eq_ok hsource.1 hslice.1 htext hstart
      obtain ⟨text', rest'', hfold, hsame, hfurthest⟩ :=
        (ih hsource.2 hslice.2 hbegins).2 (hlen.symm ▸ hmore)
      exact ⟨text', rest'', bind_eq_ok.mpr ⟨next, hnext, hfold⟩, hsame, hlen ▸ hfurthest⟩

/-! ### Reassembly -/

/-- No chunk of a part begins behind what the ones before it have reached. -/
def Gapless (chunks : List (Chunk Values)) (parts : List (TextPart × Text)) : Prop :=
  ∀ part ∈ parts, Slices.gapless 0 (rangesAt chunks part.1) = true

theorem mem_locations {chunks : List (Chunk Values)} {location : TextPart} :
    location ∈ (chunks.map fun c => c.passage.location).eraseDups ↔ ∃ c ∈ chunks, c.passage.location = location := by
  rw [List.mem_eraseDups, List.mem_map]

theorem canonicalPart_location {chunks : List (Chunk Values)} {location : TextPart} {text : TextPart × Text}
    (h : canonicalPart chunks location = .ok text) : text.1 = location := by
  unfold canonicalPart at h
  split at h
  · cases h
    rfl
  · obtain ⟨_, -, h⟩ := bind_eq_ok.mp h
    cases h
    rfl

namespace Indexing
variable {x : Indexing Values} {chunks : List (Chunk Values)}

/-- One part reassembles just where its chunks leave no gap, and then it is the part without
blanks at its end. -/
theorem canonicalPart_spec (hnodup : (x.parts.map Prod.fst).Nodup) (hdrawn : ∀ c ∈ chunks, c.Drawn x)
    {part : TextPart × Text} (hpart : part ∈ x.parts) (hcovered : checkCovered chunks part = .ok ⟨⟩) :
    (∀ text, canonicalPart chunks part.1 = .ok text → Slices.gapless 0 (rangesAt chunks part.1) = true) ∧
    (Slices.gapless 0 (rangesAt chunks part.1) = true → ∃ text blank : Text,
      canonicalPart chunks part.1 = .ok (part.1, text) ∧ part.2 = text ++ blank ∧ blank.isBlank = true ∧
        text.len = Slices.furthest 0 (rangesAt chunks part.1)) := by
  obtain ⟨covered, rest, hcover, hlen, hblank⟩ := checkCovered_eq_ok hcovered
  rw [← map_range_chunksAt] at hlen ⊢
  unfold canonicalPart
  cases hsorted : chunksAt chunks part.1 with
  | nil =>
    refine ⟨fun _ _ => rfl, fun _ => ⟨[], part.2, rfl, rfl, ?_, rfl⟩⟩
    rw [hsorted] at hlen
    obtain ⟨m, hm, -⟩ := Text.prefix_of_len hcover (List.nil_append part.2).symm hlen.le
    rw [hcover, (List.append_eq_nil_iff.mp hm.symm).1]
    exact hblank
  | cons first more =>
    have hmem : ∀ c ∈ first :: more, c ∈ chunks ∧ c.passage.location = part.1 := fun c hc =>
      mem_chunksAt.mp (hsorted ▸ hc)
    have hfirst := hdrawn first (hmem first (List.mem_cons_self ..)).1
    have hslice : ∀ c ∈ first :: more, part.2.slice? c.passage.start.val c.passage.stop.val = some c.text := by
      intro c hc
      obtain ⟨hc, hlocation⟩ := hmem c hc
      obtain ⟨text, htext, hslice⟩ := (hdrawn c hc).part
      rw [hlocation] at htext
      rwa [← List.inj_on_of_nodup_map hnodup htext hpart rfl]
    obtain ⟨hgapless, hassembles⟩ := foldlM_assembleStep first.passage
      (fun c hc => ⟨(hdrawn c (hmem c hc).1).source.trans hfirst.source.symm,
        (hdrawn c (hmem c hc).1).version.trans hfirst.version.symm⟩) hslice (List.nil_append part.2).symm
    constructor
    · intro text h
      obtain ⟨assembled, hassembled, -⟩ := bind_eq_ok.mp h
      exact hgapless assembled hassembled
    · intro h
      obtain ⟨text, rest', hfold, hbegins, hfurthest⟩ := hassembles h
      refine ⟨text, rest', bind_eq_ok.mpr ⟨text, hfold, rfl⟩, hbegins, ?_, hfurthest⟩
      rw [hsorted] at hlen
      obtain ⟨m, -, hrest⟩ := Text.prefix_of_len hcover hbegins (hlen.trans hfurthest.symm).le
      rw [hrest, Text.isBlank, List.all_append, Bool.and_eq_true] at hblank
      exact hblank.2

/-- The parts read back together just where no part has a gap. -/
theorem canonicalParts_spec (hnodup : (x.parts.map Prod.fst).Nodup) (hdrawn : ∀ c ∈ chunks, c.Drawn x)
    (hcovered : ∀ part ∈ x.parts, checkCovered chunks part = .ok ⟨⟩) :
    (∃ texts, canonicalParts chunks = .ok texts) ↔ Gapless chunks x.parts := by
  constructor
  · rintro ⟨texts, h⟩ part hpart
    by_cases hchunk : ∃ c ∈ chunks, c.passage.location = part.1
    · obtain ⟨text, -, htext⟩ := (mem_of_mapM_eq_ok h).1 part.1 (mem_locations.mpr hchunk)
      exact (canonicalPart_spec hnodup hdrawn hpart (hcovered part hpart)).1 text htext
    · have hnil : chunksAt chunks part.1 = [] := List.eq_nil_iff_forall_not_mem.mpr fun c hc =>
        hchunk ⟨c, mem_chunksAt.mp hc⟩
      rw [← map_range_chunksAt, hnil]
      rfl
  · intro hgapless
    refine mapM_succeeds fun location hlocation => ?_
    obtain ⟨c, hc, rfl⟩ := mem_locations.mp hlocation
    obtain ⟨original, horiginal, -⟩ := (hdrawn c hc).part
    obtain ⟨text, -, htext, -⟩ := (canonicalPart_spec hnodup hdrawn horiginal (hcovered _ horiginal)).2
      (hgapless _ horiginal)
    exact ⟨_, htext⟩

/-- A text that was read back is its part without blanks at its end. -/
structure ReadBack (x : Indexing Values) (chunks : List (Chunk Values)) (text : TextPart × Text) : Prop where
  chunk : ∃ c ∈ chunks, c.passage.location = text.1
  part : ∃ blank : Text, blank.isBlank = true ∧ (text.1, text.2 ++ blank) ∈ x.parts
  length : text.2.len < 2 ^ 32

theorem readBack_of_canonicalPart (hnodup : (x.parts.map Prod.fst).Nodup) (hdrawn : ∀ c ∈ chunks, c.Drawn x)
    (hcovered : ∀ part ∈ x.parts, checkCovered chunks part = .ok ⟨⟩) (hgapless : Gapless chunks x.parts)
    {texts : List (TextPart × Text)} (h : canonicalParts chunks = .ok texts) :
    ∀ text ∈ texts, canonicalPart chunks text.1 = .ok text ∧ ReadBack x chunks text := by
  intro text htext
  obtain ⟨location, hlocation, hcanonical⟩ := (mem_of_mapM_eq_ok h).2 text htext
  obtain ⟨c, hc, rfl⟩ := mem_locations.mp hlocation
  have hsame := canonicalPart_location hcanonical
  obtain ⟨original, horiginal, -⟩ := (hdrawn c hc).part
  obtain ⟨found, blank, hfound, hpart, hblank, hlen⟩ :=
    (canonicalPart_spec hnodup hdrawn horiginal (hcovered _ horiginal)).2 (hgapless _ horiginal)
  cases hcanonical.symm.trans hfound
  refine ⟨hfound, ⟨c, hc, rfl⟩, ⟨blank, hblank, hpart ▸ horiginal⟩, ?_⟩
  rw [hlen]
  refine Slices.furthest_lt (by decide) fun range hrange => ?_
  rw [← map_range_chunksAt, List.mem_map] at hrange
  obtain ⟨c', -, rfl⟩ := hrange
  exact c'.passage.stop.isLt

theorem kept_of_canonicalParts (hnodup : (x.parts.map Prod.fst).Nodup) (hdrawn : ∀ c ∈ chunks, c.Drawn x)
    (hcovered : ∀ part ∈ x.parts, checkCovered chunks part = .ok ⟨⟩) (hgapless : Gapless chunks x.parts)
    {texts : List (TextPart × Text)} (h : canonicalParts chunks = .ok texts) :
    (∀ part ∈ x.parts, ∃ text blank : Text, part.2 = text ++ blank ∧ blank.isBlank = true ∧
      ((∃ c ∈ chunks, c.passage.location = part.1) → (part.1, text) ∈ texts)) ∧ Query.Kept x.parts texts := by
  have hparts : ∀ part ∈ x.parts, ∃ text blank : Text, part.2 = text ++ blank ∧ blank.isBlank = true ∧
      ((∃ c ∈ chunks, c.passage.location = part.1) ∧ (part.1, text) ∈ texts ∨
        (¬∃ c ∈ chunks, c.passage.location = part.1) ∧ text = []) := by
    intro part hpart
    obtain ⟨text, blank, htext, hsame, hblank, hlen⟩ :=
      (canonicalPart_spec hnodup hdrawn hpart (hcovered part hpart)).2 (hgapless part hpart)
    refine ⟨text, blank, hsame, hblank, ?_⟩
    by_cases hchunk : ∃ c ∈ chunks, c.passage.location = part.1
    · obtain ⟨found, hfound, hcanonical⟩ := (mem_of_mapM_eq_ok h).1 part.1 (mem_locations.mpr hchunk)
      cases htext.symm.trans hcanonical
      exact .inl ⟨hchunk, hfound⟩
    · have hnil : chunksAt chunks part.1 = [] := List.eq_nil_iff_forall_not_mem.mpr fun c hc =>
        hchunk ⟨c, mem_chunksAt.mp hc⟩
      rw [canonicalPart, hnil] at htext
      cases htext
      exact .inr ⟨hchunk, rfl⟩
  refine ⟨fun part hpart => ?_, fun part hpart => ?_, fun text htext => ?_⟩
  · obtain ⟨text, blank, hsame, hblank, ⟨-, htext⟩ | ⟨hnone, -⟩⟩ := hparts part hpart
    · exact ⟨text, blank, hsame, hblank, fun _ => htext⟩
    · exact ⟨text, blank, hsame, hblank, fun hchunk => absurd hchunk hnone⟩
  · obtain ⟨text, blank, hsame, hblank, ⟨-, htext⟩ | ⟨-, hnil⟩⟩ := hparts part hpart
    · exact ⟨text, blank, hsame, hblank, .inr htext⟩
    · exact ⟨text, blank, hsame, hblank, .inl hnil⟩
  · exact (readBack_of_canonicalPart hnodup hdrawn hcovered hgapless h text htext).2.part

end Indexing

/-! ### Searching a ready projection -/

namespace Text

/-- An alphanumeric run. -/
def IsWord [Unicode] (s : Text) : Prop := s ≠ [] ∧ ∀ c ∈ s, Unicode.isAlphanumeric c = true

/-- A phrase without white space around it. -/
def IsPhrase (s : Text) : Prop :=
  s ≠ [] ∧ (∀ c, s.head? = some c → isWhitespace c = false) ∧ s.EndsVisible

theorem IsWord.endsVisible [Unicode] {s : Text} (h : s.IsWord) : s.EndsVisible := by
  intro c hc
  by_contra hwhite
  rw [Bool.not_eq_false] at hwhite
  have := h.2 c (List.mem_of_getLast? hc)
  rw [Unicode.alphanumeric_whitespace c hwhite] at this
  cases this

/-- What ends visibly stands in a text where it stands with blanks behind the text. -/
theorem slice?_of_append_blank {text blank s : Text} {start stop : ℕ} (hblank : blank.isBlank = true)
    (hne : s ≠ []) (hvisible : s.EndsVisible) (h : slice? (text ++ blank) start stop = some s) :
    text.slice? start stop = some s := by
  obtain ⟨p, q, hsplit, hp, hstop⟩ := slice?_eq_some.mp h
  have hends : (p ++ s).EndsVisible := fun c hc => by
    rw [List.getLast?_append_of_ne_nil _ hne] at hc
    exact hvisible c hc
  obtain ⟨m, rfl⟩ := prefix_of_append_blank hends hblank ⟨q, by rw [hsplit, List.append_assoc]⟩
  exact slice?_eq_some.mpr ⟨p, m, List.append_assoc .., hp, hstop⟩

end Text

/-- The phrase of a query has no white space around it. -/
def Query.Trimmed : Query → Prop
  | .phrase given => given.IsPhrase
  | .words _ => True

/-- What reassembly owes a search: the texts keep every word and phrase of the parts where it
stands, a search of them never fails, and it finds the words and phrases of the parts. -/
structure Reassembled [Crypto] [Unicode] (x : Indexing Values) (chunks : List (Chunk Values))
    (texts : List (TextPart × Text)) : Prop where
  canonical : canonicalParts chunks = .ok texts
  occurs : ∀ part ∈ x.parts, (∃ c ∈ chunks, c.passage.location = part.1) → ∃ text, (part.1, text) ∈ texts ∧
    ∀ (start stop : ℕ) (s : Text), part.2.slice? start stop = some s → s.IsWord ∨ s.IsPhrase →
      text.slice? start stop = some s
  searched : ∀ query : Query, ∃ found, searchReady x.identity x.version query chunks = .ok found ∧
    (query.Trimmed → found.isSome = (query.locate x.parts).isSome)

namespace Indexing
variable [Crypto] [Unicode] {x : Indexing Values} {chunks : List (Chunk Values)}

/-- A match in the texts is a passage of its part. -/
theorem literalCandidate_succeeds (hdrawn : ∀ c ∈ chunks, c.Drawn x) {texts : List (TextPart × Text)}
    (htexts : ∀ text ∈ texts, canonicalPart chunks text.1 = .ok text ∧ ReadBack x chunks text) (query : Query) :
    ∃ found, literalCandidate x.identity x.version query texts = .ok found ∧
      found.isSome = (query.locate texts).isSome := by
  unfold literalCandidate
  cases hlocate : query.locate texts with
  | none => exact ⟨none, rfl, rfl⟩
  | some found =>
    obtain ⟨location, start, stop⟩ := found
    obtain ⟨text, htext, hlt, selected, hselected⟩ := Query.locate_eq_some hlocate
    obtain ⟨hcanonical, hread⟩ := htexts _ htext
    obtain ⟨c, hc, -⟩ := hread.chunk
    have hmatches : x.version.matches x.identity = true := by
      rw [← (hdrawn c hc).source, ← (hdrawn c hc).version]
      exact c.passage.valid.1
    obtain ⟨p, q, rfl, hp, hstop⟩ := Text.slice?_eq_some.mp hselected
    have hwithin : stop ≤ Text.len (p ++ (selected ++ q)) := by
      rw [Text.len_append, Text.len_append]
      omega
    have hstop32 : stop < 2 ^ 32 := hwithin.trans_lt hread.length
    have hlt32 : (⟨start, hlt.trans hstop32⟩ : U32) < ⟨stop, hstop32⟩ := hlt
    obtain ⟨passage, hpassage⟩ := Passage.new_succeeds 1 location hmatches (by decide) hlt32 hselected
    obtain ⟨-, -, verified, -, hverified⟩ := Passage.new_eq_ok hpassage
    have hfind : texts.find? (·.1 = location) = some (location, p ++ (selected ++ q)) := by
      cases hfound : texts.find? (·.1 = location) with
      | none => exact absurd (by simp) (List.find?_eq_none.mp hfound _ htext)
      | some other =>
        have hother := (htexts other (List.mem_of_find?_eq_some hfound)).1
        rw [show other.1 = location by simpa using List.find?_some hfound] at hother
        cases hother.symm.trans hcanonical
        rfl
    refine ⟨some (passage, verified), bind_eq_ok.mpr ⟨_, okOr_eq_ok.mpr hfind, bind_eq_ok.mpr
      ⟨⟨start, hlt.trans hstop32⟩, okOr_eq_ok.mpr (Checked.ofNat_eq_some.mpr rfl), bind_eq_ok.mpr
      ⟨⟨stop, hstop32⟩, okOr_eq_ok.mpr (Checked.ofNat_eq_some.mpr rfl), bind_eq_ok.mpr
      ⟨passage, mapError_eq_ok.mpr hpassage, bind_eq_ok.mpr
      ⟨verified, mapError_eq_ok.mpr hverified, rfl⟩⟩⟩⟩⟩, rfl⟩

omit [Crypto] [Unicode] in
theorem visible_of_trimmed {query : Query} (h : query.Trimmed) : query.Visible := by
  cases query with
  | phrase given => exact h.2.2
  | words required => trivial

/-- **Ready projections reassemble exactly where their chunks leave no gap**, and what is
searched then has the words and the phrases of the parts. -/
theorem search_reassembles (x : Indexing Values) {texts : List (TextPart × Text)}
    (hparts : canonical texts = .ok x.parts) {responses : List (Prepared Values)}
    {chunks : List (Chunk Values)} (hready : x.run responses = .ready x.profile chunks) :
    (∃ texts, Reassembled x chunks texts) ↔ Gapless chunks x.parts := by
  have hnodup := canonical_nodup hparts
  have hsound := x.run_sound responses
  rw [hready] at hsound
  obtain ⟨hdrawn, hcovered⟩ := hsound rfl
  constructor
  · rintro ⟨texts, h⟩
    exact (canonicalParts_spec hnodup hdrawn hcovered).mp ⟨texts, h.canonical⟩
  · intro hgapless
    obtain ⟨texts, hcanonical⟩ := (canonicalParts_spec hnodup hdrawn hcovered).mpr hgapless
    obtain ⟨hoccurs, hkept⟩ := kept_of_canonicalParts hnodup hdrawn hcovered hgapless hcanonical
    refine ⟨texts, hcanonical, fun part hpart hchunk => ?_, fun query => ?_⟩
    · obtain ⟨text, blank, hsame, hblank, htext⟩ := hoccurs part hpart
      refine ⟨text, htext hchunk, fun start stop s hs hliteral => ?_⟩
      rw [hsame] at hs
      rcases hliteral with hword | hphrase
      · exact Text.slice?_of_append_blank hblank hword.1 hword.endsVisible hs
      · exact Text.slice?_of_append_blank hblank hphrase.1 hphrase.2.2 hs
    · obtain ⟨found, hfound, hsome⟩ := literalCandidate_succeeds hdrawn
        (readBack_of_canonicalPart hnodup hdrawn hcovered hgapless hcanonical) query
      exact ⟨found, bind_eq_ok.mpr ⟨texts, hcanonical, hfound⟩, fun htrimmed =>
        hsome.trans (hkept.locate_isSome (visible_of_trimmed htrimmed))⟩

end Indexing

namespace Indexing
namespace Example

@[reducible] def crypto : Crypto := ⟨fun _ => zero32, fun _ => true, fun _ _ _ => true⟩

theorem isWhitespace_iff {c : Char} : isWhitespace c = true ↔ (9 ≤ c.toNat ∧ c.toNat ≤ 13) ∨
    (0x2000 ≤ c.toNat ∧ c.toNat ≤ 0x200A) ∨
      c.toNat ∈ [0x20, 0x85, 0xA0, 0x1680, 0x2028, 0x2029, 0x202F, 0x205F, 0x3000] := decide_eq_true_iff

theorem isAlphanum_whitespace (c : Char) (hc : isWhitespace c = true) : c.isAlphanum = false := by
  rw [isWhitespace_iff] at hc
  simp only [List.mem_cons, List.not_mem_nil, or_false] at hc
  refine Bool.eq_false_iff.mpr fun hvisible => ?_
  have hcases : ((c.isUpper || c.isLower) || c.isDigit) = true := hvisible
  rw [Bool.or_eq_true, Bool.or_eq_true, isUpper_iff, isLower_iff, isDigit_iff] at hcases
  omega

theorem isWhitespace_toLower (c : Char) : isWhitespace c.toLower = isWhitespace c := by
  unfold Char.toLower
  split_ifs with h
  · simp only [ge_iff_le, UInt32.le_iff_toNat_le, Char.toNat_val] at h
    have hfirst : 'A'.toNat = 65 := rfl
    have hlast : 'Z'.toNat = 90 := rfl
    rw [Bool.eq_iff_iff, isWhitespace_iff, isWhitespace_iff]
    simp only [List.mem_cons, List.not_mem_nil, or_false, Char.toNat]
    simp
    omega
  · rfl

theorem toLower_whitespace (c : Char) (hc : isWhitespace c = true) : c.toLower = c := by
  unfold Char.toLower
  split_ifs with h
  · exfalso
    simp only [ge_iff_le, UInt32.le_iff_toNat_le, Char.toNat_val] at h
    have hfirst : 'A'.toNat = 65 := rfl
    have hlast : 'Z'.toNat = 90 := rfl
    rw [isWhitespace_iff] at hc
    simp only [List.mem_cons, List.not_mem_nil, or_false] at hc
    omega
  · rfl

/-- Unicode as far as ASCII text needs it. -/
@[reducible] def ascii : Unicode where
  isAlphanumeric := Char.isAlphanum
  isCased := Char.isAlpha
  isCaseIgnorable c := c.toNat ∈ [0x27, 0x2E, 0x3A, 0x5E, 0x60]
  toLowercase c := [c.toLower]
  alphanumeric_whitespace := isAlphanum_whitespace
  lowercase_whitespace c hc := congrArg (fun d => [d]) (toLower_whitespace c hc)
  lowercase_visible c hc := ⟨List.cons_ne_nil _ _,
    List.forall_mem_singleton.mpr ((isWhitespace_toLower c).trans hc)⟩

/-- A copy whose body begins with white space. -/
def indexing : Indexing Unit where
  identity := ⟨⟨1⟩, .message .native ⟨1, by decide⟩ ⟨1⟩, by decide⟩
  version := .message ⟨zero32⟩
  parts := [(.body 0, "  hello world".toList)]
  profile := zero32
  embeds _ := true

/-- Two overlapping passages, from an offset on. -/
def response (start : U32) : Prepared Unit := ⟨[⟨0, start, 9, ()⟩, ⟨0, 7, 13, ()⟩], true⟩

def passage (start stop : U32) (h : start < stop) : Passage :=
  ⟨indexing.identity, indexing.version, 1, .body 0, start, stop, zero32, rfl, by decide, h⟩

/-- The chunks of all of the body. -/
def whole : List (Chunk Unit) :=
  [⟨passage 0 9 (by decide), "  hello w".toList, ()⟩, ⟨passage 7 13 (by decide), " world".toList, ()⟩]

/-- The chunks without the white space before the first word. -/
def indented : List (Chunk Unit) :=
  [⟨passage 2 9 (by decide), "hello w".toList, ()⟩, ⟨passage 7 13 (by decide), " world".toList, ()⟩]

end Example

/-- The body is read back where the passages hold all of it. -/
theorem search_reassembles_whole : (∃ texts, @Reassembled _ Example.crypto Example.ascii Example.indexing
    Example.whole texts) ↔ Gapless Example.whole Example.indexing.parts :=
  @search_reassembles _ Example.crypto Example.ascii Example.indexing Example.indexing.parts rfl
    [Example.response 0] Example.whole rfl

/-- The indexer passes over the white space before the first word, the searcher does not. -/
theorem reassembly_refused : ¬∀ (_ : Crypto) (_ : Unicode) (x : Indexing Unit) (texts : List (TextPart × Text))
    (responses : List (Prepared Unit)) (chunks : List (Chunk Unit)), canonical texts = .ok x.parts →
      x.run responses = .ready x.profile chunks → ∃ texts, Reassembled x chunks texts := by
  intro h
  obtain ⟨texts, hreassembled⟩ := h Example.crypto Example.ascii Example.indexing Example.indexing.parts
    [Example.response 2] Example.indented rfl rfl
  have hrefused : canonicalParts Example.indented = .error .invalidData := rfl
  cases hrefused.symm.trans (@Reassembled.canonical _ Example.crypto Example.ascii _ _ _ hreassembled)

end Indexing
end CsMail
