import CsMail.Search.Query
import Mathlib.Data.List.DropRight

/-! Blanks at the end of a text change nothing that a query finds.

Words are read segment by segment, and blanks add only segments without a word
(`words_append_blank`). A phrase that does not end in white space ends before the blanks
wherever it stands, in lower case as in the text (`literalRange_append_blank`). So a query finds
in a text what it finds in the text without the blanks at its end. -/
namespace CsMail
open Library
namespace Text

/-! ### Segments -/

variable {p : Char → Bool} {s t : Text}

theorem trimEnd_eq_nil : trimEnd p s = [] ↔ ∀ c ∈ s, p c = true := List.rdropWhile_eq_nil_iff

theorem trimEnd_cons {c : Char} (hc : p c = false) : trimEnd p (c :: s) = c :: trimEnd p s := by
  unfold trimEnd
  rw [List.reverse_cons, List.dropWhile_append]
  cases hdrop : s.reverse.dropWhile p with
  | nil => simp [hc]
  | cons d rest => simp

/-- The segments of a text, and those of the text with only separators behind it. -/
inductive Trails (p : Char → Bool) : List Text → List Text → Prop
  | blank {extra : List Text} : (∀ s ∈ extra, trimEnd p s = []) → Trails p [] extra
  | last {s s' : Text} {extra : List Text} : trimEnd p s = trimEnd p s' →
      (∀ s ∈ extra, trimEnd p s = []) → Trails p [s] (s' :: extra)
  | cons {s : Text} {segments segments' : List Text} : Trails p segments segments' →
      Trails p (s :: segments) (s :: segments')

theorem splitInclusive_separators (ht : ∀ c ∈ t, p c = true) :
    ∀ s ∈ splitInclusive p t, trimEnd p s = [] := by
  induction t with
  | nil => simp [splitInclusive]
  | cons c rest ih =>
    rw [splitInclusive, if_pos (ht c (List.mem_cons_self ..)), List.forall_mem_cons]
    refine ⟨trimEnd_eq_nil.mpr fun d hd => ?_, ih fun d hd => ht d (List.mem_cons_of_mem c hd)⟩
    rw [List.mem_singleton.mp hd]
    exact ht c (List.mem_cons_self ..)

theorem splitInclusive_append {extra : Text} (hextra : ∀ c ∈ extra, p c = true) :
    Trails p (splitInclusive p t) (splitInclusive p (t ++ extra)) := by
  induction t with
  | nil => exact .blank (splitInclusive_separators hextra)
  | cons c rest ih =>
    rw [List.cons_append, splitInclusive, splitInclusive]
    by_cases hc : p c = true
    · rw [if_pos hc, if_pos hc]
      exact .cons ih
    · rw [if_neg hc, if_neg hc]
      rw [Bool.not_eq_true] at hc
      cases hsplit : splitInclusive p rest <;> cases hsplit' : splitInclusive p (rest ++ extra) <;>
        rw [hsplit, hsplit'] at ih
      case nil.nil => exact .last rfl (by simp)
      case nil.cons s' more =>
        cases ih with
        | blank hblank =>
          rw [List.forall_mem_cons] at hblank
          exact .last (by rw [trimEnd_cons hc, trimEnd_cons hc, hblank.1]; rfl) hblank.2
      case cons.nil => cases ih
      case cons.cons s more s' more' =>
        cases ih with
        | last hsame hblank => exact .last (by rw [trimEnd_cons hc, trimEnd_cons hc, hsame]) hblank
        | cons hmore => exact .cons hmore

theorem trimmed_blank {extra : List Text} (hextra : ∀ s ∈ extra, trimEnd p s = []) (offset : ℕ) :
    (trimmed p offset extra).filter (fun w => !w.2.isEmpty) = [] := by
  induction extra generalizing offset with
  | nil => rfl
  | cons s more ih =>
    rw [List.forall_mem_cons] at hextra
    rw [trimmed, List.filter_cons_of_neg (by simp [hextra.1]), ih hextra.2]

theorem trimmed_trails {segments segments' : List Text} (h : Trails p segments segments') (offset : ℕ) :
    (trimmed p offset segments').filter (fun w => !w.2.isEmpty) =
      (trimmed p offset segments).filter fun w => !w.2.isEmpty := by
  induction h generalizing offset with
  | blank hblank => rw [trimmed_blank hblank, trimmed, List.filter_nil]
  | @last s s' extra hsame hblank =>
    rw [trimmed, trimmed, trimmed, hsame, List.filter_cons, List.filter_cons, trimmed_blank hblank,
      List.filter_nil]
  | cons _ ih => rw [trimmed, trimmed, List.filter_cons, List.filter_cons, ih]

variable [Unicode]

theorem words_append_blank {blank : Text} (hblank : blank.isBlank = true) : words (t ++ blank) = words t :=
  trimmed_trails (splitInclusive_append fun c hc => by
    rw [separates, Unicode.alphanumeric_whitespace c (List.all_eq_true.mp hblank c hc), Bool.not_false]) 0

/-! ### Lower case -/

/-- The text ends in a visible character. -/
def EndsVisible (t : Text) : Prop := ∀ c, t.getLast? = some c → isWhitespace c = false

theorem lowercaseAt_ne_nil (before : Text) (c : Char) (rest : Text) : lowercaseAt before c rest ≠ [] := by
  unfold lowercaseAt
  by_cases hsigma : c = 'Σ'
  · rw [if_pos hsigma]
    exact List.cons_ne_nil _ _
  · rw [if_neg hsigma]
    by_cases hc : isWhitespace c = true
    · rw [Unicode.lowercase_whitespace c hc]
      exact List.cons_ne_nil _ _
    · exact (Unicode.lowercase_visible c (Bool.not_eq_true _ ▸ hc)).1

theorem lowercaseAt_visible {before : Text} {c : Char} {rest : Text} (hc : isWhitespace c = false) :
    ∀ d ∈ lowercaseAt before c rest, isWhitespace d = false := by
  unfold lowercaseAt
  by_cases hsigma : c = 'Σ'
  · rw [if_pos hsigma]
    intro d hd
    rw [List.mem_singleton.mp hd]
    split_ifs <;> decide
  · rw [if_neg hsigma]
    exact (Unicode.lowercase_visible c hc).2

theorem lowercaseAfter_endsVisible {before : Text} (ht : t.EndsVisible) :
    (lowercaseAfter before t).EndsVisible := by
  induction t generalizing before with
  | nil =>
    intro c hc
    cases hc
  | cons c rest ih =>
    cases rest with
    | nil =>
      intro d hd
      rw [lowercaseAfter, lowercaseAfter, List.append_nil] at hd
      exact lowercaseAt_visible (ht c rfl) d (List.mem_of_getLast? hd)
    | cons c' rest =>
      have hrest : Text.EndsVisible (c' :: rest) := fun d hd =>
        ht d (by rw [List.getLast?_cons_cons]; exact hd)
      have hne : lowercaseAfter (c :: before) (c' :: rest) ≠ [] := fun hnil =>
        lowercaseAt_ne_nil _ _ _ (List.append_eq_nil_iff.mp hnil).1
      intro d hd
      rw [lowercaseAfter, List.getLast?_append_of_ne_nil _ hne] at hd
      exact ih hrest d hd

/-! ### Where a pattern stands -/

omit [Unicode] in
/-- A pattern that ends visibly does not reach into the blanks behind a text. -/
theorem prefix_of_append_blank {pattern t blank : Text} (hvisible : pattern.EndsVisible)
    (hblank : blank.isBlank = true) (h : pattern <+: t ++ blank) : pattern <+: t := by
  obtain ⟨rest, hrest⟩ := h
  rcases List.append_eq_append_iff.mp hrest with ⟨m, ht, -⟩ | ⟨m, hpattern, hm⟩
  · exact ⟨m, ht.symm⟩
  · cases m with
    | nil => exact ⟨[], by rw [hpattern, List.append_nil, List.append_nil]⟩
    | cons c m =>
      exfalso
      have hlast : pattern.getLast? = (c :: m).getLast? := by
        rw [hpattern, List.getLast?_append_of_ne_nil _ (List.cons_ne_nil c m)]
      have hmem : (c :: m).getLast (List.cons_ne_nil c m) ∈ blank := by
        rw [hm]
        exact List.mem_append_left _ (List.getLast_mem _)
      have hwhite := List.all_eq_true.mp hblank _ hmem
      rw [hvisible _ (hlast.trans (List.getLast?_eq_some_getLast _))] at hwhite
      cases hwhite

omit [Unicode] in
theorem matchIndices_append_blank {pattern blank : Text} (hne : pattern ≠ [])
    (hvisible : pattern.EndsVisible) (hblank : blank.isBlank = true) (offset skip : ℕ) :
    matchIndices pattern offset skip (t ++ blank) = matchIndices pattern offset skip t := by
  induction t generalizing offset skip with
  | nil =>
    induction blank generalizing offset skip with
    | nil => rfl
    | cons c rest ih =>
      rw [isBlank, List.all_cons, Bool.and_eq_true] at hblank
      cases skip with
      | succ skip => exact ih hblank.2 _ _
      | zero =>
        have hbegins : pattern.isPrefixOf (c :: rest) = false := by
          rw [← Bool.not_eq_true, List.isPrefixOf_iff_prefix]
          intro h
          have hnil := prefix_of_append_blank (t := []) hvisible
            (by rw [isBlank, List.all_cons, Bool.and_eq_true]; exact hblank) h
          exact hne (List.prefix_nil.mp hnil)
        rw [List.nil_append]
        unfold matchIndices
        rw [hbegins]
        exact ih hblank.2 _ _
  | cons c rest ih =>
    cases skip with
    | succ skip => exact ih _ _
    | zero =>
      have hsame : pattern.isPrefixOf (c :: rest ++ blank) = pattern.isPrefixOf (c :: rest) := by
        rw [Bool.eq_iff_iff, List.isPrefixOf_iff_prefix, List.isPrefixOf_iff_prefix]
        exact ⟨prefix_of_append_blank hvisible hblank, fun h => h.trans (List.prefix_append ..)⟩
      rw [List.cons_append] at hsame ⊢
      rw [matchIndices, matchIndices, hsame, ih, ih]

omit [Unicode] in
/-- A match lies inside the text. -/
theorem matchIndices_le {pattern : Text} {offset skip start : ℕ}
    (h : start ∈ matchIndices pattern offset skip t) : start + pattern.len ≤ offset + t.len := by
  induction t generalizing offset skip with
  | nil => cases h
  | cons c rest ih =>
    rw [len_cons]
    cases skip with
    | succ skip =>
      have := ih h
      omega
    | zero =>
      rw [matchIndices] at h
      by_cases hbegins : pattern.isPrefixOf (c :: rest) = true
      · rw [if_pos hbegins, List.mem_cons] at h
        rcases h with rfl | h
        · obtain ⟨m, hm⟩ := List.isPrefixOf_iff_prefix.mp hbegins
          have := congrArg len hm
          rw [len_append, len_cons] at this
          omega
        · have := ih h
          omega
      · rw [if_neg hbegins] at h
        have := ih h
        omega

/-! ### Phrases -/

theorem fold_concat (t : Text) (c : Char) : fold (t ++ [c]) = (fold t).push c := by
  rw [fold, List.foldl_append]
  rfl

theorem fold_offset (t : Text) : (fold t).offset = t.len := by
  induction t using List.reverseRecOn with
  | nil => rfl
  | append_singleton t c ih =>
    rw [fold_concat, len_append, ← ih]
    rfl

theorem fold_folded (t : Text) : (fold t).folded = t.flatMap Unicode.toLowercase := by
  induction t using List.reverseRecOn with
  | nil => rfl
  | append_singleton t c ih =>
    rw [fold_concat, List.flatMap_append, List.flatMap_singleton, ← ih]
    rfl

theorem flatMap_blank {blank : Text} (hblank : blank.isBlank = true) :
    blank.flatMap Unicode.toLowercase = blank := by
  induction blank with
  | nil => rfl
  | cons c rest ih =>
    rw [isBlank, List.all_cons, Bool.and_eq_true] at hblank
    rw [List.flatMap_cons, ih hblank.2, Unicode.lowercase_whitespace c hblank.1]
    rfl

/-- The boundaries of what has been folded, with its end. -/
def Folding.closed (f : Folding) : SortedMap ℕ ℕ := f.boundaries.insert f.folded.len f.offset

theorem boundaries_eq (t : Text) : boundaries t = (fold t).closed := by
  rw [boundaries, Folding.closed, fold_offset]

/-- Blanks behind a text move none of its boundaries. -/
theorem Folding.closed_blank {blank : Text} (hblank : blank.isBlank = true) (f : Folding) {k : ℕ}
    (hk : k ≤ f.folded.len) : (blank.foldl Folding.push f).closed.get? k = f.closed.get? k := by
  induction blank generalizing f with
  | nil => rfl
  | cons c rest ih =>
    rw [isBlank, List.all_cons, Bool.and_eq_true] at hblank
    have hlen : (f.push c).folded.len = f.folded.len + c.utf8Size := by
      simp [push, Unicode.lowercase_whitespace c hblank.1]
    have hpos := c.utf8Size_pos
    rw [List.foldl_cons, ih hblank.2 (f.push c) (by omega)]
    exact SortedMap.get?_insert_ne _ _ (by omega)

theorem boundaries_append_blank {blank : Text} (hblank : blank.isBlank = true) {k : ℕ}
    (hk : k ≤ (fold t).folded.len) : (boundaries (t ++ blank)).get? k = (boundaries t).get? k := by
  rw [boundaries_eq, boundaries_eq, fold, List.foldl_append]
  exact Folding.closed_blank hblank (fold t) hk

omit [Unicode] in
theorem findSome?_congr {α β : Type*} {f g : α → Option β} {l : List α} (h : ∀ a ∈ l, f a = g a) :
    l.findSome? f = l.findSome? g := by
  induction l with
  | nil => rfl
  | cons a rest ih =>
    rw [List.forall_mem_cons] at h
    rw [List.findSome?_cons, List.findSome?_cons, h.1, ih h.2]

theorem literalRange_append_blank {phrase blank : Text} (hvisible : phrase.EndsVisible)
    (hblank : blank.isBlank = true) : literalRange (t ++ blank) phrase = literalRange t phrase := by
  unfold literalRange
  by_cases hnil : phrase.toLowercase = []
  · rw [if_pos hnil, if_pos hnil]
  · rw [if_neg hnil, if_neg hnil, fold_folded, List.flatMap_append, flatMap_blank hblank,
      matchIndices_append_blank hnil (lowercaseAfter_endsVisible hvisible) hblank, ← fold_folded]
    refine findSome?_congr fun start hstart => ?_
    have hle := matchIndices_le hstart
    rw [boundaries_append_blank hblank (by omega), boundaries_append_blank hblank (by omega)]

/-- Where a boundary stands in the text, and what has been folded before it. -/
theorem boundaries_eq_some {k offset : ℕ} (h : (boundaries t).get? k = some offset) :
    ∃ p q : Text, t = p ++ q ∧ p.len = offset ∧ (fold p).folded.len = k := by
  have hinner : ∀ t : Text, ∀ k offset, (fold t).boundaries.get? k = some offset →
      ∃ p q : Text, t = p ++ q ∧ p.len = offset ∧ (fold p).folded.len = k := by
    intro t
    induction t using List.reverseRecOn with
    | nil =>
      intro k offset h
      cases h
    | append_singleton t c ih =>
      intro k offset h
      rw [fold_concat] at h
      rcases SortedMap.get?_insert_eq_some.mp h with ⟨rfl, rfl⟩ | ⟨-, hold⟩
      · exact ⟨t, [c], rfl, (fold_offset t).symm, rfl⟩
      · obtain ⟨p, q, rfl, hp, hk⟩ := ih k offset hold
        exact ⟨p, q ++ [c], by rw [List.append_assoc], hp, hk⟩
  rcases SortedMap.get?_insert_eq_some.mp h with ⟨rfl, rfl⟩ | ⟨-, hold⟩
  · exact ⟨t, [], (List.append_nil t).symm, rfl, rfl⟩
  · exact hinner t k offset hold

theorem len_folded_le (p m : Text) : (fold p).folded.len ≤ (fold (p ++ m)).folded.len := by
  rw [fold_folded, fold_folded, List.flatMap_append, len_append]
  exact Nat.le_add_right _ _

/-- A phrase is found at a range of the text that is not empty. -/
theorem literalRange_eq_some {phrase : Text} {start stop : ℕ} (h : literalRange t phrase = some (start, stop)) :
    start < stop ∧ ∃ s, t.slice? start stop = some s := by
  unfold literalRange at h
  by_cases hnil : phrase.toLowercase = []
  · rw [if_pos hnil] at h
    cases h
  · rw [if_neg hnil] at h
    obtain ⟨k, -, hk⟩ := List.exists_of_findSome?_eq_some h
    simp only [Option.bind_eq_bind, Option.bind_eq_some_iff, Option.some.injEq, Prod.mk.injEq] at hk
    obtain ⟨_, hstart, _, hstop, rfl, rfl⟩ := hk
    obtain ⟨p, q, ht, rfl, hp⟩ := boundaries_eq_some hstart
    obtain ⟨p', q', ht', rfl, hp'⟩ := boundaries_eq_some hstop
    have hlower : 0 < phrase.toLowercase.len := by
      cases hphrase : phrase.toLowercase with
      | nil => exact absurd hphrase hnil
      | cons c rest =>
        rw [len_cons]
        have := c.utf8Size_pos
        omega
    have hlt : p.len < p'.len := by
      by_contra hle
      obtain ⟨m, rfl, -⟩ := prefix_of_len ht' ht (not_lt.mp hle)
      have := len_folded_le p' m
      omega
    obtain ⟨m, rfl, rfl⟩ := prefix_of_len ht ht' hlt.le
    exact ⟨hlt, m, slice?_eq_some.mpr ⟨p, q', ht, rfl, (len_append p m).symm⟩⟩

/-! ### Words -/

omit [Unicode] in
theorem splitInclusive_flatten (p : Char → Bool) (t : Text) : (splitInclusive p t).flatten = t := by
  induction t with
  | nil => rfl
  | cons c rest ih =>
    rw [splitInclusive]
    by_cases hc : p c = true
    · rw [if_pos hc, List.flatten_cons, ih]
      rfl
    · rw [if_neg hc]
      cases hsplit : splitInclusive p rest with
      | nil =>
        rw [hsplit] at ih
        rw [← ih]
        rfl
      | cons segment more =>
        rw [hsplit] at ih
        rw [← ih]
        rfl

omit [Unicode] in
theorem trimEnd_prefix (p : Char → Bool) (s : Text) : trimEnd p s <+: s := List.rdropWhile_prefix p s

/-- The word stands in the text where its offset says. -/
def Stands (t : Text) (w : ℕ × Text) : Prop := ∃ before after : Text,
  t = before ++ (w.2 ++ after) ∧ before.len = w.1

omit [Unicode] in
/-- Segments stand one behind the other, and each before the one that follows ends. -/
theorem trimmed_stands (p : Char → Bool) (before : Text) (segments : List Text) :
    (∀ w ∈ trimmed p before.len segments, Stands (before ++ segments.flatten) w ∧ before.len ≤ w.1) ∧
      (trimmed p before.len segments).Pairwise fun w w' => w.1 + w.2.len ≤ w'.1 := by
  induction segments generalizing before with
  | nil => exact ⟨by simp [trimmed], List.Pairwise.nil⟩
  | cons s more ih =>
    obtain ⟨hmore, hpairwise⟩ := ih (before ++ s)
    rw [len_append] at hmore hpairwise
    obtain ⟨rest, hs⟩ := trimEnd_prefix p s
    have hlen := congrArg len hs
    rw [len_append] at hlen
    rw [trimmed, List.forall_mem_cons, List.pairwise_cons]
    refine ⟨⟨⟨⟨before, rest ++ more.flatten, ?_, rfl⟩, le_refl _⟩, fun w hw => ⟨?_, ?_⟩⟩,
      fun w hw => ?_, hpairwise⟩
    · rw [List.flatten_cons, ← List.append_assoc (trimEnd p s), hs]
    · rw [List.flatten_cons, ← List.append_assoc]
      exact (hmore w hw).1
    · have := (hmore w hw).2
      omega
    · have := (hmore w hw).2
      dsimp only
      omega

theorem words_stand : (∀ w ∈ t.words, t.Stands w ∧ w.2 ≠ []) ∧
    t.words.Pairwise fun w w' => w.1 + w.2.len ≤ w'.1 := by
  obtain ⟨hstands, hpairwise⟩ := trimmed_stands separates [] (splitInclusive separates t)
  rw [splitInclusive_flatten] at hstands
  refine ⟨fun w hw => ?_, hpairwise.filter _⟩
  rw [words, List.mem_filter] at hw
  exact ⟨(hstands w hw.1).1, by simpa using hw.2⟩

/-- The word is one of the text's, in lower case. -/
def Occurs (t w : Text) : Prop := ∃ x ∈ t.words, x.2.toLowercase = w

end Text

namespace Query
variable [Unicode] {required : Finset Text}

/-! ### One part -/

theorem foldl_visit_found (required : Finset Text) (ws : List (ℕ × Text)) (s : PartWords) (w : Text) :
    w ∈ (ws.foldl (PartWords.visit required) s).found ↔
      w ∈ s.found ∨ w ∈ required ∧ ∃ x ∈ ws, x.2.toLowercase = w := by
  induction ws generalizing s with
  | nil => simp
  | cons x rest ih =>
    rw [List.foldl_cons, ih, PartWords.visit, List.exists_mem_cons_iff]
    by_cases hnew : x.2.toLowercase ∈ required ∧ x.2.toLowercase ∉ s.found
    · rw [if_pos hnew, Finset.mem_insert]
      constructor
      · rintro ((rfl | hold) | ⟨hw, hrest⟩)
        · exact .inr ⟨hnew.1, .inl rfl⟩
        · exact .inl hold
        · exact .inr ⟨hw, .inr hrest⟩
      · rintro (hold | ⟨hw, rfl | hrest⟩)
        · exact .inl (.inr hold)
        · exact .inl (.inl rfl)
        · exact .inr ⟨hw, hrest⟩
    · rw [if_neg hnew]
      constructor
      · rintro (hold | ⟨hw, hrest⟩)
        · exact .inl hold
        · exact .inr ⟨hw, .inr hrest⟩
      · rintro (hold | ⟨hw, rfl | hrest⟩)
        · exact .inl hold
        · exact .inl (not_not.mp fun hnot => hnew ⟨hw, hnot⟩)
        · exact .inr ⟨hw, hrest⟩

/-- What has been found begins and ends between characters of the text. -/
def PartWords.Ranged (text : Text) (s : PartWords) : Prop :=
  s.found = ∅ ∧ s.start = none ∨ ∃ start, s.start = some start ∧ s.found ≠ ∅ ∧ start < s.stop ∧
    ∃ selected, text.slice? start s.stop = some selected

theorem PartWords.Ranged.visit {text : Text} {s : PartWords} {w : ℕ × Text} (hs : s.Ranged text)
    (hstop : s.found ≠ ∅ → s.stop ≤ w.1) (hstands : text.Stands w) (hne : w.2 ≠ []) :
    (s.visit required w).Ranged text := by
  unfold PartWords.visit
  by_cases hnew : w.2.toLowercase ∈ required ∧ w.2.toLowercase ∉ s.found
  · rw [if_pos hnew]
    obtain ⟨before, after, htext, hbefore⟩ := hstands
    have hpos : 0 < w.2.len := by
      cases hw : w.2 with
      | nil => exact absurd hw hne
      | cons c rest =>
        rw [Text.len_cons]
        have := c.utf8Size_pos
        omega
    refine .inr ?_
    rcases hs with ⟨-, hstart⟩ | ⟨start, hstart, hfound, hlt, selected, hselected⟩
    · refine ⟨w.1, by rw [hstart]; rfl, Finset.insert_ne_empty _ _, by dsimp only; omega, w.2, ?_⟩
      exact Text.slice?_eq_some.mpr ⟨before, after, htext, hbefore, rfl⟩
    · have hle := hstop hfound
      refine ⟨start, by rw [hstart]; rfl, Finset.insert_ne_empty _ _, by dsimp only; omega, ?_⟩
      obtain ⟨p, q, htext', rfl, hlen⟩ := Text.slice?_eq_some.mp hselected
      have hend : text = (before ++ w.2) ++ after := by rw [htext, List.append_assoc]
      obtain ⟨m, hm, -⟩ := Text.prefix_of_len htext' hend (by rw [Text.len_append]; omega)
      refine ⟨m, Text.slice?_eq_some.mpr ⟨p, after, ?_, rfl, ?_⟩⟩
      · rw [hend, hm, List.append_assoc]
      · have := congrArg Text.len hm
        rw [Text.len_append, Text.len_append, hbefore] at this
        exact this.symm
  · rw [if_neg hnew]
    exact hs

theorem PartWords.stop_visit {s : PartWords} {w : ℕ × Text} {bound : ℕ}
    (hs : s.found ≠ ∅ → s.stop ≤ bound) (hw : w.1 + w.2.len ≤ bound) :
    (s.visit required w).found ≠ ∅ → (s.visit required w).stop ≤ bound := by
  unfold PartWords.visit
  by_cases hnew : w.2.toLowercase ∈ required ∧ w.2.toLowercase ∉ s.found
  · rw [if_pos hnew]
    exact fun _ => hw
  · rw [if_neg hnew]
    exact hs

theorem foldl_visit_ranged {text : Text} (ws : List (ℕ × Text)) (s : PartWords) (hs : s.Ranged text)
    (hstop : ∀ w ∈ ws, s.found ≠ ∅ → s.stop ≤ w.1) (hstands : ∀ w ∈ ws, text.Stands w ∧ w.2 ≠ [])
    (hpairwise : ws.Pairwise fun w w' => w.1 + w.2.len ≤ w'.1) :
    (ws.foldl (PartWords.visit required) s).Ranged text := by
  induction ws generalizing s with
  | nil => exact hs
  | cons w rest ih =>
    rw [List.forall_mem_cons] at hstop hstands
    rw [List.pairwise_cons] at hpairwise
    exact ih _ (hs.visit hstop.1 hstands.1.1 hstands.1.2)
      (fun w' hw' => PartWords.stop_visit (hstop.2 w' hw') (hpairwise.1 w' hw')) hstands.2 hpairwise.2

theorem mem_partWords {text w : Text} :
    w ∈ (partWords required text).found ↔ w ∈ required ∧ text.Occurs w := by
  rw [partWords, foldl_visit_found]
  exact or_iff_right_of_imp fun hempty => absurd hempty (Finset.notMem_empty w)

theorem partWords_ranged (required : Finset Text) (text : Text) : (partWords required text).Ranged text :=
  foldl_visit_ranged _ _ (.inl ⟨rfl, rfl⟩) (fun _ _ hfound => absurd rfl hfound) Text.words_stand.1
    Text.words_stand.2

/-! ### The whole message -/

/-- What the parts give so far: the best of them is a range of one of them. -/
structure Located.Sound (parts : List (TextPart × Text)) (s : Located) : Prop where
  none : s.best = none → s.found = ∅ ∧ s.bestCount = 0
  some : ∀ location start stop, s.best = some (location, start, stop) → s.found ≠ ∅ ∧
    ∃ text, (location, text) ∈ parts ∧ start < stop ∧ ∃ selected, text.slice? start stop = some selected

theorem Located.Sound.visit (required : Finset Text) {parts : List (TextPart × Text)} {s : Located}
    (hs : s.Sound parts) {part : TextPart × Text} (hpart : part ∈ parts) :
    ∃ s', s.visit required part = .some s' ∧ s'.Sound parts ∧
      s'.found = s.found ∪ (partWords required part.2).found := by
  unfold Located.visit
  dsimp only
  by_cases hbest : s.bestCount < (partWords required part.2).found.card
  · rw [if_pos hbest]
    rcases partWords_ranged required part.2 with ⟨hempty, -⟩ | ⟨start, hstart, hfound, hlt, hselected⟩
    · rw [hempty, Finset.card_empty] at hbest
      exact absurd hbest (Nat.not_lt_zero _)
    · rw [hstart]
      refine ⟨_, rfl, ⟨fun hnone => (Option.some_ne_none _ hnone).elim, ?_⟩, rfl⟩
      rintro _ _ _ ⟨⟩
      refine ⟨fun hempty => hfound ?_, part.2, hpart, hlt, hselected⟩
      exact Finset.subset_empty.mp (hempty ▸ Finset.subset_union_right)
  · rw [if_neg hbest]
    refine ⟨_, rfl, ⟨fun hnone => ?_, fun location start stop hsome => ?_⟩, rfl⟩
    · obtain ⟨hfound, hcount⟩ := hs.none hnone
      rw [hcount, Nat.not_lt, Nat.le_zero, Finset.card_eq_zero] at hbest
      exact ⟨by rw [hfound, hbest, Finset.union_empty], hcount⟩
    · obtain ⟨hfound, htext⟩ := hs.some location start stop hsome
      exact ⟨fun hempty => hfound (Finset.subset_empty.mp (hempty ▸ Finset.subset_union_left)), htext⟩

theorem foldlM_visit (required : Finset Text) {parts all : List (TextPart × Text)} (hparts : ∀ part ∈ parts, part ∈ all)
    {s : Located} (hs : s.Sound all) :
    ∃ s', parts.foldlM (Located.visit required) s = .some s' ∧ s'.Sound all ∧
      ∀ w, w ∈ s'.found ↔ w ∈ s.found ∨ w ∈ required ∧ ∃ part ∈ parts, part.2.Occurs w := by
  induction parts generalizing s with
  | nil => exact ⟨s, rfl, hs, by simp⟩
  | cons part rest ih =>
    rw [List.forall_mem_cons] at hparts
    obtain ⟨next, hnext, hsound, hfound⟩ := hs.visit required hparts.1
    obtain ⟨s', hs', hsound', hfound'⟩ := ih hparts.2 hsound
    refine ⟨s', by rw [List.foldlM_cons, hnext]; exact hs', hsound', fun w => ?_⟩
    rw [hfound', hfound, Finset.mem_union, mem_partWords, List.exists_mem_cons_iff]
    tauto

/-- What a search for words has located at the end. -/
theorem located (required : Finset Text) (parts : List (TextPart × Text)) :
    ∃ s, parts.foldlM (Located.visit required) ⟨∅, none, 0⟩ = .some s ∧ s.Sound parts ∧
      ∀ w, w ∈ s.found ↔ w ∈ required ∧ ∃ part ∈ parts, part.2.Occurs w := by
  have hstart : Located.Sound parts ⟨∅, none, 0⟩ := ⟨fun _ => ⟨rfl, rfl⟩, fun _ _ _ hsome => by cases hsome⟩
  obtain ⟨s, hs, hsound, hfound⟩ := foldlM_visit required (fun _ h => h) hstart
  exact ⟨s, hs, hsound, fun w =>
    (hfound w).trans (or_iff_right_of_imp fun hempty => absurd hempty (Finset.notMem_empty w))⟩

/-- The words are found where each occurs in some part. -/
theorem locate_words_isSome (parts : List (TextPart × Text)) : ((Query.words required).locate parts).isSome = true ↔
    required ≠ ∅ ∧ ∀ w ∈ required, ∃ part ∈ parts, part.2.Occurs w := by
  obtain ⟨s, hs, hsound, hfound⟩ := located required parts
  have hlocate : (Query.words required).locate parts = if s.found = required then s.best else none := by
    rw [locate, hs]
    rfl
  rw [hlocate]
  by_cases hall : s.found = required
  · rw [if_pos hall]
    have hall' : ∀ w ∈ required, ∃ part ∈ parts, part.2.Occurs w := fun w hw =>
      ((hfound w).mp (hall ▸ hw)).2
    cases hbest : s.best with
    | none =>
      have := hall ▸ (hsound.none hbest).1
      simp [this]
    | some best =>
      exact iff_of_true rfl ⟨hall ▸ (hsound.some best.1 best.2.1 best.2.2 hbest).1, hall'⟩
  · rw [if_neg hall]
    refine iff_of_false Bool.false_ne_true fun hrequired => hall ?_
    ext w
    rw [hfound]
    exact ⟨fun h => h.1, fun h => ⟨h, hrequired.2 w h⟩⟩

theorem locate_phrase_isSome (given : Text) (parts : List (TextPart × Text)) :
    ((Query.phrase given).locate parts).isSome = true ↔
      ∃ part ∈ parts, (part.2.literalRange given).isSome = true := by
  rw [locate, List.findSome?_isSome_iff]
  exact exists_congr fun part => and_congr_right fun _ => by rw [Option.isSome_map]

/-- What is located is a range of one of the parts, and not empty. -/
theorem locate_eq_some {q : Query} {parts : List (TextPart × Text)} {location : TextPart} {start stop : ℕ}
    (h : q.locate parts = some (location, start, stop)) : ∃ text, (location, text) ∈ parts ∧ start < stop ∧
      ∃ selected, text.slice? start stop = some selected := by
  cases q with
  | phrase given =>
    obtain ⟨⟨location', text⟩, hpart, hfound⟩ := List.exists_of_findSome?_eq_some h
    obtain ⟨⟨a, b⟩, hrange, hsame⟩ := Option.map_eq_some_iff.mp hfound
    cases hsame
    exact ⟨text, hpart, Text.literalRange_eq_some hrange⟩
  | words required =>
    obtain ⟨s, hs, hsound, -⟩ := located required parts
    rw [locate, hs] at h
    replace h : (if s.found = required then s.best else none) = some (location, start, stop) := h
    split_ifs at h
    exact (hsound.some _ _ _ h).2

/-- A query that a part without the blanks at its end answers as the whole part does. -/
def Visible : Query → Prop
  | .phrase given => given.EndsVisible
  | .words _ => True

/-- The texts are the parts without blanks at their ends; parts of blanks may be missing. -/
structure Kept (parts texts : List (TextPart × Text)) : Prop where
  part : ∀ part ∈ parts, ∃ text blank : Text, part.2 = text ++ blank ∧ blank.isBlank = true ∧
    (text = [] ∨ (part.1, text) ∈ texts)
  text : ∀ text ∈ texts, ∃ blank : Text, blank.isBlank = true ∧ (text.1, text.2 ++ blank) ∈ parts

omit [Unicode] in
/-- What is found in a text does not need the blanks at its end. -/
theorem Kept.exists_iff {parts texts : List (TextPart × Text)} (h : Kept parts texts) {P : Text → Prop}
    (hblank : ∀ text blank : Text, blank.isBlank = true → (P (text ++ blank) ↔ P text)) (hnil : ¬P []) :
    (∃ text ∈ texts, P text.2) ↔ ∃ part ∈ parts, P part.2 := by
  constructor
  · rintro ⟨text, htext, hP⟩
    obtain ⟨blank, hwhite, hpart⟩ := h.text text htext
    exact ⟨_, hpart, (hblank text.2 blank hwhite).mpr hP⟩
  · rintro ⟨part, hpart, hP⟩
    obtain ⟨text, blank, hsame, hwhite, hempty | htext⟩ := h.part part hpart
    · rw [hsame, hblank text blank hwhite, hempty] at hP
      exact absurd hP hnil
    · exact ⟨_, htext, (hblank text blank hwhite).mp (hsame ▸ hP)⟩

/-- **A query finds the same** in the texts as in the parts they were kept from. -/
theorem Kept.locate_isSome {parts texts : List (TextPart × Text)} (h : Kept parts texts) {q : Query}
    (hq : q.Visible) : (q.locate texts).isSome = (q.locate parts).isSome := by
  rw [Bool.eq_iff_iff]
  cases q with
  | phrase given =>
    rw [locate_phrase_isSome, locate_phrase_isSome]
    refine h.exists_iff (P := fun text => (text.literalRange given).isSome = true)
      (fun text blank hblank => by rw [Text.literalRange_append_blank hq hblank]) fun hfound => ?_
    obtain ⟨⟨start, stop⟩, hrange⟩ := Option.isSome_iff_exists.mp hfound
    obtain ⟨hlt, s, hs⟩ := Text.literalRange_eq_some hrange
    obtain ⟨p, q, hnil, rfl, rfl⟩ := Text.slice?_eq_some.mp hs
    obtain ⟨rfl, hrest⟩ := List.append_eq_nil_iff.mp hnil.symm
    rw [(List.append_eq_nil_iff.mp hrest).1] at hlt
    exact absurd hlt (lt_irrefl _)
  | words required =>
    rw [locate_words_isSome, locate_words_isSome]
    refine and_congr_right fun _ => forall₂_congr fun w _ => h.exists_iff (P := fun text => text.Occurs w)
      (fun text blank hblank => by rw [Text.Occurs, Text.words_append_blank hblank, Text.Occurs]) ?_
    rintro ⟨x, hx, -⟩
    cases hx

end Query
end CsMail
