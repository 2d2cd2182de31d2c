import CsMail.Search.QueryProofs

/-! What a search for words finds.

The words of a text are its longest runs of letters and digits, each at its offset (`mem_words`): a
segment is such a run with the separator behind it, and segments stand one behind the other. A search
locates something exactly when every word asked for is one of some part's, and what it locates covers
the first occurrence of each in a part that has most of them (`search_exact`). -/
namespace CsMail
open Library
namespace Text

/-! ### Segments and runs -/

section Segments
variable {p : Char → Bool} {run rest : Text} {c : Char}

theorem splitInclusive_run (hrun : ∀ d ∈ run, p d = false) (hc : p c = true) :
    splitInclusive p (run ++ c :: rest) = (run ++ [c]) :: splitInclusive p rest := by
  induction run with
  | nil => rw [List.nil_append, splitInclusive, if_pos hc, List.nil_append]
  | cons d run ih =>
    rw [List.forall_mem_cons] at hrun
    rw [List.cons_append, splitInclusive, if_neg (Bool.not_eq_true _ ▸ hrun.1), ih hrun.2]
    rfl

theorem splitInclusive_last (hrun : ∀ d ∈ run, p d = false) (hne : run ≠ []) : splitInclusive p run = [run] := by
  induction run with
  | nil => exact absurd rfl hne
  | cons d run ih =>
    rw [List.forall_mem_cons] at hrun
    rw [splitInclusive, if_neg (Bool.not_eq_true _ ▸ hrun.1)]
    by_cases hrest : run = []
    · rw [hrest]
      rfl
    · rw [ih hrun.2 hrest]

theorem trimEnd_run (hrun : ∀ d ∈ run, p d = false) {ends : Text} (hends : ∀ d ∈ ends, p d = true) :
    trimEnd p (run ++ ends) = run := by
  induction run with
  | nil => exact trimEnd_eq_nil.mpr hends
  | cons d run ih =>
    rw [List.forall_mem_cons] at hrun
    rw [List.cons_append, trimEnd_cons hrun.1, ih hrun.2]

end Segments

variable [Unicode] {t run rest : Text} {c : Char} {w : ℕ × Text}

/-- A longest run of letters and digits, where offsets count from the given one. -/
def RunFrom (offset : ℕ) (t : Text) (w : ℕ × Text) : Prop := ∃ before after : Text,
  t = before ++ (w.2 ++ after) ∧ offset + before.len = w.1 ∧ w.2 ≠ [] ∧ (∀ c ∈ w.2, separates c = false) ∧
    (∀ c, before.getLast? = some c → separates c = true) ∧ ∀ c, after.head? = some c → separates c = true

/-- A longest run of letters and digits of a text, at its offset. -/
def IsRun (t : Text) (w : ℕ × Text) : Prop := RunFrom 0 t w

/-- Letters that no separator ends or begins are none. -/
theorem eq_nil_of_separates {m : Text} (hm : ∀ d ∈ m, separates d = false)
    (h : (∀ d, m.getLast? = some d → separates d = true) ∨ ∀ d, m.head? = some d → separates d = true) :
    m = [] := by
  by_contra hne
  obtain hlast | hhead := h
  · have := hlast _ (List.getLast?_eq_some_getLast hne)
    rw [hm _ (List.getLast_mem hne)] at this
    cases this
  · have := hhead _ (List.head?_eq_some_head hne)
    rw [hm _ (List.head_mem hne)] at this
    cases this

/-- A text of letters only is one run. -/
theorem runFrom_letters {offset : ℕ} (hrun : ∀ d ∈ run, separates d = false) :
    RunFrom offset run w ↔ run ≠ [] ∧ w = (offset, run) := by
  constructor
  · rintro ⟨before, after, rfl, hoffset, hne, -, hbefore, hafter⟩
    have hnone : before = [] := eq_nil_of_separates (fun d hd => hrun d (by simp [hd])) (.inl hbefore)
    have hnil : after = [] := eq_nil_of_separates (fun d hd => hrun d (by simp [hd])) (.inr hafter)
    rw [hnone, len_nil, Nat.add_zero] at hoffset
    rw [hnone, hnil, List.append_nil, List.nil_append]
    exact ⟨hne, Prod.ext hoffset.symm rfl⟩
  · rintro ⟨hne, rfl⟩
    exact ⟨[], [], (List.append_nil run).symm, rfl, hne, hrun, nofun, nofun⟩

/-- A run either begins the text or lies behind the first separator. -/
theorem runFrom_cons {offset : ℕ} (hrun : ∀ d ∈ run, separates d = false) (hc : separates c = true) :
    RunFrom offset (run ++ c :: rest) w ↔
      run ≠ [] ∧ w = (offset, run) ∨ RunFrom (offset + (run ++ [c]).len) rest w := by
  constructor
  · rintro ⟨before, after, ht, hoffset, hne, hletters, hbefore, hafter⟩
    rcases List.append_eq_append_iff.mp ht with ⟨m, rfl, hm⟩ | ⟨m, rfl, hm⟩
    · -- what stands before it has the first run and, unless it begins there, the separator
      cases m with
      | nil =>
        obtain ⟨d, word, hword⟩ := List.exists_cons_of_ne_nil hne
        rw [hword, List.nil_append, List.cons_append] at hm
        have := hletters c (by rw [hword, (List.cons.inj hm).1]; exact List.mem_cons_self ..)
        rw [hc] at this
        cases this
      | cons d m =>
        obtain ⟨rfl, rfl⟩ := List.cons.inj hm
        refine .inr ⟨m, after, rfl, ?_, hne, hletters, fun d hd => hbefore d ?_, hafter⟩
        · rw [← hoffset, len_append, len_append, len_cons, len_cons, len_nil]
          omega
        · have hm : m ≠ [] := by
            rintro rfl
            cases hd
          rw [← List.singleton_append, ← List.append_assoc, List.getLast?_append_of_ne_nil _ hm]
          exact hd
    · have hnone : before = [] :=
        eq_nil_of_separates (fun d hd => hrun d (List.mem_append_left _ hd)) (.inl hbefore)
      rw [hnone, List.nil_append] at hrun ⊢
      rw [hnone, len_nil, Nat.add_zero] at hoffset
      rcases List.append_eq_append_iff.mp hm.symm with ⟨m', hw, hm'⟩ | ⟨m', hw, hm'⟩
      · cases m' with
        | nil =>
          rw [List.append_nil] at hw
          exact .inl ⟨hw ▸ hne, Prod.ext hoffset.symm hw⟩
        | cons d m' =>
          have := hletters c (by rw [hw, (List.cons.inj hm').1]; simp)
          rw [hc] at this
          cases this
      · have hnil : m' = [] := eq_nil_of_separates (fun d hd => hrun d (by rw [hw]; simp [hd])) (.inr fun d hd =>
          hafter d (by rw [hm', List.head?_append, hd]; rfl))
        rw [hnil, List.append_nil] at hw
        exact .inl ⟨hw ▸ hne, Prod.ext hoffset.symm hw.symm⟩
  · rintro (⟨hne, rfl⟩ | ⟨before, after, rfl, hoffset, hne, hletters, hbefore, hafter⟩)
    · exact ⟨[], c :: rest, rfl, rfl, hne, hrun, nofun, fun d hd => by cases hd; exact hc⟩
    · refine ⟨run ++ c :: before, after, by simp, ?_, hne, hletters, fun d hd => ?_, hafter⟩
      · rw [← hoffset, len_append, len_append, len_cons, len_cons, len_nil]
        omega
      · by_cases hnil : before = []
        · rw [hnil, List.getLast?_append_of_ne_nil _ (List.cons_ne_nil _ _)] at hd
          cases hd
          exact hc
        · rw [← List.singleton_append, ← List.append_assoc, List.getLast?_append_of_ne_nil _ hnil] at hd
          exact hbefore d hd

/-- A text is a run of letters, alone or with a separator behind it. -/
theorem letters_or_separated (t : Text) : (∀ d ∈ t, separates d = false) ∨
    ∃ (run rest : Text) (c : Char), t = run ++ c :: rest ∧ (∀ d ∈ run, separates d = false) ∧ separates c = true := by
  induction t with
  | nil => exact .inl (by simp)
  | cons d t ih =>
    by_cases hd : separates d = true
    · exact .inr ⟨[], t, d, rfl, by simp, hd⟩
    · rw [Bool.not_eq_true] at hd
      rcases ih with hall | ⟨run, rest, c, rfl, hrun, hc⟩
      · exact .inl (List.forall_mem_cons.mpr ⟨hd, hall⟩)
      · exact .inr ⟨d :: run, rest, c, rfl, List.forall_mem_cons.mpr ⟨hd, hrun⟩, hc⟩

omit [Unicode] in
theorem mem_filter_cons {offset : ℕ} {more : List (ℕ × Text)} :
    w ∈ ((offset, run) :: more).filter (fun w => !w.2.isEmpty) ↔
      run ≠ [] ∧ w = (offset, run) ∨ w ∈ more.filter fun w => !w.2.isEmpty := by
  rw [List.mem_filter, List.mem_cons, List.mem_filter, or_and_right]
  refine or_congr_left ⟨?_, ?_⟩
  · rintro ⟨rfl, hne⟩
    exact ⟨by simpa using hne, rfl⟩
  · rintro ⟨hne, rfl⟩
    exact ⟨rfl, by simpa using hne⟩

theorem mem_trimmed (offset : ℕ) (t : Text) (w : ℕ × Text) :
    w ∈ (trimmed separates offset (splitInclusive separates t)).filter (fun w => !w.2.isEmpty) ↔
      RunFrom offset t w := by
  -- one segment at a time
  induction hsize : t.length using Nat.strong_induction_on generalizing t offset with
  | _ n ih =>
    rcases letters_or_separated t with hall | ⟨run, rest, c, rfl, hrun, hc⟩
    · rw [runFrom_letters hall]
      by_cases hne : t = []
      · rw [hne]
        exact iff_of_false List.not_mem_nil fun h => h.1 rfl
      · have htrim : trimEnd separates t = t := by
          have hbare : trimEnd separates (t ++ []) = t := trimEnd_run hall (List.forall_mem_nil _)
          rwa [List.append_nil] at hbare
        rw [splitInclusive_last hall hne, trimmed, trimmed, htrim, mem_filter_cons]
        exact or_iff_left List.not_mem_nil
    · have hends : ∀ d ∈ [c], separates d = true := List.forall_mem_singleton.mpr hc
      rw [runFrom_cons hrun hc, splitInclusive_run hrun hc, trimmed, trimEnd_run hrun hends, mem_filter_cons]
      refine or_congr_right (ih rest.length ?_ _ rest rfl)
      rw [← hsize, List.length_append, List.length_cons]
      omega

/-- The words of a text are its longest runs of letters and digits. -/
theorem mem_words : w ∈ t.words ↔ t.IsRun w := mem_trimmed 0 t w

/-- The word is one of the text's runs in lower case. -/
def Holds (t lower : Text) : Prop := ∃ w, t.IsRun w ∧ w.2.toLowercase = lower

theorem occurs_iff {lower : Text} : t.Occurs lower ↔ t.Holds lower :=
  exists_congr fun _ => and_congr_left fun _ => mem_words

instance (t lower : Text) : Decidable (t.Holds lower) :=
  decidable_of_iff (∃ w ∈ t.words, w.2.toLowercase = lower) occurs_iff

end Text

namespace Query
variable [Unicode] {required : Finset Text}

/-! ### One part -/

/-- The words asked for that the text has. -/
def heldWords (required : Finset Text) (t : Text) : Finset Text := required.filter t.Holds

/-- The first of the given words that read like this, and one that is asked for. -/
def IsFirst (required : Finset Text) (ws : List (ℕ × Text)) (w : ℕ × Text) : Prop :=
  w ∈ ws ∧ w.2.toLowercase ∈ required ∧ ∀ x ∈ ws, x.2.toLowercase = w.2.toLowercase → w.1 ≤ x.1

/-- The range from the first of the given words that is asked for to the last first one. -/
structure PartWords.Spans (required : Finset Text) (ws : List (ℕ × Text)) (s : PartWords) : Prop where
  found : ∀ lower, lower ∈ s.found ↔ lower ∈ required ∧ ∃ w ∈ ws, w.2.toLowercase = lower
  start : ∀ start, s.start = some start → ∃ w ∈ ws, w.2.toLowercase ∈ required ∧ w.1 = start
  stop : s.found ≠ ∅ → ∃ w ∈ ws, w.2.toLowercase ∈ required ∧ w.1 + w.2.len = s.stop
  covers : ∀ w, IsFirst required ws w → (∃ start, s.start = some start ∧ start ≤ w.1) ∧ w.1 + w.2.len ≤ s.stop

omit [Unicode] in
theorem exists_mem_concat {α : Type*} {P : α → Prop} {ws : List α} (w : α) (h : ∃ x ∈ ws, P x) :
    ∃ x ∈ ws ++ [w], P x := by
  obtain ⟨x, hx, hP⟩ := h
  exact ⟨x, List.mem_append_left _ hx, hP⟩

theorem IsFirst.of_concat {ws : List (ℕ × Text)} {w x : ℕ × Text} (h : IsFirst required (ws ++ [w]) x)
    (hmem : x ∈ ws) : IsFirst required ws x :=
  ⟨hmem, h.2.1, fun y hy => h.2.2 y (List.mem_append_left _ hy)⟩

theorem PartWords.Spans.found_visit {ws : List (ℕ × Text)} {s : PartWords} (h : s.Spans required ws)
    (w : ℕ × Text) (lower : Text) : lower ∈ (s.visit required w).found ↔
      lower ∈ required ∧ ∃ x ∈ ws ++ [w], x.2.toLowercase = lower := by
  have hvisit := foldl_visit_found required [w] s lower
  rw [List.foldl_cons, List.foldl_nil] at hvisit
  rw [hvisit, h.found, ← and_or_left]
  simp only [List.mem_append, or_and_right, exists_or]

/-- A word moves the range only where it is the first to read as it does. -/
theorem PartWords.Spans.visit {ws : List (ℕ × Text)} {s : PartWords} (h : s.Spans required ws) {w : ℕ × Text}
    (hbehind : ∀ x ∈ ws, x.1 + x.2.len ≤ w.1 ∧ 0 < x.2.len) :
    (s.visit required w).Spans required (ws ++ [w]) := by
  have hself : w ∈ ws ++ [w] := List.mem_append_right _ (List.mem_singleton_self w)
  have hfound := h.found_visit w
  by_cases hnew : w.2.toLowercase ∈ required ∧ w.2.toLowercase ∉ s.found
  · have hvisit : s.visit required w =
        ⟨insert w.2.toLowercase s.found, some (s.start.getD w.1), w.1 + w.2.len⟩ := if_pos hnew
    rw [hvisit] at hfound ⊢
    refine ⟨hfound, ?_, fun _ => ⟨w, hself, hnew.1, rfl⟩, fun x hx => ⟨⟨_, rfl, ?_⟩, ?_⟩⟩
    · rintro _ ⟨⟩
      cases hstart : s.start with
      | none => exact ⟨w, hself, hnew.1, rfl⟩
      | some start => exact exists_mem_concat w (h.start start hstart)
    · rcases List.mem_append.mp hx.1 with hmem | hmem
      · obtain ⟨⟨start, hstart, hle⟩, -⟩ := h.covers x (hx.of_concat hmem)
        rw [hstart]
        exact hle
      · rw [List.mem_singleton.mp hmem]
        cases hstart : s.start with
        | none => exact le_rfl
        | some start =>
          obtain ⟨y, hy, -, rfl⟩ := h.start start hstart
          exact (Nat.le_add_right _ _).trans (hbehind y hy).1
    · rcases List.mem_append.mp hx.1 with hmem | hmem
      · exact (hbehind x hmem).1.trans (Nat.le_add_right _ _)
      · rw [List.mem_singleton.mp hmem]
  · have hvisit : s.visit required w = s := if_neg hnew
    rw [hvisit] at hfound ⊢
    refine ⟨hfound, fun start hstart => exists_mem_concat w (h.start start hstart),
      fun hne => exists_mem_concat w (h.stop hne), fun x hx => ?_⟩
    rcases List.mem_append.mp hx.1 with hmem | hmem
    · exact h.covers x (hx.of_concat hmem)
    · -- the word is found already, so another stands before it
      obtain rfl := List.mem_singleton.mp hmem
      have hold : x.2.toLowercase ∈ s.found := not_not.mp fun hnot => hnew ⟨hx.2.1, hnot⟩
      obtain ⟨-, y, hy, hsame⟩ := (h.found _).mp hold
      have hle := hx.2.2 y (List.mem_append_left _ hy) hsame
      have := hbehind y hy
      omega

theorem foldl_visit_spans (ws : List (ℕ × Text)) (hpairwise : ws.Pairwise fun w w' => w.1 + w.2.len ≤ w'.1)
    (hpos : ∀ w ∈ ws, 0 < w.2.len) : (ws.foldl (PartWords.visit required) ⟨∅, none, 0⟩).Spans required ws := by
  induction ws using List.reverseRecOn with
  | nil =>
    exact ⟨fun lower => iff_of_false (Finset.notMem_empty lower) (by simp), nofun, fun hne => absurd rfl hne,
      fun w hw => absurd hw.1 List.not_mem_nil⟩
  | append_singleton ws w ih =>
    rw [List.pairwise_append] at hpairwise
    rw [List.foldl_append]
    have hws := ih hpairwise.1 fun x hx => hpos x (List.mem_append_left _ hx)
    exact hws.visit fun x hx =>
      ⟨hpairwise.2.2 x hx w (List.mem_singleton_self w), hpos x (List.mem_append_left _ hx)⟩

theorem partWords_spans (required : Finset Text) (t : Text) : (partWords required t).Spans required t.words :=
  foldl_visit_spans t.words Text.words_stand.2 fun w hw => by
    obtain ⟨c, rest, hword⟩ := List.exists_cons_of_ne_nil (Text.words_stand.1 w hw).2
    have := c.utf8Size_pos
    rw [hword, Text.len_cons]
    omega

theorem partWords_found (required : Finset Text) (t : Text) :
    (partWords required t).found = heldWords required t := by
  ext lower
  rw [mem_partWords, heldWords, Finset.mem_filter, Text.occurs_iff]

/-! ### Most words -/

/-- The part that has most of the words asked for, with its range. -/
structure Located.Best (required : Finset Text) (parts : List (TextPart × Text)) (s : Located) : Prop where
  most : ∀ part ∈ parts, (heldWords required part.2).card ≤ s.bestCount
  best : ∀ location start stop, s.best = some (location, start, stop) → ∃ text, (location, text) ∈ parts ∧
    (partWords required text).start = some start ∧ (partWords required text).stop = stop ∧
      (heldWords required text).card = s.bestCount ∧ 0 < s.bestCount

theorem Located.Best.visit {parts : List (TextPart × Text)} {s s' : Located} (h : s.Best required parts)
    {part : TextPart × Text} (hvisit : s.visit required part = some s') : s'.Best required (parts ++ [part]) := by
  have hself : part ∈ parts ++ [part] := List.mem_append_right _ (List.mem_singleton_self part)
  unfold Located.visit at hvisit
  dsimp only at hvisit
  rw [partWords_found] at hvisit
  by_cases hmore : s.bestCount < (heldWords required part.2).card
  · simp only [if_pos hmore, Option.bind_eq_bind, Option.bind_eq_some_iff, Option.some.injEq] at hvisit
    obtain ⟨start, hstart, rfl⟩ := hvisit
    refine ⟨fun other hother => ?_, ?_⟩
    · rcases List.mem_append.mp hother with hmem | hmem
      · exact (h.most other hmem).trans hmore.le
      · rw [List.mem_singleton.mp hmem]
    · rintro _ _ _ ⟨⟩
      exact ⟨part.2, hself, hstart, rfl, rfl, Nat.zero_lt_of_lt hmore⟩
  · simp only [if_neg hmore, Option.some.injEq] at hvisit
    subst hvisit
    refine ⟨fun other hother => ?_, fun location start stop hbest => ?_⟩
    · rcases List.mem_append.mp hother with hmem | hmem
      · exact h.most other hmem
      · rw [List.mem_singleton.mp hmem]
        exact not_lt.mp hmore
    · obtain ⟨text, htext, hrange⟩ := h.best location start stop hbest
      exact ⟨text, List.mem_append_left _ htext, hrange⟩

theorem Located.Best.foldlM_visit (rest : List (TextPart × Text)) {parts : List (TextPart × Text)}
    {s s' : Located} (h : s.Best required parts) (hrest : rest.foldlM (Located.visit required) s = some s') :
    s'.Best required (parts ++ rest) := by
  induction rest generalizing parts s with
  | nil =>
    cases hrest
    rwa [List.append_nil]
  | cons part rest ih =>
    rw [List.foldlM_cons, Option.bind_eq_bind, Option.bind_eq_some_iff] at hrest
    obtain ⟨next, hnext, hrest⟩ := hrest
    have := ih (h.visit hnext) hrest
    rwa [List.append_assoc] at this

/-! ### The whole message -/

/-- The first run of a text that reads as it does, and is asked for. -/
def IsFirstRun (required : Finset Text) (t : Text) (w : ℕ × Text) : Prop :=
  t.IsRun w ∧ w.2.toLowercase ∈ required ∧ ∀ x, t.IsRun x → x.2.toLowercase = w.2.toLowercase → w.1 ≤ x.1

/-- The range begins and ends at runs that are asked for and covers the first run of each word. -/
structure Covers (required : Finset Text) (t : Text) (start stop : ℕ) : Prop where
  aligned : ∃ s, t.slice? start stop = some s
  begins : ∃ w, t.IsRun w ∧ w.2.toLowercase ∈ required ∧ w.1 = start
  ends : ∃ w, t.IsRun w ∧ w.2.toLowercase ∈ required ∧ w.1 + w.2.len = stop
  first : ∀ w, IsFirstRun required t w → start ≤ w.1 ∧ w.1 + w.2.len ≤ stop

theorem partWords_covers {t : Text} {start : ℕ} (hstart : (partWords required t).start = some start) :
    Covers required t start (partWords required t).stop := by
  have hspans := partWords_spans required t
  rcases partWords_ranged required t with ⟨-, hnone⟩ | ⟨start', hstart', hne, -, hslice⟩
  · rw [hnone] at hstart
    cases hstart
  · cases hstart'.symm.trans hstart
    obtain ⟨first, hfirst, hfirst'⟩ := hspans.start start hstart
    obtain ⟨last, hlast, hlast'⟩ := hspans.stop hne
    refine ⟨hslice, ⟨first, Text.mem_words.mp hfirst, hfirst'⟩, ⟨last, Text.mem_words.mp hlast, hlast'⟩,
      fun w hw => ?_⟩
    obtain ⟨⟨start', hstart', hle⟩, hstop⟩ := hspans.covers w
      ⟨Text.mem_words.mpr hw.1, hw.2.1, fun x hx => hw.2.2 x (Text.mem_words.mp hx)⟩
    cases hstart'.symm.trans hstart
    exact ⟨hle, hstop⟩

/-- What a search for words says of the parts it is given. -/
structure SearchesWords (required : Finset Text) (parts : List (TextPart × Text)) : Prop where
  isSome : ((Query.words required).locate parts).isSome = true ↔ ∀ lower ∈ required, ∃ part ∈ parts, part.2.Holds lower
  best : ∀ location start stop, (Query.words required).locate parts = some (location, start, stop) →
    ∃ text, (location, text) ∈ parts ∧ Covers required text start stop ∧
      ∀ part ∈ parts, (heldWords required part.2).card ≤ (heldWords required text).card

theorem searchesWords (hne : required ≠ ∅) (parts : List (TextPart × Text)) : SearchesWords required parts := by
  refine ⟨?_, fun location start stop hlocate => ?_⟩
  · rw [locate_words_isSome, and_iff_right hne]
    simp only [Text.occurs_iff]
  · obtain ⟨s, hs, -, -⟩ := located required parts
    rw [locate, hs] at hlocate
    replace hlocate : (if s.found = required then s.best else none) = some (location, start, stop) := hlocate
    split_ifs at hlocate
    have hstart : Located.Best required [] ⟨∅, none, 0⟩ := by
      refine ⟨fun _ hpart => absurd hpart List.not_mem_nil, fun _ _ _ hnone => ?_⟩
      cases hnone
    have hbest := hstart.foldlM_visit parts hs
    obtain ⟨text, htext, hfirst, rfl, hcount, -⟩ := hbest.best location start stop hlocate
    exact ⟨text, htext, partWords_covers hfirst, fun part hpart => hcount ▸ hbest.most part hpart⟩

/-- The words of a query are the runs of what was asked, in lower case. -/
theorem parse_words {asked : Text} (h : parse asked = .ok (.words required)) :
    required ≠ ∅ ∧ ∀ lower, lower ∈ required ↔ asked.trim.Holds lower := by
  simp only [parse, bind_eq_ok, refuseIf_eq_ok] at h
  obtain ⟨⟨⟩, -, h⟩ := h
  cases hquoted : quoted asked.trim with
  | some given =>
    simp only [hquoted, bind_eq_ok] at h
    obtain ⟨⟨⟩, -, h⟩ := h
    cases h
  | none =>
    simp only [hquoted, bind_eq_ok, refuseIf_eq_ok] at h
    obtain ⟨⟨⟩, hne, h⟩ := h
    cases h
    refine ⟨hne, fun lower => ?_⟩
    rw [List.mem_toFinset, List.mem_map, ← Text.occurs_iff]
    rfl

/-- **Word search is exact.** A text's words are its longest runs of letters and digits, in order and
at their offsets. What is asked for is the words of the query, and every part is searched for them. -/
theorem search_exact :
    (∀ t : Text, t.words.Pairwise (fun w w' => w.1 + w.2.len ≤ w'.1) ∧ ∀ w, w ∈ t.words ↔ t.IsRun w) ∧
      ∀ (asked : Text) (required : Finset Text), parse asked = .ok (.words required) →
        (∀ lower, lower ∈ required ↔ asked.trim.Holds lower) ∧
          ∀ parts : List (TextPart × Text), SearchesWords required parts :=
  ⟨fun _ => ⟨Text.words_stand.2, fun _ => Text.mem_words⟩, fun _ _ h =>
    ⟨(parse_words h).2, searchesWords (parse_words h).1⟩⟩

end Query
end CsMail
