import CsMail.Application.Generation

/-! What a suggestion is.

The parts of a name are lower-case ASCII, so every offset in one is a boundary and no slice leaves it
(`fragmentsOf_name`). An address suggested is a fragment with six digits before the domain, so the
recogniser cuts it where the generator put it together (`generatedFragment_suggested`), and what the
occupancy counts are the reserved addresses it recognises (`occupied_eq`). -/
namespace CsMail
open Library

/-! ### Characters -/

theorem isAscii_of_isLower {c : Char} (h : c.isLower = true) : isAscii c = true := by
  have hbounds := isLower_iff.mp h
  exact decide_eq_true (by omega)

theorem utf8Size_of_isAscii {c : Char} (h : isAscii c = true) : c.utf8Size = 1 := by
  have hlt : c.toNat < 0x80 := of_decide_eq_true h
  have hc : c.val.toNat = c.toNat := rfl
  have hle : c.val ≤ 0x7f := UInt32.le_iff_toNat_le.mpr (by
    have : (0x7f : UInt32).toNat = 127 := rfl
    omega)
  exact if_pos hle

theorem isWhitespace_of_isLower {c : Char} (h : c.isLower = true) : isWhitespace c = false := by
  have hbounds := isLower_iff.mp h
  refine decide_eq_false ?_
  simp only [List.mem_cons, List.not_mem_nil, or_false]
  omega

theorem toLower_of_not_isUpper {c : Char} (h : ¬c.isUpper = true) : c.toLower = c :=
  dif_neg fun hupper => h (decide_eq_true hupper)

theorem toLower_toNat {c : Char} (h : c.isUpper = true) : c.toLower.toNat = c.toNat + 32 := by
  have hbounds := isUpper_iff.mp h
  have hlower : c.toLower.val = c.val + 32 := congrArg Char.val (dif_pos (of_decide_eq_true h))
  show c.toLower.val.toNat = c.val.toNat + 32
  rw [hlower, UInt32.toNat_add]
  have hc : c.val.toNat = c.toNat := rfl
  have hspace : (32 : UInt32).toNat = 32 := rfl
  exact Nat.mod_eq_of_lt (by omega)

theorem toLower_of_isLower {c : Char} (h : c.isLower = true) : c.toLower = c := by
  refine toLower_of_not_isUpper fun hupper => ?_
  have hbounds := isLower_iff.mp h
  have hbounds' := isUpper_iff.mp hupper
  omega

theorem isLower_toLower {c : Char} (h : c.isAlpha = true) : c.toLower.isLower = true := by
  have hcases : (c.isUpper || c.isLower) = true := h
  rcases (Bool.or_eq_true _ _).mp hcases with hupper | hlower
  · have hbounds := isUpper_iff.mp hupper
    have hshift := toLower_toNat hupper
    exact isLower_iff.mpr (by omega)
  · rw [toLower_of_isLower hlower]
    exact hlower

theorem isAscii_of_isDigit {c : Char} (h : c.isDigit = true) : isAscii c = true := by
  have hbounds := isDigit_iff.mp h
  exact decide_eq_true (by omega)

theorem toLower_of_isDigit {c : Char} (h : c.isDigit = true) : c.toLower = c := by
  refine toLower_of_not_isUpper fun hupper => ?_
  have hbounds := isDigit_iff.mp h
  have hbounds' := isUpper_iff.mp hupper
  omega

namespace Text

theorem len_of_ascii {t : Text} (h : ∀ c ∈ t, isAscii c = true) : t.len = t.length := by
  induction t with
  | nil => rfl
  | cons c t ih =>
    rw [List.forall_mem_cons] at h
    rw [len_cons, utf8Size_of_isAscii h.1, ih h.2, List.length_cons, Nat.add_comm]

/-- An ASCII text can be cut between any two bytes. -/
theorem slice?_of_ascii {t : Text} (h : ∀ c ∈ t, isAscii c = true) {n : ℕ} (hn : n ≤ t.length) :
    t.slice? 0 n = some (t.take n) := by
  refine slice?_eq_some.mpr ⟨[], t.drop n, (List.take_append_drop n t).symm, rfl, ?_⟩
  rw [len_of_ascii fun c hc => h c (List.mem_of_mem_take hc), List.length_take, Nat.zero_add, Nat.min_eq_left hn]

end Text

theorem mem_splitOnP {α : Type*} {p : α → Bool} {l part : List α} (h : part ∈ l.splitOnP p) :
    ∀ a ∈ part, a ∈ l ∧ p a = false := by
  induction l generalizing part with
  | nil =>
    rw [List.splitOnP_nil, List.mem_singleton] at h
    rw [h]
    exact nofun
  | cons x l ih =>
    rw [List.splitOnP_cons_eq_if_modifyHead] at h
    split_ifs at h with hx
    · rcases List.mem_cons.mp h with rfl | hin
      · exact nofun
      · exact fun a ha => ⟨List.mem_cons_of_mem _ (ih hin a ha).1, (ih hin a ha).2⟩
    · cases hsplit : l.splitOnP p with
      | nil => exact absurd hsplit (List.splitOnP_ne_nil p l)
      | cons first rest =>
        rw [hsplit] at h ih
        rcases List.mem_cons.mp h with rfl | hin
        · have hfirst := ih (List.mem_cons_self ..)
          refine List.forall_mem_cons.mpr ⟨⟨List.mem_cons_self .., Bool.not_eq_true _ ▸ hx⟩, fun a ha => ?_⟩
          exact ⟨List.mem_cons_of_mem _ (hfirst a ha).1, (hfirst a ha).2⟩
        · have hrest := ih (List.mem_cons_of_mem _ hin)
          exact fun a ha => ⟨List.mem_cons_of_mem _ (hrest a ha).1, (hrest a ha).2⟩

theorem mapM_eq_some {α β : Type*} {f : α → Option β} {g : α → β} {l : List α} (h : ∀ a ∈ l, f a = some (g a)) :
    l.mapM f = some (l.map g) := by
  induction l with
  | nil => rfl
  | cons a l ih =>
    rw [List.forall_mem_cons] at h
    rw [List.mapM_cons, h.1, ih h.2]
    rfl

/-! ### Fragments -/

/-- One beginning of a part behind the other. -/
def BuiltOf (parts : List Text) (t : Text) : Prop :=
  ∃ pieces : List Text, t = pieces.flatten ∧ ∀ piece ∈ pieces, ∃ part ∈ parts, piece <+: part

namespace BuiltOf
variable {parts : List Text} {t u part : Text}

theorem take (h : part ∈ parts) (n : ℕ) : BuiltOf parts (part.take n) := by
  refine ⟨[part.take n], by simp, fun piece hpiece => ⟨part, h, ?_⟩⟩
  rw [List.mem_singleton.mp hpiece]
  exact List.take_prefix n part

theorem append (ht : BuiltOf parts t) (hu : BuiltOf parts u) : BuiltOf parts (t ++ u) := by
  obtain ⟨pieces, rfl, hpieces⟩ := ht
  obtain ⟨pieces', rfl, hpieces'⟩ := hu
  exact ⟨pieces ++ pieces', List.flatten_append.symm, List.forall_mem_append.mpr ⟨hpieces, hpieces'⟩⟩

theorem mem (h : BuiltOf parts t) {c : Char} (hc : c ∈ t) : ∃ part ∈ parts, c ∈ part := by
  obtain ⟨pieces, rfl, hpieces⟩ := h
  obtain ⟨piece, hpiece, hc⟩ := List.mem_flatten.mp hc
  obtain ⟨part, hpart, hprefix⟩ := hpieces piece hpiece
  exact ⟨part, hpart, hprefix.mem hc⟩

end BuiltOf

theorem NameFragment.ofText_eq_ok {t : Text} {f : NameFragment} : ofText t = .ok f ↔ f.value = t := by
  unfold ofText
  constructor
  · intro h
    split_ifs at h
    cases h
    rfl
  · rintro rfl
    rw [dif_pos ⟨f.short, f.lower⟩]

theorem NameFragment.toOption_ofText {t : Text} {f : NameFragment} :
    (ofText t).toOption = some f ↔ f.value = t := by
  rw [← ofText_eq_ok]
  cases ofText t <;> simp [Except.toOption]

theorem NameFragment.value_injective : Function.Injective NameFragment.value := by
  rintro ⟨value, _, _⟩ ⟨value', _, _⟩ h
  cases h
  rfl

/-- The beginnings of a part never leave it. -/
theorem beginnings_eq {part : Text} (h : ∀ c ∈ part, isAscii c = true) (longest : ℕ) :
    ∃ texts, beginnings part longest = some texts ∧ ∀ t ∈ texts, ∃ n, t = part.take n := by
  have hslices : beginnings part longest = _ := mapM_eq_some (g := part.take) fun n hn => ?_
  · refine ⟨_, hslices, fun t ht => ?_⟩
    obtain ⟨n, -, rfl⟩ := List.mem_map.mp ht
    exact ⟨n, rfl⟩
  · refine Text.slice?_of_ascii h ?_
    rw [List.mem_range'_1, Text.len_of_ascii h] at hn
    omega

section Names
variable [Normalization] {name : Text}

/-- A letter of the name, in lower case. -/
def IsLetterOf (name : Text) (c : Char) : Prop :=
  ∃ d ∈ Normalization.nfkd name, Normalization.isCombiningMark d = false ∧ d.isAlpha = true ∧ d.toLower = c

theorem nameParts_letters {part : Text} (h : part ∈ nameParts name) :
    part ≠ [] ∧ ∀ c ∈ part, c.isLower = true ∧ IsLetterOf name c := by
  obtain ⟨hsplit, hne⟩ := List.mem_filter.mp h
  refine ⟨of_decide_eq_true hne, fun c hc => ?_⟩
  obtain ⟨hin, hvisible⟩ := mem_splitOnP hsplit c hc
  obtain ⟨d, hd, hcase⟩ := List.mem_map.mp hin
  obtain ⟨hdin, hmark⟩ := List.mem_filter.mp hd
  by_cases halpha : d.isAlpha = true
  · rw [if_pos halpha] at hcase
    rw [← hcase]
    exact ⟨isLower_toLower halpha, d, hdin, by simpa using hmark, halpha, rfl⟩
  · rw [if_neg halpha] at hcase
    rw [← hcase] at hvisible
    exact absurd hvisible (by decide)

theorem ascii_of_mem_nameParts {part : Text} (h : part ∈ nameParts name) : ∀ c ∈ part, isAscii c = true :=
  fun c hc => isAscii_of_isLower ((nameParts_letters h).2 c hc).1

theorem beginnings_built {part : Text} (h : part ∈ nameParts name) (longest : ℕ) :
    ∃ texts, beginnings part longest = some texts ∧ ∀ t ∈ texts, BuiltOf (nameParts name) t := by
  obtain ⟨texts, htexts, htaken⟩ := beginnings_eq (ascii_of_mem_nameParts h) longest
  refine ⟨texts, htexts, fun t ht => ?_⟩
  obtain ⟨n, rfl⟩ := htaken t ht
  exact .take h n

theorem initial_built {part : Text} (h : part ∈ nameParts name) :
    ∃ initial, part.slice? 0 1 = some initial ∧ BuiltOf (nameParts name) initial :=
  ⟨part.take 1, Text.slice?_of_ascii (ascii_of_mem_nameParts h)
    (List.length_pos_of_ne_nil (nameParts_letters h).1), .take h 1⟩

theorem paired_built {first last : Text} (hfirst : first ∈ nameParts name) (hlast : last ∈ nameParts name) :
    ∃ texts, paired first last = some texts ∧ ∀ t ∈ texts, BuiltOf (nameParts name) t := by
  obtain ⟨f, hf, hfbuilt⟩ := initial_built hfirst
  obtain ⟨l, hl, hlbuilt⟩ := initial_built hlast
  obtain ⟨lasts, hlasts, hlastsbuilt⟩ := beginnings_built hlast 7
  obtain ⟨firsts, hfirsts, hfirstsbuilt⟩ := beginnings_built hfirst 7
  have hpaired : paired first last = some ([f ++ l, (f ++ l) ++ (f ++ l)] ++
      lasts.flatMap (fun t => [f ++ t, t ++ f]) ++ firsts.map fun t => t ++ l) := by
    unfold paired
    rw [hf, hl, hlasts, hfirsts]
    rfl
  refine ⟨_, hpaired, List.forall_mem_append.mpr ⟨List.forall_mem_append.mpr ⟨?_, fun t ht => ?_⟩, fun t ht => ?_⟩⟩
  · have hinitials := hfbuilt.append hlbuilt
    exact List.forall_mem_cons.mpr ⟨hinitials, List.forall_mem_singleton.mpr (hinitials.append hinitials)⟩
  · obtain ⟨u, hu, ht⟩ := List.mem_flatMap.mp ht
    have hu := hlastsbuilt u hu
    rcases List.mem_pair.mp ht with rfl | rfl
    · exact hfbuilt.append hu
    · exact hu.append hfbuilt
  · obtain ⟨u, hu, rfl⟩ := List.mem_map.mp ht
    exact (hfirstsbuilt u hu).append hlbuilt

/-- No slice of a name leaves its part, and what the name offers is built of beginnings of its parts. -/
theorem candidates_built (name : Text) :
    ∃ texts, candidates name = some texts ∧ ∀ t ∈ texts, BuiltOf (nameParts name) t := by
  choose! texts htexts hbuilt using fun part (h : part ∈ nameParts name) => beginnings_built h 8
  have halone : ((nameParts name).mapM fun part => beginnings part 8) = some ((nameParts name).map texts) :=
    mapM_eq_some htexts
  have haloneBuilt : ∀ t ∈ ((nameParts name).map texts).flatten, BuiltOf (nameParts name) t := by
    intro t ht
    rw [← List.flatMap_def] at ht
    obtain ⟨part, hpart, ht⟩ := List.mem_flatMap.mp ht
    exact hbuilt part hpart t ht
  unfold candidates
  rw [halone]
  simp only [Option.bind_eq_bind, Option.bind_some]
  split
  · next first last hfirst hlast =>
    split_ifs
    · obtain ⟨pairs, hpairs, hpairsBuilt⟩ :=
        paired_built (List.mem_of_mem_head? hfirst) (List.mem_of_mem_getLast? hlast)
      rw [hpairs]
      exact ⟨_, rfl, List.forall_mem_append.mpr ⟨haloneBuilt, hpairsBuilt⟩⟩
    · exact ⟨_, rfl, haloneBuilt⟩
  · exact ⟨_, rfl, haloneBuilt⟩

omit [Normalization] in
theorem mem_addFragments {values : List Text} {fragments : SortedMap Text Unit} {t : Text}
    (h : t ∈ (values.foldl addFragment fragments).keys) : t ∈ values ∨ t ∈ fragments.keys := by
  induction values generalizing fragments with
  | nil => exact .inr h
  | cons value values ih =>
    rcases ih h with hin | hin
    · exact .inl (List.mem_cons_of_mem _ hin)
    · unfold addFragment at hin
      split_ifs at hin
      · obtain ⟨⟨⟩, hget⟩ := SortedMap.mem_keys.mp hin
        rcases SortedMap.get?_insert_eq_some.mp hget with ⟨rfl, -⟩ | ⟨-, hold⟩
        · exact .inl (List.mem_cons_self ..)
        · exact .inr (SortedMap.mem_keys.mpr ⟨_, hold⟩)
      · exact .inr hin

/-- The fragments of a name are lower-case letters of the name. -/
theorem fragmentsOf_name (name : Text) : ∃ fragments, fragmentsOf name = some fragments ∧
    ∀ f ∈ fragments, BuiltOf (nameParts name) f.value := by
  obtain ⟨texts, htexts, hbuilt⟩ := candidates_built name
  refine ⟨_, by rw [fragmentsOf, htexts, Option.map_some], fun f hf => ?_⟩
  obtain ⟨value, hvalue, hoption⟩ := List.mem_filterMap.mp hf
  rw [NameFragment.toOption_ofText.mp hoption]
  rcases mem_addFragments hvalue with hin | hin
  · exact hbuilt value hin
  · cases hin

end Names

/-! ### Recognition -/

theorem sixDigits_length {n : ℕ} (h : n < suffixSpace) : (sixDigits n).length = 6 := by
  have hle : (Nat.toDigits 10 n).length ≤ 6 := (Nat.length_toDigits_le_iff (by decide) (by decide)).mpr h
  rw [sixDigits, List.length_leftpad, Nat.max_eq_left hle]

theorem sixDigits_digits (n : ℕ) : ∀ c ∈ sixDigits n, c.isDigit = true := by
  intro c hc
  rw [sixDigits, List.leftpad, List.mem_append] at hc
  rcases hc with hc | hc
  · rw [List.eq_of_mem_replicate hc]
    rfl
  · exact Nat.isDigit_of_mem_toDigits (by decide) (by decide) hc

theorem splitOnce_eq {separator : Char} {front rest : Text} (h : separator ∉ front) :
    Text.splitOnce separator (front ++ separator :: rest) = some (front, rest) := by
  have hfront : ∀ c ∈ front, decide (c ≠ separator) = true :=
    fun c hc => decide_eq_true fun heq => h (heq ▸ hc)
  unfold Text.splitOnce
  rw [List.dropWhile_append_of_pos hfront, List.takeWhile_append_of_pos hfront]
  simp

/-- Trimming leaves a text as far as the last character that is no white space. -/
theorem trim_append {front rest : Text} {c d : Char} (hc : isWhitespace c = false) (hd : isWhitespace d = false) :
    ∃ rest', Text.trim (c :: front ++ d :: rest) = c :: front ++ d :: rest' := by
  have hstart : (c :: front ++ d :: rest).dropWhile isWhitespace = c :: front ++ d :: rest := by
    rw [List.cons_append, List.dropWhile_cons_of_neg (Bool.eq_false_iff.mp hc)]
  have hreverse : (c :: front ++ d :: rest).reverse = rest.reverse ++ d :: (c :: front).reverse := by simp
  have hstop : (d :: (c :: front).reverse).dropWhile isWhitespace = d :: (c :: front).reverse :=
    List.dropWhile_cons_of_neg (Bool.eq_false_iff.mp hd)
  refine ⟨(rest.reverse.dropWhile isWhitespace).reverse, ?_⟩
  rw [Text.trim, hstart, hreverse, List.dropWhile_append, hstop]
  split_ifs with hempty
  · rw [List.isEmpty_iff.mp hempty]
    simp
  · simp

namespace MemberAddress

theorem ofText_eq_ok {t : Text} {address : MemberAddress} (h : ofText t = .ok address) :
    address.value = addressSpelling t := by
  unfold ofText at h
  split at h
  · cases h
    rfl
  · cases h

end MemberAddress

/-- The address of a suggestion is the text put together, and what trimming leaves of the domain. -/
theorem value_of_suggested {f : NameFragment} {suffix : ℕ} {domain : Text} {address : MemberAddress}
    (h : MemberAddress.ofText (suggestedText f suffix domain) = .ok address) :
    ∃ rest, address.value = (f.value ++ sixDigits suffix) ++ '@' :: rest := by
  have hlower : ∀ c ∈ f.value, c.isLower = true := fun c => List.all_eq_true.mp f.lower c
  have hfixed : ∀ c ∈ f.value ++ sixDigits suffix, c.toLower = c :=
    List.forall_mem_append.mpr ⟨fun c hc => toLower_of_isLower (hlower c hc),
      fun c hc => toLower_of_isDigit (sixDigits_digits suffix c hc)⟩
  have hvisible : ∀ c ∈ f.value, isWhitespace c = false := by
    exact fun c hc => isWhitespace_of_isLower (hlower c hc)
  have hat : isWhitespace '@' = false := by decide
  cases hvalue : f.value with
  | nil =>
    have hshort := f.short.1
    rw [hvalue] at hshort
    exact absurd hshort (by decide)
  | cons c front =>
    rw [hvalue] at hfixed hvisible
    obtain ⟨rest, hrest⟩ := @trim_append (front ++ sixDigits suffix) domain c '@'
      (hvisible c (List.mem_cons_self ..)) hat
    refine ⟨Text.toAsciiLowercase rest, ?_⟩
    have htext : suggestedText f suffix domain = c :: (front ++ sixDigits suffix) ++ '@' :: domain := by
      rw [suggestedText, hvalue, List.cons_append]
    have hsame : (c :: (front ++ sixDigits suffix)).map Char.toLower = c :: (front ++ sixDigits suffix) :=
      (List.map_congr_left hfixed).trans (List.map_id' _)
    rw [MemberAddress.ofText_eq_ok h, addressSpelling, htext, hrest, Text.toAsciiLowercase, List.map_append, hsame]
    rfl

/-- The recogniser cuts an address where the generator put it together. -/
theorem generatedFragment_suggested {f : NameFragment} {suffix : ℕ} {domain : Text} {address : MemberAddress}
    (hsuffix : suffix < suffixSpace)
    (h : MemberAddress.ofText (suggestedText f suffix domain) = .ok address) :
    generatedFragment address = some f := by
  obtain ⟨rest, hvalue⟩ := value_of_suggested h
  have hlower : ∀ c ∈ f.value, c.isLower = true := fun c => List.all_eq_true.mp f.lower c
  have hascii : ∀ c ∈ f.value ++ sixDigits suffix, isAscii c = true :=
    List.forall_mem_append.mpr ⟨fun c hc => isAscii_of_isLower (hlower c hc),
      fun c hc => isAscii_of_isDigit (sixDigits_digits suffix c hc)⟩
  have hat : '@' ∉ f.value ++ sixDigits suffix := by
    rw [List.mem_append]
    rintro (hin | hin)
    · exact absurd (hlower _ hin) (by decide)
    · exact absurd (sixDigits_digits suffix _ hin) (by decide)
  have hlength : (f.value ++ sixDigits suffix).len = f.value.length + 6 := by
    rw [Text.len_of_ascii hascii, List.length_append, sixDigits_length hsuffix]
  have hdigits : (sixDigits suffix).all Char.isDigit = true := List.all_eq_true.mpr (sixDigits_digits suffix)
  have hall : (f.value ++ sixDigits suffix).all isAscii = true := List.all_eq_true.mpr hascii
  unfold generatedFragment
  rw [hvalue, splitOnce_eq hat]
  simp only [Option.bind_eq_bind, Option.bind_some, hlength, Nat.add_sub_cancel, List.drop_left, List.take_left,
    hall, hdigits, Bool.true_eq_false, or_self, if_false]
  rw [if_neg (by omega)]
  exact NameFragment.toOption_ofText.mpr rfl

/-! ### Occupancy -/

section Occupancy
variable {domain : Text}

/-- How many of the reserved addresses at a domain take a suffix of the fragment. -/
def taken (domain : Text) (reserved : SortedMap Text Unit) (f : NameFragment) : ℕ :=
  reserved.keys.countP fun value => occupant domain value = some f

theorem occupy_get (values : List Text) (counts : SortedMap Text ℕ) (f : NameFragment) :
    ((values.foldl (occupy domain) counts).get? f.value).getD 0 =
      (counts.get? f.value).getD 0 + values.countP fun value => occupant domain value = some f := by
  induction values generalizing counts with
  | nil => rfl
  | cons value values ih =>
    rw [List.foldl_cons, ih, List.countP_cons, occupy]
    cases hoccupant : occupant domain value with
    | none => simp
    | some g =>
      by_cases hg : g = f
      · subst hg
        simp only [SortedMap.get?_insert_self, Option.getD_some]
        simp only [decide_true, if_true]
        omega
      · have hne : f.value ≠ g.value := fun heq => hg (NameFragment.value_injective heq).symm
        simp only [SortedMap.get?_insert_ne _ _ hne, Option.some.injEq, hg, decide_false]
        rfl

theorem occupied_eq (reserved : SortedMap Text Unit) (f : NameFragment) :
    occupied domain reserved f = taken domain reserved f := by
  rw [occupied, occupancy, occupy_get, taken]
  exact Nat.zero_add _

variable {reserved : SortedMap Text Unit} {fragments : List NameFragment} {preferred : Option NameFragment}
  {f : NameFragment}

/-- A fragment is crowded where so many of its suffixes are taken. -/
def Crowded (domain : Text) (reserved : SortedMap Text Unit) (f : NameFragment) : Prop :=
  crowdedAt ≤ taken domain reserved f

/-- The fragment has free suffixes. -/
def HasRoom (domain : Text) (reserved : SortedMap Text Unit) (f : NameFragment) : Prop :=
  taken domain reserved f < suffixSpace

theorem mem_eligible (h : f ∈ eligible domain reserved fragments preferred) :
    f ∈ fragments ∧ preferred.all (· = f) = true ∧
      (Crowded domain reserved f → preferred = some f ∨
        ∀ g ∈ fragments, HasRoom domain reserved g → Crowded domain reserved g) := by
  unfold eligible at h
  simp only [occupied_eq] at h
  by_cases hchoice : preferred = none ∧ (fragments.filter fun p =>
      preferred.all (· = p) ∧ taken domain reserved p < suffixSpace).any
        (fun p => taken domain reserved p < crowdedAt) = true
  · rw [if_pos hchoice] at h
    obtain ⟨hfree, huncrowded⟩ := List.mem_filter.mp h
    obtain ⟨hin, hpreferred⟩ := List.mem_filter.mp hfree
    exact ⟨hin, (of_decide_eq_true hpreferred).1, fun hcrowded =>
      absurd (of_decide_eq_true huncrowded) (Nat.not_lt.mpr hcrowded)⟩
  · rw [if_neg hchoice] at h
    obtain ⟨hin, hpreferred⟩ := List.mem_filter.mp h
    have hpreferred := (of_decide_eq_true hpreferred).1
    refine ⟨hin, hpreferred, fun _ => ?_⟩
    cases preferred with
    | some p => exact .inl (congrArg some (of_decide_eq_true hpreferred))
    | none =>
      -- Were a fragment with room uncrowded, only uncrowded ones would have been kept.
      refine .inr fun g hg hroom => Nat.not_lt.mp fun huncrowded => hchoice ⟨rfl, List.any_eq_true.mpr ⟨g, ?_, ?_⟩⟩
      · exact List.mem_filter.mpr ⟨hg, decide_eq_true ⟨rfl, hroom⟩⟩
      · exact decide_eq_true huncrowded

end Occupancy

/-! ### Suggestions -/

section Suggestions
variable [Crypto] {seed : Vector UInt8 16} {domain : Text} {reserved : SortedMap Text Unit}
  {fragments choices : List NameFragment} {preferred : Option NameFragment} {s : AddressSuggestion}

theorem sampleFrom_lt {bound left counter value counter' : ℕ} (hbound : 0 < bound)
    (h : sampleFrom seed bound left counter = some (value, counter')) : value < bound := by
  induction left generalizing counter with
  | zero => cases h
  | succ left ih =>
    unfold sampleFrom at h
    split_ifs at h
    · cases h
      exact Nat.mod_lt _ hbound
    · exact ih h

/-- What a successful attempt suggests. -/
theorem attempt_eq_ok {n counter : ℕ}
    (h : attempt seed domain reserved fragments choices n counter = some (.ok s)) :
    s.fragments = fragments ∧ reserved.contains s.address.value = false ∧ ∃ f ∈ choices, ∃ suffix < suffixSpace,
      MemberAddress.ofText (suggestedText f suffix domain) = .ok s.address := by
  induction n generalizing counter with
  | zero => cases h
  | succ n ih =>
    unfold attempt at h
    simp only [Option.bind_eq_bind, Option.bind_eq_some_iff, Prod.exists] at h
    obtain ⟨index, counter₁, hindex, suffix, counter₂, hsuffix, f, hf, h⟩ := h
    split at h
    · cases h
    · next address haddress =>
      split_ifs at h with hfresh
      · cases h
        exact ⟨rfl, hfresh, f, List.mem_of_getElem? hf, suffix, sampleFrom_lt (by decide) hsuffix, haddress⟩
      · exact ih h

theorem suggest_eq_ok [Normalization] {name : GenerationName}
    (h : suggest name preferred domain reserved seed = some (.ok s)) :
    name.fragments = some s.fragments ∧ reserved.contains s.address.value = false ∧
      ∃ f ∈ eligible domain reserved s.fragments preferred, ∃ suffix < suffixSpace,
        MemberAddress.ofText (suggestedText f suffix domain) = .ok s.address := by
  unfold suggest at h
  obtain ⟨fragments, hfragments, h⟩ := Option.bind_eq_some_iff.mp h
  split at h
  · cases h
  · dsimp only at h
    split at h
    · cases h
    · obtain ⟨rfl, hfresh, hused⟩ := attempt_eq_ok h
      exact ⟨hfragments, hfresh, hused⟩

end Suggestions

/-- **Suggestions are valid, free and recognised.** What is suggested is not reserved, matches the name
and the preference, and is recognised as an address of the fragment it was put together of; and that is
crowded only if it was preferred or every fragment with room is. The fragments of a name are two to
eight lower-case letters, beginnings of the parts of the name, and no slice leaves its part. -/
theorem suggest_recognised [Crypto] [Normalization] :
    (∀ (name : GenerationName) (preferred : Option NameFragment) (domain : Text) (reserved : SortedMap Text Unit)
      (seed : Vector UInt8 16) (s : AddressSuggestion),
      suggest name preferred domain reserved seed = some (.ok s) →
      s.address.value ∉ reserved.keys ∧ s.matches name preferred = some true ∧
      ∃ f ∈ s.fragments,
        (∃ suffix < suffixSpace, MemberAddress.ofText (suggestedText f suffix domain) = .ok s.address) ∧
        generatedFragment s.address = some f ∧
        (Crowded domain reserved f → preferred = some f ∨
          ∀ g ∈ s.fragments, HasRoom domain reserved g → Crowded domain reserved g)) ∧
    ∀ name : Text, ∃ fragments, fragmentsOf name = some fragments ∧ ∀ f ∈ fragments,
      (2 ≤ f.value.length ∧ f.value.length ≤ 8) ∧ (∀ c ∈ f.value, c.isLower = true ∧ IsLetterOf name c) ∧
        BuiltOf (nameParts name) f.value := by
  constructor
  · intro name preferred domain reserved seed s h
    obtain ⟨hfragments, hfresh, f, hf, suffix, hsuffix, haddress⟩ := suggest_eq_ok h
    obtain ⟨hin, hpreferred, hcrowded⟩ := mem_eligible hf
    have hrecognised := generatedFragment_suggested hsuffix haddress
    refine ⟨fun hkey => ?_, ?_, f, hin, ⟨suffix, hsuffix, haddress⟩, hrecognised, hcrowded⟩
    · obtain ⟨⟨⟩, hget⟩ := SortedMap.mem_keys.mp hkey
      rw [SortedMap.contains_eq_false, hget] at hfresh
      cases hfresh
    · rw [AddressSuggestion.matches, hrecognised]
      simp only [hfragments, Option.map_some, Option.some.injEq, decide_eq_true_eq]
      exact ⟨trivial, hin, hpreferred⟩
  · intro name
    obtain ⟨fragments, hfragments, hbuilt⟩ := fragmentsOf_name name
    refine ⟨fragments, hfragments, fun f hf => ?_⟩
    have hlower : ∀ c ∈ f.value, c.isLower = true := fun c => List.all_eq_true.mp f.lower c
    have hlength : f.value.len = f.value.length :=
      Text.len_of_ascii fun c hc => isAscii_of_isLower (hlower c hc)
    refine ⟨hlength ▸ f.short, fun c hc => ⟨hlower c hc, ?_⟩, hbuilt f hf⟩
    obtain ⟨part, hpart, hc⟩ := (hbuilt f hf).mem hc
    exact ((nameParts_letters hpart).2 c hc).2

end CsMail
