import CsMail.Accounts.Directory
import CsMail.Guests.History
import CsMail.Guests.Verification
import CsMail.Search.Passages
import Mathlib.Data.List.TakeWhile

/-! Mailbox addresses as text.

A domain is kept in lower case and without its root dot; a guest mailbox is one exact local
part at such a domain. What was read is written as a text that is read as the same value, so the keys a
mailbox is stored under tell it from every other. -/
namespace CsMail
open Library

/-! ### Text -/

theorem Text.splitOnce_eq_some {separator : Char} {t before after : Text} :
    t.splitOnce separator = some (before, after) ↔
      t = before ++ separator :: after ∧ separator ∉ before := by
  have hparts := List.takeWhile_append_dropWhile (p := fun c => decide (c ≠ separator)) (l := t)
  unfold splitOnce
  constructor
  · intro h
    split at h
    · cases h
    · next c rest hdrop =>
      have hc : c = separator := by
        have hhead := List.head?_dropWhile_not (fun c => decide (c ≠ separator)) t
        rw [hdrop] at hhead
        simpa using hhead
      subst hc
      obtain ⟨rfl, rfl⟩ := Prod.mk.inj (Option.some.inj h)
      refine ⟨by rw [← hdrop, hparts], fun hmem => ?_⟩
      simpa using List.mem_takeWhile_imp hmem
  · rintro ⟨rfl, h⟩
    have hbefore : ∀ c ∈ before, decide (c ≠ separator) = true := fun c hc =>
      decide_eq_true fun heq => h (heq ▸ hc)
    rw [List.dropWhile_append_of_pos hbefore, List.dropWhile_cons_of_neg (by simp),
      List.takeWhile_append_of_pos hbefore, List.takeWhile_cons_of_neg (by simp), List.append_nil]

/-- `str::rsplit_once`, at a character. -/
def Text.rsplitOnce (separator : Char) (t : Text) : Option (Text × Text) :=
  (Text.splitOnce separator t.reverse).map fun (after, before) => (before.reverse, after.reverse)

theorem Text.rsplitOnce_eq_some {separator : Char} {t before after : Text} :
    t.rsplitOnce separator = some (before, after) ↔
      t = before ++ separator :: after ∧ separator ∉ after := by
  simp only [rsplitOnce, Option.map_eq_some_iff, Prod.exists, Text.splitOnce_eq_some, Prod.mk.injEq]
  constructor
  · rintro ⟨a, b, ⟨ht, hnot⟩, rfl, rfl⟩
    refine ⟨?_, by simpa using hnot⟩
    rw [← t.reverse_reverse, ht]
    simp
  · rintro ⟨rfl, h⟩
    exact ⟨after.reverse, before.reverse, ⟨by simp, by simpa using h⟩, by simp, by simp⟩

theorem toLower_cases (c : Char) :
    c.toLower = c ∨ 65 ≤ c.toNat ∧ c.toNat ≤ 90 ∧ c.toLower.toNat = c.toNat + 32 := by
  unfold Char.toLower
  split_ifs with h
  · simp only [ge_iff_le, UInt32.le_iff_toNat_le, Char.toNat_val] at h
    have hfirst : 'A'.toNat = 65 := rfl
    have hlast : 'Z'.toNat = 90 := rfl
    refine .inr ⟨by omega, by omega, ?_⟩
    simp only [Char.toNat]
    simp
    omega
  · exact .inl rfl

/-- A character that is no letter has no other case. -/
theorem toLower_eq_iff {c d : Char} (hd : d.toNat < 97 ∨ 122 < d.toNat) (hlower : d.toLower = d) :
    c.toLower = d ↔ c = d := by
  constructor
  · intro h
    rcases toLower_cases c with hsame | ⟨hfirst, hlast, hval⟩
    · rw [← hsame, h]
    · rw [h] at hval
      omega
  · intro h
    rw [h, hlower]

theorem toNat_lt_of_isAlphanum {c : Char} (h : c.isAlphanum = true) : c.toNat < 128 := by
  have hcases : ((c.isUpper || c.isLower) || c.isDigit) = true := h
  rw [Bool.or_eq_true, Bool.or_eq_true, isUpper_iff, isLower_iff, isDigit_iff] at hcases
  omega

theorem mem_splitOn {separator c : Char} {t : Text} (hc : c ∈ t) :
    c = separator ∨ ∃ piece ∈ t.splitOn separator, c ∈ piece := by
  induction t with
  | nil => cases hc
  | cons d rest ih =>
    rw [List.splitOn_cons_eq_if_modifyHead]
    split_ifs with hd
    · rcases List.mem_cons.mp hc with rfl | hrest
      · exact .inl (beq_iff_eq.mp hd)
      · exact (ih hrest).imp_right fun ⟨piece, hpiece, hmem⟩ => ⟨piece, List.mem_cons_of_mem _ hpiece, hmem⟩
    · cases hsplit : rest.splitOn separator with
      | nil => exact absurd hsplit (List.splitOn_ne_nil _ _)
      | cons piece pieces =>
        rw [List.modifyHead_cons]
        rcases List.mem_cons.mp hc with rfl | hrest
        · exact .inr ⟨c :: piece, List.mem_cons_self, List.mem_cons_self⟩
        · refine (ih hrest).imp_right ?_
          rintro ⟨p, hp, hmem⟩
          rw [hsplit, List.mem_cons] at hp
          rcases hp with rfl | hp
          · exact ⟨d :: p, List.mem_cons_self, List.mem_cons_of_mem _ hmem⟩
          · exact ⟨p, List.mem_cons_of_mem _ hp, hmem⟩

/-! ### Domains -/

inductive DomainIdentityError
  | invalidDomain
  deriving DecidableEq

/-- `parse_ascii`: a DNS name in lower case, without its optional root dot. -/
def DomainIdentity.parseAscii (input : Text) : Except DomainIdentityError DomainIdentity := do
  let normalized := Text.toAsciiLowercase (input.reverse.dropWhile (· = '.')).reverse
  refuseIf (normalized = [] ∨ 253 < normalized.utf8.length ∨ input.any (fun c => 128 ≤ c.toNat) = true)
    .invalidDomain
  refuseIf ((normalized.splitOn '.').any labelRefused = true) .invalidDomain
  .ok ⟨normalized⟩

namespace DomainIdentity
variable {input : Text} {domain : DomainIdentity}

theorem parseAscii_eq_ok (h : parseAscii input = .ok domain) :
    domain.name = Text.toAsciiLowercase (input.reverse.dropWhile (· = '.')).reverse ∧ domain.name ≠ [] ∧
      domain.name.utf8.length ≤ 253 ∧ (domain.name.splitOn '.').any labelRefused = false := by
  simp only [parseAscii, bind_eq_ok, refuseIf_eq_ok, exists_const, Except.ok.injEq] at h
  obtain ⟨hshape, hlabels, rfl⟩ := h
  simp only [not_or, Nat.not_lt] at hshape
  exact ⟨rfl, hshape.1, hshape.2.1, by simpa using hlabels⟩

theorem toAsciiLowercase_name (h : parseAscii input = .ok domain) :
    domain.name.toAsciiLowercase = domain.name := by
  rw [(parseAscii_eq_ok h).1, Text.toAsciiLowercase_idempotent]

/-- A parsed name holds letters, digits, hyphens and dots. -/
theorem name_characters (h : parseAscii input = .ok domain) {c : Char} (hc : c ∈ domain.name) :
    c = '.' ∨ c = '-' ∨ c.isAlphanum = true := by
  obtain ⟨-, -, -, hlabels⟩ := parseAscii_eq_ok h
  refine (mem_splitOn hc).imp_right ?_
  rintro ⟨label, hlabel, hmem⟩
  have hrefused := List.any_eq_false.mp hlabels label hlabel
  simp only [labelRefused, Bool.or_eq_true, not_or, Bool.not_eq_true', Bool.not_eq_false] at hrefused
  have hall := List.all_eq_true.mp hrefused.2 c hmem
  simp only [Bool.or_eq_true, decide_eq_true_eq] at hall
  exact hall.symm

/-- A parsed name does not end with a dot. -/
theorem name_getLast (h : parseAscii input = .ok domain) : domain.name.getLast? ≠ some '.' := by
  intro hlast
  rw [(parseAscii_eq_ok h).1, Text.toAsciiLowercase, List.map_reverse, List.getLast?_reverse, List.head?_map,
    Option.map_eq_some_iff] at hlast
  obtain ⟨c, hc, hlower⟩ := hlast
  have hnot := List.head?_dropWhile_not (fun c => decide (c = '.')) input.reverse
  rw [hc] at hnot
  simp [(toLower_eq_iff (by decide) (by decide)).mp hlower] at hnot

theorem trimEnd_name (h : parseAscii input = .ok domain) :
    (domain.name.reverse.dropWhile (· = '.')).reverse = domain.name := by
  have hlast := name_getLast h
  rw [← List.head?_reverse] at hlast
  cases hname : domain.name.reverse with
  | nil => rw [← domain.name.reverse_reverse, hname]; rfl
  | cons c rest =>
    rw [hname] at hlast
    have hc : c ≠ '.' := by simpa using hlast
    rw [List.dropWhile_cons_of_neg (by simpa using hc), ← hname, List.reverse_reverse]

/-- A parsed domain is written as a text that is read as itself. -/
theorem parseAscii_name (h : parseAscii input = .ok domain) : parseAscii domain.name = .ok domain := by
  obtain ⟨-, hne, hlen, hlabels⟩ := parseAscii_eq_ok h
  have hascii : domain.name.any (fun c => 128 ≤ c.toNat) = false := by
    refine List.any_eq_false.mpr fun c hc => ?_
    simp only [decide_eq_true_eq, not_le]
    rcases name_characters h hc with rfl | rfl | halnum
    · decide
    · decide
    · exact toNat_lt_of_isAlphanum halnum
  simp only [parseAscii, trimEnd_name h, toAsciiLowercase_name h, bind_eq_ok, refuseIf_eq_ok, exists_const, hlabels,
    hascii, Bool.false_eq_true, not_false_eq_true, or_false, not_or, not_lt, hne, hlen, and_true]

end DomainIdentity

/-! ### Mailboxes -/

/-- `is_ascii_graphic`, less the characters that only a quoted local part may hold. -/
def isMailboxCharacter (c : Char) : Bool := 33 ≤ c.toNat ∧ c.toNat ≤ 126 ∧ c ∉ "@\"(),:;<>[\\]".toList

namespace GuestMailbox

/-- `parse`: a printable local part of at most 64 characters at a valid domain. -/
def parse (input : Text) : Except GuestError GuestMailbox := do
  let (localPart, domain) ← okOr (input.trim.rsplitOnce '@') .invalidMailbox
  refuseIf (localPart = [] ∨ 64 < localPart.utf8.length ∨ localPart.all isMailboxCharacter = false) .invalidMailbox
  let domain ← (DomainIdentity.parseAscii domain).mapError fun _ => .invalidMailbox
  .ok ⟨localPart, domain⟩

theorem isWhitespace_of_graphic {c : Char} (h : 33 ≤ c.toNat ∧ c.toNat ≤ 126) : isWhitespace c = false := by
  simp only [isWhitespace, List.mem_cons, List.not_mem_nil, or_false, decide_eq_false_iff_not]
  omega

theorem graphic_of_isAlphanum {c : Char} (h : c.isAlphanum = true) : 33 ≤ c.toNat ∧ c.toNat ≤ 126 := by
  have hcases : ((c.isUpper || c.isLower) || c.isDigit) = true := h
  rw [Bool.or_eq_true, Bool.or_eq_true, isUpper_iff, isLower_iff, isDigit_iff] at hcases
  omega

theorem graphic_of_name {input : Text} {domain : DomainIdentity} (h : DomainIdentity.parseAscii input = .ok domain)
    {c : Char} (hc : c ∈ domain.name) : 33 ≤ c.toNat ∧ c.toNat ≤ 126 := by
  rcases DomainIdentity.name_characters h hc with rfl | rfl | halnum
  · decide
  · decide
  · exact graphic_of_isAlphanum halnum

/-- A text without blanks is its own trimming. -/
theorem trim_of_graphic {t : Text} (h : ∀ c ∈ t, isWhitespace c = false) : t.trim = t := by
  have hdrop : ∀ u : Text, (∀ c ∈ u, isWhitespace c = false) → u.dropWhile isWhitespace = u := by
    intro u hu
    cases u with
    | nil => rfl
    | cons c rest => exact List.dropWhile_cons_of_neg (by simp [hu c List.mem_cons_self])
  rw [Text.trim, hdrop t h, hdrop _ fun c hc => h c (List.mem_reverse.mp hc), List.reverse_reverse]

/-- A mailbox read from a text is read again from its address. -/
theorem parse_address {input : Text} {mailbox : GuestMailbox} (h : parse input = .ok mailbox) :
    parse mailbox.address = .ok mailbox := by
  simp only [parse, bind_eq_ok, okOr_eq_ok, refuseIf_eq_ok, exists_const, mapError_eq_ok, Prod.exists,
    Except.ok.injEq] at h
  obtain ⟨localPart, text, -, hlocal, domain, hdomain, rfl⟩ := h
  have hgraphic : ∀ c ∈ address ⟨localPart, domain⟩, isWhitespace c = false := by
    intro c hc
    rw [address, List.append_assoc, List.mem_append, List.mem_append] at hc
    rcases hc with hc | hc | hc
    · simp only [not_or, Bool.not_eq_false] at hlocal
      have hmailbox := List.all_eq_true.mp hlocal.2.2 c hc
      simp only [isMailboxCharacter, decide_eq_true_eq] at hmailbox
      exact isWhitespace_of_graphic ⟨hmailbox.1, hmailbox.2.1⟩
    · rw [List.mem_singleton.mp hc]
      decide
    · exact isWhitespace_of_graphic (graphic_of_name hdomain hc)
  have hat : '@' ∉ domain.name := by
    intro hmem
    rcases DomainIdentity.name_characters hdomain hmem with hdot | hhyphen | halnum
    · exact absurd hdot (by decide)
    · exact absurd hhyphen (by decide)
    · exact absurd halnum (by decide)
  have hsplit : (address ⟨localPart, domain⟩).rsplitOnce '@' = some (localPart, domain.name) :=
    Text.rsplitOnce_eq_some.mpr ⟨by rw [address, List.append_assoc]; rfl, hat⟩
  simp only [parse, trim_of_graphic hgraphic, bind_eq_ok, okOr_eq_ok, refuseIf_eq_ok, exists_const, mapError_eq_ok,
    Prod.exists, Except.ok.injEq]
  exact ⟨localPart, domain.name, hsplit, hlocal, domain, DomainIdentity.parseAscii_name hdomain, rfl⟩

/-- **A mailbox is told by its address.** What is read from a text is read again from its address, and
of two mailboxes that were read neither the address nor a key made of it takes one for the other. -/
theorem read_faithful {input input' : Text} {m m' : GuestMailbox} (h : parse input = .ok m)
    (h' : parse input' = .ok m') : parse m.address = .ok m ∧ (m.address = m'.address ↔ m = m') ∧
      ((HistoryEvidence.mailbox m).key = (HistoryEvidence.mailbox m').key ↔ m = m') ∧
      ∀ identity identity', (SenderSubject.guest m).key identity = (SenderSubject.guest m').key identity' ↔
        m = m' := by
  have hread := parse_address h
  have hsame : m.address = m'.address ↔ m = m' := by
    constructor
    · intro haddress
      have hread' := parse_address h'
      rw [← haddress, hread] at hread'
      exact Except.ok.inj hread'
    · intro hm
      rw [hm]
  refine ⟨hread, hsame, ?_, fun _ _ => ?_⟩
  · show "mailbox:".toList ++ _ = "mailbox:".toList ++ _ ↔ _
    rw [List.append_right_inj]
    exact hsame
  · show "guest:".toList ++ _ = "guest:".toList ++ _ ↔ _
    rw [List.append_right_inj]
    exact hsame

namespace Example

def upper : GuestMailbox := ⟨"Ada".toList, ⟨"example.org".toList⟩⟩

def lower : GuestMailbox := ⟨"ada".toList, ⟨"example.org".toList⟩⟩

/-- The case of the domain is dropped, that of the local part is kept. -/
theorem read_faithful_case : parse upper.address = .ok upper ∧ upper.address ≠ lower.address := by
  have h := @read_faithful " Ada@Example.ORG. ".toList "ada@example.org".toList upper lower
    (by decide +kernel) (by decide +kernel)
  exact ⟨h.1, fun haddress => absurd (h.2.1.mp haddress) (by decide)⟩

end Example

end GuestMailbox
end CsMail
