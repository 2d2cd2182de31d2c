import CsMail.Library.Refusal
import CsMail.Primitives
import Mathlib.Data.List.Infix

/-! Public mailboxes: the addresses a deployment issues.

An address is kept trimmed and in lower case, with the domain read off it, so two
spellings of one mailbox are equal. -/
namespace CsMail
open Library

inductive AccountError
  | invalidInput
  deriving DecidableEq

/-! ### Text -/

/-- `str::trim`. -/
def Text.trim (t : Text) : Text := ((t.dropWhile isWhitespace).reverse.dropWhile isWhitespace).reverse

/-- `str::to_ascii_lowercase`. -/
def Text.toAsciiLowercase (t : Text) : Text := t.map Char.toLower

/-- `str::split_once`, at a character. -/
def Text.splitOnce (separator : Char) (t : Text) : Option (Text × Text) :=
  match t.dropWhile (· ≠ separator) with
  | [] => none
  | _ :: rest => some (t.takeWhile (· ≠ separator), rest)

/-- `char::is_control`: the scalar values of the category `Cc`. -/
def isControl (c : Char) : Bool := c.toNat < 0x20 ∨ (0x7F ≤ c.toNat ∧ c.toNat < 0xA0)

theorem toLower_idempotent (c : Char) : c.toLower.toLower = c.toLower := by
  unfold Char.toLower
  split_ifs with h h'
  · have : 'A'.val = 65 := rfl
    have : 'Z'.val = 90 := rfl
    have : 'a'.val = 97 := rfl
    grind
  · rfl
  · rfl

theorem Text.toAsciiLowercase_idempotent (t : Text) :
    t.toAsciiLowercase.toAsciiLowercase = t.toAsciiLowercase := by
  simp only [toAsciiLowercase, List.map_map]
  exact List.map_congr_left fun c _ => toLower_idempotent c

/-! ### Addresses -/

/-- The spelling an address is kept in. -/
def addressSpelling (t : Text) : Text := t.trim.toAsciiLowercase

def labelRefused (label : Text) : Bool :=
  label.isEmpty || 63 < label.utf8.length || label.head? = some '-' || label.getLast? = some '-' ||
    !label.all fun c => c.isAlphanum || c = '-'

/-- The domain of an address in its kept spelling. -/
def addressDomain (value : Text) : Except AccountError Text := do
  let (localPart, domain) ← okOr (value.splitOnce '@') .invalidInput
  refuseIf (localPart = [] ∨ 64 < localPart.utf8.length ∨ 253 < domain.utf8.length ∨
    localPart.all (fun c => c.isAlphanum || c = '-' || c = '.') = false ∨
    localPart.head? = some '.' ∨ localPart.getLast? = some '.' ∨
    "..".toList <:+: localPart ∨ "member-".toList <+: localPart ∨
    (domain.splitOn '.').length < 2 ∨ (domain.splitOn '.').any labelRefused = true) .invalidInput
  .ok domain

/-- A deployment-issued public mailbox, distinct from its protocol identity. -/
structure MemberAddress where
  value : Text
  domain : Text
  lower : value.toAsciiLowercase = value
  parsed : addressDomain value = .ok domain

instance : DecidableEq MemberAddress := fun a b =>
  decidable_of_iff (a.value = b.value ∧ a.domain = b.domain) (by cases a; cases b; simp)

def MemberAddress.ofText (t : Text) : Except AccountError MemberAddress :=
  match h : addressDomain (addressSpelling t) with
  | .ok domain => .ok ⟨addressSpelling t, domain, Text.toAsciiLowercase_idempotent _, h⟩
  | .error e => .error e

/-- The domain is read off the text: an address is its text. -/
theorem MemberAddress.value_injective : Function.Injective MemberAddress.value := by
  intro a b h
  cases a with
  | mk value domain lower parsed =>
    obtain ⟨value', domain', lower', parsed'⟩ := b
    have hvalue : value = value' := h
    subst hvalue
    have hdomain : domain = domain' := Except.ok.inj (parsed.symm.trans parsed')
    subst hdomain
    rfl

example : (MemberAddress.ofText "  Ann.Lee@Mail.example ".toList).map (·.value) =
    .ok "ann.lee@mail.example".toList := by decide +kernel

end CsMail
