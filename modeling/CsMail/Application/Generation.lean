import CsMail.Accounts.AliasPermission
import CsMail.Accounts.Directory
import CsMail.Search.Passages
import Mathlib.Data.Char
import Mathlib.Data.List.Lex

/-! Readable alias candidates.

A name approved by a member offers short fragments of itself; a suggestion is a fragment with six
digits behind it, at the serving domain. Randomness, reserved addresses and the domain are supplied.

Where the source would stop the process (a slice outside its string, a counter that overflows) the
functions here return nothing. -/
namespace CsMail
open Library

/-- Compatibility decomposition. -/
class Normalization where
  nfkd : Text → Text
  isCombiningMark : Char → Bool

/-! ### Fragments -/

def suffixSpace : ℕ := 1_000_000
def crowdedAt : ℕ := 10_000
def attempts : ℕ := 32

structure NameFragment where
  value : Text
  short : 2 ≤ value.len ∧ value.len ≤ 8
  lower : value.all Char.isLower = true
  deriving DecidableEq

def NameFragment.ofText (t : Text) : Except AliasError NameFragment :=
  if h : (2 ≤ t.len ∧ t.len ≤ 8) ∧ t.all Char.isLower = true then .ok ⟨t, h.1, h.2⟩ else .error .invalid

/-- `split_whitespace`. -/
def Text.splitWhitespace (t : Text) : List Text := (t.splitOnP isWhitespace).filter (· ≠ [])

/-- The beginnings of a part, from two bytes up to a length. -/
def beginnings (part : Text) (longest : ℕ) : Option (List Text) :=
  (List.range' 2 (min part.len longest - 1)).mapM fun length => part.slice? 0 length

/-- What the first and the last part of a name offer together. -/
def paired (first last : Text) : Option (List Text) := do
  let f ← first.slice? 0 1
  let l ← last.slice? 0 1
  let lasts ← beginnings last 7
  let firsts ← beginnings first 7
  some ([f ++ l, (f ++ l) ++ (f ++ l)] ++ lasts.flatMap (fun t => [f ++ t, t ++ f]) ++ firsts.map fun t => t ++ l)

section Names
variable [Normalization]

/-- The letters of a name in lower case, and a blank for everything else. -/
def normalized (name : Text) : Text :=
  ((Normalization.nfkd name).filter fun c => !Normalization.isCombiningMark c).map fun c =>
    if c.isAlpha then c.toLower else ' '

def nameParts (name : Text) : List Text := (normalized name).splitWhitespace

/-- The texts a name offers, in order. -/
def candidates (name : Text) : Option (List Text) := do
  let alone ← (nameParts name).mapM fun part => beginnings part 8
  match (nameParts name).head?, (nameParts name).getLast? with
  | some first, some last =>
    if 1 < (nameParts name).length then (paired first last).map fun pairs => alone.flatten ++ pairs
    else some alone.flatten
  | _, _ => some alone.flatten

def addFragment (fragments : SortedMap Text Unit) (value : Text) : SortedMap Text Unit :=
  if (NameFragment.ofText value).isOk then fragments.insert value () else fragments

/-- The fragments of a name, in order. -/
def fragmentsOf (name : Text) : Option (List NameFragment) :=
  (candidates name).map fun values =>
    (values.foldl addFragment ∅).keys.filterMap fun value => (NameFragment.ofText value).toOption

/-- A name that has fragments. -/
structure GenerationName where
  value : Text
  offered : ∃ fragments, fragmentsOf value = some fragments ∧ fragments ≠ []

namespace GenerationName

def ofText (t : Text) : Option (Except AliasError GenerationName) :=
  if 120 < t.length ∨ t.any isControl = true then some (.error .invalid)
  else match h : fragmentsOf t.trim with
    | none => none
    | some fragments =>
      if hne : fragments ≠ [] then some (.ok ⟨t.trim, fragments, h, hne⟩) else some (.error .invalid)

def fragments (name : GenerationName) : Option (List NameFragment) := fragmentsOf name.value

end GenerationName

/-! ### Recognition -/

omit [Normalization] in
/-- `is_ascii`. -/
def isAscii (c : Char) : Bool := c.toNat < 0x80

omit [Normalization] in
/-- The fragment a suggested address begins with. -/
def generatedFragment (address : MemberAddress) : Option NameFragment := do
  let (localPart, _) ← address.value.splitOnce '@'
  if localPart.len < 6 then none
  -- An ASCII text can be cut between any two bytes.
  else if localPart.all isAscii = false ∨ (localPart.drop (localPart.len - 6)).all Char.isDigit = false then none
  else (NameFragment.ofText (localPart.take (localPart.len - 6))).toOption

structure AddressSuggestion where
  address : MemberAddress
  fragments : List NameFragment
  deriving DecidableEq

/-- The suggestion is one for the name and the fragment preferred. -/
def AddressSuggestion.matches (s : AddressSuggestion) (name : GenerationName) (preferred : Option NameFragment) :
    Option Bool :=
  match generatedFragment s.address with
  | none => some false
  | some fragment => name.fragments.map fun fragments =>
    s.fragments = fragments ∧ fragment ∈ s.fragments ∧ preferred.all (· = fragment) = true

/-! ### Suggestions -/

section Occupancy
variable (domain : Text) (reserved : SortedMap Text Unit)

omit [Normalization] in
/-- The fragment a reserved value takes a suffix of, if it is an address at the domain. -/
def occupant (value : Text) : Option NameFragment := do
  let address ← (MemberAddress.ofText value).toOption
  let (_, d) ← address.value.splitOnce '@'
  if d = domain then generatedFragment address else none

omit [Normalization] in
def occupy (counts : SortedMap Text ℕ) (value : Text) : SortedMap Text ℕ :=
  match occupant domain value with
  | some fragment => counts.insert fragment.value ((counts.get? fragment.value).getD 0 + 1)
  | none => counts

omit [Normalization] in
def occupancy : SortedMap Text ℕ := reserved.keys.foldl (occupy domain) ∅

omit [Normalization] in
def occupied (p : NameFragment) : ℕ := ((occupancy domain reserved).get? p.value).getD 0

omit [Normalization] in
/-- The fragments to choose from: uncrowded ones where there are some and none is preferred. -/
def eligible (fragments : List NameFragment) (preferred : Option NameFragment) : List NameFragment :=
  let free := fragments.filter fun p => preferred.all (· = p) ∧ occupied domain reserved p < suffixSpace
  if preferred = none ∧ free.any (fun p => occupied domain reserved p < crowdedAt) = true then
    free.filter fun p => occupied domain reserved p < crowdedAt
  else free

end Occupancy

section Drawing
variable [Crypto] (seed : Vector UInt8 16)

omit [Normalization] in
/-- The value drawn at a counter. -/
def drawn (counter : ℕ) : ℕ :=
  ofBeBytes ((Crypto.sha256 (byteString "cs-mail/readable-alias/v1" ++ seed.toList ++ beBytes 8 counter)).toList.take 8)

omit [Normalization] in
/-- Draws until the value lies in a whole cycle of the bound; so many draws are left. -/
def sampleFrom (bound : ℕ) : ℕ → ℕ → Option (ℕ × ℕ)
  | 0, _ => none
  | left + 1, counter =>
    if drawn seed counter < u64Max - u64Max % bound then some (drawn seed counter % bound, counter + 1)
    else sampleFrom bound left (counter + 1)

omit [Normalization] in
def sample (counter bound : ℕ) : Option (ℕ × ℕ) := sampleFrom seed bound (u64Max - counter) counter

omit [Normalization] [Crypto] in
/-- A number with leading zeros, in six digits at least. -/
def sixDigits (n : ℕ) : Text := (Nat.toDigits 10 n).leftpad 6 '0'

omit [Normalization] [Crypto] in
def suggestedText (fragment : NameFragment) (suffix : ℕ) (domain : Text) : Text :=
  fragment.value ++ sixDigits suffix ++ '@' :: domain

variable (domain : Text) (reserved : SortedMap Text Unit) (fragments choices : List NameFragment)

omit [Normalization] in
def attempt : ℕ → ℕ → Option (Except AliasError AddressSuggestion)
  | 0, _ => some (.error .conflict)
  | n + 1, counter => do
    let (index, counter) ← sample seed counter choices.length
    let (suffix, counter) ← sample seed counter suffixSpace
    let fragment ← choices[index]?
    match MemberAddress.ofText (suggestedText fragment suffix domain) with
    | .error _ => some (.error .invalid)
    | .ok address =>
      if reserved.contains address.value = false then some (.ok ⟨address, fragments⟩) else attempt n counter

end Drawing

def suggest [Crypto] (name : GenerationName) (preferred : Option NameFragment) (domain : Text)
    (reserved : SortedMap Text Unit) (seed : Vector UInt8 16) : Option (Except AliasError AddressSuggestion) := do
  let fragments ← name.fragments
  if preferred.any (· ∉ fragments) then some (.error .invalid)
  else
    let choices := eligible domain reserved fragments preferred
    if choices = [] then some (.error .conflict)
    else attempt seed domain reserved fragments choices attempts 0

end Names
end CsMail
