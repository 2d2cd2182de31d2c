import CsMail.Search.Passages
import Mathlib.Data.Finset.Card
import Mathlib.Data.Finset.Lattice.Basic

/-! Literal queries: words, which all have to occur somewhere in a message, or one phrase.

Both compare in lower case. A phrase is found in the text as it reads in lower case, and only
where the place it was found begins and ends between characters of the text itself. -/
namespace CsMail
open Library

/-- What the standard library knows of Unicode. White space is no letter and has no case, and
case never turns a visible character into white space. -/
class Unicode where
  isAlphanumeric : Char → Bool
  isCased : Char → Bool
  isCaseIgnorable : Char → Bool
  toLowercase : Char → List Char
  alphanumeric_whitespace : ∀ c, isWhitespace c = true → isAlphanumeric c = false
  lowercase_whitespace : ∀ c, isWhitespace c = true → toLowercase c = [c]
  lowercase_visible : ∀ c, isWhitespace c = false →
    toLowercase c ≠ [] ∧ ∀ d ∈ toLowercase c, isWhitespace d = false

namespace Text
variable [Unicode]

def caseIgnorableThenCased (t : Text) : Bool :=
  (t.dropWhile Unicode.isCaseIgnorable).head?.any Unicode.isCased

/-- A final sigma is the one character whose case depends on where it stands. -/
def lowercaseAt (before : Text) (c : Char) (rest : Text) : Text :=
  if c = 'Σ' then
    [if before.caseIgnorableThenCased = true ∧ rest.caseIgnorableThenCased = false then 'ς' else 'σ']
  else Unicode.toLowercase c

/-- `str::to_lowercase` of what comes after the given characters, which are in reverse. -/
def lowercaseAfter (before : Text) : Text → Text
  | [] => []
  | c :: rest => lowercaseAt before c rest ++ lowercaseAfter (c :: before) rest

def toLowercase (t : Text) : Text := lowercaseAfter [] t

/-! ### Words -/

omit [Unicode] in
/-- `split_inclusive`: each segment keeps the character it ends with. -/
def splitInclusive (p : Char → Bool) : Text → List Text
  | [] => []
  | c :: rest =>
    if p c then [c] :: splitInclusive p rest
    else match splitInclusive p rest with
      | [] => [[c]]
      | segment :: more => (c :: segment) :: more

omit [Unicode] in
/-- `trim_end_matches`. -/
def trimEnd (p : Char → Bool) (t : Text) : Text := (t.reverse.dropWhile p).reverse

omit [Unicode] in
/-- Each segment at its offset, without its end. -/
def trimmed (p : Char → Bool) (offset : ℕ) : List Text → List (ℕ × Text)
  | [] => []
  | segment :: more => (offset, trimEnd p segment) :: trimmed p (offset + len segment) more

def separates (c : Char) : Bool := !Unicode.isAlphanumeric c

/-- The alphanumeric runs of a text, with their offsets. -/
def words (t : Text) : List (ℕ × Text) :=
  (trimmed separates 0 (splitInclusive separates t)).filter fun w => !w.2.isEmpty

/-! ### Phrases -/

/-- `match_indices`: where a pattern stands, from the left and without overlaps. -/
def matchIndices (pattern : Text) (offset : ℕ) : ℕ → Text → List ℕ
  | _, [] => []
  | skip + 1, c :: rest => matchIndices pattern (offset + c.utf8Size) skip rest
  | 0, c :: rest =>
    if pattern.isPrefixOf (c :: rest) then
      offset :: matchIndices pattern (offset + c.utf8Size) (pattern.length - 1) rest
    else matchIndices pattern (offset + c.utf8Size) 0 rest

/-- A text in lower case, with the offset in the text of every place where a character begins. -/
structure Folding where
  folded : Text
  boundaries : SortedMap ℕ ℕ
  offset : ℕ

def Folding.push (f : Folding) (c : Char) : Folding where
  folded := f.folded ++ Unicode.toLowercase c
  boundaries := f.boundaries.insert f.folded.len f.offset
  offset := f.offset + c.utf8Size

def fold (t : Text) : Folding := t.foldl Folding.push ⟨[], .empty, 0⟩

/-- Where every character begins, and where the last one ends. -/
def boundaries (t : Text) : SortedMap ℕ ℕ := (fold t).boundaries.insert (fold t).folded.len t.len

/-- `literal_range`: where a phrase stands in a text, whatever the case of either. -/
def literalRange (text phrase : Text) : Option (ℕ × ℕ) :=
  if phrase.toLowercase = [] then none
  else (matchIndices phrase.toLowercase 0 0 (fold text).folded).findSome? fun start => do
    let first ← (boundaries text).get? start
    let last ← (boundaries text).get? (start + phrase.toLowercase.len)
    some (first, last)

end Text

/-! ### Queries -/

inductive Query
  | phrase (given : Text)
  | words (required : Finset Text)
  deriving DecidableEq

namespace Query
variable [Unicode]

/-- What stands between quotes. -/
def quoted : Text → Option Text
  | '"' :: rest => if rest.getLast? = some '"' then some rest.dropLast else none
  | _ => none

def parse (text : Text) : Except SearchError Query := do
  refuseIf (text.trim = [] ∨ 1024 < text.trim.len) .invalid
  match quoted text.trim with
  | some given => do
    refuseIf (given = []) .invalid
    .ok (.phrase given)
  | none => do
    let required := (text.trim.words.map fun w => w.2.toLowercase).toFinset
    refuseIf (required = ∅) .invalid
    .ok (.words required)

/-- The required words of one part, with where the first begins and the last ends. -/
structure PartWords where
  found : Finset Text
  start : Option ℕ
  stop : ℕ

def PartWords.visit (required : Finset Text) (s : PartWords) (w : ℕ × Text) : PartWords :=
  if w.2.toLowercase ∈ required ∧ w.2.toLowercase ∉ s.found then
    ⟨insert w.2.toLowercase s.found, some (s.start.getD w.1), w.1 + w.2.len⟩
  else s

def partWords (required : Finset Text) (text : Text) : PartWords :=
  text.words.foldl (PartWords.visit required) ⟨∅, none, 0⟩

/-- The words found so far, and the part that had most of them. -/
structure Located where
  found : Finset Text
  best : Option (TextPart × ℕ × ℕ)
  bestCount : ℕ

def Located.visit (required : Finset Text) (s : Located) (part : TextPart × Text) : Option Located :=
  let words := partWords required part.2
  if s.bestCount < words.found.card then do
    let start ← words.start
    some ⟨s.found ∪ words.found, some (part.1, start, words.stop), words.found.card⟩
  else some {s with found := s.found ∪ words.found}

/-- One supporting range; separate parts remain separate sources. -/
def locate (q : Query) (parts : List (TextPart × Text)) : Option (TextPart × ℕ × ℕ) :=
  match q with
  | .phrase given =>
    parts.findSome? fun (part, text) => (text.literalRange given).map fun (a, b) => (part, a, b)
  | .words required => do
    let s ← parts.foldlM (Located.visit required) ⟨∅, none, 0⟩
    if s.found = required then s.best else none

end Query
end CsMail
