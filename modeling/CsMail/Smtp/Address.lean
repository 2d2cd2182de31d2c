import CsMail.Guests.Mailbox

/-! Where arriving mail is addressed to.

An arrival is routed by the text of its recipient: to a conversation, to a member's
protocol identity or to a public mailbox. Each destination has one spelling, which is
read as that destination, and whatever is read as a destination is its spelling up to
case and blanks (`destinationAddress_spelling`, `destinationAddress_of_spelling`). -/
namespace CsMail.Smtp
open Library

/-- Why an arrival is refused. -/
inductive Refusal
  | permanent
  | temporary
  | tooLarge
  | unsupported
  deriving DecidableEq

/-! ### Hexadecimal -/

def hexDigit (n : ℕ) : Char := Char.ofNat (if n < 10 then 48 + n else 87 + n)

/-- A number in a fixed count of digits: `{:032x}` at 32. -/
def hex : ℕ → ℕ → Text
  | 0, _ => []
  | width + 1, n => hex width (n / 16) ++ [hexDigit (n % 16)]

/-- `is_ascii_hexdigit`. -/
def isHexdigit (c : Char) : Bool :=
  (48 ≤ c.toNat ∧ c.toNat ≤ 57) ∨ (65 ≤ c.toNat ∧ c.toNat ≤ 70) ∨ (97 ≤ c.toNat ∧ c.toNat ≤ 102)

def hexValue (c : Char) : ℕ := if c.toNat ≤ 57 then c.toNat - 48 else if c.toNat ≤ 70 then c.toNat - 55 else c.toNat - 87

def ofHex (t : Text) : ℕ := t.foldl (fun n c => 16 * n + hexValue c) 0

theorem hexDigit_spec : ∀ n : Fin 16, isHexdigit (hexDigit n) = true ∧ hexValue (hexDigit n) = n.val ∧
    (hexDigit n).toLower = hexDigit n := by decide

theorem hexDigit_hexValue {c : Char} (h : isHexdigit c = true) : hexValue c < 16 ∧ hexDigit (hexValue c) = c.toLower := by
  simp only [isHexdigit, decide_eq_true_eq] at h
  have hof : Char.ofNat c.toNat = c := Char.ofNat_toNat c
  have hcases : c.toNat ∈ List.range' 48 10 ++ List.range' 65 6 ++ List.range' 97 6 := by
    simp only [List.mem_append, List.mem_range'_1]
    omega
  have hall : ∀ n ∈ List.range' 48 10 ++ List.range' 65 6 ++ List.range' 97 6,
      hexValue (Char.ofNat n) < 16 ∧ hexDigit (hexValue (Char.ofNat n)) = (Char.ofNat n).toLower := by decide
  simpa only [hof] using hall _ hcases

theorem ofHex_concat (t : Text) (c : Char) : ofHex (t ++ [c]) = 16 * ofHex t + hexValue c := by
  rw [ofHex, List.foldl_append]
  rfl

theorem length_hex (width n : ℕ) : (hex width n).length = width := by
  induction width generalizing n with
  | zero => rfl
  | succ width ih => rw [hex, List.length_append, ih, List.length_singleton]

theorem hex_digits (width n : ℕ) : (hex width n).all isHexdigit = true ∧ Text.toAsciiLowercase (hex width n) = hex width n := by
  induction width generalizing n with
  | zero => exact ⟨rfl, rfl⟩
  | succ width ih =>
    obtain ⟨hdigits, hlower⟩ := ih (n / 16)
    obtain ⟨hdigit, -, hsame⟩ := hexDigit_spec ⟨n % 16, Nat.mod_lt n (by decide)⟩
    refine ⟨by simpa [hex, hdigits] using hdigit, ?_⟩
    rw [hex, Text.toAsciiLowercase, List.map_append, ← Text.toAsciiLowercase, hlower, List.map_singleton]
    exact congrArg (fun c => hex width (n / 16) ++ [c]) hsame

theorem ofHex_hex {width n : ℕ} (h : n < 16 ^ width) : ofHex (hex width n) = n := by
  induction width generalizing n with
  | zero =>
    have hzero : n = 0 := by simpa using h
    rw [hzero]
    rfl
  | succ width ih =>
    have hquot : n / 16 < 16 ^ width := by
      rw [Nat.pow_succ] at h
      exact Nat.div_lt_of_lt_mul (by omega)
    rw [hex, ofHex_concat, ih hquot, (hexDigit_spec ⟨n % 16, Nat.mod_lt n (by decide)⟩).2.1]
    exact Nat.div_add_mod n 16

/-- Digits spell their number, in lower case. -/
theorem hex_ofHex {t : Text} (h : t.all isHexdigit = true) : hex t.length (ofHex t) = t.toAsciiLowercase := by
  induction t using List.reverseRecOn with
  | nil => rfl
  | append_singleton t c ih =>
    rw [List.all_append, Bool.and_eq_true] at h
    obtain ⟨hlt, hlower⟩ := hexDigit_hexValue (by simpa using h.2)
    have hquot : (16 * ofHex t + hexValue c) / 16 = ofHex t := by omega
    have hrem : (16 * ofHex t + hexValue c) % 16 = hexValue c := by omega
    rw [List.length_append, List.length_singleton, ofHex_concat, hex, hquot, hrem, ih h.1, hlower, Text.toAsciiLowercase,
      Text.toAsciiLowercase, List.map_append, List.map_singleton]

/-! ### Destinations -/

/-- `str::strip_prefix`. -/
def stripPrefix (start : String) (t : Text) : Option Text :=
  if start.toList <+: t then some (t.drop start.toList.length) else none

inductive MailDestination
  | address (address : MemberAddress)
  | conversation (id : ConversationId)
  | member (id : ProtocolIdentity)
  deriving DecidableEq

/-- `reply_address`. -/
def replyAddress (id : ConversationId) (domain : DomainIdentity) : Text :=
  "reply+".toList ++ hex 32 id.val.val ++ "@".toList ++ domain.name

/-- The identifier in the local part of an address. -/
def identified (id : Text) (isMember : Bool) : Except Refusal MailDestination := do
  refuseIf (id.utf8.length ≠ 32 ∨ id.all isHexdigit = false) .permanent
  let value ← okOr (Checked.ofNat (2 ^ 128) (ofHex id)) .permanent
  refuseIf (value = 0) .permanent
  if isMember then .ok (.member ⟨value⟩)
  else (okOr (NamedId.new value) .permanent).map .conversation

/-- `destination_address`. -/
def destinationAddress (address : Text) (domain : DomainIdentity) : Except Refusal MailDestination := do
  let (localPart, host) ← okOr (address.rsplitOnce '@') .permanent
  refuseIf (host.toAsciiLowercase ≠ domain.name.toAsciiLowercase) .permanent
  match stripPrefix "reply+" localPart with
  | some id => identified id false
  | none =>
    match stripPrefix "member-" localPart with
    | some id => identified id true
    | none => ((MemberAddress.ofText address).map .address).mapError fun _ => .permanent

/-! ### Spellings -/

/-- The text a destination is written as at a domain. -/
def MailDestination.spelling (domain : DomainIdentity) : MailDestination → Text
  | address a => a.value
  | conversation id => replyAddress id domain
  | member id => "member-".toList ++ hex 32 id.val.val ++ "@".toList ++ domain.name

namespace MailDestination

theorem spelling_address (domain : DomainIdentity) (a : MemberAddress) : (address a).spelling domain = a.value := rfl

theorem spelling_conversation (domain : DomainIdentity) (id : ConversationId) :
    (conversation id).spelling domain = "reply+".toList ++ hex 32 id.val.val ++ ['@'] ++ domain.name := rfl

theorem spelling_member (domain : DomainIdentity) (id : ProtocolIdentity) :
    (member id).spelling domain = "member-".toList ++ hex 32 id.val.val ++ ['@'] ++ domain.name := rfl

end MailDestination

/-- A destination that mail to a domain can have. -/
def MailDestination.At (domain : DomainIdentity) : MailDestination → Prop
  | address a => a.domain = domain.name
  | conversation _ => True
  | member id => id.val ≠ 0

theorem stripPrefix_eq_some {start : String} {t rest : Text} :
    stripPrefix start t = some rest ↔ t = start.toList ++ rest := by
  unfold stripPrefix
  split_ifs with h
  · obtain ⟨tail, rfl⟩ := h
    simp
  · simp only [false_iff]
    rintro rfl
    exact h (List.prefix_append _ _)

theorem utf8_length_of_ascii {t : Text} (h : ∀ c ∈ t, c.toNat < 128) : t.utf8.length = t.length := by
  induction t with
  | nil => rfl
  | cons c rest ih =>
    have hsize : (String.utf8EncodeChar c).length = 1 := by
      rw [String.length_utf8EncodeChar]
      have hc : c.val.toNat = c.toNat := rfl
      have hlt := h c List.mem_cons_self
      have hle : c.val ≤ 0x7f := UInt32.le_iff_toNat_le.mpr (by
        have hmax : (0x7f : UInt32).toNat = 127 := rfl
        omega)
      exact if_pos hle
    have hrest := ih fun d hd => h d (List.mem_cons_of_mem _ hd)
    rw [Text.utf8] at hrest ⊢
    rw [List.flatMap_cons, List.length_append, hsize, hrest, List.length_cons, Nat.add_comm]

theorem graphic_of_isHexdigit {c : Char} (h : isHexdigit c = true) : 33 ≤ c.toNat ∧ c.toNat ≤ 126 := by
  simp only [isHexdigit, decide_eq_true_eq] at h
  omega

/-- The value an identifier of an address stands for. -/
def named (isMember : Bool) (value : U128) (h : value ≠ 0) : MailDestination :=
  if isMember then .member ⟨value⟩ else .conversation ⟨value, h⟩

theorem identified_eq_ok {id : Text} {isMember : Bool} {d : MailDestination} :
    identified id isMember = .ok d ↔ id.utf8.length = 32 ∧ id.all isHexdigit = true ∧
      ∃ (value : U128) (h : value ≠ 0), value.val = ofHex id ∧ d = named isMember value h := by
  simp only [identified, bind_eq_ok, refuseIf_eq_ok, okOr_eq_ok, exists_const, not_or, Bool.not_eq_false, not_not,
    Checked.ofNat_eq_some, and_assoc]
  refine and_congr_right fun _ => and_congr_right fun _ => exists_congr fun value => ?_
  constructor
  · rintro ⟨hvalue, hne, h⟩
    refine ⟨hne, hvalue, ?_⟩
    cases isMember with
    | true => exact (Except.ok.inj h).symm
    | false => simpa [NamedId.new, hne, okOr, Except.map, named, eq_comm] using h
  · rintro ⟨hne, hvalue, rfl⟩
    refine ⟨hvalue, hne, ?_⟩
    cases isMember with
    | true => rfl
    | false => simp [NamedId.new, hne, okOr, Except.map, named]

section Spelling
variable {input : Text} {domain : DomainIdentity} (hdomain : DomainIdentity.parseAscii input = .ok domain)
include hdomain

/-- A host of the domain in any case ends a text that trimming and lowering turn into the domain. -/
theorem addressSpelling_host {front host : Text} (hhost : host.toAsciiLowercase = domain.name) :
    addressSpelling (front ++ '@' :: host) =
      Text.toAsciiLowercase (front.dropWhile isWhitespace) ++ '@' :: domain.name := by
  have hgraphic : ∀ c ∈ host, isWhitespace c = false := by
    intro c hc
    have hlower := GuestMailbox.graphic_of_name hdomain (hhost ▸ List.mem_map_of_mem hc : c.toLower ∈ domain.name)
    rcases toLower_cases c with hsame | hupper
    · exact GuestMailbox.isWhitespace_of_graphic (hsame ▸ hlower)
    · exact GuestMailbox.isWhitespace_of_graphic (by omega)
  have hend : ∀ c ∈ '@' :: host, isWhitespace c = false := by
    intro c hc
    rcases List.mem_cons.mp hc with rfl | hin
    · decide
    · exact hgraphic c hin
  have hfront : (front ++ '@' :: host).dropWhile isWhitespace = front.dropWhile isWhitespace ++ '@' :: host := by
    rw [List.dropWhile_append, List.dropWhile_cons_of_neg (by decide)]
    split_ifs with hempty
    · rw [List.isEmpty_iff.mp hempty, List.nil_append]
    · rfl
  have hback : (front.dropWhile isWhitespace ++ '@' :: host).reverse.dropWhile isWhitespace =
      (front.dropWhile isWhitespace ++ '@' :: host).reverse := by
    rw [List.reverse_append]
    cases hrev : ('@' :: host).reverse with
    | nil => simp at hrev
    | cons c rest =>
      have hc : c ∈ '@' :: host := List.mem_reverse.mp (hrev ▸ List.mem_cons_self)
      rw [List.cons_append, List.dropWhile_cons_of_neg (by rw [hend c hc]; decide)]
  rw [addressSpelling, Text.trim, hfront, hback, List.reverse_reverse, Text.toAsciiLowercase, List.map_append,
    List.map_cons, ← Text.toAsciiLowercase, ← Text.toAsciiLowercase, hhost]
  rfl

theorem at_notMem_name : '@' ∉ domain.name := by
  intro hmem
  rcases DomainIdentity.name_characters hdomain hmem with hdot | hhyphen | halnum
  · exact absurd hdot (by decide)
  · exact absurd hhyphen (by decide)
  · exact absurd halnum (by decide)

end Spelling

/-- An address's parts: no part holds the sign that joins them. -/
theorem addressDomain_eq_ok {value domain : Text} (h : addressDomain value = .ok domain) :
    ∃ localPart, value = localPart ++ '@' :: domain ∧ '@' ∉ localPart ∧ '@' ∉ domain ∧
      (∀ c ∈ localPart, c.isAlphanum = true ∨ c = '-' ∨ c = '.') ∧ ¬"member-".toList <+: localPart ∧
      ∀ c ∈ domain, c = '.' ∨ c = '-' ∨ c.isAlphanum = true := by
  simp only [addressDomain, bind_eq_ok, okOr_eq_ok, refuseIf_eq_ok, exists_const, Prod.exists, Except.ok.injEq,
    not_or, Bool.not_eq_false, Bool.not_eq_true] at h
  obtain ⟨localPart, d, hsplit, ⟨-, -, -, hlocal, -, -, -, hmember, -, hlabels⟩, rfl⟩ := h
  obtain ⟨rfl, hat⟩ := Text.splitOnce_eq_some.mp hsplit
  have hcharacters : ∀ c ∈ d, c = '.' ∨ c = '-' ∨ c.isAlphanum = true := by
    intro c hc
    refine (mem_splitOn hc).imp_right ?_
    rintro ⟨label, hlabel, hmem⟩
    have hrefused := List.any_eq_false.mp hlabels label hlabel
    simp only [labelRefused, Bool.or_eq_true, not_or, Bool.not_eq_true', Bool.not_eq_false] at hrefused
    have hall := List.all_eq_true.mp hrefused.2 c hmem
    simp only [Bool.or_eq_true, decide_eq_true_eq] at hall
    exact hall.symm
  refine ⟨localPart, rfl, hat, fun hmem => ?_, fun c hc => ?_, hmember, hcharacters⟩
  · rcases hcharacters '@' hmem with hdot | hhyphen | halnum
    · exact absurd hdot (by decide)
    · exact absurd hhyphen (by decide)
    · exact absurd halnum (by decide)
  · have hall := List.all_eq_true.mp hlocal c hc
    simp only [Bool.or_eq_true, decide_eq_true_eq] at hall
    tauto

theorem ofText_eq_ok {t : Text} {a : MemberAddress} : MemberAddress.ofText t = .ok a ↔ a.value = addressSpelling t := by
  constructor
  · intro h
    unfold MemberAddress.ofText at h
    split at h
    · cases h
      rfl
    · cases h
  · intro h
    have hparsed : addressDomain (addressSpelling t) = .ok a.domain := h ▸ a.parsed
    unfold MemberAddress.ofText
    split
    · exact congrArg Except.ok (MemberAddress.value_injective h.symm)
    · next e herror =>
      rw [hparsed] at herror
      cases herror

theorem spelling_named (domain : DomainIdentity) (isMember : Bool) (value : U128) (h : value ≠ 0) :
    (named isMember value h).spelling domain =
      (if isMember then "member-".toList else "reply+".toList) ++ hex 32 value.val ++ '@' :: domain.name := by
  cases isMember with
  | true =>
    rw [named, if_pos rfl, if_pos rfl, MailDestination.spelling_member, List.append_assoc _ ['@'], List.singleton_append]
  | false =>
    rw [named, if_neg Bool.false_ne_true, if_neg Bool.false_ne_true, MailDestination.spelling_conversation,
      List.append_assoc _ ['@'], List.singleton_append]

section Destinations
variable {input : Text} {domain : DomainIdentity} (hdomain : DomainIdentity.parseAscii input = .ok domain)
include hdomain

/-- An identifier after its literal start is written back in lower case. -/
theorem spelling_of_identified {start : String} {id host : Text} {isMember : Bool} {d : MailDestination}
    (hstart : start = if isMember then "member-" else "reply+") (hhost : host.toAsciiLowercase = domain.name)
    (h : identified id isMember = .ok d) :
    d.At domain ∧ addressSpelling ((start.toList ++ id) ++ '@' :: host) = d.spelling domain := by
  obtain ⟨hlen, hdigits, value, hne, hvalue, rfl⟩ := identified_eq_ok.mp h
  have hascii : ∀ c ∈ id, c.toNat < 128 := fun c hc => by
    have := graphic_of_isHexdigit (List.all_eq_true.mp hdigits c hc)
    omega
  rw [utf8_length_of_ascii hascii] at hlen
  have hdrop : (start.toList ++ id).dropWhile isWhitespace = start.toList ++ id := by
    rw [hstart]
    cases isMember <;> rfl
  have hlower : start.toList.map Char.toLower = start.toList := by
    rw [hstart]
    cases isMember <;> decide
  refine ⟨by cases isMember <;> simp [named, MailDestination.At, hne], ?_⟩
  rw [addressSpelling_host hdomain hhost, hdrop, Text.toAsciiLowercase, List.map_append, hlower, spelling_named, hvalue,
    ← hlen, hex_ofHex hdigits, hstart]
  cases isMember <;> rfl

/-- **A text read as a destination is the destination's spelling, up to case and blanks before it.** -/
theorem destinationAddress_spelling {t : Text} {d : MailDestination} (h : destinationAddress t domain = .ok d) :
    d.At domain ∧ addressSpelling t = d.spelling domain := by
  simp only [destinationAddress, bind_eq_ok, okOr_eq_ok, refuseIf_eq_ok, exists_const, Prod.exists, not_not] at h
  obtain ⟨front, host, hsplit, hhost, h⟩ := h
  obtain ⟨rfl, hat⟩ := Text.rsplitOnce_eq_some.mp hsplit
  rw [DomainIdentity.toAsciiLowercase_name hdomain] at hhost
  split at h
  · next id hreply =>
    rw [stripPrefix_eq_some.mp hreply]
    have hreplies : "reply+" = if false = true then "member-" else "reply+" := rfl
    exact spelling_of_identified hdomain hreplies hhost h
  · split at h
    · next id hmember =>
      rw [stripPrefix_eq_some.mp hmember]
      have hmembers : "member-" = if true = true then "member-" else "reply+" := rfl
      exact spelling_of_identified hdomain hmembers hhost h
    · simp only [mapError_eq_ok, map_eq_ok] at h
      obtain ⟨a, ha, rfl⟩ := h
      have hvalue := ofText_eq_ok.mp ha
      refine ⟨?_, hvalue.symm⟩
      obtain ⟨localPart, hparts, -, hdom, -⟩ := addressDomain_eq_ok a.parsed
      rw [addressSpelling_host hdomain hhost, hparts] at hvalue
      have hleft := Text.rsplitOnce_eq_some.mpr ⟨hvalue, at_notMem_name hdomain⟩
      have hright : Text.rsplitOnce '@' (localPart ++ '@' :: a.domain) = some (localPart, a.domain) :=
        Text.rsplitOnce_eq_some.mpr ⟨rfl, hdom⟩
      exact (Prod.mk.inj (Option.some.inj (hright.symm.trans hleft))).2

/-- **A destination is read off its spelling.** -/
theorem destinationAddress_of_spelling {d : MailDestination} (h : d.At domain) :
    destinationAddress (d.spelling domain) domain = .ok d := by
  have hidentified : ∀ (isMember : Bool) (value : U128) (hne : value ≠ 0),
      identified (hex 32 value.val) isMember = .ok (named isMember value hne) := by
    intro isMember value hne
    obtain ⟨hdigits, -⟩ := hex_digits 32 value.val
    have hascii : ∀ c ∈ hex 32 value.val, c.toNat < 128 := fun c hc => by
      have := graphic_of_isHexdigit (List.all_eq_true.mp hdigits c hc)
      omega
    have hbound : value.val < 16 ^ 32 := value.isLt
    exact identified_eq_ok.mpr ⟨by rw [utf8_length_of_ascii hascii, length_hex], hdigits, value, hne,
      (ofHex_hex hbound).symm, rfl⟩
  have hat := at_notMem_name hdomain
  cases d with
  | conversation id =>
    have hsplit := Text.rsplitOnce_eq_some.mpr ⟨spelling_named domain false id.val id.nonzero, hat⟩
    have hstrip : stripPrefix "reply+" ("reply+".toList ++ hex 32 id.val.val) = some (hex 32 id.val.val) :=
      stripPrefix_eq_some.mpr rfl
    simp only [destinationAddress, bind_eq_ok, okOr_eq_ok, refuseIf_eq_ok, exists_const, Prod.exists, not_not]
    refine ⟨_, _, hsplit, rfl, ?_⟩
    rw [if_neg (by decide), hstrip]
    exact hidentified false id.val id.nonzero
  | member id =>
    have hsplit := Text.rsplitOnce_eq_some.mpr ⟨spelling_named domain true id.val h, hat⟩
    have hreply : stripPrefix "reply+" ("member-".toList ++ hex 32 id.val.val) = none := by
      simp [stripPrefix]
    have hstrip : stripPrefix "member-" ("member-".toList ++ hex 32 id.val.val) = some (hex 32 id.val.val) :=
      stripPrefix_eq_some.mpr rfl
    simp only [destinationAddress, bind_eq_ok, okOr_eq_ok, refuseIf_eq_ok, exists_const, Prod.exists, not_not]
    refine ⟨_, _, hsplit, rfl, ?_⟩
    rw [if_pos rfl, hreply, hstrip]
    exact hidentified true id.val h
  | address a =>
    obtain ⟨localPart, hparts, hlocalAt, hdom, hlocal, hmember, hcharacters⟩ := addressDomain_eq_ok a.parsed
    have hsplit := Text.rsplitOnce_eq_some.mpr ⟨hparts, hdom⟩
    have hreply : stripPrefix "reply+" localPart = none := by
      refine Option.eq_none_iff_forall_not_mem.mpr fun rest hrest => ?_
      have hmem : '+' ∈ localPart := by simp [stripPrefix_eq_some.mp hrest]
      rcases hlocal '+' hmem with halnum | hhyphen | hdot
      · exact absurd halnum (by decide)
      · exact absurd hhyphen (by decide)
      · exact absurd hdot (by decide)
    have hstrip : stripPrefix "member-" localPart = none := if_neg hmember
    have hgraphic : ∀ c ∈ a.value, isWhitespace c = false := by
      intro c hc
      rw [hparts, List.mem_append, List.mem_cons] at hc
      refine GuestMailbox.isWhitespace_of_graphic ?_
      rcases hc with hc | rfl | hc
      · rcases hlocal c hc with halnum | rfl | rfl
        · exact GuestMailbox.graphic_of_isAlphanum halnum
        · decide
        · decide
      · decide
      · rcases hcharacters c hc with rfl | rfl | halnum
        · decide
        · decide
        · exact GuestMailbox.graphic_of_isAlphanum halnum
    have hspelling : addressSpelling a.value = a.value := by
      rw [addressSpelling, GuestMailbox.trim_of_graphic hgraphic, a.lower]
    have hhost : a.domain.toAsciiLowercase = domain.name.toAsciiLowercase := congrArg _ h
    rw [MailDestination.spelling_address]
    simp only [destinationAddress, bind_eq_ok, okOr_eq_ok, refuseIf_eq_ok, exists_const, Prod.exists, not_not]
    refine ⟨_, _, hsplit, hhost, ?_⟩
    rw [hreply, hstrip, ofText_eq_ok.mpr hspelling.symm]
    rfl

/-- **Routing is a bijection between destinations and spellings.** A destination at the domain is read off its
spelling; a text that is read as a destination is its spelling up to case and blanks; so two texts are read as one
destination exactly if they are spelled alike. -/
theorem destinationAddress_canonical :
    (∀ d : MailDestination, d.At domain → destinationAddress (d.spelling domain) domain = .ok d) ∧
    (∀ t d, destinationAddress t domain = .ok d → d.At domain ∧ addressSpelling t = d.spelling domain) ∧
    ∀ t t' d d', destinationAddress t domain = .ok d → destinationAddress t' domain = .ok d' →
      (addressSpelling t = addressSpelling t' ↔ d = d') := by
  refine ⟨fun d => destinationAddress_of_spelling hdomain, fun t d => destinationAddress_spelling hdomain, ?_⟩
  intro t t' d d' h h'
  obtain ⟨hat, hspelling⟩ := destinationAddress_spelling hdomain h
  obtain ⟨hat', hspelling'⟩ := destinationAddress_spelling hdomain h'
  rw [hspelling, hspelling']
  constructor
  · intro heq
    have hread := destinationAddress_of_spelling hdomain hat
    rw [heq, destinationAddress_of_spelling hdomain hat'] at hread
    exact (Except.ok.inj hread).symm
  · exact fun heq => by rw [heq]

end Destinations

namespace Example

theorem canonical_example : destinationAddress (MailDestination.spelling ⟨"mail.example".toList⟩
    (.member ⟨7⟩)) ⟨"mail.example".toList⟩ = .ok (.member ⟨7⟩) :=
  (destinationAddress_canonical (rfl : DomainIdentity.parseAscii "Mail.Example.".toList = .ok ⟨"mail.example".toList⟩)).1
    _ (by decide : (⟨7⟩ : ProtocolIdentity).val ≠ 0)

end Example

end CsMail.Smtp
