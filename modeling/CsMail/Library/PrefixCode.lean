import CsMail.Library.FixedWidth
import Mathlib.Data.List.Basic

/-! Encodings that show where they end.

An encoding delimits its values (`Delimits`) if, whatever follows, two encoded values are
read off the front alike only if they are the same value. Such encodings may be written one
after the other, tagged, counted or left out behind a flag, and the whole is unambiguous
again; so a format is proved field by field. -/
namespace CsMail.Library.PrefixCode
variable {α β γ : Type*}

/-- Two valid values whose encodings agree, with whatever follows, are equal. -/
def Delimits (valid : α → Prop) (enc : α → List β) : Prop :=
  ∀ ⦃a a' : α⦄ ⦃s s' : List β⦄, valid a → valid a' → enc a ++ s = enc a' ++ s' → a = a' ∧ s = s'

variable {valid : α → Prop} {enc : α → List β}

theorem Delimits.injective (h : Delimits valid enc) {a a' : α} (ha : valid a) (ha' : valid a')
    (heq : enc a = enc a') : a = a' := by
  have hnil : enc a ++ [] = enc a' ++ [] := by rw [heq]
  exact (h ha ha' hnil).1

/-- An encoding of one length is read off by counting. -/
theorem delimits_of_length {w : ℕ} (hlength : ∀ a, (enc a).length = w)
    (hinjective : ∀ a a', valid a → valid a' → enc a = enc a' → a = a') : Delimits valid enc := by
  intro a a' s s' ha ha' heq
  obtain ⟨henc, hrest⟩ := List.append_inj heq ((hlength a).trans (hlength a').symm)
  exact ⟨hinjective a a' ha ha' henc, hrest⟩

/-- A value written as one byte. -/
theorem delimits_byte {code : α → β} (hcode : Function.Injective code) :
    Delimits (fun _ => True) fun a => [code a] :=
  delimits_of_length (fun _ => rfl) fun _ _ _ _ heq => hcode (List.head_eq_of_cons_eq heq)

/-- A value behind a flag that says whether it is there. -/
def optional (enc : α → List UInt8) : Option α → List UInt8
  | none => [0]
  | some a => 1 :: enc a

theorem Delimits.optional {enc : α → List UInt8} (h : Delimits valid enc) :
    Delimits (fun o : Option α => ∀ a, o = some a → valid a) (optional enc) := by
  intro o o' s s' ho ho' heq
  cases o with
  | none =>
    cases o' with
    | none => exact ⟨rfl, List.tail_eq_of_cons_eq heq⟩
    | some a' => exact absurd (List.head_eq_of_cons_eq heq) (by decide)
  | some a =>
    cases o' with
    | none => exact absurd (List.head_eq_of_cons_eq heq) (by decide)
    | some a' =>
      obtain ⟨rfl, hrest⟩ := h (ho a rfl) (ho' a' rfl) (List.tail_eq_of_cons_eq heq)
      exact ⟨rfl, hrest⟩

/-- A big-endian number of `w` bytes. -/
theorem delimits_beBytes (w : ℕ) : Delimits (fun n => n < 256 ^ w) (beBytes w) :=
  delimits_of_length (beBytes_length w) fun _ _ hn hn' heq => beBytes_injective hn hn' heq

/-- Bytes behind their own count. -/
def counted (w : ℕ) (bytes : List UInt8) : List UInt8 := beBytes w bytes.length ++ bytes

theorem delimits_counted (w : ℕ) : Delimits (fun bytes => bytes.length < 256 ^ w) (counted w) := by
  intro bytes bytes' s s' hbytes hbytes' heq
  rw [counted, counted, List.append_assoc, List.append_assoc] at heq
  obtain ⟨hlength, hrest⟩ := delimits_beBytes w hbytes hbytes' heq
  exact List.append_inj hrest hlength

/-- Values one after the other are read off up to something that begins otherwise. -/
theorem Delimits.flatMap (h : Delimits valid enc) {b : β} (hbegins : ∀ a, valid a → (enc a).head? = some b)
    {l l' : List α} {s s' : List β} (hl : ∀ a ∈ l, valid a) (hl' : ∀ a ∈ l', valid a) (hs : s.head? ≠ some b)
    (hs' : s'.head? ≠ some b) (heq : l.flatMap enc ++ s = l'.flatMap enc ++ s') : l = l' ∧ s = s' := by
  have hhead : ∀ (a : α) (l : List α) (s : List β), valid a → ((a :: l).flatMap enc ++ s).head? = some b :=
    fun a l s ha => by
      rw [List.flatMap_cons, List.append_assoc, List.head?_append, hbegins a ha]
      rfl
  induction l generalizing l' with
  | nil =>
    cases l' with
    | nil => exact ⟨rfl, heq⟩
    | cons a' l' => exact absurd ((congrArg List.head? heq).trans (hhead a' l' s' (hl' a' (List.mem_cons_self ..)))) hs
  | cons a l ih =>
    rw [List.forall_mem_cons] at hl
    cases l' with
    | nil => exact absurd ((congrArg List.head? heq).symm.trans (hhead a l s hl.1)) hs'
    | cons a' l' =>
      rw [List.forall_mem_cons] at hl'
      rw [List.flatMap_cons, List.flatMap_cons, List.append_assoc, List.append_assoc] at heq
      obtain ⟨hfirst, heq⟩ := h hl.1 hl'.1 heq
      obtain ⟨hrest, hs⟩ := ih hl.2 hl'.2 heq
      exact ⟨by rw [hfirst, hrest], hs⟩

/-- Encodings under labels that differ early are never the same. -/
theorem labels_apart {label label' l l' : List β} {n : ℕ} (hn : n ≤ label.length) (hn' : n ≤ label'.length)
    (hne : label.take n ≠ label'.take n) : label ++ l ≠ label' ++ l' := by
  intro heq
  have htake := congrArg (List.take n) heq
  rw [List.take_append_of_le_length hn, List.take_append_of_le_length hn'] at htake
  exact hne htake

end CsMail.Library.PrefixCode
