import Mathlib.Algebra.Order.Group.Nat
import Mathlib.Data.Fin.Basic
import Mathlib.Data.List.Induction
import Mathlib.Tactic.Common

/-! Unsigned integers of a fixed width as `Fin`, with checked arithmetic and
big-endian bytes.

A checked operation returns `none` where the width is exceeded. `beBytes w x` is
`x` written in exactly `w` bytes, most significant first; on values below
`256 ^ w` it is a bijection with the byte strings of length `w`. -/
namespace CsMail.Library

namespace Checked
variable {n : Nat}

def add (a b : Fin n) : Option (Fin n) :=
  if h : a.val + b.val < n then some ⟨a.val + b.val, h⟩ else none

def sub (a b : Fin n) : Option (Fin n) :=
  if b ≤ a then some ⟨a.val - b.val, by omega⟩ else none

def succ (a : Fin n) : Option (Fin n) :=
  if h : a.val + 1 < n then some ⟨a.val + 1, h⟩ else none

theorem add_eq_some {a b c : Fin n} : add a b = some c ↔ c.val = a.val + b.val := by
  unfold add
  split_ifs with h
  · simp only [Option.some.injEq, Fin.ext_iff]
    exact eq_comm
  · simp only [false_iff]
    omega

theorem sub_eq_some {a b c : Fin n} : sub a b = some c ↔ c.val + b.val = a.val := by
  unfold sub
  split_ifs with h
  · simp only [Option.some.injEq, Fin.ext_iff]
    omega
  · simp only [false_iff]
    omega

theorem succ_eq_some {a c : Fin n} : succ a = some c ↔ c.val = a.val + 1 := by
  unfold succ
  split_ifs with h
  · simp only [Option.some.injEq, Fin.ext_iff]
    exact eq_comm
  · simp only [false_iff]
    omega

theorem val_add_one [@NeZero Nat Zero.ofOfNat0 n] {a : Fin n} (h : a.val + 1 < n) : (a + 1).val = a.val + 1 := by
  rw [Fin.val_add, Fin.val_one', Nat.add_mod_mod, Nat.mod_eq_of_lt h]

theorem succ_eq_some_add_one [@NeZero Nat Zero.ofOfNat0 n] {a c : Fin n} :
    succ a = some c ↔ a.val + 1 < n ∧ c = a + 1 := by
  rw [succ_eq_some]
  constructor
  · intro h
    have hlt : a.val + 1 < n := h ▸ c.isLt
    exact ⟨hlt, Fin.ext (h.trans (val_add_one hlt).symm)⟩
  · rintro ⟨hlt, rfl⟩
    exact val_add_one hlt

/-- The number in the width, if it fits. -/
def ofNat (n x : Nat) : Option (Fin n) := if h : x < n then some ⟨x, h⟩ else none

theorem ofNat_eq_some {x : Nat} {c : Fin n} : ofNat n x = some c ↔ c.val = x := by
  unfold ofNat
  split_ifs with h
  · simp only [Option.some.injEq, Fin.ext_iff]
    exact eq_comm
  · simp only [false_iff]
    have := c.isLt
    omega

end Checked

/-! ### Big-endian bytes -/

def beBytes : Nat → Nat → List UInt8
  | 0, _ => []
  | w + 1, x => beBytes w (x / 256) ++ [UInt8.ofNat x]

def ofBeBytes (bytes : List UInt8) : Nat := bytes.foldl (fun acc b => acc * 256 + b.toNat) 0

@[simp] theorem beBytes_length (w x : Nat) : (beBytes w x).length = w := by
  induction w generalizing x with
  | zero => rfl
  | succ w ih => simp [beBytes, ih]

theorem ofBeBytes_append_singleton (bytes : List UInt8) (b : UInt8) :
    ofBeBytes (bytes ++ [b]) = ofBeBytes bytes * 256 + b.toNat := by
  simp [ofBeBytes]

theorem ofBeBytes_beBytes {w x : Nat} (h : x < 256 ^ w) : ofBeBytes (beBytes w x) = x := by
  induction w generalizing x with
  | zero =>
    have : x = 0 := by simpa using h
    subst this
    rfl
  | succ w ih =>
    have hdiv : x / 256 < 256 ^ w := by
      rw [Nat.div_lt_iff_lt_mul (by decide)]
      simpa [pow_succ] using h
    rw [beBytes, ofBeBytes_append_singleton, ih hdiv, UInt8.toNat_ofNat']
    omega

theorem beBytes_ofBeBytes (bytes : List UInt8) : beBytes bytes.length (ofBeBytes bytes) = bytes := by
  induction bytes using List.reverseRecOn with
  | nil => rfl
  | append_singleton bytes b ih =>
    have hb : b.toNat < 256 := b.toNat_lt
    have hdiv : (ofBeBytes bytes * 256 + b.toNat) / 256 = ofBeBytes bytes := by omega
    have hlast : UInt8.ofNat (ofBeBytes bytes * 256 + b.toNat) = b := by
      apply UInt8.toNat_inj.mp
      rw [UInt8.toNat_ofNat']
      omega
    rw [List.length_append, List.length_singleton, beBytes, ofBeBytes_append_singleton, hdiv, ih, hlast]

theorem ofBeBytes_lt (bytes : List UInt8) : ofBeBytes bytes < 256 ^ bytes.length := by
  induction bytes using List.reverseRecOn with
  | nil => simp [ofBeBytes]
  | append_singleton bytes b ih =>
    have hb : b.toNat < 256 := b.toNat_lt
    rw [ofBeBytes_append_singleton, List.length_append, List.length_singleton, pow_succ]
    omega

theorem ofBeBytes_injective {a b : List UInt8} (hlen : a.length = b.length)
    (h : ofBeBytes a = ofBeBytes b) : a = b := by
  rw [← beBytes_ofBeBytes a, ← beBytes_ofBeBytes b, hlen, h]

theorem beBytes_injective {w x y : Nat} (hx : x < 256 ^ w) (hy : y < 256 ^ w)
    (h : beBytes w x = beBytes w y) : x = y := by
  rw [← ofBeBytes_beBytes hx, ← ofBeBytes_beBytes hy, h]

end CsMail.Library
