import CsMail.Library.Codec
import CsMail.Library.FixedWidth

/-! Preferred serialization of CBOR: integers, byte strings, text and arrays.

An item starts with its major type and an argument, in as few bytes as it needs (`head`). -/
namespace CsMail.Library.PreferredCbor
open Codec

/-- The major type and the argument. No argument of the format is 2^64 or more: such a
number is written with a reserved byte, one zero for each unit and a one. -/
def head (major n : ℕ) : List UInt8 :=
  if n < 24 then [UInt8.ofNat (major * 32 + n)]
  else if n < 256 ^ 1 then UInt8.ofNat (major * 32 + 24) :: beBytes 1 n
  else if n < 256 ^ 2 then UInt8.ofNat (major * 32 + 25) :: beBytes 2 n
  else if n < 256 ^ 4 then UInt8.ofNat (major * 32 + 26) :: beBytes 4 n
  else if n < 256 ^ 8 then UInt8.ofNat (major * 32 + 27) :: beBytes 8 n
  else UInt8.ofNat (major * 32 + 28) :: (List.replicate n 0 ++ [1])

def utf8 (t : List Char) : List UInt8 := t.flatMap String.utf8EncodeChar

def bytes (b : List UInt8) : List UInt8 := head 2 b.length ++ b

def str (t : List Char) : List UInt8 := head 3 (utf8 t).length ++ utf8 t

/-! ### Reading -/

section
variable {ε : Type} (e : ε)

def next (n : ℕ) : Codec.Reader UInt8 ε (List UInt8) := fun c =>
  if ((c.input.drop c.position).take n).length = n then
    .ok ((c.input.drop c.position).take n, {c with position := c.position + n})
  else .error e

def zeros : Codec.Reader UInt8 ε ℕ := fun c =>
  let n := ((c.input.drop c.position).takeWhile (· = 0)).length
  .ok (n, {c with position := c.position + n + 1})

def argument (info : ℕ) : Codec.Reader UInt8 ε ℕ :=
  match info with
  | 24 => next e 1 >>= fun b => pure (ofBeBytes b)
  | 25 => next e 2 >>= fun b => pure (ofBeBytes b)
  | 26 => next e 4 >>= fun b => pure (ofBeBytes b)
  | 27 => next e 8 >>= fun b => pure (ofBeBytes b)
  | 28 => zeros
  | n => if n < 24 then pure n else throw e

/-- The argument of an item, if it is of the major type. -/
def typed (major : ℕ) (first : List UInt8) : Codec.Reader UInt8 ε ℕ :=
  match first with
  | [b] => if b.toNat / 32 = major then argument e (b.toNat % 32) else throw e
  | _ => throw e

def readHead (major : ℕ) : Codec.Reader UInt8 ε ℕ := next e 1 >>= typed e major

def fit (w n : ℕ) : Except ε (Fin (2 ^ w)) := if h : n < 2 ^ w then .ok ⟨n, h⟩ else .error e

def readUnsigned (w : ℕ) : Codec.Reader UInt8 ε (Fin (2 ^ w)) := readHead e 0 >>= fun n => liftM (fit e w n)

def readBytes : Codec.Reader UInt8 ε (List UInt8) := readHead e 2 >>= next e

def readStr : Codec.Reader UInt8 ε (List Char) := readHead e 3 >>= fun n => next e n >>= fun b =>
  liftM (okOr (b.toByteArray.utf8Decode?.map Array.toList) e)

/-- The length of an array; an indefinite one has none. -/
def readArray : Codec.Reader UInt8 ε (Option (Fin (2 ^ 64))) := next e 1 >>= fun first =>
  if first = [0x9f] then pure none
  else typed e 4 first >>= fun n => liftM ((fit e 64 n).map some)

end

/-! ### What is written is read back -/

section
variable {ε : Type} {e : ε}

theorem reads_next (out : List UInt8) : Reads (next e out.length) out out := by
  intro before after
  have hrest : ((before ++ out ++ after).drop before.length).take out.length = out := by
    rw [List.append_assoc, List.drop_left, List.take_left]
  show next e out.length ⟨before ++ out ++ after, before.length⟩ = _
  simp only [next, hrest, if_true, List.length_append]

theorem reads_zeros (n : ℕ) : Reads (zeros (ε := ε)) n (List.replicate n 0 ++ [1]) := by
  intro before after
  have hrest : ((before ++ (List.replicate n 0 ++ [1]) ++ after).drop before.length).takeWhile
      (fun b : UInt8 => b = 0) = List.replicate n 0 := by
    rw [List.append_assoc, List.drop_left, List.append_assoc, List.takeWhile_append_of_pos (by simp)]
    simp
  show zeros ⟨before ++ (List.replicate n 0 ++ [1]) ++ after, before.length⟩ = _
  simp only [zeros, hrest, List.length_replicate, List.length_append, List.length_singleton, Nat.add_assoc]

theorem reads_beBytes {w n : ℕ} (h : n < 256 ^ w) :
    Reads (next e w >>= fun b => pure (ofBeBytes b)) n (beBytes w n) := by
  have hnext : Reads (next e (beBytes w n).length) (beBytes w n) (beBytes w n) := reads_next _
  rw [beBytes_length] at hnext
  have hvalue : Reads (pure (ofBeBytes (beBytes w n)) : Codec.Reader UInt8 ε ℕ) n [] := by
    rw [ofBeBytes_beBytes h]
    exact reads_pure n
  have hread := hnext.bind (k := fun b => pure (ofBeBytes b)) hvalue
  rwa [List.append_nil] at hread

/-- The first byte tells how the argument goes on. -/
theorem head_eq (major n : ℕ) : ∃ info rest, head major n = UInt8.ofNat (major * 32 + info) :: rest ∧
    info < 31 ∧ Reads (argument e info) n rest := by
  unfold head
  split_ifs with h0 h1 h2 h3 h4
  · refine ⟨n, [], rfl, by omega, ?_⟩
    have hsmall : argument e n = pure n := by
      unfold argument
      split <;> first | omega | exact if_pos h0
    rw [hsmall]
    exact reads_pure n
  · exact ⟨24, _, rfl, by decide, reads_beBytes h1⟩
  · exact ⟨25, _, rfl, by decide, reads_beBytes h2⟩
  · exact ⟨26, _, rfl, by decide, reads_beBytes h3⟩
  · exact ⟨27, _, rfl, by decide, reads_beBytes h4⟩
  · exact ⟨28, _, rfl, by decide, reads_zeros n⟩

/-- A head read after its first byte. -/
theorem reads_typed {major : ℕ} (hmajor : major < 8) (n : ℕ) : ∃ b rest, head major n = b :: rest ∧
    b ≠ UInt8.ofNat (major * 32 + 31) ∧ Reads (typed e major [b]) n rest := by
  obtain ⟨info, rest, hhead, hinfo, hreads⟩ := head_eq (e := e) major n
  have hvalue : (UInt8.ofNat (major * 32 + info)).toNat = major * 32 + info := by
    rw [UInt8.toNat_ofNat']
    exact Nat.mod_eq_of_lt (by omega)
  refine ⟨_, rest, hhead, fun heq => ?_, ?_⟩
  · have hlast := congrArg UInt8.toNat heq
    rw [hvalue, UInt8.toNat_ofNat', Nat.mod_eq_of_lt (by omega)] at hlast
    omega
  · have hdiv : (major * 32 + info) / 32 = major := by omega
    have hmod : (major * 32 + info) % 32 = info := by omega
    simp only [typed, hvalue, hdiv, hmod, if_true]
    exact hreads

theorem reads_readHead {major : ℕ} (hmajor : major < 8) (n : ℕ) :
    Reads (readHead e major) n (head major n) := by
  obtain ⟨b, rest, hhead, -, hreads⟩ := reads_typed (e := e) hmajor n
  rw [hhead]
  exact (reads_next [b]).bind hreads

theorem fit_val {w : ℕ} (x : Fin (2 ^ w)) : fit e w x.val = .ok x := dif_pos x.isLt

theorem reads_unsigned {w : ℕ} (x : Fin (2 ^ w)) : Reads (readUnsigned e w) x (head 0 x.val) := by
  have hfit : Reads (liftM (fit e w x.val) : Codec.Reader UInt8 ε (Fin (2 ^ w))) x [] := by
    rw [fit_val]
    exact reads_pure x
  have hread := (reads_readHead (e := e) (by decide : 0 < 8) x.val).bind
    (k := fun n => liftM (fit e w n)) hfit
  rwa [List.append_nil] at hread

theorem reads_array (n : Fin (2 ^ 64)) : Reads (readArray e) (some n) (head 4 n.val) := by
  obtain ⟨b, rest, hhead, hdefinite, hreads⟩ := reads_typed (e := e) (by decide : 4 < 8) n.val
  have hfit : Reads (liftM ((fit e 64 n.val).map some) : Codec.Reader UInt8 ε (Option (Fin (2 ^ 64))))
      (some n) [] := by
    rw [fit_val]
    exact reads_pure (some n)
  have hlength := hreads.bind (k := fun n => liftM ((fit e 64 n).map some)) hfit
  rw [List.append_nil] at hlength
  rw [hhead]
  refine (reads_next [b]).bind (k := fun first => _) ?_
  have hsingle : [b] ≠ [0x9f] := fun heq => hdefinite (List.cons.inj heq).1
  rw [if_neg hsingle]
  exact hlength

theorem reads_bytes (b : List UInt8) : Reads (readBytes e) b (bytes b) :=
  (reads_readHead (by decide) b.length).bind (reads_next b)

theorem reads_str (t : List Char) : Reads (readStr e) t (str t) := by
  have hdecode : okOr ((utf8 t).toByteArray.utf8Decode?.map Array.toList) e = .ok t := by
    rw [show (utf8 t).toByteArray = t.utf8Encode from rfl, List.utf8Decode?_utf8Encode]
    simp [okOr]
  have htext : Reads (liftM (okOr ((utf8 t).toByteArray.utf8Decode?.map Array.toList) e) :
      Codec.Reader UInt8 ε (List Char)) t [] := by
    rw [hdecode]
    exact reads_pure t
  have hread := (reads_next (e := e) (utf8 t)).bind
    (k := fun b => liftM (okOr (b.toByteArray.utf8Decode?.map Array.toList) e)) htext
  rw [List.append_nil] at hread
  exact (reads_readHead (by decide) (utf8 t).length).bind hread

end
end CsMail.Library.PreferredCbor
