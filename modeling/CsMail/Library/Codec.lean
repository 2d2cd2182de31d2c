import CsMail.Library.Refusal

/-! Writers and readers of a sequence of items.

A writer appends to what was written before it, and a reader goes on from where the last one
stopped. They are each other's inverse at a value (`Codes`) if what the writer writes is
read back as that value, wherever it stands and whatever follows; chains of such pairs are
such pairs again (`Codes.bind`), so a format is proved field by field, in its own order. -/
namespace CsMail.Library

/-- A sequence of items, and how far it has been read. -/
structure Cursor (β : Type) where
  input : List β
  position : ℕ

namespace Codec

abbrev Writer (β ε : Type) := StateT (List β) (Except ε)

abbrev Reader (β ε : Type) := StateT (Cursor β) (Except ε)

variable {β ε ε' α γ : Type}

def write (out : List β) : Writer β ε Unit := modify fun written => written ++ out

/-- Takes up the errors of a reader into another type. -/
def mapErrors (f : ε → ε') (r : Reader β ε α) : Reader β ε' α := fun c => (r c).mapError f

/-- The writer appends these items to whatever was written before. -/
def Writes (w : Writer β ε Unit) (out : List β) : Prop :=
  ∀ written, w.run written = .ok ((), written ++ out)

/-- The reader takes these items for the value, wherever they stand and whatever follows. -/
def Reads (r : Reader β ε α) (a : α) (out : List β) : Prop :=
  ∀ before after, r.run ⟨before ++ out ++ after, before.length⟩ =
    .ok (a, ⟨before ++ out ++ after, (before ++ out).length⟩)

/-- What the writer writes, the reader takes for the value. -/
def Codes (w : Writer β ε Unit) (r : Reader β ε' α) (a : α) : Prop :=
  ∃ out, Writes w out ∧ Reads r a out

/-! ### Writers -/

theorem writes_write (out : List β) : Writes (write (ε := ε) out) out := fun _ => rfl

theorem Writes.bind {w w' : Writer β ε Unit} {out out' : List β} (h : Writes w out)
    (h' : Writes w' out') : Writes (w >>= fun _ => w') (out ++ out') := by
  intro written
  rw [StateT.run_bind, h written, ok_bind, h' (written ++ out), List.append_assoc]

/-- A check that passes writes nothing. -/
theorem Writes.check {x : Except ε γ} {c : γ} {k : γ → Writer β ε Unit} {out : List β}
    (hx : x = .ok c) (h : Writes (k c) out) : Writes ((liftM x : Writer β ε γ) >>= k) out := by
  intro written
  rw [hx]
  exact h written

/-! ### Readers -/

theorem reads_pure (a : α) : Reads (pure a : Reader β ε α) a [] := by
  intro before after
  rw [List.append_nil]
  rfl

theorem Reads.bind {r : Reader β ε α} {k : α → Reader β ε γ} {a : α} {c : γ} {out out' : List β}
    (h : Reads r a out) (h' : Reads (k a) c out') : Reads (r >>= k) c (out ++ out') := by
  intro before after
  have hfirst := h before (out' ++ after)
  have hrest := h' (before ++ out) after
  simp only [List.append_assoc] at hfirst hrest ⊢
  rw [StateT.run_bind, hfirst, ok_bind]
  exact hrest

/-- A check that passes reads nothing. -/
theorem Reads.check {x : Except ε γ} {c : γ} {k : γ → Reader β ε α} {a : α} {out : List β}
    (hx : x = .ok c) (h : Reads (k c) a out) : Reads ((liftM x : Reader β ε γ) >>= k) a out := by
  intro before after
  rw [hx]
  exact h before after

theorem Reads.mapErrors {r : Reader β ε α} {a : α} {out : List β} (f : ε → ε') (h : Reads r a out) :
    Reads (mapErrors f r) a out := by
  intro before after
  have hr : r ⟨before ++ out ++ after, before.length⟩ = _ := h before after
  show (r ⟨before ++ out ++ after, before.length⟩).mapError f = _
  rw [hr]
  rfl

/-- A message that is one value and nothing else. -/
theorem Reads.whole {r : Reader β ε α} {a : α} {out : List β} (h : Reads r a out) :
    r.run ⟨out, 0⟩ = .ok (a, ⟨out, out.length⟩) := by
  have hall := h [] []
  rwa [List.nil_append, List.append_nil] at hall

/-! ### Formats -/

theorem Reads.codes {r : Reader β ε' α} {a : α} {out : List β} (h : Reads r a out) :
    Codes (write (ε := ε) out) r a := ⟨out, writes_write out, h⟩

theorem Codes.bind {w w' : Writer β ε Unit} {r : Reader β ε' α} {k : α → Reader β ε' γ} {a : α} {c : γ}
    (h : Codes w r a) (h' : Codes w' (k a) c) : Codes (w >>= fun _ => w') (r >>= k) c := by
  obtain ⟨out, hwrites, hreads⟩ := h
  obtain ⟨out', hwrites', hreads'⟩ := h'
  exact ⟨out ++ out', hwrites.bind hwrites', hreads.bind hreads'⟩

/-- The last field: the rest of the reader reads nothing more. -/
theorem Codes.last {w : Writer β ε Unit} {r : Reader β ε' α} {k : α → Reader β ε' γ} {a : α} {c : γ}
    (h : Codes w r a) (hk : Reads (k a) c []) : Codes w (r >>= k) c := by
  obtain ⟨out, hwrites, hreads⟩ := h
  have hlast : Reads (r >>= k) c (out ++ []) := hreads.bind hk
  rw [List.append_nil] at hlast
  exact ⟨out, hwrites, hlast⟩

theorem Codes.map {w : Writer β ε Unit} {r : Reader β ε' α} {a : α} (h : Codes w r a) (f : α → γ) :
    Codes w (r >>= fun x => pure (f x)) (f a) := h.last (reads_pure (f a))

/-- A last field of which not every value is accepted. -/
theorem Codes.convert {w : Writer β ε Unit} {r : Reader β ε' α} {f : α → Except ε' γ} {a : α} {c : γ}
    (h : Codes w r a) (hf : f a = .ok c) : Codes w (r >>= fun x => liftM (f x)) c :=
  h.last (hf ▸ reads_pure c)

theorem Codes.check {w : Writer β ε Unit} {x : Except ε' γ} {c : γ} {k : γ → Reader β ε' α} {a : α}
    (h : Codes w (k c) a) (hx : x = .ok c) : Codes w ((liftM x : Reader β ε' γ) >>= k) a := by
  obtain ⟨out, hwrites, hreads⟩ := h
  exact ⟨out, hwrites, hreads.check hx⟩

theorem Codes.checkWriter {x : Except ε γ} {c : γ} {k : γ → Writer β ε Unit} {r : Reader β ε' α} {a : α}
    (h : Codes (k c) r a) (hx : x = .ok c) : Codes ((liftM x : Writer β ε γ) >>= k) r a := by
  obtain ⟨out, hwrites, hreads⟩ := h
  exact ⟨out, hwrites.check hx, hreads⟩

end Codec
end CsMail.Library
