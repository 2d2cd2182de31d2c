import Mathlib.Data.List.Forall2
import Mathlib.Tactic.Common

/-! Stores of sealed records with content-derived addresses.

An item is written out, addressed by what was written, and sealed under its address. A commit
seals the items whose addresses hold nothing yet, and drops every address it does not keep. An
address names one content (`Scheme.address_injective`), so what an address holds already is the
item itself: a commit recalls to the items it placed (`recall_apply`), in their order, and seals
no record a second time (`apply_unwritten`). -/
namespace CsMail.Library.ContentStore
universe u

/-- How items are written, addressed and sealed. Writing and sealing may fail; what was written
or sealed is read back as it was. -/
structure Scheme (Item Plain Cipher Nonce Id : Type u) where
  write : Item → Option Plain
  read : Plain → Option Item
  address : Plain → Id
  encrypt : Id → Nonce → Plain → Option Cipher
  decrypt : Id → Cipher → Option Plain
  read_write : ∀ {i p}, write i = some p → read p = some i
  address_injective : Function.Injective address
  decrypt_encrypt : ∀ {id n p c}, encrypt id n p = some c → decrypt id c = some p

variable {Item Plain Cipher Nonce Id : Type u}

/-- The addresses a commit keeps, and the records it adds. -/
structure Placement (Cipher Id : Type u) where
  keep : List Id
  writes : List (Id × Cipher)

/-- What is stored after a commit. -/
def apply [DecidableEq Id] (records : Id → Option Cipher) (change : Placement Cipher Id) : Id → Option Cipher :=
  fun id => if id ∈ change.keep then (change.writes.lookup id).or (records id) else none

namespace Scheme
variable (S : Scheme Item Plain Cipher Nonce Id)

/-- Places an item: it is sealed unless its address holds a record. -/
def place (records : Id → Option Cipher) (change : Placement Cipher Id) (item : Item × Nonce) :
    Option (Placement Cipher Id) := do
  let plain ← S.write item.1
  let id := S.address plain
  match records id with
  | some _ => some ⟨change.keep ++ [id], change.writes⟩
  | none => do
    let cipher ← S.encrypt id item.2 plain
    some ⟨change.keep ++ [id], change.writes ++ [(id, cipher)]⟩

/-- What an address holds, if it is what the address was derived from. -/
def recollect [DecidableEq Id] (records : Id → Option Cipher) (id : Id) : Option Item := do
  let cipher ← records id
  let plain ← S.decrypt id cipher
  if S.address plain = id then S.read plain else none

/-- Every record is sealed under the address of its content. -/
def Sound (records : Id → Option Cipher) : Prop :=
  ∀ id cipher, records id = some cipher → ∃ plain, S.decrypt id cipher = some plain ∧ S.address plain = id

/-- The address of an item. -/
def Addresses (item : Item) (id : Id) : Prop := ∃ plain, S.write item = some plain ∧ S.address plain = id

variable {S}

theorem Addresses.injective {item item' : Item} {id : Id} (h : S.Addresses item id)
    (h' : S.Addresses item' id) : item = item' := by
  obtain ⟨plain, hwrite, rfl⟩ := h
  obtain ⟨plain', hwrite', hsame⟩ := h'
  cases S.address_injective hsame
  exact Option.some.inj ((S.read_write hwrite).symm.trans (S.read_write hwrite'))

theorem Addresses.mem_right {items : List Item} {ids : List Id} (h : List.Forall₂ S.Addresses items ids)
    {id : Id} (hid : id ∈ ids) : ∃ item ∈ items, S.Addresses item id := by
  induction h with
  | nil => cases hid
  | @cons item id' items ids hitem _ ih =>
    rcases List.mem_cons.mp hid with rfl | hid
    · exact ⟨item, List.mem_cons_self .., hitem⟩
    · exact (ih hid).imp fun _ h => ⟨List.mem_cons_of_mem item h.1, h.2⟩

/-- Different items have different addresses. -/
theorem Addresses.nodup {items : List Item} {ids : List Id} (h : List.Forall₂ S.Addresses items ids)
    (hitems : items.Nodup) : ids.Nodup := by
  induction h with
  | nil => exact List.nodup_nil
  | @cons item id items ids hitem hrest ih =>
    rw [List.nodup_cons] at hitems ⊢
    refine ⟨fun hid => ?_, ih hitems.2⟩
    obtain ⟨item', hmem, hitem'⟩ := mem_right hrest hid
    exact hitems.1 (hitem.injective hitem' ▸ hmem)

/-- What a commit has placed so far: the kept addresses hold something, and what is added is
sealed under its address and was not stored. -/
structure Placed (S : Scheme Item Plain Cipher Nonce Id) (records : Id → Option Cipher)
    (change : Placement Cipher Id) (items : List Item) : Prop where
  keep : List.Forall₂ S.Addresses items change.keep
  held : ∀ id ∈ change.keep, records id ≠ none ∨ ∃ cipher, (id, cipher) ∈ change.writes
  writes : ∀ id cipher, (id, cipher) ∈ change.writes →
    records id = none ∧ ∃ plain, S.decrypt id cipher = some plain ∧ S.address plain = id

theorem placed_place {records : Id → Option Cipher} {change change' : Placement Cipher Id}
    {items : List Item} {item : Item × Nonce} (hplaced : S.Placed records change items)
    (h : S.place records change item = some change') : S.Placed records change' (items ++ [item.1]) := by
  obtain ⟨plain, hwrite, h⟩ := Option.bind_eq_some_iff.mp h
  have hkeep : List.Forall₂ S.Addresses (items ++ [item.1]) (change.keep ++ [S.address plain]) :=
    List.rel_append hplaced.keep (.cons ⟨plain, hwrite, rfl⟩ .nil)
  cases hrecord : records (S.address plain) with
  | some held =>
    simp only [hrecord, Option.some.injEq] at h
    subst h
    refine ⟨hkeep, fun id hid => ?_, hplaced.writes⟩
    rcases List.mem_append.mp hid with hold | hnew
    · exact hplaced.held id hold
    · rw [List.mem_singleton.mp hnew, hrecord]
      exact .inl (Option.some_ne_none held)
  | none =>
    simp only [hrecord] at h
    obtain ⟨cipher, hcipher, h⟩ := Option.bind_eq_some_iff.mp h
    cases h
    refine ⟨hkeep, fun id hid => ?_, fun id c hc => ?_⟩
    · rcases List.mem_append.mp hid with hold | hnew
      · exact (hplaced.held id hold).imp_right fun ⟨c, hc⟩ => ⟨c, List.mem_append_left _ hc⟩
      · rw [List.mem_singleton.mp hnew]
        exact .inr ⟨cipher, List.mem_append_right _ (List.mem_singleton_self _)⟩
    · rcases List.mem_append.mp hc with hold | hnew
      · exact hplaced.writes id c hold
      · cases List.mem_singleton.mp hnew
        exact ⟨hrecord, plain, S.decrypt_encrypt hcipher, rfl⟩

/-- What a commit has placed at the end. -/
theorem placed_foldlM {records : Id → Option Cipher} {items : List (Item × Nonce)}
    {change : Placement Cipher Id} (h : items.foldlM (S.place records) ⟨[], []⟩ = some change) :
    S.Placed records change (items.map Prod.fst) := by
  suffices ∀ (items : List (Item × Nonce)) (before : Placement Cipher Id) (done : List Item),
      S.Placed records before done → items.foldlM (S.place records) before = some change →
        S.Placed records change (done ++ items.map Prod.fst) from
    this items ⟨[], []⟩ [] ⟨.nil, by simp, by simp⟩ h
  intro items
  induction items with
  | nil =>
    intro before done hplaced h
    cases h
    rwa [List.map_nil, List.append_nil]
  | cons item rest ih =>
    intro before done hplaced h
    obtain ⟨next, hnext, h⟩ := Option.bind_eq_some_iff.mp h
    have := ih next (done ++ [item.1]) (placed_place hplaced hnext) h
    rwa [List.append_assoc] at this

variable [DecidableEq Id] {records : Id → Option Cipher} {change : Placement Cipher Id} {items : List Item}

theorem lookup_mem {α β : Type*} [DecidableEq α] {l : List (α × β)} {a : α} {b : β}
    (h : l.lookup a = some b) : (a, b) ∈ l := by
  obtain ⟨before, after, rfl, -⟩ := List.lookup_eq_some_iff.mp h
  exact List.mem_append_right _ (List.mem_cons_self ..)

theorem apply_sound (hplaced : S.Placed records change items) (hsound : S.Sound records) :
    S.Sound (apply records change) := by
  intro id cipher h
  unfold apply at h
  split_ifs at h with hkeep
  rcases Option.or_eq_some_iff.mp h with hwrite | ⟨-, hold⟩
  · exact (hplaced.writes id cipher (lookup_mem hwrite)).2
  · exact hsound id cipher hold

/-- A kept address holds a record. -/
theorem apply_ne_none (hplaced : S.Placed records change items) {id : Id} (hid : id ∈ change.keep) :
    apply records change id ≠ none := by
  unfold apply
  rw [if_pos hid]
  intro hnone
  obtain ⟨hlookup, hrecord⟩ := Option.or_eq_none_iff.mp hnone
  rcases hplaced.held id hid with hheld | ⟨cipher, hcipher⟩
  · exact hheld hrecord
  · exact absurd (List.lookup_eq_none_iff.mp hlookup (id, cipher) hcipher) (by simp)

/-- A stored record is kept as it is, or dropped. -/
theorem apply_unwritten (hplaced : S.Placed records change items) {id : Id} {cipher cipher' : Cipher}
    (h : records id = some cipher) (h' : apply records change id = some cipher') : cipher' = cipher := by
  unfold apply at h'
  split_ifs at h'
  rcases Option.or_eq_some_iff.mp h' with hwrite | ⟨-, hold⟩
  · cases (hplaced.writes id cipher' (lookup_mem hwrite)).1.symm.trans h
  · exact Option.some.inj (hold.symm.trans h)

/-- **A commit recalls the items it placed.** -/
theorem recall_apply (hplaced : S.Placed records change items) (hsound : S.Sound records) {item : Item}
    {id : Id} (hitem : S.Addresses item id) (hid : id ∈ change.keep) :
    S.recollect (apply records change) id = some item := by
  obtain ⟨plain, hwrite, rfl⟩ := hitem
  obtain ⟨cipher, hcipher⟩ := Option.ne_none_iff_exists'.mp (apply_ne_none hplaced hid)
  obtain ⟨plain', hdecrypt, haddress⟩ := apply_sound hplaced hsound _ cipher hcipher
  cases S.address_injective haddress
  simp [recollect, hcipher, hdecrypt, S.read_write hwrite]

end Scheme
end CsMail.Library.ContentStore
