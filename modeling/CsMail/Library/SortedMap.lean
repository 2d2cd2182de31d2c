import Mathlib.Algebra.BigOperators.Group.List.Basic
import Mathlib.Algebra.GroupWithZero.Nat
import Mathlib.Algebra.Order.BigOperators.Group.List
import Mathlib.Algebra.Ring.Int.Defs
import Mathlib.Data.Option.Basic
import Mathlib.Order.Defs.LinearOrder
import Mathlib.Tactic.Common

/-! Finite maps kept as a list of entries in strictly increasing key order.

The order is a field of the map, so iteration runs over the keys in order, every
key occurs once, and two maps with the same lookups are equal (`ext_get`). The
lookups after an insertion or an erasure are the only facts most users need; the
sums over the values (`sumBy`) are for totals kept in step with single updates. -/
namespace CsMail.Library

structure SortedMap (K V : Type*) [LinearOrder K] where
  entries : List (K × V)
  sorted : entries.Pairwise (fun a b => a.1 < b.1)

namespace SortedMap
variable {K V : Type*} [LinearOrder K]

instance [DecidableEq V] : DecidableEq (SortedMap K V) := fun a b =>
  decidable_of_iff (a.entries = b.entries) <| by cases a; cases b; simp

/-! ### Entry lists -/

def lookup (k : K) : List (K × V) → Option V
  | [] => none
  | (k', v) :: rest => if k = k' then some v else lookup k rest

def insertEntry (k : K) (v : V) : List (K × V) → List (K × V)
  | [] => [(k, v)]
  | (k', v') :: rest =>
    if k < k' then (k, v) :: (k', v') :: rest
    else if k = k' then (k, v) :: rest
    else (k', v') :: insertEntry k v rest

def eraseEntry (k : K) : List (K × V) → List (K × V)
  | [] => []
  | (k', v) :: rest => if k = k' then rest else (k', v) :: eraseEntry k rest

theorem mem_insertEntry {k : K} {v : V} {l : List (K × V)} {e : K × V}
    (h : e ∈ insertEntry k v l) : e = (k, v) ∨ e ∈ l := by
  induction l with
  | nil => simpa [insertEntry] using h
  | cons head rest ih =>
    obtain ⟨k', v'⟩ := head
    simp only [insertEntry] at h
    split_ifs at h <;> grind

theorem mem_eraseEntry {k : K} {l : List (K × V)} {e : K × V} (h : e ∈ eraseEntry k l) : e ∈ l := by
  induction l with
  | nil => simp [eraseEntry] at h
  | cons head rest ih =>
    obtain ⟨k', v'⟩ := head
    simp only [eraseEntry] at h
    split_ifs at h <;> grind

theorem insertEntry_sorted (k : K) (v : V) {l : List (K × V)}
    (h : l.Pairwise (fun a b => a.1 < b.1)) :
    (insertEntry k v l).Pairwise (fun a b => a.1 < b.1) := by
  induction l with
  | nil => simp [insertEntry]
  | cons head rest ih =>
    obtain ⟨k', v'⟩ := head
    obtain ⟨hhead, hrest⟩ := List.pairwise_cons.mp h
    simp only [insertEntry]
    split_ifs with hlt heq
    · refine List.pairwise_cons.mpr ⟨fun e he => ?_, h⟩
      rcases List.mem_cons.mp he with rfl | he
      · exact hlt
      · exact hlt.trans (hhead e he)
    · subst heq
      exact List.pairwise_cons.mpr ⟨hhead, hrest⟩
    · have hgt : k' < k := lt_of_le_of_ne (not_lt.mp hlt) (Ne.symm heq)
      refine List.pairwise_cons.mpr ⟨fun e he => ?_, ih hrest⟩
      rcases mem_insertEntry he with rfl | he
      · exact hgt
      · exact hhead e he

theorem eraseEntry_sorted (k : K) {l : List (K × V)} (h : l.Pairwise (fun a b => a.1 < b.1)) :
    (eraseEntry k l).Pairwise (fun a b => a.1 < b.1) := by
  induction l with
  | nil => simp [eraseEntry]
  | cons head rest ih =>
    obtain ⟨k', v'⟩ := head
    obtain ⟨hhead, hrest⟩ := List.pairwise_cons.mp h
    simp only [eraseEntry]
    split_ifs
    · exact hrest
    · exact List.pairwise_cons.mpr ⟨fun e he => hhead e (mem_eraseEntry he), ih hrest⟩

theorem lookup_eq_none_of_lt {k : K} {l : List (K × V)} (h : ∀ e ∈ l, k < e.1) :
    lookup k l = none := by
  induction l with
  | nil => rfl
  | cons head rest ih =>
    obtain ⟨k', v'⟩ := head
    have hlt : k < k' := h (k', v') (List.mem_cons_self ..)
    simp only [lookup, hlt.ne, if_false]
    exact ih fun e he => h e (List.mem_cons_of_mem _ he)

theorem mem_iff_lookup {k : K} {v : V} {l : List (K × V)}
    (h : l.Pairwise (fun a b => a.1 < b.1)) : (k, v) ∈ l ↔ lookup k l = some v := by
  induction l with
  | nil => simp [lookup]
  | cons head rest ih =>
    obtain ⟨k', v'⟩ := head
    obtain ⟨hhead, hrest⟩ := List.pairwise_cons.mp h
    simp only [lookup, List.mem_cons, Prod.mk.injEq]
    split_ifs with heq
    · subst heq
      have hnot : (k, v) ∉ rest := fun hmem => absurd (hhead _ hmem) (lt_irrefl k)
      simp [hnot, eq_comm]
    · simp [heq, ih hrest]

theorem lookup_insertEntry (k k' : K) (v : V) {l : List (K × V)}
    (h : l.Pairwise (fun a b => a.1 < b.1)) :
    lookup k' (insertEntry k v l) = if k' = k then some v else lookup k' l := by
  induction l with
  | nil => simp [insertEntry, lookup]
  | cons head rest ih =>
    obtain ⟨hk, hv⟩ := head
    obtain ⟨hhead, hrest⟩ := List.pairwise_cons.mp h
    simp only [insertEntry]
    split_ifs <;> grind [lookup]

theorem lookup_eraseEntry (k k' : K) {l : List (K × V)}
    (h : l.Pairwise (fun a b => a.1 < b.1)) :
    lookup k' (eraseEntry k l) = if k' = k then none else lookup k' l := by
  induction l with
  | nil => simp [eraseEntry, lookup]
  | cons head rest ih =>
    obtain ⟨hk, hv⟩ := head
    obtain ⟨hhead, hrest⟩ := List.pairwise_cons.mp h
    simp only [eraseEntry]
    split_ifs with heq hk'
    · subst heq; subst hk'
      exact lookup_eq_none_of_lt hhead
    · subst heq
      simp [lookup, hk']
    · grind [lookup]
    · grind [lookup]

/-! ### Maps -/

def empty : SortedMap K V := ⟨[], List.Pairwise.nil⟩

instance : EmptyCollection (SortedMap K V) := ⟨empty⟩

instance : Inhabited (SortedMap K V) := ⟨empty⟩

def get? (m : SortedMap K V) (k : K) : Option V := lookup k m.entries

def contains (m : SortedMap K V) (k : K) : Bool := (m.get? k).isSome

def insert (m : SortedMap K V) (k : K) (v : V) : SortedMap K V :=
  ⟨insertEntry k v m.entries, insertEntry_sorted k v m.sorted⟩

def erase (m : SortedMap K V) (k : K) : SortedMap K V :=
  ⟨eraseEntry k m.entries, eraseEntry_sorted k m.sorted⟩

def keys (m : SortedMap K V) : List K := m.entries.map Prod.fst

def values (m : SortedMap K V) : List V := m.entries.map Prod.snd

/-- Later entries of the list replace earlier ones under the same key. -/
def ofList (l : List (K × V)) : SortedMap K V := l.foldl (fun m e => m.insert e.1 e.2) ∅

@[simp] theorem get?_empty (k : K) : (∅ : SortedMap K V).get? k = none := rfl

@[simp] theorem values_empty : (∅ : SortedMap K V).values = [] := rfl

@[grind =] theorem get?_insert (m : SortedMap K V) (k k' : K) (v : V) :
    (m.insert k v).get? k' = if k' = k then some v else m.get? k' :=
  lookup_insertEntry k k' v m.sorted

@[simp] theorem get?_insert_self (m : SortedMap K V) (k : K) (v : V) :
    (m.insert k v).get? k = some v := by
  rw [get?_insert, if_pos rfl]

theorem get?_insert_ne (m : SortedMap K V) {k k' : K} (v : V) (h : k' ≠ k) :
    (m.insert k v).get? k' = m.get? k' := by
  rw [get?_insert, if_neg h]

/-- What is found after an insertion was inserted, or was there under another key. -/
theorem get?_insert_eq_some {m : SortedMap K V} {k k' : K} {v v' : V} :
    (m.insert k v).get? k' = some v' ↔ (k' = k ∧ v' = v) ∨ (k' ≠ k ∧ m.get? k' = some v') := by
  rw [get?_insert]
  split_ifs with h
  · simp only [h, Option.some.injEq, true_and, ne_eq, not_true_eq_false, false_and, or_false, eq_comm]
  · simp only [h, false_and, ne_eq, not_false_eq_true, true_and, false_or]

@[grind =] theorem get?_erase (m : SortedMap K V) (k k' : K) :
    (m.erase k).get? k' = if k' = k then none else m.get? k' :=
  lookup_eraseEntry k k' m.sorted

theorem contains_eq_true {m : SortedMap K V} {k : K} :
    m.contains k = true ↔ ∃ v, m.get? k = some v := Option.isSome_iff_exists

theorem contains_eq_false {m : SortedMap K V} {k : K} :
    m.contains k = false ↔ m.get? k = none := by
  simp [contains]

theorem mem_entries {m : SortedMap K V} {k : K} {v : V} :
    (k, v) ∈ m.entries ↔ m.get? k = some v := mem_iff_lookup m.sorted

theorem mem_values {m : SortedMap K V} {v : V} : v ∈ m.values ↔ ∃ k, m.get? k = some v := by
  simp [values, mem_entries]

theorem mem_keys {m : SortedMap K V} {k : K} : k ∈ m.keys ↔ ∃ v, m.get? k = some v := by
  simp [keys, mem_entries]

theorem keys_nodup (m : SortedMap K V) : m.keys.Nodup :=
  List.pairwise_map.mpr (m.sorted.imp fun h => h.ne)

theorem countP_values_le_one {m : SortedMap K V} {p : V → Bool}
    (h : ∀ k k' v v', m.get? k = some v → m.get? k' = some v' → p v = true → p v' = true →
      k = k') : m.values.countP p ≤ 1 := by
  rw [values, List.countP_map, List.countP_eq_length_filter]
  have hsorted := m.sorted.filter (p ∘ Prod.snd)
  match hl : m.entries.filter (p ∘ Prod.snd) with
  | [] | [_] => simp
  | e :: e' :: rest =>
    have hmem : ∀ x ∈ [e, e'], m.get? x.1 = some x.2 ∧ p x.2 = true := fun x hx => by
      have hx : x ∈ m.entries.filter (p ∘ Prod.snd) := by
        rw [hl]
        simp only [List.mem_cons, List.not_mem_nil, or_false] at hx ⊢
        rcases hx with rfl | rfl <;> simp
      obtain ⟨hx, hp⟩ := List.mem_filter.mp hx
      exact ⟨mem_entries.mp hx, hp⟩
    obtain ⟨he, hp⟩ := hmem e (by simp)
    obtain ⟨he', hp'⟩ := hmem e' (by simp)
    rw [hl] at hsorted
    have hlt := (List.pairwise_cons.mp hsorted).1 e' (by simp)
    exact absurd (h _ _ _ _ he he' hp hp') hlt.ne

/-- The lookups determine the map. -/
theorem ext_get {a b : SortedMap K V} (h : ∀ k, a.get? k = b.get? k) : a = b := by
  have hmem : ∀ e, e ∈ a.entries ↔ e ∈ b.entries := fun e => by
    rw [mem_entries (m := a), mem_entries (m := b), h]
  have hperm : a.entries.Perm b.entries := by
    have hnodup : ∀ m : SortedMap K V, m.entries.Nodup := fun m =>
      m.sorted.imp fun hlt heq => absurd (heq ▸ hlt) (lt_irrefl _)
    exact (List.perm_ext_iff_of_nodup (hnodup a) (hnodup b)).mpr hmem
  have hentries : a.entries = b.entries :=
    hperm.eq_of_pairwise (fun x y _ _ hxy hyx => absurd hxy (lt_asymm hyx)) a.sorted b.sorted
  cases a; cases b
  cases hentries
  rfl

theorem insert_get?_self {m : SortedMap K V} {k : K} {v : V} (h : m.get? k = some v) :
    m.insert k v = m := by
  apply ext_get
  intro k'
  rw [get?_insert]
  split_ifs with heq
  · rw [heq, h]
  · rfl

theorem lookup_eq_none_of_notMem {k : K} {l : List (K × V)} (h : k ∉ l.map Prod.fst) :
    lookup k l = none := by
  induction l with
  | nil => rfl
  | cons head rest ih =>
    obtain ⟨k', v'⟩ := head
    simp only [List.map_cons, List.mem_cons, not_or] at h
    simp only [lookup, h.1, if_false]
    exact ih h.2

theorem lookup_eq_find? {k : K} (l : List (K × V)) {p : K × V → Bool}
    (hp : ∀ e, p e = true ↔ e.1 = k) : lookup k l = (l.find? p).map Prod.snd := by
  induction l with
  | nil => rfl
  | cons head rest ih =>
    obtain ⟨k', v'⟩ := head
    by_cases heq : k = k'
    · have : p (k', v') = true := (hp _).mpr heq.symm
      simp [lookup, heq, this]
    · have : p (k', v') = false := by
        rw [← Bool.not_eq_true, hp]
        exact Ne.symm heq
      simp [lookup, heq, this, ih]

theorem get?_ofList {l : List (K × V)} (h : (l.map Prod.fst).Nodup) (k : K) :
    (ofList l).get? k = lookup k l := by
  suffices ∀ acc : SortedMap K V,
      (l.foldl (fun m e => m.insert e.1 e.2) acc).get? k = (lookup k l).or (acc.get? k) by
    rw [ofList, this ∅, get?_empty, Option.or_none]
  induction l with
  | nil => intro acc; rfl
  | cons head rest ih =>
    intro acc
    obtain ⟨k', v'⟩ := head
    obtain ⟨hhead, hrest⟩ := List.nodup_cons.mp h
    rw [List.foldl_cons, ih hrest, get?_insert]
    simp only [lookup]
    split_ifs with heq
    · subst heq
      rw [lookup_eq_none_of_notMem hhead]
      rfl
    · rfl

theorem lookup_eq_some {l : List (K × V)} (h : (l.map Prod.fst).Nodup) {k : K} {v : V} :
    lookup k l = some v ↔ (k, v) ∈ l := by
  induction l with
  | nil => simp [lookup]
  | cons head rest ih =>
    obtain ⟨k', v'⟩ := head
    obtain ⟨hhead, hrest⟩ := List.nodup_cons.mp h
    rw [lookup, List.mem_cons, Prod.mk.injEq]
    split_ifs with heq
    · subst heq
      have hnot : (k, v) ∉ rest := fun hmem => hhead (List.mem_map.mpr ⟨(k, v), hmem, rfl⟩)
      simp [hnot, eq_comm]
    · rw [ih hrest]
      simp [heq]

/-- Entries under distinct keys are all kept. -/
theorem mem_ofList {l : List (K × V)} (h : (l.map Prod.fst).Nodup) {e : K × V} :
    e ∈ (ofList l).entries ↔ e ∈ l := by
  rw [mem_entries (k := e.1) (v := e.2), get?_ofList h, lookup_eq_some h]

theorem ofList_entries (m : SortedMap K V) : ofList m.entries = m :=
  ext_get fun k => get?_ofList (keys_nodup m) k

theorem length_insertEntry_le (k : K) (v : V) (l : List (K × V)) :
    (insertEntry k v l).length ≤ l.length + 1 := by
  induction l with
  | nil => simp [insertEntry]
  | cons head rest ih =>
    simp only [insertEntry]
    split_ifs <;> grind

theorem length_insert_le (m : SortedMap K V) (k : K) (v : V) :
    (m.insert k v).entries.length ≤ m.entries.length + 1 :=
  length_insertEntry_le k v m.entries

theorem length_insertEntry_new {k : K} (v : V) {l : List (K × V)} (h : lookup k l = none) :
    (insertEntry k v l).length = l.length + 1 := by
  induction l with
  | nil => rfl
  | cons head rest ih =>
    obtain ⟨k', v'⟩ := head
    rw [lookup] at h
    split_ifs at h with heq
    rw [insertEntry, if_neg heq]
    split_ifs
    · rfl
    · rw [List.length_cons, ih h, List.length_cons]

theorem length_insert_new {m : SortedMap K V} {k : K} (v : V) (h : m.get? k = none) :
    (m.insert k v).entries.length = m.entries.length + 1 := length_insertEntry_new v h

theorem length_foldl_insert_le (l : List (K × V)) (acc : SortedMap K V) :
    (l.foldl (fun m e => m.insert e.1 e.2) acc).entries.length ≤ acc.entries.length + l.length := by
  induction l generalizing acc with
  | nil => simp
  | cons head rest ih =>
    have hfold := ih (acc.insert head.1 head.2)
    have hinsert := length_insert_le acc head.1 head.2
    simp only [List.foldl_cons, List.length_cons]
    omega

theorem length_ofList_le (l : List (K × V)) : (ofList l).entries.length ≤ l.length :=
  (length_foldl_insert_le l ∅).trans_eq (Nat.zero_add _)

theorem length_insertEntry_old {k : K} (v : V) {l : List (K × V)}
    (hsorted : l.Pairwise (fun a b => a.1 < b.1)) (h : lookup k l ≠ none) :
    (insertEntry k v l).length = l.length := by
  induction l with
  | nil => exact absurd rfl h
  | cons head rest ih =>
    obtain ⟨hhead, hrest⟩ := List.pairwise_cons.mp hsorted
    rw [lookup] at h
    rw [insertEntry]
    split_ifs with hlt heq
    · have hbelow : lookup k rest = none := lookup_eq_none_of_lt fun e he => hlt.trans (hhead e he)
      rw [if_neg hlt.ne] at h
      exact absurd hbelow h
    · rfl
    · rw [if_neg heq] at h
      rw [List.length_cons, ih hrest h, List.length_cons]

/-- No entry of the list replaced another exactly when no key was repeated. -/
theorem length_ofList_eq {l : List (K × V)} :
    (ofList l).entries.length = l.length ↔ (l.map Prod.fst).Nodup := by
  suffices ∀ acc : SortedMap K V, (l.foldl (fun m e => m.insert e.1 e.2) acc).entries.length =
      acc.entries.length + l.length ↔
        (l.map Prod.fst).Nodup ∧ ∀ k ∈ l.map Prod.fst, acc.get? k = none by
    have hempty := this ∅
    rw [show (∅ : SortedMap K V).entries.length = 0 from rfl, Nat.zero_add] at hempty
    exact hempty.trans (and_iff_left fun k _ => rfl)
  induction l with
  | nil => simp
  | cons head rest ih =>
    intro acc
    rw [List.foldl_cons, List.length_cons, List.map_cons, List.nodup_cons, List.forall_mem_cons]
    by_cases hnew : acc.get? head.1 = none
    · have hlength := length_insert_new head.2 hnew
      have hrest := ih (acc.insert head.1 head.2)
      rw [hlength, Nat.add_right_comm, Nat.add_assoc] at hrest
      rw [hrest]
      have hkeys : (∀ k ∈ rest.map Prod.fst, (acc.insert head.1 head.2).get? k = none) ↔
          head.1 ∉ rest.map Prod.fst ∧ ∀ k ∈ rest.map Prod.fst, acc.get? k = none := by
        constructor
        · intro h
          refine ⟨fun hin => ?_, fun k hk => ?_⟩
          · have := h _ hin
            rw [get?_insert_self] at this
            cases this
          · have := h k hk
            rw [get?_insert] at this
            split_ifs at this
            exact this
        · rintro ⟨hnot, h⟩ k hk
          have hne : k ≠ head.1 := fun heq => hnot (heq ▸ hk)
          rw [get?_insert_ne _ _ hne]
          exact h k hk
      rw [hkeys]
      tauto
    · have hold : (acc.insert head.1 head.2).entries.length = acc.entries.length :=
        length_insertEntry_old head.2 acc.sorted hnew
      have hshort := length_foldl_insert_le rest (acc.insert head.1 head.2)
      constructor
      · intro h
        omega
      · intro h
        exact absurd h.2.1 hnew

theorem insertEntry_last {k : K} {v : V} {l : List (K × V)} (h : ∀ e ∈ l, e.1 < k) :
    insertEntry k v l = l ++ [(k, v)] := by
  induction l with
  | nil => rfl
  | cons head rest ih =>
    have hhead : head.1 < k := h head (List.mem_cons_self ..)
    rw [insertEntry, if_neg (lt_asymm hhead), if_neg hhead.ne',
      ih fun e he => h e (List.mem_cons_of_mem _ he), List.cons_append]

/-- A key above all others is inserted at the end. -/
theorem values_insert_last {m : SortedMap K V} {k : K} (v : V)
    (h : ∀ k' v', m.get? k' = some v' → k' < k) : (m.insert k v).values = m.values ++ [v] := by
  have hentries := insertEntry_last (v := v) fun e he => h e.1 e.2 (mem_entries.mp he)
  show (insertEntry k v m.entries).map Prod.snd = _
  rw [hentries, List.map_append]
  rfl

/-- The last value is the one under the greatest key. -/
theorem getLast?_values {m : SortedMap K V} {k : K} {v : V} (h : m.get? k = some v) :
    ∃ k' v', m.values.getLast? = some v' ∧ m.get? k' = some v' ∧ k ≤ k' := by
  have hmem := mem_entries.mpr h
  have hne : m.entries ≠ [] := List.ne_nil_of_mem hmem
  have hlast := mem_entries.mp (List.getLast_mem hne)
  refine ⟨_, _, ?_, hlast, ?_⟩
  · rw [values, List.getLast?_map, List.getLast?_eq_some_getLast hne, Option.map_some]
  · have hsorted := m.sorted
    rw [← List.dropLast_append_getLast hne] at hmem hsorted
    rcases List.mem_append.mp hmem with hbefore | hend
    · exact ((List.pairwise_append.mp hsorted).2.2 _ hbefore _ (List.mem_singleton_self _)).le
    · exact (congrArg Prod.fst (List.mem_singleton.mp hend)).le

/-- Every value replaced by what it becomes under its key. -/
def map {W : Type*} (m : SortedMap K V) (f : K → V → W) : SortedMap K W :=
  ⟨m.entries.map fun e => (e.1, f e.1 e.2), List.pairwise_map.mpr m.sorted⟩

theorem lookup_map {W : Type*} (k : K) (f : K → V → W) (l : List (K × V)) :
    lookup k (l.map fun e => (e.1, f e.1 e.2)) = (lookup k l).map (f k) := by
  induction l with
  | nil => rfl
  | cons head rest ih =>
    simp only [List.map_cons, lookup]
    split_ifs with heq
    · rw [heq]
      rfl
    · exact ih

@[simp] theorem get?_map {W : Type*} (m : SortedMap K V) (f : K → V → W) (k : K) :
    (m.map f).get? k = (m.get? k).map (f k) := lookup_map k f m.entries

theorem values_nodup {m : SortedMap K V} {α : Type*} {f : V → α}
    (h : ∀ k k' v v', m.get? k = some v → m.get? k' = some v' → f v = f v' → k = k') :
    (m.values.map f).Nodup := by
  rw [values, List.map_map]
  refine List.pairwise_map.mpr ?_
  refine List.Pairwise.imp_of_mem (fun {a b} ha hb hlt heq => ?_) m.sorted
  exact hlt.ne (h _ _ _ _ (mem_entries.mp ha) (mem_entries.mp hb) heq)

/-! ### The keys of selected values

A map whose values carry their own keys (`hfiled`). -/

section Select
variable {m m' : SortedMap K V} {key : V → K} {p : V → Bool}

theorem mem_select (hfiled : ∀ k v, m.get? k = some v → key v = k) {k : K} :
    k ∈ (m.values.filter p).map key ↔ (m.get? k).any p = true := by
  rw [List.mem_map, Option.any_eq_true]
  constructor
  · rintro ⟨v, hv, rfl⟩
    obtain ⟨hv, hp⟩ := List.mem_filter.mp hv
    obtain ⟨k, hk⟩ := mem_values.mp hv
    exact ⟨v, hfiled k v hk ▸ hk, hp⟩
  · rintro ⟨v, hv, hp⟩
    exact ⟨v, List.mem_filter.mpr ⟨mem_values.mpr ⟨k, hv⟩, hp⟩, hfiled k v hv⟩

theorem select_sorted (hfiled : ∀ k v, m.get? k = some v → key v = k) :
    ((m.values.filter p).map key).Pairwise (· < ·) := by
  have hvalues : (m.values.map key).Pairwise (· < ·) := by
    rw [values, List.map_map]
    refine List.pairwise_map.mpr (List.Pairwise.imp_of_mem (fun {a b} ha hb hlt => ?_) m.sorted)
    show key a.2 < key b.2
    rwa [hfiled _ _ (mem_entries.mp ha), hfiled _ _ (mem_entries.mp hb)]
  exact hvalues.sublist (List.filter_sublist.map key)

/-- Maps that select the same keys list them alike. -/
theorem select_congr (hfiled : ∀ k v, m.get? k = some v → key v = k)
    (hfiled' : ∀ k v, m'.get? k = some v → key v = k)
    (h : ∀ k, (m'.get? k).any p = (m.get? k).any p) :
    (m'.values.filter p).map key = (m.values.filter p).map key := by
  have hmem : ∀ k, k ∈ (m'.values.filter p).map key ↔ k ∈ (m.values.filter p).map key := fun k => by
    rw [mem_select hfiled', mem_select hfiled, h]
  have hsorted := select_sorted (p := p) hfiled
  have hsorted' := select_sorted (p := p) hfiled'
  have hperm := (List.perm_ext_iff_of_nodup (hsorted'.imp fun h => h.ne) (hsorted.imp fun h => h.ne)).mpr hmem
  exact hperm.eq_of_pairwise (fun x y _ _ hxy hyx => absurd hxy (lt_asymm hyx)) hsorted' hsorted

end Select

theorem flatMap_insertEntry {α : Type*} {k : K} {v : V} {f : K × V → List α} {l : List (K × V)}
    (hsorted : l.Pairwise fun a b => a.1 < b.1)
    (h : (((lookup k l).map fun old => f (k, old)).getD []) = f (k, v)) :
    (insertEntry k v l).flatMap f = l.flatMap f := by
  induction l with
  | nil => simpa [insertEntry, lookup] using h.symm
  | cons head rest ih =>
    obtain ⟨k', v'⟩ := head
    obtain ⟨hhead, hrest⟩ := List.pairwise_cons.mp hsorted
    rw [lookup] at h
    rw [insertEntry]
    split_ifs with hlt heq
    · have hbelow : lookup k rest = none :=
        lookup_eq_none_of_lt fun e he => hlt.trans (hhead e he)
      rw [if_neg hlt.ne, hbelow, Option.map_none, Option.getD_none] at h
      rw [List.flatMap_cons, ← h, List.nil_append]
    · rw [if_pos heq, Option.map_some, Option.getD_some] at h
      subst heq
      rw [List.flatMap_cons, List.flatMap_cons, h]
    · rw [if_neg heq] at h
      rw [List.flatMap_cons, List.flatMap_cons, ih hrest h]

/-- A new value that contributes what the old one did leaves what all entries contribute. -/
theorem flatMap_insert {α : Type*} {m : SortedMap K V} {k : K} {v : V} (f : K × V → List α)
    (h : (((m.get? k).map fun old => f (k, old)).getD []) = f (k, v)) :
    (m.insert k v).entries.flatMap f = m.entries.flatMap f := flatMap_insertEntry m.sorted h

/-! ### Sums over the values -/

section Sum
variable {M : Type*} [AddCommMonoid M]

def sumBy (m : SortedMap K V) (f : V → M) : M := (m.values.map f).sum

@[simp] theorem sumBy_empty (f : V → M) : (∅ : SortedMap K V).sumBy f = 0 := rfl

theorem sum_insertEntry (k : K) (v : V) (f : V → M) {l : List (K × V)}
    (h : l.Pairwise (fun a b => a.1 < b.1)) :
    ((insertEntry k v l).map (fun e => f e.2)).sum + ((lookup k l).map f).getD 0 =
      (l.map (fun e => f e.2)).sum + f v := by
  induction l with
  | nil => simp [insertEntry, lookup]
  | cons head rest ih =>
    obtain ⟨k', v'⟩ := head
    obtain ⟨hhead, hrest⟩ := List.pairwise_cons.mp h
    simp only [insertEntry, lookup]
    split_ifs with hlt heq
    · exact absurd hlt (by rw [‹k = k'›]; exact lt_irrefl k')
    · have hnone : lookup k rest = none :=
        lookup_eq_none_of_lt fun e he => hlt.trans (hhead e he)
      simp only [hnone, List.map_cons, List.sum_cons, Option.map_none, Option.getD_none, add_zero]
      exact add_comm _ _
    · simp only [List.map_cons, List.sum_cons, Option.map_some, Option.getD_some]
      rw [add_comm (f v), add_assoc, add_comm (f v) (f v'), ← add_assoc,
        add_comm _ (f v')]
    · simp only [List.map_cons, List.sum_cons, add_assoc, ih hrest]

/-- Inserting changes a total by the new value's share minus the replaced one's. -/
theorem sumBy_insert (m : SortedMap K V) (k : K) (v : V) (f : V → M) :
    (m.insert k v).sumBy f + ((m.get? k).map f).getD 0 = m.sumBy f + f v := by
  have := sum_insertEntry k v f m.sorted
  simpa [sumBy, values, List.map_map, Function.comp_def, get?, insert] using this

theorem sumBy_insert_new {m : SortedMap K V} {k : K} (v : V) (f : V → M) (h : m.get? k = none) :
    (m.insert k v).sumBy f = m.sumBy f + f v := by
  have := sumBy_insert m k v f
  rwa [h, Option.map_none, Option.getD_none, add_zero] at this

theorem sumBy_eq_countP (m : SortedMap K V) (p : V → Bool) :
    m.sumBy (fun v => if p v then 1 else 0) = m.values.countP p := by
  unfold sumBy
  induction m.values with
  | nil => rfl
  | cons v rest ih =>
    rw [List.map_cons, List.sum_cons, ih, List.countP_cons, Nat.add_comm]

/-- Inserting a value the count leaves out never raises the count. -/
theorem countP_values_insert_le (m : SortedMap K V) (k : K) {v : V} {p : V → Bool}
    (h : p v = true → ∃ old, m.get? k = some old ∧ p old = true) :
    (m.insert k v).values.countP p ≤ m.values.countP p := by
  have hsum := sumBy_insert m k v fun v => if p v then 1 else 0
  rw [sumBy_eq_countP, sumBy_eq_countP] at hsum
  by_cases hv : p v = true
  · obtain ⟨old, hold, hp⟩ := h hv
    simp only [hold, hp, hv, Option.map_some, Option.getD_some, if_true] at hsum
    omega
  · simp only [hv, Bool.false_eq_true, if_false] at hsum
    omega

theorem countP_values_insert_new {m : SortedMap K V} {k : K} (v : V) (p : V → Bool)
    (h : m.get? k = none) :
    (m.insert k v).values.countP p = m.values.countP p + if p v then 1 else 0 := by
  rw [← sumBy_eq_countP, ← sumBy_eq_countP, sumBy_insert_new v _ h]

/-- Replacing a value the count takes in by one it leaves out lowers the count. -/
theorem countP_values_insert_old {m : SortedMap K V} {k : K} {v old : V} {p : V → Bool}
    (hold : m.get? k = some old) (hp : p old = true) (hv : p v = false) :
    (m.insert k v).values.countP p + 1 = m.values.countP p := by
  have hsum := sumBy_insert m k v fun v => if p v then 1 else 0
  rw [sumBy_eq_countP, sumBy_eq_countP] at hsum
  simpa [hold, hp, hv] using hsum

theorem sumBy_ofList {l : List (K × V)} (h : (l.map Prod.fst).Nodup) (f : V → M) :
    (ofList l).sumBy f = (l.map fun e => f e.2).sum := by
  suffices ∀ acc : SortedMap K V, (∀ e ∈ l, acc.get? e.1 = none) →
      (l.foldl (fun m e => m.insert e.1 e.2) acc).sumBy f =
        acc.sumBy f + (l.map fun e => f e.2).sum by
    rw [ofList, this ∅ fun _ _ => rfl, sumBy_empty, zero_add]
  induction l with
  | nil => simp
  | cons head rest ih =>
    intro acc hnew
    obtain ⟨hhead, hrest⟩ := List.nodup_cons.mp h
    have hfresh : ∀ e ∈ rest, (acc.insert head.1 head.2).get? e.1 = none := fun e he => by
      have hne : e.1 ≠ head.1 := fun heq => hhead (heq ▸ List.mem_map_of_mem he)
      rw [get?_insert_ne _ _ hne]
      exact hnew e (List.mem_cons_of_mem _ he)
    rw [List.foldl_cons, ih hrest _ hfresh, sumBy_insert_new _ _ (hnew head (List.mem_cons_self ..)),
      List.map_cons, List.sum_cons, add_assoc]

theorem le_sumBy [PartialOrder M] [IsOrderedAddMonoid M] {m : SortedMap K V} {k : K} {v : V}
    {f : V → M} (h : m.get? k = some v) (hf : ∀ v, 0 ≤ f v) : f v ≤ m.sumBy f := by
  refine List.single_le_sum (fun x hx => ?_) _ (List.mem_map_of_mem (mem_values.mpr ⟨k, h⟩))
  obtain ⟨v', -, rfl⟩ := List.mem_map.mp hx
  exact hf v'

end Sum

end SortedMap
end CsMail.Library
