import CsMail.Library.SortedMap
import Mathlib.Data.List.Nodup
import Mathlib.Data.List.Perm.Basic

/-! Keys of a map grouped by something about them.

Beside a map stands an index from each group to the set of its keys, kept by hand: a key is
dropped from its old group and added to its new one, and a group left without keys is dropped.
While the index says just what the map says (`Groups`), the keys listed under any choice of
groups are the keys of the map in these groups, each once (`Groups.perm`), so counts may be
taken from the index. -/
namespace CsMail.Library

abbrev Grouping (G K : Type*) [LinearOrder G] [LinearOrder K] := SortedMap G (SortedMap K Unit)

namespace Grouping
variable {G K V : Type*} [LinearOrder G] [LinearOrder K]

/-- A group without keys is dropped with its last one. -/
def drop (index : Grouping G K) (g : G) (k : K) : Grouping G K :=
  match index.get? g with
  | some keys =>
    let keys := keys.erase k
    if keys.entries = [] then index.erase g else index.insert g keys
  | none => index

def add (index : Grouping G K) (g : G) (k : K) : Grouping G K :=
  index.insert g (((index.get? g).getD ∅).insert k ())

/-- A key is listed under a group. -/
def Lists (index : Grouping G K) (g : G) (k : K) : Prop :=
  ∃ keys, index.get? g = some keys ∧ keys.contains k = true

/-- Every group has a key. -/
def Inhabited (index : Grouping G K) : Prop := ∀ g keys, index.get? g = some keys → keys.entries ≠ []

variable {index : Grouping G K} {g g' : G} {k k' : K}

theorem lists_of_get? {keys : SortedMap K Unit} (h : index.get? g = some keys) :
    index.Lists g k ↔ keys.contains k = true := by
  simp only [Lists, h, Option.some.injEq, exists_eq_left']

theorem not_lists_of_none (h : index.get? g = none) : ¬index.Lists g k := by
  rintro ⟨keys, hkeys, -⟩
  cases h.symm.trans hkeys

theorem lists_congr {index' : Grouping G K} (h : index'.get? g = index.get? g) :
    index'.Lists g k ↔ index.Lists g k := by
  rw [Lists, Lists, h]

theorem contains_erase {keys : SortedMap K Unit} :
    (keys.erase k).contains k' = true ↔ keys.contains k' = true ∧ k' ≠ k := by
  rw [SortedMap.contains_eq_true, SortedMap.contains_eq_true, SortedMap.get?_erase]
  by_cases h : k' = k
  · simp [h]
  · simp [h]

theorem contains_insert {keys : SortedMap K Unit} :
    (keys.insert k ()).contains k' = true ↔ k' = k ∨ keys.contains k' = true := by
  rw [SortedMap.contains_eq_true, SortedMap.contains_eq_true, SortedMap.get?_insert]
  by_cases h : k' = k
  · simp [h]
  · simp [h]

theorem contains_of_entries_nil {keys : SortedMap K Unit} (h : keys.entries = []) : ¬keys.contains k = true := by
  intro hk
  obtain ⟨u, hu⟩ := SortedMap.contains_eq_true.mp hk
  have := SortedMap.mem_entries.mpr hu
  rw [h] at this
  cases this

theorem lists_drop : (index.drop g k).Lists g' k' ↔ index.Lists g' k' ∧ ¬(g' = g ∧ k' = k) := by
  unfold drop
  cases hkeys : index.get? g with
  | none =>
    refine ⟨fun h => ⟨h, ?_⟩, And.left⟩
    rintro ⟨rfl, -⟩
    exact not_lists_of_none hkeys h
  | some keys =>
    by_cases hg : g' = g
    · subst hg
      rw [lists_of_get? hkeys]
      dsimp only
      split_ifs with hempty
      · have hnone : (index.erase g').get? g' = none := by rw [SortedMap.get?_erase, if_pos rfl]
        refine iff_of_false (not_lists_of_none hnone) fun h => ?_
        have := contains_erase.mpr ⟨h.1, fun heq => h.2 ⟨rfl, heq⟩⟩
        exact contains_of_entries_nil hempty this
      · rw [lists_of_get? (SortedMap.get?_insert_self ..), contains_erase]
        simp
    · have hsame : ∀ index' : Grouping G K, index' = index.erase g ∨ index' = index.insert g (keys.erase k) →
          (index'.Lists g' k' ↔ index.Lists g' k' ∧ ¬(g' = g ∧ k' = k)) := by
        rintro index' (rfl | rfl)
        · have hget : (index.erase g).get? g' = index.get? g' := by rw [SortedMap.get?_erase, if_neg hg]
          rw [lists_congr hget]
          simp [hg]
        · have hget : (index.insert g (keys.erase k)).get? g' = index.get? g' := SortedMap.get?_insert_ne _ _ hg
          rw [lists_congr hget]
          simp [hg]
      dsimp only
      split_ifs
      · exact hsame _ (.inl rfl)
      · exact hsame _ (.inr rfl)

theorem lists_add : (index.add g k).Lists g' k' ↔ (g' = g ∧ k' = k) ∨ index.Lists g' k' := by
  unfold add
  by_cases hg : g' = g
  · subst hg
    rw [lists_of_get? (SortedMap.get?_insert_self ..), contains_insert]
    cases hkeys : index.get? g' with
    | none => simp [not_lists_of_none hkeys, SortedMap.contains]
    | some keys => simp [lists_of_get? hkeys]
  · have hget : (index.insert g (((index.get? g).getD ∅).insert k ())).get? g' = index.get? g' :=
      SortedMap.get?_insert_ne _ _ hg
    rw [lists_congr hget]
    simp [hg]

theorem Inhabited.drop (h : index.Inhabited) : (index.drop g k).Inhabited := by
  intro g' keys' hget
  unfold Grouping.drop at hget
  cases hkeys : index.get? g with
  | none =>
    rw [hkeys] at hget
    exact h g' keys' hget
  | some keys =>
    rw [hkeys] at hget
    dsimp only at hget
    split_ifs at hget with hempty
    · rw [SortedMap.get?_erase] at hget
      split_ifs at hget
      exact h g' keys' hget
    · rcases SortedMap.get?_insert_eq_some.mp hget with ⟨-, rfl⟩ | ⟨-, hold⟩
      · exact hempty
      · exact h g' keys' hold

theorem Inhabited.add (h : index.Inhabited) : (index.add g k).Inhabited := by
  intro g' keys' hget
  rcases SortedMap.get?_insert_eq_some.mp hget with ⟨-, rfl⟩ | ⟨-, hold⟩
  · intro hempty
    exact contains_of_entries_nil hempty (contains_insert.mpr (.inl rfl))
  · exact h g' keys' hold

/-! ### An index that says what a map says -/

/-- A key is listed under a group when the map has it, in this group; no group is without keys. -/
structure Groups (index : Grouping G K) (group : K → V → G) (m : SortedMap K V) : Prop where
  lists : ∀ g k, index.Lists g k ↔ ∃ v, m.get? k = some v ∧ group k v = g
  inhabited : index.Inhabited

namespace Groups
variable {group : K → V → G} {m : SortedMap K V} {v : V}

theorem empty (group : K → V → G) : Groups ∅ group ∅ where
  lists g k := iff_of_false (not_lists_of_none rfl) (by rintro ⟨v, hv, -⟩; cases hv)
  inhabited g keys h := by cases h

theorem drop (h : Groups index group m) (hgroup : ∀ v, m.get? k = some v → group k v = g) :
    Groups (index.drop g k) group (m.erase k) where
  lists g' k' := by
    rw [lists_drop, h.lists, SortedMap.get?_erase]
    by_cases hk : k' = k
    · subst hk
      rw [if_pos rfl]
      refine iff_of_false ?_ (by rintro ⟨v, hv, -⟩; cases hv)
      rintro ⟨⟨v, hv, rfl⟩, hnot⟩
      exact hnot ⟨hgroup v hv, rfl⟩
    · simp [hk]
  inhabited := h.inhabited.drop

/-- A key that is not there is listed nowhere. -/
theorem erase_of_none (h : Groups index group m) (hnone : m.get? k = none) : Groups index group (m.erase k) where
  lists g' k' := by
    rw [h.lists, SortedMap.get?_erase]
    by_cases hk : k' = k
    · simp [hk, hnone]
    · simp [hk]
  inhabited := h.inhabited

theorem add (h : Groups index group m) (hnone : m.get? k = none) :
    Groups (index.add (group k v) k) group (m.insert k v) where
  lists g' k' := by
    rw [lists_add, h.lists, SortedMap.get?_insert]
    by_cases hk : k' = k
    · subst hk
      simp [hnone, eq_comm]
    · simp [hk]
  inhabited := h.inhabited.add

/-- The keys under distinct groups of the index are those of the map in these groups, each once. -/
theorem perm (h : Groups index group m) {rows : List (G × SortedMap K Unit)} (hdistinct : (rows.map Prod.fst).Nodup)
    (hrows : ∀ row ∈ rows, index.get? row.1 = some row.2) :
    (rows.flatMap fun row => row.2.keys).Perm
      ((m.entries.filter fun e => group e.1 e.2 ∈ rows.map Prod.fst).map Prod.fst) := by
  have hlisted : ∀ row ∈ rows, ∀ k ∈ row.2.keys, ∃ v, m.get? k = some v ∧ group k v = row.1 := by
    intro row hrow k hk
    refine (h.lists row.1 k).mp ⟨row.2, hrows row hrow, ?_⟩
    exact SortedMap.contains_eq_true.mpr (SortedMap.mem_keys.mp hk)
  refine (List.perm_ext_iff_of_nodup ?_ ?_).mpr fun k => ?_
  · refine List.nodup_flatMap.mpr ⟨fun row _ => row.2.keys_nodup, ?_⟩
    refine (List.pairwise_map.mp hdistinct).imp_of_mem fun {a b} ha hb hne k hka hkb => ?_
    obtain ⟨v, hv, hgroup⟩ := hlisted a ha k hka
    obtain ⟨v', hv', hgroup'⟩ := hlisted b hb k hkb
    cases hv.symm.trans hv'
    exact hne (hgroup.symm.trans hgroup')
  · exact m.keys_nodup.sublist (List.filter_sublist.map Prod.fst)
  · simp only [List.mem_flatMap, List.mem_map, List.mem_filter, decide_eq_true_eq, Prod.exists, exists_and_right,
      exists_eq_right]
    constructor
    · rintro ⟨g, keys, hrow, hk⟩
      obtain ⟨v, hv, hgroup⟩ := hlisted (g, keys) hrow k hk
      exact ⟨v, SortedMap.mem_entries.mpr hv, keys, hgroup ▸ hrow⟩
    · rintro ⟨v, hv, keys, hrow⟩
      obtain ⟨keys', hkeys', hmem⟩ := (h.lists _ k).mpr ⟨v, SortedMap.mem_entries.mp hv, rfl⟩
      cases (hrows _ hrow).symm.trans hkeys'
      exact ⟨_, keys, hrow, SortedMap.mem_keys.mpr (SortedMap.contains_eq_true.mp hmem)⟩

theorem perm_keys (h : Groups index group m) : (index.entries.flatMap fun row => row.2.keys).Perm m.keys := by
  have hperm := h.perm index.keys_nodup fun row hrow => SortedMap.mem_entries.mp hrow
  have hall : m.entries.filter (fun e => group e.1 e.2 ∈ index.entries.map Prod.fst) = m.entries := by
    refine List.filter_eq_self.mpr fun e he => decide_eq_true ?_
    obtain ⟨keys, hkeys, -⟩ := (h.lists _ e.1).mpr ⟨e.2, SortedMap.mem_entries.mp he, rfl⟩
    exact SortedMap.mem_keys.mpr ⟨keys, hkeys⟩
  rwa [hall] at hperm

theorem countP_eq (h : Groups index group m) {rows : List (G × SortedMap K Unit)}
    (hdistinct : (rows.map Prod.fst).Nodup) (hrows : ∀ row ∈ rows, index.get? row.1 = some row.2) (p : K → Bool) :
    (rows.flatMap fun row => row.2.keys).countP p =
      m.entries.countP fun e => p e.1 && decide (group e.1 e.2 ∈ rows.map Prod.fst) := by
  rw [(h.perm hdistinct hrows).countP_eq, List.countP_map, List.countP_filter]
  rfl

end Groups

end Grouping
end CsMail.Library
