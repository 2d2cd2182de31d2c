import Mathlib.Logic.Relation

/-! Connected components, kept as labels.

Items are presented in pairs, and an item that has been presented has a label. A pair is joined by
giving one label to both of its items and to every item that had the label of either (`Joins`).
While that label is a new one or one of the two, the labels tell the components apart and say what
is connected (`Components.join`). -/
namespace CsMail.Library

variable {K L : Type*}

/-- The labelled items are those of some pair, and two of them have one label just when a chain of
pairs connects them. -/
structure Components (label : K → Option L) (pair : K → K → Prop) : Prop where
  labelled : ∀ k, (∃ l, label k = some l) ↔ ∃ k', pair k k' ∨ pair k' k
  agrees : ∀ k k', pair k k' → label k = label k'
  connected : ∀ k k' l, label k = some l → label k' = some l → Relation.EqvGen pair k k'

/-- An item is one of the two, or has the label of one. -/
def Involved (label : K → Option L) (a b k : K) : Prop :=
  k = a ∨ k = b ∨ ∃ l, label k = some l ∧ (label a = some l ∨ label b = some l)

/-- One label is given to all that is involved; before, it was on nothing else. -/
structure Joins (label label' : K → Option L) (a b : K) (l : L) : Prop where
  involved : ∀ k, Involved label a b k → label' k = some l
  others : ∀ k, ¬Involved label a b k → label' k = label k
  free : ∀ k, label k = some l → Involved label a b k

namespace Components
variable {label label' : K → Option L} {pair : K → K → Prop} {a b k k' : K} {l : L}

theorem empty : Components (fun _ : K => (none : Option L)) fun _ _ => False where
  labelled k := by simp
  agrees k k' h := h.elim
  connected k k' l h := by cases h

theorem congr {pair' : K → K → Prop} (h : Components label pair) (hpair : ∀ k k', pair k k' ↔ pair' k k') :
    Components label pair' := by
  have heq : pair = pair' := by
    funext k k'
    exact propext (hpair k k')
  exact heq ▸ h

theorem eq_of_connected (h : Components label pair) (hk : Relation.EqvGen pair k k') : label k = label k' := by
  induction hk with
  | rel x y hxy => exact h.agrees x y hxy
  | refl x => rfl
  | symm x y _ ih => exact ih.symm
  | trans x y z _ _ ih ih' => exact ih.trans ih'

/-- Whatever is labelled has one label with another item just when pairs connect the two. -/
theorem eq_iff_connected (h : Components label pair) (hk : ∃ l, label k = some l) :
    label k = label k' ↔ Relation.EqvGen pair k k' := by
  obtain ⟨l, hl⟩ := hk
  exact ⟨fun heq => h.connected k k' l hl (heq ▸ hl), h.eq_of_connected⟩

theorem involved_of_eq (h : Involved label a b k) (heq : label k = label k') (hl : ∃ l, label k = some l) :
    Involved label a b k' := by
  obtain ⟨l, hl⟩ := hl
  rcases h with rfl | rfl | ⟨l', hl', hlabel⟩
  · exact .inr (.inr ⟨l, heq ▸ hl, .inl hl⟩)
  · exact .inr (.inr ⟨l, heq ▸ hl, .inr hl⟩)
  · exact .inr (.inr ⟨l', heq ▸ hl', hlabel⟩)

theorem join (h : Components label pair) (hjoins : Joins label label' a b l) :
    Components label' fun x y => pair x y ∨ (x = a ∧ y = b) := by
  have hmono : ∀ {x y}, Relation.EqvGen pair x y → Relation.EqvGen (fun x y => pair x y ∨ (x = a ∧ y = b)) x y :=
    fun hxy => Relation.EqvGen.mono (fun _ _ => .inl) _ _ hxy
  have hab : Relation.EqvGen (fun x y => pair x y ∨ (x = a ∧ y = b)) b a := .symm _ _ (.rel _ _ (.inr ⟨rfl, rfl⟩))
  -- whatever is involved is connected to the first of the two
  have hclass : ∀ {k}, Involved label a b k → Relation.EqvGen (fun x y => pair x y ∨ (x = a ∧ y = b)) k a := by
    rintro k (rfl | rfl | ⟨l', hl', ha | hb⟩)
    · exact .refl _
    · exact hab
    · exact hmono (h.connected k a l' hl' ha)
    · exact .trans _ _ _ (hmono (h.connected k b l' hl' hb)) hab
  constructor
  · intro k
    by_cases hk : Involved label a b k
    · refine iff_of_true ⟨l, hjoins.involved k hk⟩ ?_
      rcases hk with rfl | rfl | ⟨l', hl', -⟩
      · exact ⟨b, .inl (.inr ⟨rfl, rfl⟩)⟩
      · exact ⟨a, .inr (.inr ⟨rfl, rfl⟩)⟩
      · obtain ⟨k', hk'⟩ := (h.labelled k).mp ⟨l', hl'⟩
        exact ⟨k', hk'.imp .inl .inl⟩
    · rw [hjoins.others k hk, h.labelled k]
      refine exists_congr fun k' => ?_
      have hne : ¬(k = a ∧ k' = b) := fun hboth => hk (.inl hboth.1)
      have hne' : ¬(k' = a ∧ k = b) := fun hboth => hk (.inr (.inl hboth.2))
      simp only [hne, hne', or_false]
  · rintro x y (hxy | ⟨rfl, rfl⟩)
    · have heq := h.agrees x y hxy
      have hl : ∃ l, label x = some l := (h.labelled x).mpr ⟨y, .inl hxy⟩
      by_cases hx : Involved label a b x
      · rw [hjoins.involved x hx, hjoins.involved y (involved_of_eq hx heq hl)]
      · have hy : ¬Involved label a b y := fun hy => hx (involved_of_eq hy heq.symm (heq ▸ hl))
        rw [hjoins.others x hx, hjoins.others y hy, heq]
    · rw [hjoins.involved x (.inl rfl), hjoins.involved y (.inr (.inl rfl))]
  · intro k k' l' hk hk'
    by_cases hki : Involved label a b k
    · have hk'i : Involved label a b k' := by
        refine Classical.byContradiction fun hnot => ?_
        rw [hjoins.involved k hki] at hk
        rw [hjoins.others k' hnot, ← hk] at hk'
        exact hnot (hjoins.free k' hk')
      exact .trans _ _ _ (hclass hki) (.symm _ _ (hclass hk'i))
    · have hk'i : ¬Involved label a b k' := by
        intro hyes
        rw [hjoins.involved k' hyes] at hk'
        rw [hjoins.others k hki, ← hk'] at hk
        exact hki (hjoins.free k hk)
      rw [hjoins.others k hki] at hk
      rw [hjoins.others k' hk'i] at hk'
      exact hmono (h.connected k k' l' hk hk')

end Components
end CsMail.Library
