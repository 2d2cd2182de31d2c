import Mathlib.Data.Set.Card
import Mathlib.Tactic.Common

/-! Walking a graph with a list of nodes still to visit.

A walk takes a node off its pending list, leaves it if it has been visited, and otherwise
visits it: the visit fails, or observes something and names the nodes to go on to. The walk
gives up when it would visit more nodes than its limit.

`walk` takes the last node put on the list; `Walks` takes any of them. Whatever the order,
a walk succeeds if and only if every node within reach can be visited and they are within
the limit, and then it has visited exactly these (`Walks.succeeds_iff`, `Walks.sound`). -/
namespace CsMail.Library.Worklist
variable {α β σ ε : Type*}

/-- The nodes within reach of the starting ones. -/
inductive Reached (edges : α → List α) (start : List α) : α → Prop
  | start {a : α} (h : a ∈ start) : Reached edges start a
  | edge {a a' : α} (h : Reached edges start a) (h' : a' ∈ edges a) : Reached edges start a'

section
variable (limit : ℕ) (full : ε) (visit : α → Except ε (β × List α)) (note : σ → β → σ)

/-- What it visits and what it has noted of it, most recent first. -/
def walk [DecidableEq α] (visited : List α) (noted : σ) (pending : List α) : Except ε (List α × σ) :=
  match pending with
  | [] => .ok (visited, noted)
  | a :: rest =>
    if a ∈ visited then walk visited noted rest
    else if limit < (a :: visited).length then .error full
    else match visit a with
      | .error e => .error e
      | .ok (b, next) => walk (a :: visited) (note noted b) (next.reverse ++ rest)
termination_by (limit - visited.length, pending.length)
decreasing_by
  · exact Prod.Lex.right _ (by simp)
  · refine Prod.Lex.left _ _ ?_
    simp only [List.length_cons] at *
    omega

/-- A walk that may take any pending node next. -/
inductive Walks : List α → σ → List α → Except ε (List α × σ) → Prop
  | done {visited noted} : Walks visited noted [] (.ok (visited, noted))
  | seen {visited noted pending a rest result} (hpick : pending.Perm (a :: rest)) (hseen : a ∈ visited)
      (hrest : Walks visited noted rest result) : Walks visited noted pending result
  | full {visited noted pending a rest} (hpick : pending.Perm (a :: rest)) (hnew : a ∉ visited)
      (hfull : limit < (a :: visited).length) : Walks visited noted pending (.error full)
  | refused {visited noted pending a rest e} (hpick : pending.Perm (a :: rest)) (hnew : a ∉ visited)
      (hrefused : visit a = .error e) : Walks visited noted pending (.error e)
  | visits {visited noted pending a rest b next result} (hpick : pending.Perm (a :: rest))
      (hnew : a ∉ visited) (hroom : (a :: visited).length ≤ limit) (hvisit : visit a = .ok (b, next))
      (hrest : Walks (a :: visited) (note noted b) (next ++ rest) result) :
      Walks visited noted pending result

/-- What is noted of some nodes, the earliest last in the list. -/
def notes (s₀ : σ) (visited : List α) : σ :=
  visited.foldr (fun a noted => match visit a with
    | .ok (b, _) => note noted b
    | .error _ => noted) s₀

/-- The visited nodes are within reach, and what is within reach of them is visited or
still pending. -/
structure Sound (edges : α → List α) (start : List α) (s₀ : σ) (visited : List α) (noted : σ)
    (pending : List α) : Prop where
  distinct : visited.Nodup
  short : visited.length ≤ limit
  passed : ∀ a ∈ visited, ∃ b, visit a = .ok (b, edges a)
  reached : ∀ a, a ∈ visited ∨ a ∈ pending → Reached edges start a
  started : ∀ a ∈ start, a ∈ visited ∨ a ∈ pending
  closed : ∀ a ∈ visited, ∀ a' ∈ edges a, a' ∈ visited ∨ a' ∈ pending
  noted : noted = notes visit note s₀ visited

/-- Every node within reach can be visited, and they are within the limit. -/
def Admissible (edges : α → List α) (start : List α) : Prop :=
  (∀ a, Reached edges start a → ∃ b next, visit a = .ok (b, next)) ∧
    Set.encard {a | Reached edges start a} ≤ limit

end

section
variable {limit : ℕ} {full : ε} {visit : α → Except ε (β × List α)} {note : σ → β → σ}
  {visited pending start : List α} {noted s₀ : σ} {result : Except ε (List α × σ)} {edges : α → List α}

theorem Walks.perm {pending' : List α} (h : Walks limit full visit note visited noted pending result)
    (hperm : pending'.Perm pending) : Walks limit full visit note visited noted pending' result := by
  cases h with
  | done =>
    rw [List.perm_nil.mp hperm]
    exact .done
  | seen hpick hseen hrest => exact .seen (hperm.trans hpick) hseen hrest
  | full hpick hnew hfull => exact .full (hperm.trans hpick) hnew hfull
  | refused hpick hnew hrefused => exact .refused (hperm.trans hpick) hnew hrefused
  | visits hpick hnew hroom hvisit hrest => exact .visits (hperm.trans hpick) hnew hroom hvisit hrest

/-- The last node put on the list is one that may be taken. -/
theorem walks_walk [DecidableEq α] (visited : List α) (noted : σ) (pending : List α) :
    Walks limit full visit note visited noted pending (walk limit full visit note visited noted pending) := by
  induction visited, noted, pending using walk.induct limit visit note with
  | case1 visited noted =>
    rw [walk]
    exact .done
  | case2 visited noted a rest hseen ih =>
    rw [walk, if_pos hseen]
    exact .seen (.refl _) hseen ih
  | case3 visited noted a rest hnew hfull =>
    rw [walk, if_neg hnew, if_pos hfull]
    exact .full (.refl _) hnew hfull
  | case4 visited noted a rest hnew hroom e hrefused =>
    rw [walk, if_neg hnew, if_neg hroom, hrefused]
    exact .refused (.refl _) hnew hrefused
  | case5 visited noted a rest hnew hroom b next hvisit ih =>
    rw [walk, if_neg hnew, if_neg hroom, hvisit]
    exact .visits (.refl _) hnew (not_lt.mp hroom) hvisit (ih.perm ((List.reverse_perm next).symm.append_right rest))

theorem Sound.initial (start : List α) (s₀ : σ) : Sound limit visit note edges start s₀ [] s₀ start where
  distinct := List.nodup_nil
  short := Nat.zero_le limit
  passed := by simp
  reached a ha := .start (ha.resolve_left List.not_mem_nil)
  started _ ha := .inr ha
  closed := by simp
  noted := rfl

theorem Sound.seen {a : α} {rest : List α} (h : Sound limit visit note edges start s₀ visited noted pending)
    (hpick : pending.Perm (a :: rest)) (hseen : a ∈ visited) :
    Sound limit visit note edges start s₀ visited noted rest := by
  have hsplit : ∀ a', a' ∈ visited ∨ a' ∈ pending → a' ∈ visited ∨ a' ∈ rest := by
    rintro a' (hvisited | hpending)
    · exact .inl hvisited
    · rcases List.mem_cons.mp (hpick.mem_iff.mp hpending) with rfl | hrest
      · exact .inl hseen
      · exact .inr hrest
  exact {h with
    reached := fun a' ha' => h.reached a' (ha'.imp_right fun hrest => hpick.mem_iff.mpr (List.mem_cons_of_mem a hrest))
    started := fun a' ha' => hsplit a' (h.started a' ha')
    closed := fun b hb a' ha' => hsplit a' (h.closed b hb a' ha')}

theorem Sound.visits {a : α} {rest : List α} {b : β}
    (h : Sound limit visit note edges start s₀ visited noted pending)
    (hpick : pending.Perm (a :: rest)) (hnew : a ∉ visited) (hroom : (a :: visited).length ≤ limit)
    (hvisit : visit a = .ok (b, edges a)) :
    Sound limit visit note edges start s₀ (a :: visited) (note noted b) (edges a ++ rest) := by
  have hreached : Reached edges start a := h.reached a (.inr (hpick.mem_iff.mpr (List.mem_cons_self ..)))
  have hsplit : ∀ a', a' ∈ visited ∨ a' ∈ pending → a' ∈ a :: visited ∨ a' ∈ edges a ++ rest := by
    rintro a' (hvisited | hpending)
    · exact .inl (List.mem_cons_of_mem a hvisited)
    · rcases List.mem_cons.mp (hpick.mem_iff.mp hpending) with rfl | hrest
      · exact .inl (List.mem_cons_self ..)
      · exact .inr (List.mem_append_right _ hrest)
  constructor
  case distinct => exact List.nodup_cons.mpr ⟨hnew, h.distinct⟩
  case short => exact hroom
  case passed => exact List.forall_mem_cons.mpr ⟨⟨b, hvisit⟩, h.passed⟩
  case reached =>
    rintro a' (hvisited | hpending)
    · rcases List.mem_cons.mp hvisited with rfl | hvisited
      · exact hreached
      · exact h.reached a' (.inl hvisited)
    · rcases List.mem_append.mp hpending with hedge | hrest
      · exact .edge hreached hedge
      · exact h.reached a' (.inr (hpick.mem_iff.mpr (List.mem_cons_of_mem a hrest)))
  case started => exact fun a' ha' => hsplit a' (h.started a' ha')
  case closed =>
    refine List.forall_mem_cons.mpr ⟨fun a' ha' => .inr (List.mem_append_left rest ha'), fun c hc a' ha' => ?_⟩
    exact hsplit a' (h.closed c hc a' ha')
  case noted =>
    rw [h.noted, notes, notes, List.foldr_cons, hvisit]

/-- When nothing is pending, everything within reach has been visited. -/
theorem Sound.visited_iff (h : Sound limit visit note edges start s₀ visited noted []) (a : α) :
    a ∈ visited ↔ Reached edges start a := by
  constructor
  · exact fun ha => h.reached a (.inl ha)
  · intro ha
    induction ha with
    | start ha => exact (h.started _ ha).resolve_right List.not_mem_nil
    | edge _ hedge ih => exact (h.closed _ ih _ hedge).resolve_right List.not_mem_nil

theorem encard_of_nodup (h : visited.Nodup) : Set.encard {a | a ∈ visited} = visited.length := by
  classical
  rw [show {a | a ∈ visited} = ((visited.toFinset : Finset α) : Set α) by ext; simp,
    Set.encard_coe_eq_coe_finsetCard, List.toFinset_card_of_nodup h]

theorem Sound.admissible (h : Sound limit visit note edges start s₀ visited noted []) :
    Admissible limit visit edges start := by
  refine ⟨fun a ha => ?_, ?_⟩
  · obtain ⟨b, hvisit⟩ := h.passed a ((h.visited_iff a).mpr ha)
    exact ⟨b, edges a, hvisit⟩
  · rw [show {a | Reached edges start a} = {a | a ∈ visited} by ext a; exact (h.visited_iff a).symm,
      encard_of_nodup h.distinct]
    exact_mod_cast h.short

/-- Every way on from a sound state ends in a sound one, or what is within reach is not
admissible. -/
theorem Walks.outcome (hedges : ∀ a b next, visit a = .ok (b, next) → next = edges a)
    (h : Walks limit full visit note visited noted pending result)
    (hsound : Sound limit visit note edges start s₀ visited noted pending) :
    (∃ visited' noted', result = .ok (visited', noted') ∧
        Sound limit visit note edges start s₀ visited' noted' []) ∨
      (∃ e, result = .error e) ∧ ¬Admissible limit visit edges start := by
  induction h with
  | done => exact .inl ⟨_, _, rfl, hsound⟩
  | seen hpick hseen _ ih => exact ih (hsound.seen hpick hseen)
  | @full visited noted pending a rest hpick hnew hfull =>
    refine .inr ⟨⟨_, rfl⟩, fun hadmissible => ?_⟩
    have hpicked : a ∈ pending := hpick.mem_iff.mpr (List.mem_cons_self ..)
    have hsubset : {a' | a' ∈ a :: visited} ⊆ {a' | Reached edges start a'} := fun a' ha' => by
      rcases List.mem_cons.mp ha' with rfl | hvisited
      · exact hsound.reached a' (.inr hpicked)
      · exact hsound.reached a' (.inl hvisited)
    have hcount := (Set.encard_le_encard hsubset).trans hadmissible.2
    rw [encard_of_nodup (List.nodup_cons.mpr ⟨hnew, hsound.distinct⟩)] at hcount
    exact absurd (by exact_mod_cast hcount) (not_le.mpr hfull)
  | @refused visited noted pending a rest e hpick hnew hrefused =>
    refine .inr ⟨⟨_, rfl⟩, fun hadmissible => ?_⟩
    obtain ⟨b, next, hvisit⟩ := hadmissible.1 a (hsound.reached a (.inr (hpick.mem_iff.mpr (List.mem_cons_self ..))))
    exact absurd (hvisit.symm.trans hrefused) (by simp)
  | visits hpick hnew hroom hvisit _ ih =>
    cases hedges _ _ _ hvisit
    exact ih (hsound.visits hpick hnew hroom hvisit)

/-- **When a walk succeeds.** In any order, exactly on what is admissible. -/
theorem Walks.succeeds_iff (hedges : ∀ a b next, visit a = .ok (b, next) → next = edges a)
    (h : Walks limit full visit note [] s₀ start result) :
    (∃ done, result = .ok done) ↔ Admissible limit visit edges start := by
  rcases h.outcome hedges (.initial start s₀) with ⟨visited, noted, rfl, hsound⟩ | ⟨⟨e, rfl⟩, hnot⟩
  · exact iff_of_true ⟨_, rfl⟩ hsound.admissible
  · exact iff_of_false (by simp) hnot

/-- **What a walk visits.** In any order, exactly what is within reach (`Sound.visited_iff`). -/
theorem Walks.sound (hedges : ∀ a b next, visit a = .ok (b, next) → next = edges a)
    (h : Walks limit full visit note [] s₀ start (.ok (visited, noted))) :
    Sound limit visit note edges start s₀ visited noted [] := by
  rcases h.outcome hedges (.initial start s₀) with ⟨_, _, hsame, hsound⟩ | ⟨⟨e, hsame⟩, -⟩
  · cases hsame
    exact hsound
  · cases hsame

end
end CsMail.Library.Worklist
