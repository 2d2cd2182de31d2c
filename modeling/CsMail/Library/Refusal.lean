import Mathlib.Data.List.Forall2
import Mathlib.Tactic.Common

/-! Functions that refuse: a checked step either continues or stops with an error.

A handler is a chain of checks and computations in `Except`. The lemmas invert a
chain from its result: what every check found if it was accepted (`bind_eq_ok`),
and which check refused if it was not (`bind_eq_error`). -/
namespace CsMail.Library
universe u v
variable {ε ε' : Type v} {α β : Type u}

def refuseIf (c : Prop) [Decidable c] (e : ε) : Except ε PUnit :=
  if c then .error e else .ok ⟨⟩

def okOr (o : Option α) (e : ε) : Except ε α :=
  match o with
  | some a => .ok a
  | none => .error e

@[simp] theorem bind_eq_ok {x : Except ε α} {f : α → Except ε β} {b : β} :
    (x >>= f) = .ok b ↔ ∃ a, x = .ok a ∧ f a = .ok b := by
  cases x <;> simp [bind, Except.bind]

theorem bind_eq_error {x : Except ε α} {f : α → Except ε β} {e : ε} :
    (x >>= f) = .error e ↔ x = .error e ∨ ∃ a, x = .ok a ∧ f a = .error e := by
  cases x <;> simp [bind, Except.bind]

@[simp] theorem ok_bind (a : α) (f : α → Except ε β) : ((.ok a : Except ε α) >>= f) = f a := rfl

@[simp] theorem error_bind (e : ε) (f : α → Except ε β) :
    ((.error e : Except ε α) >>= f) = .error e := rfl

@[simp] theorem pure_eq_ok {a b : α} : (pure a : Except ε α) = .ok b ↔ a = b := by
  simp [pure, Except.pure]

@[simp] theorem pure_ne_error {a : α} {e : ε} : (pure a : Except ε α) ≠ .error e := by
  simp [pure, Except.pure]

@[simp] theorem refuseIf_eq_ok {c : Prop} [Decidable c] {e : ε} {u : PUnit} :
    refuseIf c e = .ok u ↔ ¬c := by
  unfold refuseIf
  split_ifs <;> simp [*]

@[simp] theorem refuseIf_eq_error {c : Prop} [Decidable c] {e e' : ε} :
    refuseIf c e = .error e' ↔ c ∧ e = e' := by
  unfold refuseIf
  split_ifs <;> simp [*]

@[simp] theorem okOr_eq_ok {o : Option α} {e : ε} {a : α} : okOr o e = .ok a ↔ o = some a := by
  cases o <;> simp [okOr]

@[simp] theorem okOr_eq_error {o : Option α} {e e' : ε} :
    okOr o e = .error e' ↔ o = none ∧ e = e' := by
  cases o <;> simp [okOr]

theorem map_eq_ok {α β : Type*} {x : Except ε α} {f : α → β} {b : β} :
    x.map f = .ok b ↔ ∃ a, x = .ok a ∧ f a = b := by
  cases x <;> simp [Except.map]

@[simp] theorem mapError_eq_ok {x : Except ε α} {f : ε → ε'} {a : α} :
    x.mapError f = .ok a ↔ x = .ok a := by
  cases x <;> simp [Except.mapError]

@[simp] theorem mapError_eq_error {x : Except ε α} {f : ε → ε'} {e : ε'} :
    x.mapError f = .error e ↔ ∃ e₀, x = .error e₀ ∧ f e₀ = e := by
  cases x <;> simp [Except.mapError]

/-- A loop of checks passes when every check does. -/
theorem forM_eq_ok {f : α → Except ε PUnit} {l : List α} :
    l.forM f = .ok ⟨⟩ ↔ ∀ a ∈ l, f a = .ok ⟨⟩ := by
  induction l with
  | nil => simp
  | cons a rest ih =>
    rw [show (a :: rest).forM f = (f a >>= fun _ => rest.forM f) from rfl, bind_eq_ok,
      List.forall_mem_cons, ← ih]
    exact ⟨fun ⟨⟨⟩, ha, hrest⟩ => ⟨ha, hrest⟩, fun ⟨ha, hrest⟩ => ⟨⟨⟩, ha, hrest⟩⟩

/-- A loop that computes a list has computed an item for every item, and no other. -/
theorem mem_of_mapM_eq_ok {f : α → Except ε β} {l : List α} {r : List β} (h : l.mapM f = .ok r) :
    (∀ a ∈ l, ∃ b ∈ r, f a = .ok b) ∧ ∀ b ∈ r, ∃ a ∈ l, f a = .ok b := by
  induction l generalizing r with
  | nil =>
    rw [List.mapM_nil, pure_eq_ok] at h
    subst h
    exact ⟨by simp, by simp⟩
  | cons a rest ih =>
    rw [List.mapM_cons] at h
    obtain ⟨b, hb, h⟩ := bind_eq_ok.mp h
    obtain ⟨bs, hbs, h⟩ := bind_eq_ok.mp h
    cases h
    obtain ⟨hleft, hright⟩ := ih hbs
    exact ⟨List.forall_mem_cons.mpr ⟨⟨b, List.mem_cons_self .., hb⟩,
        fun a' ha' => (hleft a' ha').imp fun _ hb' => ⟨List.mem_cons_of_mem b hb'.1, hb'.2⟩⟩,
      List.forall_mem_cons.mpr ⟨⟨a, List.mem_cons_self .., hb⟩,
        fun b' hb' => (hright b' hb').imp fun _ ha' => ⟨List.mem_cons_of_mem a ha'.1, ha'.2⟩⟩⟩

/-- A loop over computations whose results are known. -/
theorem mapM_eq_ok_map {f : α → Except ε β} {g : α → β} (hg : ∀ a b, f a = .ok b → b = g a) {l : List α}
    {r : List β} : l.mapM f = .ok r ↔ (∀ a ∈ l, f a = .ok (g a)) ∧ r = l.map g := by
  induction l generalizing r with
  | nil =>
    rw [List.mapM_nil, pure_eq_ok]
    simp [eq_comm]
  | cons a rest ih =>
    rw [List.mapM_cons, bind_eq_ok, List.forall_mem_cons, List.map_cons]
    constructor
    · rintro ⟨b, hb, h⟩
      obtain ⟨bs, hbs, h⟩ := bind_eq_ok.mp h
      obtain ⟨hrest, rfl⟩ := ih.mp hbs
      cases hg a b hb
      cases h
      exact ⟨⟨hb, hrest⟩, rfl⟩
    · rintro ⟨⟨ha, hrest⟩, rfl⟩
      exact ⟨g a, ha, bind_eq_ok.mpr ⟨rest.map g, ih.mpr ⟨hrest, rfl⟩, rfl⟩⟩

/-- A loop lists what it computes, in order. -/
theorem mapM_eq_ok_forall₂ {f : α → Except ε β} {l : List α} {r : List β} :
    l.mapM f = .ok r ↔ List.Forall₂ (fun a b => f a = .ok b) l r := by
  induction l generalizing r with
  | nil => rw [List.mapM_nil, pure_eq_ok, List.forall₂_nil_left_iff, eq_comm]
  | cons a rest ih =>
    rw [List.mapM_cons, List.forall₂_cons_left_iff]
    simp only [bind_eq_ok, pure_eq_ok, ih]
    constructor
    · rintro ⟨b, hb, bs, hbs, rfl⟩
      exact ⟨b, bs, hb, hbs, rfl⟩
    · rintro ⟨b, bs, hb, hbs, rfl⟩
      exact ⟨b, hb, bs, hbs, rfl⟩

/-- Lists related item by item agree on what related items agree on. -/
theorem map_eq_map_of_forall₂ {γ : Type*} {R : α → β → Prop} {u : α → γ} {v : β → γ}
    (huv : ∀ a b, R a b → v b = u a) {l : List α} {r : List β} (h : List.Forall₂ R l r) : r.map v = l.map u := by
  rw [eq_comm, ← List.forall₂_eq_eq_eq, List.forall₂_map_left_iff, List.forall₂_map_right_iff]
  exact h.imp fun a b hab => (huv a b hab).symm

theorem getElem?_of_mapM_eq_ok {f : α → Except ε β} {l : List α} {r : List β} (h : l.mapM f = .ok r) {i : ℕ}
    {b : β} (hb : r[i]? = some b) : ∃ a, l[i]? = some a ∧ f a = .ok b := by
  obtain ⟨hlength, hget⟩ := List.forall₂_iff_get.mp (mapM_eq_ok_forall₂.mp h)
  obtain ⟨hi, rfl⟩ := List.getElem?_eq_some_iff.mp hb
  have hl : i < l.length := hlength.symm ▸ hi
  exact ⟨l[i], List.getElem?_eq_getElem hl, hget i hl hi⟩

/-- A loop succeeds when every item does. -/
theorem mapM_succeeds {f : α → Except ε β} {l : List α} (h : ∀ a ∈ l, ∃ b, f a = .ok b) :
    ∃ r, l.mapM f = .ok r := by
  induction l with
  | nil => exact ⟨[], rfl⟩
  | cons a rest ih =>
    rw [List.forall_mem_cons] at h
    obtain ⟨b, hb⟩ := h.1
    obtain ⟨bs, hbs⟩ := ih h.2
    exact ⟨b :: bs, by rw [List.mapM_cons, hb, hbs]; rfl⟩

theorem foldlM_preserves {σ ι : Type u} {f : σ → ι → Except ε σ} {P : σ → Prop} {s s' : σ} {l : List ι}
    (hstep : ∀ s i s', P s → f s i = .ok s' → P s') (hstart : P s) (h : l.foldlM f s = .ok s') : P s' := by
  induction l generalizing s with
  | nil =>
    cases h
    exact hstart
  | cons i rest ih =>
    obtain ⟨next, hnext, hrest⟩ := bind_eq_ok.mp h
    exact ih (hstep s i next hstart hnext) hrest

/-- A loop keeps what each of its steps keeps, about the items done so far. -/
theorem foldlM_induction {σ ι : Type u} {f : σ → ι → Except ε σ} {P : List ι → σ → Prop}
    {s s' : σ} {l : List ι} (hstart : P [] s)
    (hstep : ∀ done i rest s s', done ++ i :: rest = l → P done s → f s i = .ok s' → P (done ++ [i]) s')
    (h : l.foldlM f s = .ok s') : P l s' := by
  suffices ∀ done rest s, done ++ rest = l → P done s → rest.foldlM f s = .ok s' → P l s' from
    this [] l s rfl hstart h
  intro done rest
  induction rest generalizing done with
  | nil =>
    intro s hsplit hdone hfold
    rw [List.append_nil] at hsplit
    cases hfold
    exact hsplit ▸ hdone
  | cons i rest ih =>
    intro s hsplit hdone hfold
    obtain ⟨next, hnext, hrest⟩ := bind_eq_ok.mp hfold
    refine ih (done ++ [i]) next ?_ (hstep done i rest s next hsplit hdone hnext) hrest
    rw [List.append_assoc]
    exact hsplit

/-- Where any two items can trade places, a loop that accepts its items accepts them in any
order, with the same result. -/
theorem foldlM_perm {σ ι : Type u} {f : σ → ι → Except ε σ} {C : ι → Prop}
    (hswap : ∀ a b s s', C a → C b → (f s a >>= (f · b)) = .ok s' → (f s b >>= (f · a)) = .ok s')
    {l l' : List ι} (hperm : l.Perm l') (hall : ∀ i ∈ l, C i) {s s' : σ}
    (h : l.foldlM f s = .ok s') : l'.foldlM f s = .ok s' := by
  induction hperm generalizing s with
  | nil => exact h
  | cons i _ ih =>
    obtain ⟨next, hnext, hrest⟩ := bind_eq_ok.mp h
    exact bind_eq_ok.mpr ⟨next, hnext, ih (fun j hj => hall j (List.mem_cons_of_mem i hj)) hrest⟩
  | swap a b rest =>
    obtain ⟨hb, ha, -⟩ := List.forall_mem_cons.mp hall |>.imp_right List.forall_mem_cons.mp
    obtain ⟨s₁, hs₁, h₁⟩ := bind_eq_ok.mp h
    obtain ⟨s₂, hs₂, hrest⟩ := bind_eq_ok.mp h₁
    obtain ⟨t, ht, hs₂⟩ := bind_eq_ok.mp (hswap b a s s₂ hb ha (bind_eq_ok.mpr ⟨s₁, hs₁, hs₂⟩))
    exact bind_eq_ok.mpr ⟨t, ht, bind_eq_ok.mpr ⟨s₂, hs₂, hrest⟩⟩
  | trans hfirst _ ih ih' =>
    exact ih' (fun i hi => hall i (hfirst.mem_iff.mpr hi)) (ih hall h)

/-- In a list without repetitions, an item is new when its turn comes. -/
theorem notMem_of_split {ι : Type u} {l done rest : List ι} {i : ι} (h : l.Nodup)
    (hsplit : done ++ i :: rest = l) : i ∉ done := by
  intro hin
  rw [← hsplit, List.nodup_append] at h
  exact h.2.2 i hin i (List.mem_cons_self ..) rfl

/-! ### What a chain can be refused for -/

/-- Every refusal of the computation is one of `P`. -/
def RefusesOnly (P : ε → Prop) (x : Except ε α) : Prop := ∀ e, x = .error e → P e

namespace RefusesOnly
variable {P : ε → Prop} {Q : ε' → Prop}

theorem ok (a : α) : RefusesOnly P (.ok a) := nofun

theorem error {e : ε} (h : P e) : RefusesOnly P (.error e : Except ε α) := by
  intro e' he
  cases he
  exact h

theorem cases {x : Except ε α} (h : RefusesOnly P x) :
    (∃ a, x = .ok a) ∨ ∃ e, x = .error e ∧ P e := by
  cases x with
  | ok a => exact .inl ⟨a, rfl⟩
  | error e => exact .inr ⟨e, rfl, h e rfl⟩

theorem mono {P' : ε → Prop} {x : Except ε α} (hx : RefusesOnly P x) (h : ∀ e, P e → P' e) :
    RefusesOnly P' x := fun e he => h e (hx e he)

theorem bind {x : Except ε α} {f : α → Except ε β} (hx : RefusesOnly P x)
    (hf : ∀ a, x = .ok a → RefusesOnly P (f a)) : RefusesOnly P (x >>= f) := by
  intro e he
  rcases bind_eq_error.mp he with he | ⟨a, ha, he⟩
  · exact hx e he
  · exact hf a ha e he

theorem refuseIf {c : Prop} [Decidable c] {e : ε} (h : c → P e) : RefusesOnly P (refuseIf c e) := by
  intro e' he
  obtain ⟨hc, rfl⟩ := refuseIf_eq_error.mp he
  exact h hc

theorem okOr {o : Option α} {e : ε} (h : o = none → P e) : RefusesOnly P (okOr o e) := by
  intro e' he
  obtain ⟨hnone, rfl⟩ := okOr_eq_error.mp he
  exact h hnone

theorem mapError {x : Except ε α} {f : ε → ε'} (h : ∀ e, x = .error e → Q (f e)) :
    RefusesOnly Q (x.mapError f) := by
  intro e' he
  obtain ⟨e, hx, rfl⟩ := mapError_eq_error.mp he
  exact h e hx

/-- A loop is refused only for what one of its steps is. -/
theorem foldlM {σ ι : Type u} {f : σ → ι → Except ε σ} {I : List ι → σ → Prop} {s : σ} {l : List ι}
    (hstart : I [] s)
    (hstep : ∀ done i rest s s', done ++ i :: rest = l → I done s → f s i = .ok s' → I (done ++ [i]) s')
    (hrefuse : ∀ done i rest s, done ++ i :: rest = l → I done s → RefusesOnly P (f s i)) :
    RefusesOnly P (l.foldlM f s) := by
  suffices ∀ done rest s, done ++ rest = l → I done s → RefusesOnly P (rest.foldlM f s) from
    this [] l s rfl hstart
  intro done rest
  induction rest generalizing done with
  | nil => exact fun s _ _ => ok s
  | cons i rest ih =>
    intro s hsplit hdone
    refine bind (hrefuse done i rest s hsplit hdone) fun next hnext => ?_
    refine ih (done ++ [i]) next ?_ (hstep done i rest s next hsplit hdone hnext)
    rw [List.append_assoc]
    exact hsplit

end RefusesOnly

end CsMail.Library
