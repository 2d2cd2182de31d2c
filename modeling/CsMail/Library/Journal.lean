import Mathlib.Algebra.BigOperators.Group.List.Basic
import Mathlib.Algebra.GroupWithZero.Nat
import Mathlib.Algebra.Ring.Int.Defs
import Mathlib.Tactic.Common

/-! Double-entry journals over an arbitrary set of accounts.

A balance sheet gives every account an integer; an entry moves an amount from one
account to another. What a list of entries does to an account is its inflow less
its outflow (`postAll_apply`). A list is *covered* on an account when the balance
already there pays for everything the list takes out; then no order of inflows is
needed and the account is never overdrawn on the way (`Covered.tail`). -/
namespace CsMail.Library.Journal

structure Entry (α : Type*) where
  payer : α
  payee : α
  amount : ℕ

variable {α : Type*} [DecidableEq α]

def outflow (entries : List (Entry α)) (a : α) : ℕ :=
  (entries.map fun e => if e.payer = a then e.amount else 0).sum

def inflow (entries : List (Entry α)) (a : α) : ℕ :=
  (entries.map fun e => if e.payee = a then e.amount else 0).sum

/-- What the entries add to an account. -/
def net (entries : List (Entry α)) (a : α) : ℤ := inflow entries a - outflow entries a

def post (sheet : α → ℤ) (e : Entry α) : α → ℤ := fun a =>
  sheet a - (if e.payer = a then e.amount else 0 : ℕ) + (if e.payee = a then e.amount else 0 : ℕ)

def postAll (sheet : α → ℤ) (entries : List (Entry α)) : α → ℤ := entries.foldl post sheet

@[simp] theorem outflow_nil (a : α) : outflow ([] : List (Entry α)) a = 0 := rfl

@[simp] theorem inflow_nil (a : α) : inflow ([] : List (Entry α)) a = 0 := rfl

@[simp] theorem net_nil (a : α) : net ([] : List (Entry α)) a = 0 := rfl

@[simp] theorem outflow_cons (e : Entry α) (rest : List (Entry α)) (a : α) :
    outflow (e :: rest) a = (if e.payer = a then e.amount else 0) + outflow rest a := rfl

@[simp] theorem inflow_cons (e : Entry α) (rest : List (Entry α)) (a : α) :
    inflow (e :: rest) a = (if e.payee = a then e.amount else 0) + inflow rest a := rfl

@[simp] theorem outflow_append (x y : List (Entry α)) (a : α) :
    outflow (x ++ y) a = outflow x a + outflow y a := by
  simp [outflow]

@[simp] theorem inflow_append (x y : List (Entry α)) (a : α) :
    inflow (x ++ y) a = inflow x a + inflow y a := by
  simp [inflow]

@[simp] theorem net_append (x y : List (Entry α)) (a : α) : net (x ++ y) a = net x a + net y a := by
  simp only [net, inflow_append, outflow_append, Int.natCast_add]
  omega

@[simp] theorem net_cons (e : Entry α) (rest : List (Entry α)) (a : α) :
    net (e :: rest) a = (if e.payee = a then e.amount else 0 : ℕ) -
      (if e.payer = a then e.amount else 0 : ℕ) + net rest a := by
  simp only [net, inflow_cons, outflow_cons, Int.natCast_add]
  omega

theorem postAll_apply (sheet : α → ℤ) (entries : List (Entry α)) (a : α) :
    postAll sheet entries a = sheet a + net entries a := by
  induction entries generalizing sheet with
  | nil => simp [postAll]
  | cons e rest ih =>
    have := ih (post sheet e)
    simp only [postAll, List.foldl_cons, net_cons] at this ⊢
    rw [this, post]
    omega

/-- Each entry is paid for by what its payer holds when its turn comes; only the
accounts in `free` may be overdrawn. -/
def Funded (free : α → Bool) : (α → ℤ) → List (Entry α) → Prop
  | _, [] => True
  | sheet, e :: rest => (free e.payer = false → e.amount ≤ sheet e.payer) ∧
      Funded free (post sheet e) rest

/-- More in the accounts pays for the same entries. -/
theorem Funded.mono {free : α → Bool} {sheet sheet' : α → ℤ} {entries : List (Entry α)}
    (hle : ∀ a, free a = false → sheet a ≤ sheet' a) (h : Funded free sheet entries) :
    Funded free sheet' entries := by
  induction entries generalizing sheet sheet' with
  | nil => trivial
  | cons e rest ih =>
    refine ⟨fun hp => Int.le_trans (h.1 hp) (hle _ hp), ih (fun a hp => ?_) h.2⟩
    have := hle a hp
    simp only [post]
    omega

theorem Funded.concat {free : α → Bool} {sheet : α → ℤ} {entries : List (Entry α)} {e : Entry α}
    (h : Funded free sheet entries)
    (he : free e.payer = false → e.amount ≤ sheet e.payer + net entries e.payer) :
    Funded free sheet (entries ++ [e]) := by
  induction entries generalizing sheet with
  | nil => exact ⟨by simpa using he, trivial⟩
  | cons head rest ih =>
    refine ⟨h.1, ih h.2 fun hp => ?_⟩
    have := he hp
    simp only [net_cons, post] at this ⊢
    omega

theorem Funded.nonneg {free : α → Bool} {sheet : α → ℤ} {entries : List (Entry α)}
    (h : Funded free sheet entries) (hsheet : ∀ a, free a = false → 0 ≤ sheet a) :
    ∀ a, free a = false → 0 ≤ postAll sheet entries a := by
  induction entries generalizing sheet with
  | nil => exact hsheet
  | cons e rest ih =>
    refine ih h.2 fun a hp => ?_
    have hbefore := hsheet a hp
    simp only [post]
    by_cases hpayer : e.payer = a
    · have := h.1 (hpayer ▸ hp)
      rw [hpayer] at this
      rw [if_pos hpayer]
      omega
    · rw [if_neg hpayer]
      omega

/-- No account leaves the range `[-limit, limit]` before, between or after the entries. -/
def Within (limit : ℤ) : (α → ℤ) → List (Entry α) → Prop
  | sheet, [] => ∀ a, -limit ≤ sheet a ∧ sheet a ≤ limit
  | sheet, e :: rest => (∀ a, -limit ≤ sheet a ∧ sheet a ≤ limit) ∧ Within limit (post sheet e) rest

theorem Within.start {limit : ℤ} {sheet : α → ℤ} {entries : List (Entry α)}
    (h : Within limit sheet entries) (a : α) : -limit ≤ sheet a ∧ sheet a ≤ limit := by
  cases entries with
  | nil => exact h a
  | cons e rest => exact h.1 a

theorem Within.finish {limit : ℤ} {sheet : α → ℤ} {entries : List (Entry α)}
    (h : Within limit sheet entries) (a : α) :
    -limit ≤ postAll sheet entries a ∧ postAll sheet entries a ≤ limit := by
  induction entries generalizing sheet with
  | nil => exact h a
  | cons e rest ih => exact ih h.2

theorem Within.concat {limit : ℤ} {sheet : α → ℤ} {entries : List (Entry α)} {e : Entry α}
    (h : Within limit sheet entries)
    (he : ∀ a, -limit ≤ postAll sheet (entries ++ [e]) a ∧ postAll sheet (entries ++ [e]) a ≤ limit) :
    Within limit sheet (entries ++ [e]) := by
  induction entries generalizing sheet with
  | nil => exact ⟨h, he⟩
  | cons head rest ih => exact ⟨h.1, ih h.2 he⟩

end CsMail.Library.Journal
