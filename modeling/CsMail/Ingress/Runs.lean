import CsMail.Ingress.Receipts

/-! What a run of the inbox comes to.

Runs are serial: the database is what the settled commands and the changes elsewhere leave, each having
happened once and, where they are of one owner, in the order they arrived in (`Serial`). -/
namespace CsMail.Ingress
open Library

section Runs
variable {W : Type} (H : Handlers W) [Crypto]

structure Sound (l : Log W) : Prop where
  ordered : Ordered l
  receipted : Receipted H l

variable {H}

theorem Sound.start (world : W) : Sound H (Log.start world) := ⟨.start world, .start world⟩

theorem Sound.step {l l' : Log W} {c : Call W} (h : Sound H l) (hcall : call H l c = .ok l') : Sound H l' :=
  have hmoved := call_moved hcall
  ⟨h.ordered.moved h.receipted.attests hmoved, h.receipted.moved h.ordered hmoved⟩

theorem Sound.run {l : Log W} (h : Sound H l) (calls : List (Call W)) :
    Sound H (Machine.run (call H) l calls) :=
  Machine.run_preserves (P := Sound H) (fun _ _ _ h hcall => h.step hcall) h calls

/-- Whatever happens, the commands of one owner are settled in the order of their receipt, and the times
they were received at agree with that order. -/
theorem received_in_order (world : W) (calls : List (Call W)) :
    Ordered (Machine.run (call H) (Log.start world) calls) := ((Sound.start world).run calls).ordered

/-! ### Effects -/

/-- Whose commands a change does not overtake. -/
inductive Fence
  | everybody
  | owners (scopes : List Text)

def Fence.holds (r : Received) : Fence → Bool
  | everybody => true
  | owners scopes => r.shares scopes

/-- What a transaction does to the database. -/
inductive Effect (W : Type)
  | applied (position : BigInt) (r : Received)
  | changed (arrival : ℕ) (fence : Fence) (change : Database W → Except StorageError (Database W))

namespace Effect

/-- When it came, in the numbering of the journal. -/
def arrival : Effect W → ℕ
  | applied position _ => position.val
  | changed arrival _ _ => arrival

def position : Effect W → Option BigInt
  | applied position _ => some position
  | changed .. => none

/-- They are of a common owner; changes elsewhere are kept in their order. -/
def meets : Effect W → Effect W → Bool
  | applied _ r, applied _ s => r.shares s.scopes
  | applied _ r, changed _ fence _ | changed _ fence _, applied _ r => fence.holds r
  | changed .., changed .. => true

def act (H : Handlers W) (d : Database W) : Effect W → Except StorageError (Database W)
  | applied position r => (processRow H d position r).map Prod.fst
  | changed _ _ change => change d

end Effect

/-- A change of what is not the inbox's own. -/
def Database.onRest (change : W → Except StorageError W) (d : Database W) :
    Except StorageError (Database W) := do
  let rest ← change d.rest
  .ok {d with rest}

def Gate.fence (l : Log W) : Gate → Fence
  | everything => .everybody
  | relationship key =>
    match orderingScopes H l.world key with
    | .ok scopes => .owners scopes
    | .error _ => .owners []
  | personas ids => .owners (personaScopes H l.world ids)

/-- A change that no gate holds back. -/
def Log.free (l : Log W) (change : W → Except StorageError W) : List (Effect W) :=
  [.changed l.nextPosition (.owners []) (Database.onRest change)]

/-- The effects of a transaction that commits. -/
def effects (H : Handlers W) (l : Log W) : Call W → List (Effect W)
  | .receive s =>
    match l.find s.aggregate s.replay.id with
    | some _ => []
    | none => l.free fun world => (s.verify world s.aggregate s.now s.policy).map Prod.fst
  | .processNext => (settles H l .processNext).toList.map fun e => .applied e.1 e.2
  | .sign .. => []
  | .store index =>
    match l.artifacts[index]? with
    | some a => l.free fun world => .ok (a.quote.elim world (H.recordQuote world a.aggregate))
    | none => []
  | .retire aggregate position =>
    if H.workOpen l.world aggregate position = true ∨ l.providerReceipt aggregate position = none then []
    else l.free fun world => .ok (H.forget world aggregate position)
  | .resume _ _ audit => l.free audit
  | .configureIngress key _ _ initialAdmission =>
    [.changed l.nextPosition (.owners []) fun d => .ok {d with
      admissionPolicies := if d.admissionPolicies.contains key then d.admissionPolicies
        else d.admissionPolicies.insert key initialAdmission}]
  | .configureAdmissionPolicy key policy =>
    if l.database.admissionPolicies.get? key = some policy then []
    else [.changed l.nextPosition ((Gate.relationship key).fence (H := H) l) fun d =>
      .ok {d with admissionPolicies := d.admissionPolicies.insert key policy}]
  | .gated gate change => [.changed l.nextPosition (gate.fence (H := H) l) (Database.onRest change)]
  | .elsewhere change => l.free change
  | .draw => []

/-- The effects of a run, in the order they happened in. -/
def trace (H : Handlers W) : Log W → List (Call W) → List (Effect W) :=
  Machine.emitted (call H) (effects H)

/-! ### One transaction -/

theorem Log.act_free (l : Log W) (change : W → Except StorageError W) {world : W}
    (h : change l.world = .ok world) :
    (l.free change).foldlM (Effect.act H) l.database = .ok (l.withWorld world).database := by
  have hchange : change l.database.rest = .ok world := h
  simp [Log.free, Effect.act, Database.onRest, hchange, Log.withWorld]

/-- What is received again has no effect, and a new command that of its verification. -/
theorem received_database {l l' : Log W} {s : Submission W} (h : call H l (.receive s) = .ok l') :
    (effects H l (.receive s)).foldlM (Effect.act H) l.database = .ok l'.database := by
  obtain ⟨⟨_, handle⟩, hreceive, rfl⟩ := map_eq_ok.mp h
  simp only [Log.receive, bind_eq_ok] at hreceive
  obtain ⟨_, _, hreceive⟩ := hreceive
  dsimp only [effects]
  cases hfind : l.find s.aggregate s.replay.id with
  | some e =>
    rw [hfind] at hreceive
    simp only [bind_eq_ok] at hreceive
    obtain ⟨_, _, hreceive⟩ := hreceive
    cases hreceive
    rfl
  | none =>
    rw [hfind] at hreceive
    simp only [bind_eq_ok] at hreceive
    obtain ⟨_, _, _, _, ⟨world, id, digest, operation⟩, hverify, ⟨_, position⟩, hrecord, hreceive⟩ := hreceive
    cases hreceive
    simp only [Log.record, bind_eq_ok] at hrecord
    obtain ⟨_, _, _, _, _, _, _, _, _, _, hrecord⟩ := hrecord
    cases hrecord
    exact l.act_free _ (map_eq_ok.mpr ⟨_, hverify, rfl⟩)

/-- A row that is processed is applied; a failure is marked outside the database. -/
theorem processed_database {l l' : Log W} (h : call H l .processNext = .ok l') :
    (effects H l .processNext).foldlM (Effect.act H) l.database = .ok l'.database := by
  cases h
  simp only [effects, settles, Log.processNext]
  cases hnext : l.nextEligible with
  | none => rfl
  | some e =>
    obtain ⟨p, r⟩ := e
    dsimp only
    cases hresult : processRow H l.database p r with
    | ok result =>
      rw [Option.filter_some_pos (by rw [hresult]; rfl)]
      simp [Effect.act, hresult, Except.map]
    | error error =>
      rw [Option.filter_some_neg (by rw [hresult]; rfl)]
      dsimp only [Log.recordFault]
      cases Checked.succ r.failedAttempts <;> rfl

theorem retired_database {l l' : Log W} {aggregate : Text} {position : BigInt}
    (h : call H l (.retire aggregate position) = .ok l') :
    (effects H l (.retire aggregate position)).foldlM (Effect.act H) l.database = .ok l'.database := by
  obtain ⟨⟨_, done⟩, hretire, rfl⟩ := map_eq_ok.mp h
  simp only [Log.retire] at hretire
  simp only [effects]
  split_ifs at hretire with hopen
  · cases hretire
    rw [if_pos (.inl hopen)]
    rfl
  · cases hreceipt : l.providerReceipt aggregate position with
    | none =>
      rw [hreceipt] at hretire
      cases hretire
      rw [if_pos (.inr rfl)]
      rfl
    | some receipt =>
      rw [hreceipt] at hretire
      rw [if_neg (by simp [hopen])]
      dsimp only at hretire
      split at hretire
      · cases hretire
        exact l.act_free _ rfl
      · cases hretire
        exact l.act_free _ rfl

/-- The effects of a transaction are all it does to the database. -/
theorem effects_database {l l' : Log W} {c : Call W} (h : call H l c = .ok l') :
    (effects H l c).foldlM (Effect.act H) l.database = .ok l'.database := by
  cases c with
  | receive s => exact received_database h
  | processNext => exact processed_database h
  | sign aggregate position signer =>
    simp only [call, Log.sign] at h
    split_ifs at h
    · cases h
      rfl
    · simp only [bind_eq_ok] at h
      obtain ⟨_, _, _, _, _, _, _, _, _, _, _, _, _, _, _, _, _, _, h⟩ := h
      cases h
      rfl
  | store index =>
    simp only [call, Log.store, bind_eq_ok, okOr_eq_ok] at h
    obtain ⟨a, ha, h⟩ := h
    simp only [effects, ha]
    split_ifs at h
    · cases h
      exact l.act_free _ rfl
    · cases h
      exact l.act_free _ rfl
  | retire aggregate position => exact retired_database h
  | resume position digest audit =>
    obtain ⟨⟨_, changed⟩, hresume, rfl⟩ := map_eq_ok.mp h
    simp only [Log.resume, bind_eq_ok] at hresume
    obtain ⟨_, _, _, _, world, hworld, hresume⟩ := hresume
    split_ifs at hresume
    · cases hresume
      exact l.act_free _ hworld
    · cases hresume
      exact l.act_free _ hworld
  | configureIngress key deployment policy initialAdmission =>
    simp only [call, Log.configureIngress, bind_eq_ok] at h
    obtain ⟨_, _, _, _, h⟩ := h
    cases h
    rfl
  | configureAdmissionPolicy key policy =>
    simp only [call, Log.configureAdmissionPolicy] at h
    simp only [effects]
    split_ifs at h ⊢
    · cases h
      rfl
    · simp only [bind_eq_ok] at h
      obtain ⟨_, _, _, _, h⟩ := h
      cases h
      rfl
  | gated gate change =>
    simp only [call, bind_eq_ok] at h
    obtain ⟨_, _, world, hworld, h⟩ := h
    cases h
    exact l.act_free change hworld
  | elsewhere change =>
    simp only [call, bind_eq_ok] at h
    obtain ⟨world, hworld, h⟩ := h
    cases h
    exact l.act_free change hworld
  | draw =>
    cases h
    rfl

end Runs

/-! ### Serial runs -/

section Serial
variable {W : Type} {H : Handlers W}

/-! ### Gates -/

theorem Fence.holds_nobody (r : Received) : Fence.holds r (.owners []) = false := by
  simp [Fence.holds, Received.shares]

theorem Log.awaits_eq_false {l : Log W} {scopes : List Text} (h : ¬l.awaits scopes = true) {p : BigInt}
    {r : Received} (hr : l.rows.get? p = some r) (hpending : r.outcome = none) :
    Fence.holds r (.owners scopes) = false := by
  rw [Bool.not_eq_true, Log.awaits, List.any_eq_false] at h
  have hnot := h r (SortedMap.mem_values.mpr ⟨p, hr⟩)
  simpa [Received.pending, hpending, Fence.holds] using hnot

/-- A gate lets a change pass when no pending command is behind it. -/
theorem Gate.fence_of_pass {l : Log W} {gate : Gate} {u : Unit} (h : gate.pass H l = .ok u) {p : BigInt}
    {r : Received} (hr : l.rows.get? p = some r) (hpending : r.outcome = none) :
    (gate.fence (H := H) l).holds r = false := by
  cases gate with
  | everything =>
    simp only [Gate.pass, Log.requireDrained, refuseIf_eq_ok, Bool.not_eq_true, List.any_eq_false] at h
    have hnot := h r (SortedMap.mem_values.mpr ⟨p, hr⟩)
    simp [Received.pending, hpending] at hnot
  | relationship key =>
    simp only [Gate.pass, Log.requireRelationshipDrained, bind_eq_ok, refuseIf_eq_ok] at h
    obtain ⟨scopes, hscopes, hdrained⟩ := h
    simp only [Gate.fence, hscopes]
    exact Log.awaits_eq_false hdrained hr hpending
  | personas ids =>
    simp only [Gate.pass, Log.requirePersonasDrained, refuseIf_eq_ok] at h
    exact Log.awaits_eq_false h hr hpending

/-! ### One call -/

/-- A change that overtakes no command its fence holds. -/
def Passes (l : Log W) (e : Effect W) : Prop :=
  ∃ fence change, e = .changed l.nextPosition fence change ∧
    ∀ p r, l.rows.get? p = some r → r.outcome = none → fence.holds r = false

theorem Log.passes_free (l : Log W) (change : W → Except StorageError W) :
    ∀ e ∈ l.free change, Passes l e := by
  intro e he
  rw [Log.free, List.mem_singleton] at he
  exact ⟨_, _, he, fun _ r _ _ => Fence.holds_nobody r⟩

section
variable [Crypto]

/-- A transaction settles one command, or makes a change that its gate lets pass. -/
theorem effects_cases {l l' : Log W} {c : Call W} (h : call H l c = .ok l') :
    (∃ p r, settles H l c = some (p, r) ∧ effects H l c = [.applied p r]) ∨
      (settles H l c = none ∧ (effects H l c).length ≤ 1 ∧ ∀ e ∈ effects H l c, Passes l e) := by
  cases c with
  | processNext =>
    simp only [effects]
    cases hsettles : settles H l .processNext with
    | none => exact .inr ⟨rfl, Nat.zero_le _, List.forall_mem_nil _⟩
    | some e => exact .inl ⟨e.1, e.2, rfl, rfl⟩
  | receive s =>
    refine .inr ⟨rfl, ?_⟩
    dsimp only [effects]
    split
    · exact ⟨Nat.zero_le _, List.forall_mem_nil _⟩
    · exact ⟨le_rfl, l.passes_free _⟩
  | sign aggregate position signer => exact .inr ⟨rfl, Nat.zero_le _, List.forall_mem_nil _⟩
  | store index =>
    refine .inr ⟨rfl, ?_⟩
    dsimp only [effects]
    split
    · exact ⟨le_rfl, l.passes_free _⟩
    · exact ⟨Nat.zero_le _, List.forall_mem_nil _⟩
  | retire aggregate position =>
    refine .inr ⟨rfl, ?_⟩
    dsimp only [effects]
    split_ifs
    · exact ⟨Nat.zero_le _, List.forall_mem_nil _⟩
    · exact ⟨le_rfl, l.passes_free _⟩
  | resume position digest audit => exact .inr ⟨rfl, le_rfl, l.passes_free _⟩
  | configureIngress key deployment policy initialAdmission =>
    refine .inr ⟨rfl, le_rfl, fun e he => ?_⟩
    exact ⟨_, _, List.mem_singleton.mp he, fun _ r _ _ => Fence.holds_nobody r⟩
  | configureAdmissionPolicy key policy =>
    refine .inr ⟨rfl, ?_⟩
    simp only [call, Log.configureAdmissionPolicy] at h
    dsimp only [effects]
    split_ifs at h ⊢
    · exact ⟨Nat.zero_le _, List.forall_mem_nil _⟩
    · simp only [bind_eq_ok] at h
      obtain ⟨_, _, _, hgate, _⟩ := h
      refine ⟨le_rfl, fun e he => ⟨_, _, List.mem_singleton.mp he, fun p r hr hpending => ?_⟩⟩
      have hpass : (Gate.relationship key).pass H l = .ok ⟨⟩ := hgate
      exact Gate.fence_of_pass hpass hr hpending
  | gated gate change =>
    refine .inr ⟨rfl, le_rfl, fun e he => ⟨_, _, List.mem_singleton.mp he, fun p r hr hpending => ?_⟩⟩
    simp only [call, bind_eq_ok] at h
    obtain ⟨_, hgate, _⟩ := h
    exact Gate.fence_of_pass hgate hr hpending
  | elsewhere change => exact .inr ⟨rfl, le_rfl, l.passes_free change⟩
  | draw => exact .inr ⟨rfl, Nat.zero_le _, List.forall_mem_nil _⟩

end

/-- Rows stay, and a command that waits after a step is new or has waited before it. -/
structure Carried (l l' : Log W) (c : Option (BigInt × Received)) : Prop where
  next : l.nextPosition ≤ l'.nextPosition
  kept : ∀ p r, l.rows.get? p = some r → ∃ r', l'.rows.get? p = some r' ∧ r.SameCommand r' ∧
    (r.outcome ≠ none → r'.outcome ≠ none)
  waiting : ∀ p r', l'.rows.get? p = some r' → r'.outcome = none → p.val = l.nextPosition ∨
    ∃ r, l.rows.get? p = some r ∧ r.outcome = none ∧ r.SameCommand r'
  settled : ∀ p r', l'.rows.get? p = some r' → r'.outcome ≠ none →
    (∃ r, l.rows.get? p = some r ∧ r.outcome ≠ none) ∨ ∃ r, c = some (p, r)

/-- What an update of one row carries over. -/
theorem Carried.update {l l' : Log W} {c : Option (BigInt × Received)} {p : BigInt} {r r' : Received}
    (hrow : l.rows.get? p = some r) (hrows : l'.rows = l.rows.insert p r')
    (hnext : l.nextPosition ≤ l'.nextPosition) (hsame : r.SameCommand r')
    (hkept : r.outcome ≠ none → r'.outcome ≠ none)
    (hsettled : r'.outcome ≠ none → r.outcome ≠ none ∨ c = some (p, r)) : Carried l l' c := by
  constructor
  · exact hnext
  · intro q s hs
    rw [hrows, SortedMap.get?_insert]
    split_ifs with hq
    · subst hq
      rw [hrow] at hs
      cases hs
      exact ⟨r', rfl, hsame, hkept⟩
    · exact ⟨s, hs, .refl s, id⟩
  · intro q s hs hpending
    rw [hrows, SortedMap.get?_insert] at hs
    split_ifs at hs with hq
    · subst hq
      cases hs
      refine .inr ⟨r, hrow, ?_, hsame⟩
      by_contra hsome
      exact hkept hsome hpending
    · exact .inr ⟨s, hs, hpending, .refl s⟩
  · intro q s hs hsome
    rw [hrows, SortedMap.get?_insert] at hs
    split_ifs at hs with hq
    · subst hq
      cases hs
      rcases hsettled hsome with hold | hnew
      · exact .inl ⟨r, hrow, hold⟩
      · exact .inr ⟨r, hnew⟩
    · exact .inl ⟨s, hs, hsome⟩

theorem Carried.same {l l' : Log W} (hrows : l'.rows = l.rows) (hnext : l.nextPosition ≤ l'.nextPosition) :
    Carried l l' none := by
  constructor
  · exact hnext
  · exact fun p r hr => ⟨r, hrows ▸ hr, .refl r, id⟩
  · exact fun p r hr hpending => .inr ⟨r, hrows ▸ hr, hpending, .refl r⟩
  · exact fun p r hr hsome => .inl ⟨r, hrows ▸ hr, hsome⟩

variable [Crypto]

theorem Moved.carried {l l' : Log W} {c : Option (BigInt × Received)} (h : Sound H l)
    (hmoved : Moved H l c l') : Carried l l' c := by
  cases hmoved with
  | kept rows next _ _ _ => exact .same rows next
  | @received p r world position pending _ _ _ =>
    have hne : ∀ q s, l.rows.get? q = some s → q ≠ p := by
      intro q s hs hq
      have := h.ordered.drawn q s hs
      rw [hq] at this
      omega
    constructor
    · exact Nat.le_succ _
    · intro q s hs
      exact ⟨s, by rw [SortedMap.get?_insert_ne _ _ (hne q s hs)]; exact hs, .refl s, id⟩
    · intro q s hs hpending
      rw [SortedMap.get?_insert] at hs
      split_ifs at hs with hq
      · exact .inl (hq ▸ position)
      · exact .inr ⟨s, hs, hpending, .refl s⟩
    · intro q s hs hsome
      rw [SortedMap.get?_insert] at hs
      split_ifs at hs with hq
      · cases hs
        exact absurd pending hsome
      · exact .inl ⟨s, hs, hsome⟩
  | settled next row =>
    obtain ⟨hsame, hsome⟩ := processRow_settles row
    exact .update (Log.nextEligible_eq_some next).1 rfl le_rfl hsame (fun _ => hsome) fun _ => .inr rfl
  | marked row pending => exact .update row rfl le_rfl ⟨rfl, rfl, rfl, rfl, rfl, rfl⟩ id .inl
  | signed _ _ => exact .same rfl le_rfl
  | stored _ _ => exact .same rfl le_rfl
  | @retired p r aggregate receipt world row attested =>
    refine .update row rfl le_rfl ⟨rfl, rfl, rfl, rfl, rfl, rfl⟩ (fun _ => Option.some_ne_none _) fun _ => .inl ?_
    obtain ⟨s, hs, hsettled⟩ := h.receipted.attests p aggregate receipt attested
    rw [row] at hs
    cases hs
    exact hsettled

/-! ### Runs -/

/-- The effects so far account for the state of the inbox. -/
structure Serial (H : Handlers W) (start : Database W) (past : List (Effect W)) (l : Log W) : Prop where
  sound : Sound H l
  database : past.foldlM (Effect.act H) start = .ok l.database
  applied : ∀ p r, .applied p r ∈ past → ∃ r', l.rows.get? p = some r' ∧ r.SameCommand r' ∧ r'.outcome ≠ none
  settled : ∀ p r', l.rows.get? p = some r' → r'.outcome ≠ none → ∃ r, .applied p r ∈ past
  arrived : ∀ e ∈ past, e.arrival ≤ l.nextPosition
  /-- No command that a past change was held back for still waits. -/
  fenced : ∀ n fence change, .changed n fence change ∈ past → ∀ p r, l.rows.get? p = some r →
    r.outcome = none → fence.holds r = true → n ≤ p.val
  once : (past.filterMap Effect.position).Nodup
  order : past.Pairwise fun a b => a.meets b = true → a.arrival ≤ b.arrival

theorem Serial.start (world : W) : Serial H (Log.start world).database [] (Log.start world) where
  sound := .start world
  database := rfl
  applied _ _ h := absurd h List.not_mem_nil
  settled p r' h := by simp [Log.start] at h
  arrived _ h := absurd h List.not_mem_nil
  fenced _ _ _ h := absurd h List.not_mem_nil
  once := List.nodup_nil
  order := .nil

omit [Crypto] in
theorem Fence.holds_congr {r r' : Received} (h : r.SameCommand r') (fence : Fence) :
    fence.holds r' = fence.holds r := by
  cases fence with
  | everybody => rfl
  | owners scopes => simp [Fence.holds, Received.shares, h.scopes]

section
variable {start : Database W} {past : List (Effect W)} {l l' : Log W}

theorem Serial.fenced_carried {c : Option (BigInt × Received)} (h : Serial H start past l)
    (hcarried : Carried l l' c) {n : ℕ} {fence : Fence}
    {change : Database W → Except StorageError (Database W)} (hpast : .changed n fence change ∈ past)
    {p : BigInt} {r : Received} (hr : l'.rows.get? p = some r) (hpending : r.outcome = none)
    (hholds : fence.holds r = true) : n ≤ p.val := by
  rcases hcarried.waiting p r hr hpending with hnew | ⟨s, hs, hwaits, hsame⟩
  · exact hnew ▸ h.arrived _ hpast
  · rw [Fence.holds_congr hsame] at hholds
    exact h.fenced n fence change hpast p s hs hwaits hholds

/-- A transaction that settles nothing adds a change, or nothing. -/
theorem Serial.change (h : Serial H start past l) (hsound : Sound H l') (hcarried : Carried l l' none)
    {new : List (Effect W)} (hone : new.length ≤ 1) (hpasses : ∀ e ∈ new, Passes l e)
    (hdatabase : new.foldlM (Effect.act H) l.database = .ok l'.database) :
    Serial H start (past ++ new) l' := by
  have hchange : ∀ p r, .applied p r ∉ new := by
    intro p r hin
    obtain ⟨fence, change, he, -⟩ := hpasses _ hin
    cases he
  constructor
  · exact hsound
  · rw [List.foldlM_append, h.database]
    exact hdatabase
  · intro p r hin
    have hin := (List.mem_append.mp hin).resolve_right (hchange p r)
    obtain ⟨r₁, hr₁, hsame, hsome⟩ := h.applied p r hin
    obtain ⟨r₂, hr₂, hsame', hkept⟩ := hcarried.kept p r₁ hr₁
    exact ⟨r₂, hr₂, hsame.trans hsame', hkept hsome⟩
  · intro p r' hr' hsome
    rcases hcarried.settled p r' hr' hsome with ⟨r, hr, hold⟩ | ⟨r, hnone⟩
    · obtain ⟨s, hs⟩ := h.settled p r hr hold
      exact ⟨s, List.mem_append_left _ hs⟩
    · cases hnone
  · intro e he
    rcases List.mem_append.mp he with he | he
    · exact (h.arrived e he).trans hcarried.next
    · obtain ⟨fence, change, rfl, -⟩ := hpasses e he
      exact hcarried.next
  · intro n fence change hin p r hr hpending hholds
    rcases List.mem_append.mp hin with hin | hin
    · exact h.fenced_carried hcarried hin hr hpending hholds
    · obtain ⟨_, _, he, hpass⟩ := hpasses _ hin
      cases he
      rcases hcarried.waiting p r hr hpending with hnew | ⟨s, hs, hwaits, hsame⟩
      · exact hnew.ge
      · rw [Fence.holds_congr hsame, hpass p s hs hwaits] at hholds
        cases hholds
  · have hnone : new.filterMap Effect.position = [] := by
      rw [List.filterMap_eq_nil_iff]
      intro e he
      obtain ⟨fence, change, rfl, -⟩ := hpasses e he
      rfl
    rw [List.filterMap_append, hnone, List.append_nil]
    exact h.once
  · refine List.pairwise_append.mpr ⟨h.order, ?_, fun a ha b hb _ => ?_⟩
    · cases new with
      | nil => exact .nil
      | cons e rest =>
        have hrest : rest.length = 0 := Nat.le_zero.mp (Nat.le_of_succ_le_succ hone)
        rw [List.length_eq_zero_iff.mp hrest]
        exact List.pairwise_singleton ..
    · obtain ⟨fence, change, rfl, -⟩ := hpasses b hb
      exact h.arrived a ha

/-- A transaction that settles a command adds its application: no command of an owner of it that came
later has been applied, and no change it holds back has been made. -/
theorem Serial.settle (h : Serial H start past l) {p : BigInt} {r r' : Received} {d : Database W}
    (hnext : l.nextEligible = some (p, r)) (hrow : processRow H l.database p r = .ok (d, r')) :
    Serial H start (past ++ [.applied p r]) {l with rows := l.rows.insert p r', database := d} := by
  have hmoved : Moved H l (some (p, r)) {l with rows := l.rows.insert p r', database := d} :=
    .settled hnext hrow
  have hcarried := hmoved.carried h.sound
  obtain ⟨hat, heligible⟩ := Log.nextEligible_eq_some hnext
  have hpending := Log.eligible_pending heligible
  obtain ⟨hsame, hsome⟩ := processRow_settles hrow
  have hfirst : ∀ q s, .applied q s ∈ past → q ≠ p ∧ (s.shares r.scopes = true → q < p) := by
    intro q s hin
    obtain ⟨s', hs', hss', hsettled⟩ := h.applied q s hin
    have hne : q ≠ p := by
      rintro rfl
      rw [hat] at hs'
      cases hs'
      exact hsettled hpending
    refine ⟨hne, fun hshares => ?_⟩
    by_contra hnot
    have hlt : p < q := lt_of_le_of_ne (not_lt.mp hnot) hne.symm
    refine h.sound.ordered.settled p q r s' hat hs' hlt ?_ hsettled hpending
    rw [Received.shares_comm, Received.shares_iff, hss'.scopes]
    exact Received.shares_iff.mp hshares
  constructor
  · exact ⟨h.sound.ordered.moved h.sound.receipted.attests hmoved, h.sound.receipted.moved h.sound.ordered hmoved⟩
  · rw [List.foldlM_append, h.database]
    simp [Effect.act, hrow, Except.map]
  · intro q s hin
    rcases List.mem_append.mp hin with hin | hin
    · obtain ⟨r₁, hr₁, hs₁, hsome₁⟩ := h.applied q s hin
      obtain ⟨r₂, hr₂, hs₂, hkept⟩ := hcarried.kept q r₁ hr₁
      exact ⟨r₂, hr₂, hs₁.trans hs₂, hkept hsome₁⟩
    · cases List.mem_singleton.mp hin
      exact ⟨r', SortedMap.get?_insert_self .., hsame, hsome⟩
  · intro q s hs hsettled
    rcases hcarried.settled q s hs hsettled with ⟨t, ht, hold⟩ | ⟨t, ht⟩
    · obtain ⟨u, hu⟩ := h.settled q t ht hold
      exact ⟨u, List.mem_append_left _ hu⟩
    · cases ht
      exact ⟨r, List.mem_append_right _ (List.mem_singleton_self _)⟩
  · intro e he
    rcases List.mem_append.mp he with he | he
    · exact h.arrived e he
    · cases List.mem_singleton.mp he
      exact (h.sound.ordered.drawn p r hat).le
  · intro n fence change hin q s hs hwaits hholds
    rcases List.mem_append.mp hin with hin | hin
    · exact h.fenced_carried hcarried hin hs hwaits hholds
    · have hposition := congrArg Effect.position (List.mem_singleton.mp hin)
      exact absurd hposition (Option.some_ne_none p).symm
  · rw [List.filterMap_append, List.nodup_append]
    refine ⟨h.once, List.nodup_singleton p, fun q hq q' hq' => ?_⟩
    rw [List.mem_singleton.mp hq']
    obtain ⟨e, he, hposition⟩ := List.mem_filterMap.mp hq
    cases e with
    | applied q₀ s =>
      cases hposition
      exact (hfirst q s he).1
    | changed _ _ _ => cases hposition
  · refine List.pairwise_append.mpr ⟨h.order, List.pairwise_singleton .., fun a ha b hb hmeets => ?_⟩
    rw [List.mem_singleton.mp hb] at hmeets ⊢
    cases a with
    | applied q s => exact ((hfirst q s ha).2 hmeets).le
    | changed n fence change => exact h.fenced n fence change ha p r hat hpending hmeets

end

theorem Serial.step {start : Database W} {past : List (Effect W)} {l l' : Log W} {c : Call W}
    (h : Serial H start past l) (hcall : call H l c = .ok l') : Serial H start (past ++ effects H l c) l' := by
  have hmoved := call_moved hcall
  have hdatabase := effects_database hcall
  rcases effects_cases hcall with ⟨p, r, hsettles, heffects⟩ | ⟨hsettles, hone, hpasses⟩
  · rw [hsettles] at hmoved
    rw [heffects]
    cases hmoved with
    | settled next row => exact h.settle next row
  · rw [hsettles] at hmoved
    exact h.change (h.sound.step hcall) (hmoved.carried h.sound) hone hpasses hdatabase

/-- After every run, the database is what the effects of the run leave: the settled commands and they
alone were applied, each once, and all is left of an attempt that failed is its record. Commands and
changes of one owner took effect in the order they arrived in. -/
theorem run_serial (world : W) (calls : List (Call W)) :
    let l := Machine.run (call H) (Log.start world) calls
    let past := trace H (Log.start world) calls
    past.foldlM (Effect.act H) ⟨∅, world⟩ = .ok l.database ∧
      (past.filterMap Effect.position).Nodup ∧
      (∀ p, p ∈ past.filterMap Effect.position ↔ ∃ r, l.rows.get? p = some r ∧ r.outcome ≠ none) ∧
      past.Pairwise fun a b => a.meets b = true → a.arrival ≤ b.arrival := by
  intro l past
  have h : Serial H (Log.start world).database past l :=
    Machine.run_emitted (Q := Serial H (Log.start world).database)
      (fun _ _ _ _ hserial hcall => hserial.step hcall) (.start world) calls
  refine ⟨h.database, h.once, fun p => ⟨fun hp => ?_, fun ⟨r, hr, hsome⟩ => ?_⟩, h.order⟩
  · obtain ⟨e, he, hposition⟩ := List.mem_filterMap.mp hp
    cases e with
    | applied q r =>
      cases hposition
      obtain ⟨r', hr', -, hsome⟩ := h.applied p r he
      exact ⟨r', hr', hsome⟩
    | changed _ _ _ => cases hposition
  · obtain ⟨s, hs⟩ := h.settled p r hr hsome
    exact List.mem_filterMap.mpr ⟨.applied p s, hs, rfl⟩

end Serial

end CsMail.Ingress
