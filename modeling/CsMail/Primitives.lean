import CsMail.Library.FixedWidth
import CsMail.Library.SortedMap
import Mathlib.Order.Fin.Basic

/-! The values shared by every layer: identifiers, counters, money and time.

The source generates its identifiers and its version counters by macro; here each
family is one structure indexed by the name it was generated for. Machine integers
are `Fin (2 ^ w)`, so a value outside its width cannot be written. -/
namespace CsMail
open Library

abbrev U16 := Fin (2 ^ 16)
abbrev U32 := Fin (2 ^ 32)
abbrev U64 := Fin (2 ^ 64)
abbrev U128 := Fin (2 ^ 128)

instance neZero8 : NeZero (2 ^ 8) := ⟨by decide⟩
instance neZero16 : NeZero (2 ^ 16) := ⟨by decide⟩
instance neZero32 : NeZero (2 ^ 32) := ⟨by decide⟩
instance neZero64 : NeZero (2 ^ 64) := ⟨by decide⟩
instance neZero128 : NeZero (2 ^ 128) := ⟨by decide⟩

/-- The largest `u64`, as the unbounded integer the ledger compares with. -/
def u64Max : Nat := 2 ^ 64 - 1

abbrev Bytes := List UInt8

/-- A `[u8; 32]`. -/
abbrev Bytes32 := Vector UInt8 32

/-- A string is a sequence of Unicode scalar values. -/
abbrev Text := List Char

def Text.utf8 (t : Text) : Bytes := t.flatMap String.utf8EncodeChar

/-- The scalar values with the `White_Space` property. -/
def isWhitespace (c : Char) : Bool :=
  (0x09 ≤ c.toNat ∧ c.toNat ≤ 0x0D) ∨ (0x2000 ≤ c.toNat ∧ c.toNat ≤ 0x200A) ∨
    c.toNat ∈ [0x20, 0x85, 0xA0, 0x1680, 0x2028, 0x2029, 0x202F, 0x205F, 0x3000]

/-- `trim().is_empty()`. -/
def Text.isBlank (t : Text) : Bool := t.all isWhitespace

def zero32 : Bytes32 := Vector.replicate 32 0

/-- A byte-string literal. -/
def byteString (s : String) : Bytes := Text.utf8 s.toList

/-- `u128::from_be_bytes` of the first sixteen bytes. -/
def firstU128 (bytes : Bytes32) : U128 :=
  ⟨ofBeBytes (bytes.toList.take 16), (ofBeBytes_lt _).trans_le (by
    rw [show 2 ^ 128 = 256 ^ 16 by decide]
    exact Nat.pow_le_pow_right (by decide) (List.length_take_le 16 _))⟩

/-! ### Identifiers -/

inductive IdentKind
  | protocolIdentity | provider | quote | request | requestClass | message | content
  | deliveryIntent | operationalKey | idempotencyKey | paymentOperation | member
  | billingAccount | program | allocation | annualDistribution | financialEvent | lane
  | account | principal | contentKey | serviceContract | federationTransaction
  deriving DecidableEq

/-- `id_type!`: an opaque 128-bit reference. -/
structure Ident (k : IdentKind) where
  val : U128
  deriving DecidableEq

abbrev ProtocolIdentity := Ident .protocolIdentity
abbrev ProviderRef := Ident .provider
abbrev QuoteId := Ident .quote
abbrev RequestId := Ident .request
abbrev RequestClassId := Ident .requestClass
abbrev MessageId := Ident .message
abbrev ContentRef := Ident .content
abbrev DeliveryIntentRef := Ident .deliveryIntent
abbrev OperationalKeyRef := Ident .operationalKey
abbrev IdempotencyKey := Ident .idempotencyKey
abbrev PaymentOperationId := Ident .paymentOperation
abbrev MemberId := Ident .member
abbrev BillingAccountId := Ident .billingAccount
abbrev ProgramRef := Ident .program
abbrev AllocationId := Ident .allocation
abbrev AnnualDistributionId := Ident .annualDistribution
abbrev FinancialEventId := Ident .financialEvent
abbrev LaneId := Ident .lane
abbrev AccountId := Ident .account
abbrev PrincipalRef := Ident .principal
abbrev ContentKeyRef := Ident .contentKey
abbrev ServiceContractId := Ident .serviceContract
abbrev FederationTransactionRef := Ident .federationTransaction

namespace Ident
variable {k : IdentKind}

theorem val_injective : Function.Injective (val (k := k)) := fun ⟨_⟩ ⟨_⟩ h => congrArg mk h

instance : LinearOrder (Ident k) := LinearOrder.lift' val val_injective

def toBeBytes (i : Ident k) : Bytes := beBytes 16 i.val.val

end Ident

/-- `AliasId`: a communication entrance; the empty identifier cannot be built. -/
structure AliasId where
  val : U128
  nonzero : val ≠ 0
  deriving DecidableEq

namespace AliasId

def new (value : U128) : Option AliasId := if h : value ≠ 0 then some ⟨value, h⟩ else none

theorem val_injective : Function.Injective val := fun ⟨_, _⟩ ⟨_, _⟩ h => by cases h; rfl

instance : LinearOrder AliasId := LinearOrder.lift' val val_injective

theorem new_val (a : AliasId) : new a.val = some a := by
  simp [new, a.nonzero]

end AliasId

inductive NamedKind
  | conversation | grant
  deriving DecidableEq

/-- An identifier of a conversation or of a consent grant; the empty one cannot be built. -/
structure NamedId (k : NamedKind) where
  val : U128
  nonzero : val ≠ 0
  deriving DecidableEq

abbrev ConversationId := NamedId .conversation
abbrev GrantId := NamedId .grant

namespace NamedId
variable {k : NamedKind}

def new (value : U128) : Option (NamedId k) := if h : value ≠ 0 then some ⟨value, h⟩ else none

theorem val_injective : Function.Injective (val (k := k)) := fun ⟨_, _⟩ ⟨_, _⟩ h => by cases h; rfl

instance : LinearOrder (NamedId k) := LinearOrder.lift' val val_injective

end NamedId

inductive ScopeKind
  | relationship | requestHistory
  deriving DecidableEq

/-- `scoped_ref_type!`: a reference derived for one scope, with its derivation version. -/
structure ScopedRef (k : ScopeKind) where
  derivationVersion : U16
  bytes : Bytes32
  deriving DecidableEq

abbrev RelationshipRef := ScopedRef .relationship
abbrev RequestHistoryRef := ScopedRef .requestHistory

namespace ScopedRef
variable {k : ScopeKind}

/-- The lexicographic order of the two fields, as one number. -/
def rank (r : ScopedRef k) : Nat := r.derivationVersion.val * 256 ^ 32 + ofBeBytes r.bytes.toList

theorem rank_injective : Function.Injective (rank (k := k)) := by
  rintro ⟨v, b⟩ ⟨v', b'⟩ h
  have hlen : ∀ x : Bytes32, x.toList.length = 32 := fun x => by simp
  have hb := ofBeBytes_lt b.toList
  have hb' := ofBeBytes_lt b'.toList
  rw [hlen] at hb hb'
  simp only [rank] at h
  have hv : v = v' := Fin.ext (by omega)
  have hbytes : ofBeBytes b.toList = ofBeBytes b'.toList := by omega
  have hlist := ofBeBytes_injective ((hlen b).trans (hlen b').symm) hbytes
  have : b = b' := Vector.toList_inj.mp hlist
  rw [hv, this]

instance : LinearOrder (ScopedRef k) := LinearOrder.lift' rank rank_injective

end ScopedRef

/-! ### Money, time and counters -/

structure Money where
  minorUnits : U64
  deriving DecidableEq

namespace Money

theorem minorUnits_injective : Function.Injective minorUnits := fun ⟨_⟩ ⟨_⟩ h => congrArg mk h

instance : LinearOrder Money := LinearOrder.lift' minorUnits minorUnits_injective

def zero : Money := ⟨0⟩

instance : Inhabited Money := ⟨zero⟩

/-- The amount as an unbounded integer. -/
def units (m : Money) : Nat := m.minorUnits.val

def isZero (m : Money) : Bool := m.minorUnits = 0

def checkedAdd (a b : Money) : Option Money := (Checked.add a.minorUnits b.minorUnits).map mk

def checkedSub (a b : Money) : Option Money := (Checked.sub a.minorUnits b.minorUnits).map mk

/-- Equal shares of the amount, and what they leave over. -/
def div (m : Money) (n : Nat) : Money := ⟨⟨m.minorUnits.val / n, (Nat.div_le_self _ _).trans_lt m.minorUnits.isLt⟩⟩

def mod (m : Money) (n : Nat) : Money := ⟨⟨m.minorUnits.val % n, (Nat.mod_le _ _).trans_lt m.minorUnits.isLt⟩⟩

@[simp] theorem units_div (m : Money) (n : Nat) : (m.div n).units = m.units / n := rfl

@[simp] theorem units_mod (m : Money) (n : Nat) : (m.mod n).units = m.units % n := rfl

theorem units_le (m : Money) : m.units ≤ u64Max := by
  have := m.minorUnits.isLt
  unfold units u64Max
  omega

theorem units_inj {a b : Money} : a.units = b.units ↔ a = b := by
  cases a; cases b
  simp [units, Fin.ext_iff]

theorem isZero_iff {m : Money} : m.isZero = true ↔ m.units = 0 := by
  simp only [isZero, units, decide_eq_true_eq]
  exact Fin.ext_iff

theorem isZero_eq_false {m : Money} : m.isZero = false ↔ 0 < m.units := by
  rw [← Bool.not_eq_true, isZero_iff]
  omega

@[simp] theorem units_zero : zero.units = 0 := rfl

theorem checkedAdd_eq_some {a b c : Money} :
    a.checkedAdd b = some c ↔ c.units = a.units + b.units := by
  cases c with
  | mk c =>
    simp only [checkedAdd, Option.map_eq_some_iff, Checked.add_eq_some, mk.injEq, units]
    exact ⟨fun ⟨x, hx, hc⟩ => hc ▸ hx, fun h => ⟨c, h, rfl⟩⟩

theorem checkedSub_eq_some {a b c : Money} :
    a.checkedSub b = some c ↔ c.units + b.units = a.units := by
  cases c with
  | mk c =>
    simp only [checkedSub, Option.map_eq_some_iff, Checked.sub_eq_some, mk.injEq, units]
    exact ⟨fun ⟨x, hx, hc⟩ => hc ▸ hx, fun h => ⟨c, h, rfl⟩⟩

end Money

structure Duration where
  val : U64
  deriving DecidableEq

namespace Duration

theorem val_injective : Function.Injective val := fun ⟨_⟩ ⟨_⟩ h => congrArg mk h

instance : LinearOrder Duration := LinearOrder.lift' val val_injective

end Duration

structure CanonicalTime where
  val : U64
  deriving DecidableEq

namespace CanonicalTime

theorem val_injective : Function.Injective val := fun ⟨_⟩ ⟨_⟩ h => congrArg mk h

instance : LinearOrder CanonicalTime := LinearOrder.lift' val val_injective

def checkedAdd (t : CanonicalTime) (d : Duration) : Option CanonicalTime :=
  (Checked.add t.val d.val).map mk

/-- The instant as an unbounded integer. -/
def millis (t : CanonicalTime) : Nat := t.val.val

theorem le_iff_millis {a b : CanonicalTime} : a ≤ b ↔ a.millis ≤ b.millis := Iff.rfl

theorem lt_iff_millis {a b : CanonicalTime} : a < b ↔ a.millis < b.millis := Iff.rfl

theorem checkedAdd_eq_some {t u : CanonicalTime} {d : Duration} :
    t.checkedAdd d = some u ↔ u.millis = t.millis + d.val.val := by
  cases u with
  | mk u =>
    simp only [checkedAdd, Option.map_eq_some_iff, Checked.add_eq_some, mk.injEq, millis]
    exact ⟨fun ⟨x, hx, hc⟩ => hc ▸ hx, fun h => ⟨u, h, rfl⟩⟩

end CanonicalTime

/-! ### Calendar -/

def dayMillis : Nat := 86_400_000

def isLeap (year : Nat) : Bool := year % 4 = 0 ∧ (year % 100 ≠ 0 ∨ year % 400 = 0)

def yearDays (year : Nat) : Nat := if isLeap year then 366 else 365

def monthDays (leap : Bool) : List Nat :=
  [31, if leap then 29 else 28, 31, 30, 31, 30, 31, 31, 30, 31, 30, 31]

/-- Days from 1970 up to the year. -/
def daysBefore (year : Nat) : Nat := ((List.range' 1970 (year - 1970)).map yearDays).sum

theorem daysBefore_succ {year : Nat} (h : 1970 ≤ year) :
    daysBefore (year + 1) = daysBefore year + yearDays year := by
  have hlength : year + 1 - 1970 = year - 1970 + 1 := by omega
  have hlast : 1970 + 1 * (year - 1970) = year := by omega
  rw [daysBefore, hlength, List.range'_concat, hlast, List.map_append, List.sum_append]
  simp [daysBefore]

theorem yearDays_bounds (year : Nat) : 365 ≤ yearDays year ∧ yearDays year ≤ 366 := by
  unfold yearDays
  split_ifs <;> omega

theorem daysBefore_le {year : Nat} (h : 1970 ≤ year) : daysBefore year ≤ 366 * (year - 1970) := by
  induction year, h using Nat.le_induction with
  | base => decide
  | succ year h ih =>
    have := yearDays_bounds year
    rw [daysBefore_succ h]
    omega

theorem daysBefore_strictMono {a b : Nat} (ha : 1970 ≤ a) (h : a < b) :
    daysBefore a < daysBefore b := by
  induction b, h using Nat.le_induction with
  | base =>
    have := yearDays_bounds a
    rw [daysBefore_succ ha]
    omega
  | succ b h ih =>
    have hb : a < b := h
    rw [daysBefore_succ (by omega)]
    omega

theorem monthDays_take_le (leap : Bool) (k : Nat) : ((monthDays leap).take k).sum ≤ 366 := by
  have hsplit : ((monthDays leap).take k).sum + ((monthDays leap).drop k).sum = (monthDays leap).sum := by
    rw [← List.sum_append, List.take_append_drop]
  have htotal : (monthDays leap).sum ≤ 366 := by cases leap <;> decide
  omega

/-- The first instant of a Gregorian date, in UTC milliseconds. -/
def calendarDate (year : U16) (month day : Fin (2 ^ 8)) : Option CanonicalTime :=
  if h : ¬(1970 ≤ year.val ∧ year.val ≤ 9999) ∨ ¬(1 ≤ month.val ∧ month.val ≤ 12) then none
  else if day.val = 0 ∨ (monthDays (isLeap year.val)).getD (month.val - 1) 0 < day.val then none
  else some ⟨⟨(daysBefore year.val + ((monthDays (isLeap year.val)).take (month.val - 1)).sum +
      (day.val - 1)) * dayMillis, by
    have hyear := @daysBefore_le year.val (by omega)
    have hmonths := monthDays_take_le (isLeap year.val) (month.val - 1)
    have hday := day.isLt
    unfold dayMillis
    omega⟩⟩

theorem sum_take_add_getD_le (l : List Nat) (k : Nat) : (l.take k).sum + l.getD k 0 ≤ l.sum := by
  induction l generalizing k with
  | nil => simp
  | cons x rest ih =>
    cases k with
    | zero => simp
    | succ k =>
      have := ih k
      simp only [List.take_succ_cons, List.sum_cons, List.getD_cons_succ]
      omega

/-- A date lies in its year. -/
theorem calendarDate_bounds {year : U16} {month day : Fin (2 ^ 8)} {t : CanonicalTime}
    (h : calendarDate year month day = some t) : 1970 ≤ year.val ∧
      daysBefore year.val * dayMillis ≤ t.millis ∧ t.millis < daysBefore (year.val + 1) * dayMillis := by
  unfold calendarDate at h
  split_ifs at h with hyear hday
  cases h
  have hdays := sum_take_add_getD_le (monthDays (isLeap year.val)) (month.val - 1)
  have htotal : (monthDays (isLeap year.val)).sum = yearDays year.val := by
    unfold yearDays
    cases isLeap year.val <;> rfl
  have hnext := @daysBefore_succ year.val (by omega)
  refine ⟨by omega, Nat.mul_le_mul_right _ (by omega), Nat.mul_lt_mul_of_pos_right ?_ (by decide)⟩
  rw [hnext]
  omega

theorem calendarDate_newYear {year : U16} {t : CanonicalTime} :
    calendarDate year 1 1 = some t ↔
      (1970 ≤ year.val ∧ year.val ≤ 9999) ∧ t.millis = daysBefore year.val * dayMillis := by
  unfold calendarDate
  by_cases hyear : 1970 ≤ year.val ∧ year.val ≤ 9999
  · have hmonth : ¬(¬(1970 ≤ year.val ∧ year.val ≤ 9999) ∨
        ¬(1 ≤ (1 : Fin (2 ^ 8)).val ∧ (1 : Fin (2 ^ 8)).val ≤ 12)) := by
      simp only [hyear]
      decide
    have hday : ¬((1 : Fin (2 ^ 8)).val = 0 ∨
        (monthDays (isLeap year.val)).getD ((1 : Fin (2 ^ 8)).val - 1) 0 < (1 : Fin (2 ^ 8)).val) := by
      cases isLeap year.val <;> decide
    rw [dif_neg hmonth, if_neg hday, Option.some.injEq]
    simp only [hyear, and_self, true_and]
    constructor
    · rintro rfl
      simp [CanonicalTime.millis]
    · intro ht
      apply CanonicalTime.val_injective
      apply Fin.ext
      simpa [CanonicalTime.millis] using ht.symm
  · rw [dif_pos (.inl hyear)]
    simp [hyear]

inductive CounterKind
  | general | relationship | requestHistory | request
  deriving DecidableEq

/-- `version_type!`: a counter that advances by one or fails. -/
structure Counter (k : CounterKind) where
  val : U64
  deriving DecidableEq

abbrev Version := Counter .general
abbrev RelationshipVersion := Counter .relationship
abbrev RequestHistoryVersion := Counter .requestHistory
abbrev RequestVersion := Counter .request

namespace Counter
variable {k : CounterKind}

def initial : Counter k := ⟨0⟩

def checkedNext (c : Counter k) : Option (Counter k) := (Checked.succ c.val).map mk

/-- The conversions between `Version` and the generated counters. -/
def into {k' : CounterKind} (c : Counter k) : Counter k' := ⟨c.val⟩

theorem val_injective : Function.Injective (val (k := k)) := fun ⟨_⟩ ⟨_⟩ h => congrArg mk h

instance : LinearOrder (Counter k) := LinearOrder.lift' val val_injective

theorem checkedNext_eq_some {c d : Counter k} :
    c.checkedNext = some d ↔ d.val.val = c.val.val + 1 := by
  cases d with
  | mk d =>
    simp only [checkedNext, Option.map_eq_some_iff, Checked.succ_eq_some, mk.injEq]
    exact ⟨fun ⟨x, hx, hc⟩ => hc ▸ hx, fun h => ⟨d, h, rfl⟩⟩

@[simp] theorem into_into {k' : CounterKind} (c : Counter k) :
    ((c.into : Counter k').into : Counter k) = c := rfl

end Counter

structure SettlementUnit where
  val : U32
  deriving DecidableEq

namespace SettlementUnit

theorem val_injective : Function.Injective val := fun ⟨_⟩ ⟨_⟩ h => congrArg mk h

instance : LinearOrder SettlementUnit := LinearOrder.lift' val val_injective

end SettlementUnit

structure PolicyVersion where
  val : U64
  deriving DecidableEq

namespace PolicyVersion

theorem val_injective : Function.Injective val := fun ⟨_⟩ ⟨_⟩ h => congrArg mk h

instance : LinearOrder PolicyVersion := LinearOrder.lift' val val_injective

theorem first_ne_zero : (⟨1⟩ : PolicyVersion).val ≠ 0 := by decide

end PolicyVersion

structure ProtocolVersion where
  val : U16
  deriving DecidableEq

structure PrivacyProfileVersion where
  val : U16
  deriving DecidableEq

structure RetentionPolicyVersion where
  val : U16
  deriving DecidableEq

structure WireVersion where
  val : U16
  deriving DecidableEq

/-- Explicit withdrawal generation for replies. -/
structure ReplyEpoch where
  val : U64
  deriving DecidableEq

structure JournalPosition where
  val : U64
  deriving DecidableEq

structure EventRef where
  position : JournalPosition
  deriving DecidableEq

structure MessageValidityUntil where
  time : CanonicalTime
  deriving DecidableEq

structure MessageDeclarationDigest where
  bytes : Bytes32
  deriving DecidableEq

/-! ### Scheduled work -/

inductive ScheduleTask
  | submissionTimeout (request : RequestId)
  | requestExpiry (request : RequestId)
  | laneHorizon (lane : LaneId)
  deriving DecidableEq

namespace ScheduleTask

/-- The derived order: the variant first, then its identifier. -/
def rank : ScheduleTask → Nat
  | submissionTimeout r => r.val.val
  | requestExpiry r => 2 ^ 128 + r.val.val
  | laneHorizon l => 2 ^ 129 + l.val.val

theorem rank_injective : Function.Injective rank := by
  rintro (⟨⟨a, ha⟩⟩ | ⟨⟨a, ha⟩⟩ | ⟨⟨a, ha⟩⟩) (⟨⟨b, hb⟩⟩ | ⟨⟨b, hb⟩⟩ | ⟨⟨b, hb⟩⟩) h <;>
    simp only [rank] at h
  case submissionTimeout.submissionTimeout => cases h; rfl
  case requestExpiry.requestExpiry => have := Nat.add_left_cancel h; cases this; rfl
  case laneHorizon.laneHorizon => have := Nat.add_left_cancel h; cases this; rfl
  all_goals omega

instance : LinearOrder ScheduleTask := LinearOrder.lift' rank rank_injective

end ScheduleTask

inductive ScheduleChange
  | schedule (task : ScheduleTask) (due : CanonicalTime)
  | cancel (task : ScheduleTask)
  deriving DecidableEq

end CsMail
