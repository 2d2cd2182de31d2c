import Mathlib.Data.List.Basic
import Mathlib.Tactic.Common

/-! Bounded lines out of a stream that arrives in pieces.

A buffered reader keeps what it has taken from its source and not yet handed out; when
nothing is left it reads the source again, and one read may give any number of items.
How a stream is cut into reads makes no difference: `readUntil_eq` says what a bounded
line is in terms of the items alone. -/
namespace CsMail.Library

/-- What one read of the source gives. A read of no items is the end of the stream. -/
inductive Arrival (α ε : Type*)
  | chunk (items : List α)
  | failed (error : ε)

/-- `buffer` is what was read and not yet handed out, `arrivals` the reads to come. -/
structure BufReader (α ε : Type*) where
  buffer : List α
  arrivals : List (Arrival α ε)

namespace BufReader
variable {α ε : Type*}

/-! ### What is still to come -/

/-- The items of some reads, and the error the stream ends with. -/
def arriving (eof : ε) : List (Arrival α ε) → List α × ε
  | [] => ([], eof)
  | .failed error :: _ => ([], error)
  | .chunk [] :: _ => ([], eof)
  | .chunk (item :: items) :: rest => (item :: (items ++ (arriving eof rest).1), (arriving eof rest).2)

/-- The items still to be handed out, and the error after them. -/
def pending (eof : ε) (r : BufReader α ε) : List α × ε :=
  (r.buffer ++ (arriving eof r.arrivals).1, (arriving eof r.arrivals).2)

/-! ### Reading up to a stop item -/

variable [DecidableEq α] (stop : α) (max : ℕ) (eof long : ε)

/-- How much of what is at hand belongs to the line: up to and with the first stop item. -/
def used (available : List α) : ℕ :=
  if stop ∈ available then available.idxOf stop + 1 else available.length

/-- The reads of one line, of which `result` is already there. -/
def readArrivals : List α → List (Arrival α ε) → Except ε (List α) × BufReader α ε
  | _, [] => (.error eof, ⟨[], []⟩)
  | _, .failed error :: rest => (.error error, ⟨[], rest⟩)
  | _, .chunk [] :: rest => (.error eof, ⟨[], rest⟩)
  | result, .chunk (item :: items) :: rest =>
    let available := item :: items
    if max < result.length + used stop available then (.error long, ⟨available, rest⟩)
    else if stop ∈ available then
      (.ok (result ++ available.take (used stop available)), ⟨available.drop (used stop available), rest⟩)
    else readArrivals (result ++ available) rest

/-- A line of at most `max` items, its stop item included. What is left in the buffer comes before the
next read. -/
def readUntil (r : BufReader α ε) : Except ε (List α) × BufReader α ε :=
  match r.buffer with
  | [] => readArrivals stop max eof long [] r.arrivals
  | item :: items => readArrivals stop max eof long [] (.chunk (item :: items) :: r.arrivals)

/-- The first line of a stream, and the stream after it. -/
def firstLine (stream : List α × ε) : Except ε (List α × List α × ε) :=
  if stop ∈ stream.1 then
    if max < used stop stream.1 then .error long
    else .ok (stream.1.take (used stop stream.1), stream.1.drop (used stop stream.1), stream.2)
  else if max < stream.1.length then .error long
  else .error stream.2

variable {stop max eof long}

theorem used_append_of_mem {a : List α} (b : List α) (h : stop ∈ a) : used stop (a ++ b) = used stop a := by
  rw [used, used, if_pos h, if_pos (List.mem_append_left b h), List.idxOf_append_of_mem h]

theorem used_append_of_notMem {a : List α} (b : List α) (h : stop ∉ a) :
    used stop (a ++ b) = a.length + used stop b := by
  by_cases hb : stop ∈ b
  · rw [used, used, if_pos hb, if_pos (List.mem_append_right a hb), List.idxOf_append_of_notMem h]
    omega
  · rw [used, used, if_neg hb, if_neg (by simp [h, hb]), List.length_append]

theorem used_le_length (a : List α) : used stop a ≤ a.length := by
  rw [used]
  split_ifs with h
  · exact List.idxOf_lt_length_iff.mpr h
  · exact Nat.le_refl _

/-- The line and what is pending after it, as a reader's answer gives them. -/
def answer (eof : ε) (a : Except ε (List α) × BufReader α ε) : Except ε (List α × List α × ε) :=
  a.1.map fun line => (line, a.2.pending eof)

/-- A line's reads give the first line of the stream, whatever of it is already there. -/
theorem readArrivals_eq {result : List α} (hstop : stop ∉ result) (hmax : result.length ≤ max)
    (arrivals : List (Arrival α ε)) :
    answer eof (readArrivals stop max eof long result arrivals) =
      firstLine stop max long (result ++ (arriving eof arrivals).1, (arriving eof arrivals).2) := by
  induction arrivals generalizing result with
  | nil => simp [answer, readArrivals, arriving, firstLine, hstop, Nat.not_lt.mpr hmax, Except.map]
  | cons arrival rest ih =>
    cases arrival with
    | failed error => simp [answer, readArrivals, arriving, firstLine, hstop, Nat.not_lt.mpr hmax, Except.map]
    | chunk items =>
      cases items with
      | nil => simp [answer, readArrivals, arriving, firstLine, hstop, Nat.not_lt.mpr hmax, Except.map]
      | cons item items =>
        generalize havailable : item :: items = available
        have harriving : arriving eof (.chunk available :: rest) =
            (available ++ (arriving eof rest).1, (arriving eof rest).2) := by
          rw [← havailable, arriving, List.cons_append]
        have hread : readArrivals stop max eof long result (.chunk available :: rest) =
            if max < result.length + used stop available then (.error long, ⟨available, rest⟩)
            else if stop ∈ available then (.ok (result ++ available.take (used stop available)),
              ⟨available.drop (used stop available), rest⟩)
            else readArrivals stop max eof long (result ++ available) rest := by
          rw [← havailable, readArrivals]
        rw [harriving, hread]
        by_cases hmem : stop ∈ available
        · have hused : used stop (result ++ (available ++ (arriving eof rest).1)) =
              result.length + used stop available := by
            rw [used_append_of_notMem _ hstop, used_append_of_mem _ hmem]
          have hin : stop ∈ result ++ (available ++ (arriving eof rest).1) := by simp [hmem]
          have hle : used stop available ≤ available.length := used_le_length available
          rw [firstLine, if_pos hin, hused]
          split_ifs with hlong
          · rfl
          · simp only [answer, pending, Except.map, List.take_length_add_append, List.drop_length_add_append,
              List.take_append_of_le_length hle, List.drop_append_of_le_length hle]
        · have hused : used stop available = available.length := if_neg hmem
          by_cases hlong : max < result.length + used stop available
          · rw [if_pos hlong, firstLine]
            have hlen : max < (result ++ (available ++ (arriving eof rest).1)).length := by
              simp only [List.length_append]
              omega
            split_ifs with hin hfar
            · rfl
            · rw [used_append_of_notMem _ hstop, used_append_of_notMem _ hmem] at hfar
              omega
            · rfl
          · rw [if_neg hlong, if_neg hmem]
            rw [ih (by simp [hstop, hmem]) (by rw [List.length_append]; omega), List.append_assoc]

/-- **A bounded line depends on the items of the stream alone**, not on how they arrive. -/
theorem readUntil_eq (r : BufReader α ε) :
    answer eof (readUntil stop max eof long r) = firstLine stop max long (r.pending eof) := by
  cases hbuffer : r.buffer with
  | nil =>
    simp only [readUntil, hbuffer, pending]
    exact readArrivals_eq List.not_mem_nil (Nat.zero_le max) r.arrivals
  | cons item items =>
    simp only [readUntil, hbuffer, pending]
    rw [readArrivals_eq List.not_mem_nil (Nat.zero_le max), arriving]
    rfl

/-- The first line is what the stream begins with, up to and with the first stop item. -/
theorem firstLine_eq_ok {stream rest : List α × ε} {line : List α} :
    firstLine stop max long stream = .ok (line, rest) ↔
      (∃ front, line = front ++ [stop] ∧ stop ∉ front) ∧ line.length ≤ max ∧ stream = (line ++ rest.1, rest.2) := by
  have hused : ∀ front tail : List α, stop ∉ front → used stop (front ++ stop :: tail) = front.length + 1 := by
    intro front tail h
    rw [used_append_of_notMem _ h, used, if_pos List.mem_cons_self, List.idxOf_cons_self]
  constructor
  · intro h
    by_cases hmem : stop ∈ stream.1
    · obtain ⟨front, tail, hstream, hfront⟩ := List.eq_append_cons_of_mem hmem
      rw [firstLine, if_pos hmem, hstream, hused front tail hfront] at h
      split_ifs at h with hlong
      have hcut : front ++ stop :: tail = (front ++ [stop]) ++ tail := by simp
      have hlen : (front ++ [stop]).length = front.length + 1 := by simp
      rw [hcut, ← hlen, List.take_left, List.drop_left] at h
      obtain ⟨rfl, rfl⟩ := Prod.mk.inj (Except.ok.inj h)
      exact ⟨⟨front, rfl, hfront⟩, by omega, Prod.ext (hstream.trans hcut) rfl⟩
    · rw [firstLine, if_neg hmem] at h
      split_ifs at h
  · rintro ⟨⟨front, rfl, hfront⟩, hlen, rfl⟩
    have hcut : (front ++ [stop]) ++ rest.1 = front ++ stop :: rest.1 := by simp
    rw [List.length_append, List.length_singleton] at hlen
    rw [firstLine, if_pos (by simp), hcut, hused front rest.1 hfront, if_neg (by omega), ← hcut]
    rw [show front.length + 1 = (front ++ [stop]).length by simp, List.take_left, List.drop_left]

/-- **A line is read if the stream begins with it**, and the reader is left with the rest. -/
theorem readUntil_eq_ok {r : BufReader α ε} {line : List α} {rest : List α × ε} :
    (∃ r', readUntil stop max eof long r = (.ok line, r') ∧ r'.pending eof = rest) ↔
      (∃ front, line = front ++ [stop] ∧ stop ∉ front) ∧ line.length ≤ max ∧ r.pending eof = (line ++ rest.1, rest.2) := by
  rw [← firstLine_eq_ok, ← readUntil_eq]
  obtain ⟨a, r'⟩ := readUntil stop max eof long r
  cases a with
  | error e => simp [answer, Except.map]
  | ok l => simp [answer, Except.map]

/-! ### What was taken from the source -/

/-- The items some reads brought. -/
def contents : List (Arrival α ε) → List α
  | [] => []
  | .chunk items :: rest => items ++ contents rest
  | .failed _ :: rest => contents rest

omit [DecidableEq α] in
theorem contents_append (a b : List (Arrival α ε)) : contents (a ++ b) = contents a ++ contents b := by
  induction a with
  | nil => rfl
  | cons arrival a ih =>
    cases arrival with
    | chunk items => simp only [List.cons_append, contents, ih, List.append_assoc]
    | failed error => exact ih

/-- Some reads later the reader has handed out these items and holds what is left. -/
def Took (r : BufReader α ε) (items : List α) (r' : BufReader α ε) : Prop :=
  ∃ before, r.arrivals = before ++ r'.arrivals ∧ r.buffer ++ contents before = items ++ r'.buffer

omit [DecidableEq α] in
theorem Took.trans {r r' r'' : BufReader α ε} {a b : List α} (h : Took r a r') (h' : Took r' b r'') :
    Took r (a ++ b) r'' := by
  obtain ⟨before, hbefore, hitems⟩ := h
  obtain ⟨after, hafter, hitems'⟩ := h'
  refine ⟨before ++ after, by rw [hbefore, hafter, List.append_assoc], ?_⟩
  rw [contents_append, ← List.append_assoc, hitems, List.append_assoc, hitems', List.append_assoc]

theorem readArrivals_took {result line : List α} {arrivals : List (Arrival α ε)} {r' : BufReader α ε}
    (h : readArrivals stop max eof long result arrivals = (.ok line, r')) :
    ∃ first before, arrivals = (first :: before) ++ r'.arrivals ∧
      result ++ contents (first :: before) = line ++ r'.buffer := by
  induction arrivals generalizing result with
  | nil => cases h
  | cons arrival rest ih =>
    cases arrival with
    | failed error => cases h
    | chunk items =>
      cases items with
      | nil => cases h
      | cons item items =>
        unfold readArrivals at h
        dsimp only at h
        split_ifs at h with hlong hmem
        · cases h
        · cases h
          exact ⟨.chunk (item :: items), [], rfl, by simp [contents, List.take_append_drop]⟩
        · obtain ⟨first, before, hrest, hitems⟩ := ih h
          refine ⟨.chunk (item :: items), first :: before, by rw [hrest]; rfl, ?_⟩
          rw [contents, ← List.append_assoc, hitems]

/-- A line handed out was taken from the buffer and the source, and what was taken behind it is kept. -/
theorem readUntil_took {r r' : BufReader α ε} {line : List α}
    (h : readUntil stop max eof long r = (.ok line, r')) : Took r line r' := by
  unfold readUntil at h
  split at h
  · next hbuffer =>
    obtain ⟨first, before, hbefore, hitems⟩ := readArrivals_took h
    exact ⟨first :: before, hbefore, by rw [hbuffer]; exact hitems⟩
  · next item items hbuffer =>
    obtain ⟨first, before, hbefore, hitems⟩ := readArrivals_took h
    obtain ⟨rfl, hrest⟩ := List.cons.inj hbefore
    exact ⟨before, hrest, by rw [hbuffer]; exact hitems⟩

end BufReader
end CsMail.Library
