import CsMail.Smtp.Receiver

/-! What a phase makes of a stream.

How the bytes were cut into reads is invisible to a phase, except where `STARTTLS` asks
whether anything was read behind it (`phase_agree`). A message is what the rows up to its
end hold, and whatever a sender stuffs is what is read (`data_stuffed`, `data_rows`). -/
namespace CsMail.Smtp
open Library

/-! ### Streams cut differently -/

/-- The bytes still to come are the same, and so is what ends them. -/
def SameBytes (io io' : Io) : Prop := io.pending IoError.unexpectedEof = io'.pending IoError.unexpectedEof

/-- Answers to a read of the same bytes. -/
def ReadAgree (a b : Except IoError Bytes × Io) : Prop :=
  (∃ bytes io io', a = (.ok bytes, io) ∧ b = (.ok bytes, io') ∧ SameBytes io io') ∨
    ∃ e io io', a = (.error e, io) ∧ b = (.error e, io')

theorem readUntil_agree {io io' : Io} (h : SameBytes io io') (max : ℕ) :
    ReadAgree (io.readUntil lf max .unexpectedEof .invalidData) (io'.readUntil lf max .unexpectedEof .invalidData) := by
  have heq : BufReader.answer IoError.unexpectedEof (io.readUntil lf max .unexpectedEof .invalidData) =
      BufReader.answer IoError.unexpectedEof (io'.readUntil lf max .unexpectedEof .invalidData) := by
    rw [BufReader.readUntil_eq, BufReader.readUntil_eq, h]
  generalize io.readUntil lf max IoError.unexpectedEof .invalidData = a at heq ⊢
  generalize io'.readUntil lf max IoError.unexpectedEof .invalidData = b at heq ⊢
  obtain ⟨a | bytes, r⟩ := a
  · obtain ⟨b | bytes', r'⟩ := b
    · cases heq
      exact .inr ⟨a, r, r', rfl, rfl⟩
    · cases heq
  · obtain ⟨b | bytes', r'⟩ := b
    · cases heq
    · obtain ⟨rfl, hpending⟩ := Prod.mk.inj (Except.ok.inj heq)
      exact .inl ⟨bytes, r, r', rfl, rfl, hpending⟩

theorem line_agree {io io' : Io} (h : SameBytes io io') (max : ℕ) : ReadAgree (line max io) (line max io') := by
  rcases readUntil_agree h max with ⟨bytes, a, b, ha, hb, hsame⟩ | ⟨e, a, b, ha, hb⟩
  · simp only [line, ha, hb]
    split_ifs
    · exact .inl ⟨bytes, a, b, rfl, rfl, hsame⟩
    · exact .inr ⟨_, a, b, rfl, rfl⟩
  · simp only [line, ha, hb]
    exact .inr ⟨e, a, b, rfl, rfl⟩

theorem rows_agree {io io' : Io} (h : SameBytes io io') (turns : ℕ) (bytes : Bytes) :
    ReadAgree (rows turns bytes io) (rows turns bytes io') := by
  induction turns generalizing bytes io io' with
  | zero => exact .inr ⟨_, io, io', rfl, rfl⟩
  | succ turns ih =>
    rcases line_agree h 1001 with ⟨row, a, b, ha, hb, hsame⟩ | ⟨e, a, b, ha, hb⟩
    · simp only [rows, ha, hb]
      split_ifs
      · exact .inl ⟨_, a, b, rfl, rfl, hsame⟩
      · exact .inr ⟨_, a, b, rfl, rfl⟩
      · exact ih hsame _
    · simp only [rows, ha, hb]
      exact .inr ⟨e, a, b, rfl, rfl⟩

theorem data_agree {io io' : Io} (h : SameBytes io io') : ReadAgree (data io) (data io') := by
  unfold data
  rw [h]
  exact rows_agree h _ _

/-! ### Dialogues over such streams -/

/-- The sessions differ in their reader at most. -/
def Alike (s s' : Session) : Prop := ∃ io, s' = {s with io}

/-- The sessions differ at most in how the same bytes will arrive. -/
def Same (s s' : Session) : Prop := ∃ io, SameBytes s.io io ∧ s' = {s with io}

theorem same_of {s : Session} {io : Io} (hio : SameBytes s.io io) : Same s {s with io} := ⟨io, hio, rfl⟩

/-- One of the streams carried something behind `STARTTLS` and the other did not. -/
def Forked (s s' : Session) (e e' : Ending) : Prop :=
  s.heard = s'.heard ∧ s.delivered = s'.delivered ∧ s.replies.dropLast = s'.replies.dropLast ∧
    (e = .upgrade ∧ e' = .done ∨ e = .done ∧ e' = .upgrade)

/-- Turns that agree up to the stream. -/
inductive TurnAgree (encrypted : Bool) : Turn → Turn → Prop
  | again {s s' : Session} (h : Same s s') : TurnAgree encrypted (s, none) (s', none)
  | ended {s s' : Session} {e : Ending} (h : Alike s s') : TurnAgree encrypted (s, some e) (s', some e)
  | forked {s s' : Session} {e e' : Ending} (hclear : encrypted = false) (h : Forked s s' e e') :
      TurnAgree encrypted (s, some e) (s', some e')

section Agree
variable (g : Gateway) {encrypted : Bool}

theorem reply_agree {s s' : Session} (hs : Alike s s') (text : Text) {next next' : Session → Turn}
    (hnext : TurnAgree encrypted (next {s with replies := s.replies ++ [text]})
      (next' {s' with replies := s.replies ++ [text]})) :
    TurnAgree encrypted (s.reply g text next) (s'.reply g text next') := by
  obtain ⟨io, rfl⟩ := hs
  unfold Session.reply
  cases g.takes s.replies.length with
  | error e => exact .ended ⟨io, rfl⟩
  | ok => exact hnext

/-- A reply after which the loop goes on. -/
theorem again_agree {s s' : Session} (hs : Same s s') (text : Text) :
    TurnAgree encrypted (s.reply g text Session.again) (s'.reply g text Session.again) := by
  obtain ⟨io, hio, rfl⟩ := hs
  exact reply_agree g ⟨io, rfl⟩ text (.again ⟨io, hio, rfl⟩)

/-- A reply after which the phase is over. -/
theorem stop_agree {s s' : Session} (hs : Alike s s') (text : Text) :
    TurnAgree encrypted (s.reply g text Session.stop) (s'.reply g text Session.stop) := by
  obtain ⟨io, rfl⟩ := hs
  exact reply_agree g ⟨io, rfl⟩ text (.ended ⟨io, rfl⟩)

variable {s : Session} {io : Io} (hio : SameBytes s.io io)
include hio

theorem mail_agree (argument : Text) :
    TurnAgree encrypted (s.mail g argument) (Session.mail g argument {s with io}) := by
  unfold Session.mail
  split
  · exact again_agree g (same_of hio) _
  · next address parameters hpath =>
    by_cases hvalid : (address = [] ∨ (GuestMailbox.parse address).isOk = true) ∧
        parameters.splitWhitespace.all mailParameter = true
    · rw [if_pos hvalid, if_pos hvalid]
      refine again_agree g ?_ _
      exact ⟨io, hio, rfl⟩
    · rw [if_neg hvalid, if_neg hvalid]
      exact again_agree g (same_of hio) _

theorem rcpt_agree (argument : Text) :
    TurnAgree encrypted (s.rcpt g argument) (Session.rcpt g argument {s with io}) := by
  unfold Session.rcpt
  by_cases hsome : s.recipient.isSome = true
  · rw [if_pos hsome, if_pos hsome]
    exact again_agree g (same_of hio) _
  · rw [if_neg hsome, if_neg hsome]
    split
    · split_ifs
      · refine again_agree g ?_ _
        exact ⟨io, hio, rfl⟩
      · exact again_agree g (same_of hio) _
    · exact again_agree g (same_of hio) _

theorem deliver_agree (bytes : Bytes) :
    TurnAgree encrypted (s.deliver g bytes) (Session.deliver g bytes {s with io}) := by
  unfold Session.deliver
  dsimp only
  split
  · refine again_agree g ?_ _
    exact ⟨io, hio, rfl⟩
  · exact .ended ⟨io, rfl⟩

theorem sessionData_agree : TurnAgree encrypted (s.data g) (Session.data g {s with io}) := by
  unfold Session.data
  refine reply_agree g ⟨io, rfl⟩ _ ?_
  rcases data_agree hio with ⟨bytes, a, b, ha, hb, hsame⟩ | ⟨e, a, b, ha, hb⟩
  · simp only [ha, hb]
    exact deliver_agree g hsame bytes
  · simp only [ha, hb]
    cases e with
    | invalidData => exact stop_agree g ⟨b, rfl⟩ _
    | unexpectedEof => exact stop_agree g ⟨b, rfl⟩ _
    | timedOut => exact stop_agree g ⟨b, rfl⟩ _
    | other => exact stop_agree g ⟨b, rfl⟩ _

omit hio in
/-- `STARTTLS` is where the streams may part. -/
theorem startTls_agree :
    TurnAgree false (s.perform g false .startTls) (Session.perform g false {s with io} .startTls) := by
  unfold Session.perform Session.reply
  dsimp only
  cases htakes : g.takes s.replies.length with
  | error e =>
    split_ifs
    · exact .ended ⟨io, rfl⟩
    · exact .ended ⟨io, rfl⟩
    · exact .ended ⟨io, rfl⟩
    · exact .ended ⟨io, rfl⟩
  | ok =>
    split_ifs
    · exact .ended ⟨io, rfl⟩
    · exact .forked rfl ⟨rfl, rfl, by simp, .inr ⟨rfl, rfl⟩⟩
    · exact .forked rfl ⟨rfl, rfl, by simp, .inl ⟨rfl, rfl⟩⟩
    · exact .ended ⟨io, rfl⟩

theorem perform_agree {c : Command} (hc : c = .startTls → encrypted = false) :
    TurnAgree encrypted (s.perform g encrypted c) (Session.perform g encrypted {s with io} c) := by
  cases c with
  | quit => exact stop_agree g ⟨io, rfl⟩ _
  | noop => exact again_agree g (same_of hio) _
  | rset =>
    refine again_agree g ?_ _
    exact ⟨io, hio, rfl⟩
  | hello extended name =>
    refine again_agree g ?_ _
    exact ⟨io, hio, rfl⟩
  | startTls =>
    cases hc rfl
    exact startTls_agree g
  | mail argument => exact mail_agree g hio argument
  | rcpt argument => exact rcpt_agree g hio argument
  | data => exact sessionData_agree g hio
  | unavailable => exact again_agree g (same_of hio) _
  | invalid => exact again_agree g (same_of hio) _

omit hio in
/-- An encrypted phase has no `STARTTLS`. -/
theorem clear_of_startTls {text : Text} (h : s.command encrypted text = .startTls) : encrypted = false := by
  unfold Session.command at h
  dsimp only at h
  split_ifs at h with _ _ _ _ hstart
  simpa using hstart.2.2.1

theorem turn_agree : TurnAgree encrypted (s.turn g encrypted) (Session.turn g encrypted {s with io}) := by
  unfold Session.turn
  rcases line_agree hio 512 with ⟨raw, a, b, ha, hb, hsame⟩ | ⟨e, a, b, ha, hb⟩
  · simp only [ha, hb]
    cases commandText raw with
    | none => exact .ended ⟨b, rfl⟩
    | some text => exact perform_agree g (s := {s with io := a, heard := s.heard ++ [raw]}) hsame clear_of_startTls
  · simp only [ha, hb, Session.reply]
    cases g.takes s.replies.length with
    | error e => exact .ended ⟨b, rfl⟩
    | ok => exact .ended ⟨b, rfl⟩

end Agree

/-- Phases over one stream of bytes. -/
def PhaseAgree (encrypted : Bool) (p q : Session × Ending) : Prop :=
  Alike p.1 q.1 ∧ p.2 = q.2 ∨ encrypted = false ∧ Forked p.1 q.1 p.2 q.2

theorem turns_agree (g : Gateway) (encrypted : Bool) (n : ℕ) {s s' : Session} (hs : Same s s') :
    PhaseAgree encrypted (s.turns g encrypted n) (s'.turns g encrypted n) := by
  induction n generalizing s s' with
  | zero =>
    obtain ⟨io, -, rfl⟩ := hs
    unfold Session.turns Session.reply
    dsimp only
    cases g.takes s.replies.length with
    | error e => exact .inl ⟨⟨io, rfl⟩, rfl⟩
    | ok => exact .inl ⟨⟨io, rfl⟩, rfl⟩
  | succ n ih =>
    obtain ⟨io, hio, rfl⟩ := hs
    have hturn : TurnAgree encrypted (s.turn g encrypted) (Session.turn g encrypted {s with io}) := turn_agree g hio
    unfold Session.turns
    generalize s.turn g encrypted = t at hturn ⊢
    generalize Session.turn g encrypted {s with io} = t' at hturn ⊢
    cases hturn with
    | again h => exact ih h
    | ended h => exact .inl ⟨h, rfl⟩
    | forked hclear h => exact .inr ⟨hclear, h⟩

/-- **A phase depends on the bytes of its stream, not on the reads that brought them**: two streams of the same
bytes lead to the same replies, the same mail handed over and the same end. In clear text there is one
exception, an accepted `STARTTLS` with bytes already read behind it. -/
theorem phase_agree (g : Gateway) (encrypted : Bool) {stream stream' : Stream}
    (h : BufReader.arriving IoError.unexpectedEof stream = BufReader.arriving IoError.unexpectedEof stream') :
    PhaseAgree encrypted (phase g encrypted stream) (phase g encrypted stream') := by
  have hbytes : SameBytes ⟨[], stream⟩ ⟨[], stream'⟩ := by rw [SameBytes, BufReader.pending, BufReader.pending, h]
  have hsame : Same (Session.start stream) (Session.start stream') := ⟨⟨[], stream'⟩, hbytes, rfl⟩
  unfold phase
  cases encrypted with
  | true => exact turns_agree g true 100 hsame
  | false =>
    unfold Session.reply
    dsimp only [Session.start]
    cases g.takes ([] : List Text).length with
    | error e => exact .inl ⟨⟨_, rfl⟩, rfl⟩
    | ok => exact turns_agree g false 100 ⟨_, hbytes, rfl⟩

namespace Example

def gateway : Gateway where
  domain := ⟨"mail.example".toList⟩
  peer := .v4 0
  takes _ := .ok ()
  deliver _ _ := .ok .admitted

theorem phase_agree_example : PhaseAgree true
    (phase gateway true [.chunk (Text.utf8 "QU".toList), .chunk (Text.utf8 "IT\r\n".toList)])
    (phase gateway true [.chunk (Text.utf8 "QUIT\r\n".toList)]) :=
  phase_agree gateway true rfl

end Example

/-! ### Messages -/

/-- A complete line: it ends as lines must, holds no NUL and no other end. -/
def IsLine (l : Bytes) : Prop := framed l = true ∧ ∃ front, l = front ++ [lf] ∧ lf ∉ front

theorem line_eq_ok {max : ℕ} {io : Io} {l : Bytes} {rest : Bytes × IoError} :
    (∃ io', line max io = (.ok l, io') ∧ io'.pending IoError.unexpectedEof = rest) ↔
      IsLine l ∧ l.length ≤ max ∧ io.pending IoError.unexpectedEof = (l ++ rest.1, rest.2) := by
  have hread : (∃ io', io.readUntil lf max IoError.unexpectedEof IoError.invalidData = (.ok l, io') ∧
      io'.pending IoError.unexpectedEof = rest) ↔ (∃ front, l = front ++ [lf] ∧ lf ∉ front) ∧
        l.length ≤ max ∧ io.pending IoError.unexpectedEof = (l ++ rest.1, rest.2) := BufReader.readUntil_eq_ok
  rw [IsLine, and_assoc, ← hread]
  unfold line
  rcases io.readUntil lf max IoError.unexpectedEof .invalidData with ⟨a, io'⟩
  cases a with
  | error e => simp
  | ok result =>
    dsimp only
    split_ifs with hframed
    · simp only [Prod.mk.injEq, Except.ok.injEq]
      constructor
      · rintro ⟨io'', ⟨rfl, rfl⟩, h⟩
        exact ⟨hframed, _, ⟨rfl, rfl⟩, h⟩
      · rintro ⟨-, h⟩
        exact h
    · simp only [Prod.mk.injEq, reduceCtorEq, false_and, exists_false, false_iff, Except.ok.injEq]
      rintro ⟨h, io'', ⟨rfl, -⟩, -⟩
      exact hframed h

/-- A row of a message as it is sent. -/
structure WireRow (row : Bytes) : Prop where
  line : IsLine row
  content : row ≠ endOfData
  sent : row.length ≤ 1001
  kept : (unstuffed row).length ≤ 1000

theorem endOfData_line : IsLine endOfData := ⟨by decide, [dot, cr], rfl, by decide⟩

/-- Rows are read until the end of the message, and the reader is left with what follows it. -/
theorem rows_eq_ok {turns : ℕ} {bytes all : Bytes} {io : Io} {rest : Bytes × IoError}
    (hsize : bytes.length ≤ maxEmailBytes) :
    (∃ io', rows turns bytes io = (.ok all, io') ∧ io'.pending IoError.unexpectedEof = rest) ↔
      ∃ wire : List Bytes, (∀ row ∈ wire, WireRow row) ∧ wire.length < turns ∧
        all = bytes ++ (wire.map unstuffed).flatten ∧ all.length ≤ maxEmailBytes ∧
        io.pending IoError.unexpectedEof = (wire.flatten ++ endOfData ++ rest.1, rest.2) := by
  induction turns generalizing bytes io with
  | zero => simp [rows]
  | succ turns ih =>
    constructor
    · rintro ⟨io', h, hrest⟩
      unfold rows at h
      cases hline : line 1001 io with
      | mk a io₁ =>
      rw [hline] at h
      cases a with
      | error e => cases (Prod.mk.inj h).1
      | ok row =>
        obtain ⟨hrow, hlen, hpending⟩ := line_eq_ok.mp ⟨io₁, hline, rfl⟩
        dsimp only at h
        split_ifs at h with hend hlong
        · obtain ⟨hall, rfl⟩ := Prod.mk.inj h
          cases hall
          refine ⟨[], nofun, Nat.succ_pos _, by simp, hsize, ?_⟩
          rw [hpending, hend, hrest]
          rfl
        · cases (Prod.mk.inj h).1
        · rw [not_or, Nat.not_lt, Nat.not_lt] at hlong
          obtain ⟨wire, hwire, hturns, hall, hmax, hio₁⟩ :=
            (ih (by rw [List.length_append]; exact hlong.2)).mp ⟨io', h, hrest⟩
          refine ⟨row :: wire, List.forall_mem_cons.mpr ⟨⟨hrow, hend, hlen, hlong.1⟩, hwire⟩, ?_, ?_, hmax, ?_⟩
          · rw [List.length_cons]
            omega
          · rw [hall, List.map_cons, List.flatten_cons, List.append_assoc]
          · rw [hpending, hio₁, List.flatten_cons]
            simp only [List.append_assoc]
    · rintro ⟨wire, hwire, hturns, hall, hmax, hio⟩
      cases wire with
      | nil =>
        obtain ⟨io', hline, hrest⟩ := line_eq_ok.mpr ⟨endOfData_line, (by decide : endOfData.length ≤ 1001),
          (by rw [hio]; rfl : io.pending IoError.unexpectedEof = (endOfData ++ rest.1, rest.2))⟩
        refine ⟨io', ?_, hrest⟩
        rw [rows, hline]
        simp [hall]
      | cons row wire =>
        obtain ⟨⟨hrow, hend, hlen, hkept⟩, hrows⟩ := List.forall_mem_cons.mp hwire
        have hpending : io.pending IoError.unexpectedEof = (row ++ (wire.flatten ++ endOfData ++ rest.1), rest.2) := by
          rw [hio, List.flatten_cons]
          simp only [List.append_assoc]
        have hread : ∃ io₁, line 1001 io = (.ok row, io₁) ∧
            io₁.pending IoError.unexpectedEof = (wire.flatten ++ endOfData ++ rest.1, rest.2) :=
          line_eq_ok.mpr ⟨hrow, hlen, hpending⟩
        obtain ⟨io₁, hline, hio₁⟩ := hread
        rw [List.map_cons, List.flatten_cons, ← List.append_assoc] at hall
        have hfits : (bytes ++ unstuffed row).length ≤ maxEmailBytes := by
          rw [hall, List.length_append] at hmax
          omega
        obtain ⟨io', hrest', hrest⟩ := (ih hfits).mpr ⟨wire, hrows, Nat.lt_of_succ_lt_succ hturns, hall, hmax, hio₁⟩
        refine ⟨io', ?_, hrest⟩
        rw [List.length_append] at hfits
        rw [rows, hline]
        dsimp only
        rw [if_neg hend, if_neg (by omega), hrest']

theorem length_pos_of_isLine {l : Bytes} (h : IsLine l) : 0 < l.length := by
  obtain ⟨-, front, rfl, -⟩ := h
  simp

theorem length_le_flatten {wire : List Bytes} (h : ∀ row ∈ wire, 0 < row.length) : wire.length ≤ wire.flatten.length := by
  induction wire with
  | nil => exact Nat.le_refl 0
  | cons row wire ih =>
    obtain ⟨hrow, hrest⟩ := List.forall_mem_cons.mp h
    have := ih hrest
    rw [List.flatten_cons, List.length_append, List.length_cons]
    omega

/-- What `data` reads: the rows up to the end of the message, each without the dot it was stuffed with. -/
theorem data_eq_ok {bytes : Bytes} {io : Io} {rest : Bytes × IoError} :
    (∃ io', data io = (.ok bytes, io') ∧ io'.pending IoError.unexpectedEof = rest) ↔
      ∃ wire : List Bytes, (∀ row ∈ wire, WireRow row) ∧ bytes = (wire.map unstuffed).flatten ∧
        bytes.length ≤ maxEmailBytes ∧ io.pending IoError.unexpectedEof = (wire.flatten ++ endOfData ++ rest.1, rest.2) := by
  unfold data
  rw [rows_eq_ok (Nat.zero_le _)]
  refine exists_congr fun wire => and_congr_right fun hwire => ?_
  rw [List.nil_append]
  constructor
  · rintro ⟨-, h⟩
    exact h
  · rintro ⟨hbytes, hmax, hio⟩
    have hlen := length_le_flatten fun row hrow => length_pos_of_isLine (hwire row hrow).line
    refine ⟨?_, hbytes, hmax, hio⟩
    rw [hio]
    simp only [List.length_append]
    omega

/-- A line that a message may have. -/
def MessageLine (l : Bytes) : Prop := IsLine l ∧ l.length ≤ 1000

/-- A line as a sender sends it: with a dot before the one it may begin with. -/
def stuffed (l : Bytes) : Bytes := if l.head? = some dot then dot :: l else l

theorem unstuffed_stuffed (l : Bytes) : unstuffed (stuffed l) = l := by
  unfold stuffed
  split_ifs with h
  · rfl
  · exact if_neg h

theorem isLine_dot {l : Bytes} (h : IsLine l) : IsLine (dot :: l) := by
  obtain ⟨hframed, front, rfl, hfront⟩ := h
  simp only [framed, decide_eq_true_eq] at hframed
  refine ⟨?_, dot :: front, rfl, ?_⟩
  · simp only [framed, decide_eq_true_eq, List.mem_cons, not_or]
    exact ⟨hframed.1.trans (List.suffix_cons dot _), by decide, hframed.2⟩
  · rw [List.mem_cons, not_or]
    exact ⟨by decide, hfront⟩

theorem wireRow_stuffed {l : Bytes} (h : MessageLine l) : WireRow (stuffed l) := by
  obtain ⟨hline, hlen⟩ := h
  refine ⟨?_, ?_, ?_, by rw [unstuffed_stuffed]; exact hlen⟩
  · unfold stuffed
    split_ifs
    · exact isLine_dot hline
    · exact hline
  · intro hend
    have hl := congrArg unstuffed hend
    rw [unstuffed_stuffed] at hl
    rw [hl] at hend
    exact absurd hend (by decide)
  · unfold stuffed
    split_ifs
    · rw [List.length_cons]
      omega
    · omega

/-- A row that does not end the message holds one line of it. -/
theorem messageLine_unstuffed {row : Bytes} (h : WireRow row) : MessageLine (unstuffed row) := by
  refine ⟨?_, h.kept⟩
  by_cases hdot : row.head? = some dot
  · rw [unstuffed, if_pos hdot]
    obtain ⟨hframed, front, rfl, hfront⟩ := h.line
    simp only [framed, decide_eq_true_eq] at hframed
    cases front with
    | nil => exact absurd hdot (by decide)
    | cons first front =>
      rw [List.mem_cons, not_or] at hfront
      rw [List.cons_append, List.mem_cons, not_or] at hframed
      refine ⟨?_, front, rfl, hfront.2⟩
      simp only [framed, decide_eq_true_eq]
      refine ⟨?_, hframed.2.2⟩
      rcases List.suffix_cons_iff.mp hframed.1 with hall | hrest
      · rw [List.cons_append, ← hall] at hdot
        exact absurd hdot (by decide)
      · exact hrest
  · rw [unstuffed, if_neg hdot]
    exact h.line

/-- **A message arrives as it was sent, and ends where its sender ended it.** Lines stuffed by a sender are read
back, with what follows the end left to read; and whatever is read as a message is such lines, each sent plain or
behind one dot, the first bare dot on a line of its own being its end. -/
theorem data_transparent :
    (∀ (lines : List Bytes) (io : Io) (rest : Bytes × IoError), (∀ l ∈ lines, MessageLine l) →
      lines.flatten.length ≤ maxEmailBytes →
      io.pending IoError.unexpectedEof = ((lines.map stuffed).flatten ++ endOfData ++ rest.1, rest.2) →
      ∃ io', data io = (.ok lines.flatten, io') ∧ io'.pending IoError.unexpectedEof = rest) ∧
    (∀ (io io' : Io) (bytes : Bytes), data io = (.ok bytes, io') →
      ∃ wire lines : List Bytes, bytes = lines.flatten ∧ (∀ l ∈ lines, MessageLine l) ∧
        bytes.length ≤ maxEmailBytes ∧ endOfData ∉ wire ∧
        List.Forall₂ (fun row l => row = l ∨ row = dot :: l) wire lines ∧
        io.pending IoError.unexpectedEof = (wire.flatten ++ endOfData ++ (io'.pending IoError.unexpectedEof).1,
          (io'.pending IoError.unexpectedEof).2)) := by
  constructor
  · intro lines io rest hlines hmax hio
    refine data_eq_ok.mpr ⟨lines.map stuffed, ?_, ?_, hmax, hio⟩
    · rw [List.forall_mem_map]
      exact fun l hl => wireRow_stuffed (hlines l hl)
    · have hid : unstuffed ∘ stuffed = id := funext unstuffed_stuffed
      rw [List.map_map, hid, List.map_id]
  · intro io io' bytes h
    obtain ⟨wire, hwire, hbytes, hmax, hio⟩ := data_eq_ok.mp ⟨io', h, rfl⟩
    refine ⟨wire, wire.map unstuffed, hbytes, ?_, hmax, fun hend => (hwire _ hend).content rfl, ?_, hio⟩
    · rw [List.forall_mem_map]
      exact fun row hrow => messageLine_unstuffed (hwire row hrow)
    · rw [List.forall₂_map_right_iff, List.forall₂_same]
      intro row hrow
      by_cases hdot : row.head? = some dot
      · rw [unstuffed, if_pos hdot]
        exact .inr (List.eq_cons_of_mem_head? hdot)
      · rw [unstuffed, if_neg hdot]
        exact .inl rfl

end CsMail.Smtp
