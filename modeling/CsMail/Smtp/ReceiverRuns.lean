import CsMail.Smtp.ReceiverProofs

/-! What a phase hands over, and what it leaves to a handshake.

The lines heard are read as a sequence of transactions: each mail has its own opening,
recipient and closing line, no reset lies among them, and no line serves two mails
(`phase_transacted`). An upgrade is granted only where the bytes taken from the
connection end with the command that asks for it (`phase_upgrade`). -/
namespace CsMail.Smtp
open Library

/-! ### What lines say -/

/-- The verb and the argument of a line. -/
def said (raw : Bytes) : Option (Text × Text) := (commandText raw).map verbOf

/-- The line introduces the peer by a name. -/
def Greets (raw : Bytes) (name : Text) : Prop :=
  (said raw = some ("EHLO".toList, name) ∨ said raw = some ("HELO".toList, name)) ∧ helloName name = true

def Resets (raw : Bytes) : Prop := said raw = some ("RSET".toList, []) ∨ ∃ name, Greets raw name

/-- The line gives a reverse path. -/
def Opens (raw : Bytes) (mailFrom : Option Text) : Prop :=
  ∃ argument address parameters, said raw = some ("MAIL".toList, argument) ∧
    path argument "FROM:" = some (address, parameters) ∧ mailFrom = if address = [] then none else some address

/-- The line gives a recipient. -/
def Names (raw : Bytes) (address : Text) : Prop :=
  ∃ argument, said raw = some ("RCPT".toList, argument) ∧ path argument "TO:" = some (address, [])

def Completes (raw : Bytes) : Prop := said raw = some ("DATA".toList, [])

/-- The last introduction among the lines was by this name. -/
def Introduced (lines : List Bytes) (name : Text) : Prop :=
  ∃ before l after, lines = before ++ l :: after ∧ Greets l name ∧ ∀ x ∈ after, ∀ n, ¬Greets x n

/-- A mail and the lines that made it, after those of an earlier part of the dialogue. -/
structure Transaction (g : Gateway) (earlier segment : List Bytes) (mail : IncomingMail) : Prop where
  lines : ∃ opening mid naming last closing, segment = opening :: (mid ++ naming :: last) ++ [closing] ∧
    Opens opening mail.mailFrom ∧ Names naming mail.recipient ∧ Completes closing ∧
    (∀ x ∈ mid ++ naming :: last, ¬Resets x) ∧ ∀ x ∈ last, ¬Completes x
  introduced : Introduced earlier mail.helo
  routed : (destinationAddress mail.recipient g.domain).isOk = true
  bounded : mail.data.length ≤ maxEmailBytes
  peer : mail.remoteIp = g.peer

/-- The mails handed over in the course of the lines, each by lines of its own. -/
inductive Transacted (g : Gateway) : List Bytes → List IncomingMail → Prop
  | start : Transacted g [] []
  | other {lines : List Bytes} {mails : List IncomingMail} (l : Bytes) (h : Transacted g lines mails) :
      Transacted g (lines ++ [l]) mails
  | mail {lines segment : List Bytes} {mails : List IncomingMail} {mail : IncomingMail}
      (h : Transacted g lines mails) (hmail : Transaction g lines segment mail) :
      Transacted g (lines ++ segment) (mails ++ [mail])

/-! ### Which arm a line takes -/

section Arms
variable {s : Session} {encrypted : Bool} {raw : Bytes} {text : Text} (htext : commandText raw = some text)
include htext

theorem said_eq : said raw = some (verbOf text) := by rw [said, htext]; rfl

theorem greets_of_hello {extended : Bool} {name : Text} (h : s.command encrypted text = .hello extended name) :
    Greets raw name := by
  unfold Session.command at h
  dsimp only at h
  split_ifs at h with _ _ _ hhello
  cases h
  refine ⟨?_, hhello.2⟩
  rw [said_eq htext]
  exact hhello.1.imp (fun hverb => congrArg some (Prod.ext hverb rfl)) fun hverb => congrArg some (Prod.ext hverb rfl)

theorem said_of_rset (h : s.command encrypted text = .rset) : said raw = some ("RSET".toList, []) := by
  unfold Session.command at h
  dsimp only at h
  split_ifs at h with _ _ hrset
  rw [said_eq htext]
  exact congrArg some (Prod.ext hrset.1 hrset.2)

theorem said_of_mail {argument : Text} (h : s.command encrypted text = .mail argument) :
    said raw = some ("MAIL".toList, argument) ∧ s.sender = none := by
  unfold Session.command at h
  dsimp only at h
  split_ifs at h with _ _ _ _ _ hmail
  cases h
  refine ⟨?_, by simpa using hmail.2.2⟩
  rw [said_eq htext]
  exact congrArg some (Prod.ext hmail.1 rfl)

theorem said_of_rcpt {argument : Text} (h : s.command encrypted text = .rcpt argument) :
    said raw = some ("RCPT".toList, argument) ∧ s.sender.isSome = true := by
  unfold Session.command at h
  dsimp only at h
  split_ifs at h with _ _ _ _ _ _ hrcpt
  cases h
  refine ⟨?_, hrcpt.2⟩
  rw [said_eq htext]
  exact congrArg some (Prod.ext hrcpt.1 rfl)

theorem completes_of_data (h : s.command encrypted text = .data) : Completes raw := by
  unfold Session.command at h
  dsimp only at h
  split_ifs at h with _ _ _ _ _ _ _ hdata
  rw [Completes, said_eq htext]
  exact congrArg some (Prod.ext hdata.1 hdata.2.1)

theorem said_of_startTls (h : s.command encrypted text = .startTls) : said raw = some ("STARTTLS".toList, []) := by
  unfold Session.command at h
  dsimp only at h
  split_ifs at h with _ _ _ _ hstart
  rw [said_eq htext]
  exact congrArg some (Prod.ext hstart.1 hstart.2.1)

theorem command_of_resets (h : Resets raw) :
    s.command encrypted text = .rset ∨ ∃ extended name, s.command encrypted text = .hello extended name := by
  rw [Resets, said_eq htext] at h
  unfold Session.command
  dsimp only
  rcases h with hreset | ⟨name, hgreets, hname⟩
  · rw [Option.some.inj hreset]
    exact .inl rfl
  · rw [said_eq htext] at hgreets
    rcases hgreets with hverb | hverb
    · rw [Option.some.inj hverb]
      exact .inr ⟨true, name, by simp [hname]⟩
    · rw [Option.some.inj hverb]
      exact .inr ⟨false, name, by simp [hname]⟩

theorem command_of_completes (h : Completes raw) (hsender : s.sender.isSome = true)
    (hrecipient : s.recipient.isSome = true) : s.command encrypted text = .data := by
  rw [Completes, said_eq htext] at h
  unfold Session.command
  dsimp only
  rw [Option.some.inj h]
  simp [hsender, hrecipient]

end Arms

/-! ### What a turn keeps -/

/-- Where an open transaction stands: its opening line and those after it. -/
structure Opened (g : Gateway) (s : Session) (mailFrom : Option Text) (earlier late : List Bytes) (opening : Bytes) :
    Prop where
  heard : s.heard = earlier ++ opening :: late
  served : Transacted g earlier s.delivered
  opens : Opens opening mailFrom
  quiet : ∀ x ∈ late, ¬Resets x
  introduced : ∀ name, s.helo = some name → Introduced earlier name
  named : ∀ address, s.recipient = some address → ∃ mid naming last, late = mid ++ naming :: last ∧
    Names naming address ∧ (destinationAddress address g.domain).isOk = true ∧ ∀ x ∈ last, ¬Completes x

/-- What the state owes to the lines heard. -/
structure Kept (g : Gateway) (s : Session) : Prop where
  served : Transacted g s.heard s.delivered
  introduced : ∀ name, s.helo = some name → Introduced s.heard name
  opened : ∀ mailFrom, s.sender = some mailFrom → ∃ earlier late opening, Opened g s mailFrom earlier late opening
  unnamed : s.sender = none → s.recipient = none

/-- What a turn owes: all the mail handed over is accounted for, and so is the state the loop goes on in. -/
def Holds (g : Gateway) (t : Turn) : Prop := Transacted g t.1.heard t.1.delivered ∧ (t.2 = none → Kept g t.1)

variable {g : Gateway} {s : Session}

theorem kept_start (stream : Stream) : Kept g (Session.start stream) :=
  ⟨.start, nofun, nofun, fun _ => rfl⟩

theorem reply_holds {text : Text} {next : Session → Turn} (hserved : Transacted g s.heard s.delivered)
    (hnext : Holds g (next {s with replies := s.replies ++ [text]})) : Holds g (s.reply g text next) := by
  unfold Session.reply
  cases g.takes s.replies.length with
  | error e => exact ⟨hserved, nofun⟩
  | ok => exact hnext

theorem Kept.replied (h : Kept g s) (text : Text) : Kept g {s with replies := s.replies ++ [text]} where
  served := h.served
  introduced := h.introduced
  opened mailFrom hsender := by
    obtain ⟨earlier, late, opening, ho⟩ := h.opened mailFrom hsender
    exact ⟨earlier, late, opening, ho.heard, ho.served, ho.opens, ho.quiet, ho.introduced, ho.named⟩
  unnamed := h.unnamed

theorem again_holds (h : Kept g s) (text : Text) : Holds g (s.reply g text Session.again) :=
  reply_holds h.served ⟨h.served, fun _ => h.replied text⟩

theorem stop_holds (h : Transacted g s.heard s.delivered) (text : Text) : Holds g (s.reply g text Session.stop) :=
  reply_holds h ⟨h, nofun⟩

theorem Introduced.snoc {lines : List Bytes} {name : Text} {l : Bytes} (h : Introduced lines name)
    (hl : ∀ n, ¬Greets l n) : Introduced (lines ++ [l]) name := by
  obtain ⟨before, x, after, rfl, hx, hafter⟩ := h
  refine ⟨before, x, after ++ [l], by simp, hx, ?_⟩
  rw [List.forall_mem_append, List.forall_mem_singleton]
  exact ⟨hafter, hl⟩

theorem not_greets_of_not_resets {l : Bytes} (h : ¬Resets l) : ∀ n, ¬Greets l n :=
  fun n hn => h (.inr ⟨n, hn⟩)

theorem not_greets_of_said {l : Bytes} {verb argument : Text} (h : said l = some (verb, argument))
    (hehlo : verb ≠ "EHLO".toList) (hhelo : verb ≠ "HELO".toList) : ∀ n, ¬Greets l n := by
  rintro n ⟨hgreets | hgreets, -⟩
  · rw [h] at hgreets
    exact hehlo (congrArg Prod.fst (Option.some.inj hgreets))
  · rw [h] at hgreets
    exact hhelo (congrArg Prod.fst (Option.some.inj hgreets))

theorem not_resets_of_said {l : Bytes} {verb argument : Text} (h : said l = some (verb, argument))
    (hrset : verb ≠ "RSET".toList) (hehlo : verb ≠ "EHLO".toList) (hhelo : verb ≠ "HELO".toList) : ¬Resets l := by
  rintro (hreset | ⟨name, hgreets⟩)
  · rw [h] at hreset
    exact hrset (congrArg Prod.fst (Option.some.inj hreset))
  · exact not_greets_of_said h hehlo hhelo name hgreets

/-- A line that neither resets the state nor completes the transaction leaves the account as it was. -/
theorem Kept.hear (h : Kept g s) {l : Bytes} (io : Io) (hl : ¬Resets l)
    (hcomplete : s.sender.isSome = true → s.recipient.isSome = true → ¬Completes l) :
    Kept g {s with io, heard := s.heard ++ [l]} where
  served := .other l h.served
  introduced name hname := (h.introduced name hname).snoc (not_greets_of_not_resets hl)
  opened mailFrom hsender := by
    obtain ⟨earlier, late, opening, ho⟩ := h.opened mailFrom hsender
    refine ⟨earlier, late ++ [l], opening, ?_, ho.served, ho.opens, ?_, ho.introduced, ?_⟩
    · show s.heard ++ [l] = _
      rw [ho.heard, List.append_assoc, List.cons_append]
    · rw [List.forall_mem_append, List.forall_mem_singleton]
      exact ⟨ho.quiet, hl⟩
    · intro address haddress
      obtain ⟨mid, naming, last, hlate, hnames, hrouted, hlast⟩ := ho.named address haddress
      refine ⟨mid, naming, last ++ [l], by rw [hlate, List.append_assoc, List.cons_append], hnames, hrouted, ?_⟩
      rw [List.forall_mem_append, List.forall_mem_singleton]
      refine ⟨hlast, hcomplete ?_ ?_⟩
      · exact Option.isSome_iff_exists.mpr ⟨mailFrom, hsender⟩
      · exact Option.isSome_iff_exists.mpr ⟨address, haddress⟩
  unnamed := h.unnamed

/-! ### Turns -/

section Turns
variable {encrypted : Bool} {raw : Bytes} {text : Text} {io : Io}

/-- The session when a command is looked at. -/
def Session.hears (s : Session) (io : Io) (raw : Bytes) : Session := {s with io, heard := s.heard ++ [raw]}

theorem reset_holds (h : Kept g s) (hgreets : ∀ n, ¬Greets raw n) (text : Text) :
    Holds g ((s.hears io raw).reset.reply g text Session.again) := by
  refine again_holds ?_ text
  refine ⟨.other raw h.served, ?_, nofun, fun _ => rfl⟩
  intro name hname
  exact (h.introduced name hname).snoc hgreets

theorem hello_holds (h : Kept g s) {name : Text} (hgreets : Greets raw name) (text : Text) :
    Holds g (Session.reply g text {(s.hears io raw).reset with helo := some name} Session.again) := by
  refine again_holds ?_ text
  refine ⟨.other raw h.served, ?_, nofun, fun _ => rfl⟩
  intro n hn
  cases hn
  exact ⟨s.heard, raw, [], rfl, hgreets, nofun⟩

theorem mail_holds (h : Kept g s) {argument : Text} (hsaid : said raw = some ("MAIL".toList, argument))
    (hsender : s.sender = none) : Holds g ((s.hears io raw).mail g argument) := by
  have hresets : ¬Resets raw := not_resets_of_said hsaid (by decide) (by decide) (by decide)
  have hear : Kept g (s.hears io raw) := h.hear io hresets fun hsome => by
    rw [hsender] at hsome
    cases hsome
  unfold Session.mail
  split
  · exact again_holds hear _
  · next address parameters hpath =>
    by_cases hvalid : (address = [] ∨ (GuestMailbox.parse address).isOk = true) ∧
        parameters.splitWhitespace.all mailParameter = true
    · rw [if_pos hvalid]
      refine again_holds ?_ _
      refine ⟨.other raw h.served, hear.introduced, ?_, nofun⟩
      intro mailFrom hmail
      cases hmail
      refine ⟨s.heard, [], raw, rfl, h.served, ⟨argument, address, parameters, hsaid, hpath, rfl⟩, nofun, h.introduced, ?_⟩
      intro recipient hrecipient
      have hnone : s.recipient = some recipient := hrecipient
      rw [h.unnamed hsender] at hnone
      cases hnone
    · rw [if_neg hvalid]
      exact again_holds hear _

theorem rcpt_holds (h : Kept g s) {argument : Text} (hsaid : said raw = some ("RCPT".toList, argument))
    (hsender : s.sender.isSome = true) : Holds g ((s.hears io raw).rcpt g argument) := by
  have hresets : ¬Resets raw := not_resets_of_said hsaid (by decide) (by decide) (by decide)
  have hear : Kept g (s.hears io raw) := h.hear io hresets fun _ _ hcompletes => by
    rw [Completes, hsaid] at hcompletes
    have hverb : "RCPT".toList = "DATA".toList := congrArg Prod.fst (Option.some.inj hcompletes)
    exact absurd hverb (by decide)
  unfold Session.rcpt
  split_ifs with hsome
  · exact again_holds hear _
  · split
    · next address hpath =>
      split_ifs with hrouted
      · refine again_holds ?_ _
        refine ⟨hear.served, hear.introduced, ?_, ?_⟩
        · intro mailFrom hmail
          obtain ⟨earlier, late, opening, ho⟩ := h.opened mailFrom hmail
          refine ⟨earlier, late ++ [raw], opening, ?_, ho.served, ho.opens, ?_, ho.introduced, ?_⟩
          · show s.heard ++ [raw] = _
            rw [ho.heard, List.append_assoc, List.cons_append]
          · rw [List.forall_mem_append, List.forall_mem_singleton]
            exact ⟨ho.quiet, hresets⟩
          · intro recipient hrecipient
            cases hrecipient
            exact ⟨late, raw, [], rfl, ⟨argument, hsaid, hpath⟩, hrouted, nofun⟩
        · intro hnone
          have hnone' : s.sender = none := hnone
          rw [hnone'] at hsender
          cases hsender
      · exact again_holds hear _
    · exact again_holds hear _

/-- The lines of an open transaction, closed by this one, and the message behind it make one mail. -/
theorem deliver_holds (h : Kept g s) (hcompletes : Completes raw) {bytes : Bytes}
    (hbytes : bytes.length ≤ maxEmailBytes) (replies : List Text) :
    Holds g (Session.deliver g bytes {(s.hears io raw) with replies}) := by
  have hresets : ¬Resets raw := not_resets_of_said hcompletes (by decide) (by decide) (by decide)
  unfold Session.deliver
  dsimp only [Session.hears]
  split
  · next helo mailFrom recipient hhelo hsender hrecipient =>
    obtain ⟨earlier, late, opening, ho⟩ := h.opened mailFrom hsender
    obtain ⟨mid, naming, last, hlate, hnames, hrouted, hlast⟩ := ho.named recipient hrecipient
    have hmail : Transaction g earlier (opening :: late ++ [raw]) ⟨g.peer, helo, mailFrom, recipient, bytes⟩ :=
      ⟨⟨opening, mid, naming, last, raw, by rw [hlate], ho.opens, hnames, hcompletes, hlate ▸ ho.quiet, hlast⟩,
        ho.introduced helo hhelo, hrouted, hbytes, rfl⟩
    have hheard : s.heard ++ [raw] = earlier ++ (opening :: late ++ [raw]) := by
      rw [ho.heard, List.append_assoc]
    refine again_holds ?_ _
    refine ⟨?_, ?_, nofun, fun _ => rfl⟩
    · show Transacted g (s.heard ++ [raw]) _
      rw [hheard]
      exact .mail ho.served hmail
    · intro name hname
      exact (h.introduced name hname).snoc (not_greets_of_not_resets hresets)
  · exact ⟨.other raw h.served, nofun⟩

theorem data_holds (h : Kept g s) (hcompletes : Completes raw) : Holds g ((s.hears io raw).data g) := by
  have hserved : Transacted g (s.heard ++ [raw]) s.delivered := .other raw h.served
  unfold Session.data
  refine reply_holds hserved ?_
  dsimp only
  cases hdata : data (s.hears io raw).io with
  | mk result io' =>
  cases result with
  | ok bytes =>
    obtain ⟨-, -, -, -, hbytes, -⟩ := data_transparent.2 _ _ _ hdata
    exact deliver_holds h hcompletes hbytes _
  | error e =>
    cases e with
    | invalidData => exact stop_holds hserved _
    | unexpectedEof => exact stop_holds hserved _
    | timedOut => exact stop_holds hserved _
    | other => exact stop_holds hserved _

theorem perform_holds (h : Kept g s) (htext : commandText raw = some text) :
    Holds g ((s.hears io raw).perform g encrypted ((s.hears io raw).command encrypted text)) := by
  have hserved : Transacted g (s.heard ++ [raw]) s.delivered := .other raw h.served
  have hear (hquiet : (s.hears io raw).command encrypted text ≠ .rset ∧
      (∀ extended name, (s.hears io raw).command encrypted text ≠ .hello extended name) ∧
      (s.hears io raw).command encrypted text ≠ .data) : Kept g (s.hears io raw) := by
    refine h.hear io (fun hresets => ?_) fun hsender hrecipient hcompletes => ?_
    · have hcommand : (s.hears io raw).command encrypted text = .rset ∨
          ∃ extended name, (s.hears io raw).command encrypted text = .hello extended name :=
        command_of_resets htext hresets
      rcases hcommand with hrset | ⟨x, n, hhello⟩
      · exact hquiet.1 hrset
      · exact hquiet.2.1 x n hhello
    · exact hquiet.2.2 (command_of_completes htext hcompletes hsender hrecipient)
  cases hc : (s.hears io raw).command encrypted text with
  | quit => exact stop_holds hserved _
  | noop => exact again_holds (hear (by simp [hc])) _
  | rset => exact reset_holds h (not_greets_of_said (said_of_rset htext hc) (by decide) (by decide)) _
  | hello extended name => exact hello_holds h (greets_of_hello htext hc) _
  | startTls =>
    unfold Session.perform
    dsimp only
    split_ifs
    · exact stop_holds hserved _
    · exact reply_holds hserved ⟨hserved, nofun⟩
  | mail argument =>
    obtain ⟨hsaid, hsender⟩ := said_of_mail htext hc
    exact mail_holds h hsaid hsender
  | rcpt argument =>
    obtain ⟨hsaid, hsender⟩ := said_of_rcpt htext hc
    exact rcpt_holds h hsaid hsender
  | data => exact data_holds h (completes_of_data htext hc)
  | unavailable => exact again_holds (hear (by simp [hc])) _
  | invalid => exact again_holds (hear (by simp [hc])) _

end Turns

/-! ### The mail of a phase -/

theorem turn_holds {encrypted : Bool} (h : Kept g s) : Holds g (s.turn g encrypted) := by
  unfold Session.turn
  split
  · refine ⟨?_, nofun⟩
    unfold Session.reply
    split
    · exact h.served
    · exact h.served
  · next raw io hline =>
    dsimp only
    cases htext : commandText raw with
    | none => exact ⟨.other raw h.served, nofun⟩
    | some text => exact perform_holds h htext

theorem turns_transacted {encrypted : Bool} (n : ℕ) (h : Kept g s) :
    Transacted g (s.turns g encrypted n).1.heard (s.turns g encrypted n).1.delivered := by
  induction n generalizing s with
  | zero =>
    have hstop : Holds g (s.reply g "421 4.5.0 Session limit\r\n".toList Session.stop) := stop_holds h.served _
    unfold Session.turns
    generalize s.reply g "421 4.5.0 Session limit\r\n".toList Session.stop = t at hstop ⊢
    exact hstop.1
  | succ n ih =>
    have hturn : Holds g (s.turn g encrypted) := turn_holds h
    unfold Session.turns
    generalize s.turn g encrypted = t at hturn ⊢
    obtain ⟨next, _ | ending⟩ := t
    · exact ih (hturn.2 rfl)
    · exact hturn.1

/-- **The mails a phase hands over are the transactions of its dialogue**: each has an opening line, a recipient
and an end of its own in the lines heard, with no reset among them; its recipient is routed on this domain, its
size is bounded, and it carries the name of the last introduction before it. This holds whatever bytes arrive,
however they are cut, whatever the receiver answers and whichever replies the peer fails to take. -/
theorem phase_transacted (g : Gateway) (encrypted : Bool) (stream : Stream) :
    Transacted g (phase g encrypted stream).1.heard (phase g encrypted stream).1.delivered := by
  unfold phase
  dsimp only
  split_ifs
  · exact turns_transacted 100 (kept_start stream)
  · have hstart : Holds g (Session.reply g (greeting g.domain) (Session.start stream) Session.again) :=
      again_holds (kept_start stream) _
    generalize Session.reply g (greeting g.domain) (Session.start stream) Session.again = t at hstart ⊢
    obtain ⟨next, _ | ending⟩ := t
    · exact turns_transacted 100 (hstart.2 rfl)
    · exact hstart.1

/-! ### Upgrades -/

theorem line_took {max : ℕ} {io io' : Io} {l : Bytes} (h : line max io = (.ok l, io')) : io.Took l io' := by
  unfold line at h
  split at h
  · next result io₁ hread =>
    split_ifs at h
    · cases h
      exact BufReader.readUntil_took hread
    · cases (Prod.mk.inj h).1
  · cases (Prod.mk.inj h).1

theorem rows_took {turns : ℕ} {bytes all : Bytes} {io io' : Io} (h : rows turns bytes io = (.ok all, io')) :
    ∃ taken, io.Took taken io' := by
  induction turns generalizing bytes io with
  | zero => cases (Prod.mk.inj h).1
  | succ turns ih =>
    unfold rows at h
    split at h
    · cases (Prod.mk.inj h).1
    · next row io₁ hline =>
      split_ifs at h
      · cases h
        exact ⟨row, line_took hline⟩
      · cases (Prod.mk.inj h).1
      · obtain ⟨taken, htaken⟩ := ih h
        exact ⟨row ++ taken, (line_took hline).trans htaken⟩

/-- How far a turn got with its stream: to an accepted `STARTTLS` with nothing behind it, or somewhere. -/
inductive Progress (io : Io) (encrypted : Bool) : Turn → Prop
  | again {s' : Session} (h : ∃ taken, io.Took taken s'.io) : Progress io encrypted (s', none)
  | upgrade {s' : Session} {heard : List Bytes} {raw : Bytes} (hclear : encrypted = false)
      (hsaid : said raw = some ("STARTTLS".toList, [])) (hheard : s'.heard = heard ++ [raw])
      (h : io.Took raw s'.io) (hempty : s'.io.buffer = []) : Progress io encrypted (s', some .upgrade)
  | finished {s' : Session} {ending : Ending} (h : ending ≠ .upgrade) : Progress io encrypted (s', some ending)

section Progress
variable {encrypted : Bool} {io : Io}

theorem reply_progress {text : Text} {next : Session → Turn}
    (hnext : Progress io encrypted (next {s with replies := s.replies ++ [text]})) :
    Progress io encrypted (s.reply g text next) := by
  unfold Session.reply
  cases g.takes s.replies.length with
  | error e => exact .finished nofun
  | ok => exact hnext

theorem again_progress (h : ∃ taken, io.Took taken s.io) (text : Text) :
    Progress io encrypted (s.reply g text Session.again) := reply_progress (.again h)

theorem stop_progress (text : Text) : Progress io encrypted (s.reply g text Session.stop) :=
  reply_progress (.finished nofun)

theorem mail_progress (h : ∃ taken, io.Took taken s.io) (argument : Text) : Progress io encrypted (s.mail g argument) := by
  unfold Session.mail
  split
  · exact again_progress h _
  · split_ifs
    · refine again_progress ?_ _
      exact h
    · refine again_progress ?_ _
      exact h
    · exact again_progress h _

theorem rcpt_progress (h : ∃ taken, io.Took taken s.io) (argument : Text) : Progress io encrypted (s.rcpt g argument) := by
  unfold Session.rcpt
  split_ifs
  · exact again_progress h _
  · split
    · split_ifs
      · refine again_progress ?_ _
        exact h
      · exact again_progress h _
    · exact again_progress h _

theorem data_progress (h : ∃ taken, io.Took taken s.io) : Progress io encrypted (s.data g) := by
  unfold Session.data
  refine reply_progress ?_
  dsimp only
  split
  · next bytes io' hdata =>
    obtain ⟨rest, hrest⟩ := rows_took hdata
    unfold Session.deliver
    dsimp only
    split
    · obtain ⟨taken, htaken⟩ := h
      refine again_progress ?_ _
      exact ⟨taken ++ rest, htaken.trans hrest⟩
    · exact .finished nofun
  · exact stop_progress _
  · exact stop_progress _

theorem turn_progress : Progress s.io encrypted (s.turn g encrypted) := by
  unfold Session.turn
  split
  · exact .finished nofun
  · next raw io' hline =>
    have htook := line_took hline
    have hreached : ∃ taken, s.io.Took taken io' := ⟨raw, htook⟩
    dsimp only
    cases htext : commandText raw with
    | none => exact .finished nofun
    | some text =>
      dsimp only
      cases hc : Session.command {s with io := io', heard := s.heard ++ [raw]} encrypted text with
      | quit => exact stop_progress _
      | noop => exact again_progress (s := {s with io := io', heard := s.heard ++ [raw]}) hreached _
      | rset =>
        refine again_progress ?_ _
        exact hreached
      | hello extended name =>
        refine again_progress ?_ _
        exact hreached
      | startTls =>
        unfold Session.perform
        dsimp only
        split_ifs with hbuffer
        · exact stop_progress _
        · exact reply_progress (.upgrade (clear_of_startTls hc) (said_of_startTls htext hc) rfl htook (not_not.mp hbuffer))
      | mail argument => exact mail_progress (s := {s with io := io', heard := s.heard ++ [raw]}) hreached argument
      | rcpt argument => exact rcpt_progress (s := {s with io := io', heard := s.heard ++ [raw]}) hreached argument
      | data => exact data_progress (s := {s with io := io', heard := s.heard ++ [raw]}) hreached
      | unavailable => exact again_progress (s := {s with io := io', heard := s.heard ++ [raw]}) hreached _
      | invalid => exact again_progress (s := {s with io := io', heard := s.heard ++ [raw]}) hreached _

end Progress

/-- A loop that ends in an upgrade has read as far as the command that asks for it. -/
theorem turns_upgrade {encrypted : Bool} {n : ℕ} {io : Io} {s' : Session} (hio : ∃ taken, io.Took taken s.io)
    (h : s.turns g encrypted n = (s', .upgrade)) :
    encrypted = false ∧ ∃ earlier raw heard, io.Took (earlier ++ raw) s'.io ∧ s'.heard = heard ++ [raw] ∧
      said raw = some ("STARTTLS".toList, []) ∧ s'.io.buffer = [] := by
  induction n generalizing s with
  | zero =>
    unfold Session.turns Session.reply at h
    cases htakes : g.takes s.replies.length with
    | error e =>
      rw [htakes] at h
      cases (Prod.mk.inj h).2
    | ok =>
      rw [htakes] at h
      cases (Prod.mk.inj h).2
  | succ n ih =>
    have hturn : Progress s.io encrypted (s.turn g encrypted) := turn_progress
    obtain ⟨taken, htaken⟩ := hio
    unfold Session.turns at h
    generalize s.turn g encrypted = t at hturn h
    cases hturn with
    | again hnext =>
      obtain ⟨more, hmore⟩ := hnext
      exact ih ⟨taken ++ more, htaken.trans hmore⟩ h
    | upgrade hclear hsaid hheard hlast hempty =>
      obtain ⟨rfl, -⟩ := Prod.mk.inj h
      exact ⟨hclear, taken, _, _, htaken.trans hlast, hheard, hsaid, hempty⟩
    | finished hending => exact absurd (Prod.mk.inj h).2 hending

/-- **A phase is upgraded where its stream stands still**: what was read of it ends with the `STARTTLS` heard last,
and everything behind that is left as it was for the handshake. An encrypted phase is never upgraded. -/
theorem phase_upgrade {encrypted : Bool} {stream : Stream} {s' : Session}
    (h : phase g encrypted stream = (s', .upgrade)) :
    encrypted = false ∧ ∃ before earlier raw heard, stream = before ++ s'.io.arrivals ∧
      BufReader.contents before = earlier ++ raw ∧ s'.heard = heard ++ [raw] ∧
      said raw = some ("STARTTLS".toList, []) := by
  have hstart : BufReader.Took ⟨[], stream⟩ [] (Session.start stream).io := ⟨[], rfl, rfl⟩
  have hturns : encrypted = false ∧ ∃ earlier raw heard, BufReader.Took ⟨[], stream⟩ (earlier ++ raw) s'.io ∧
      s'.heard = heard ++ [raw] ∧ said raw = some ("STARTTLS".toList, []) ∧ s'.io.buffer = [] := by
    unfold phase at h
    dsimp only at h
    split_ifs at h
    · exact turns_upgrade ⟨[], hstart⟩ h
    · unfold Session.reply at h
      cases htakes : g.takes (Session.start stream).replies.length with
      | error e =>
        rw [htakes] at h
        cases (Prod.mk.inj h).2
      | ok =>
        rw [htakes] at h
        exact turns_upgrade (s := {Session.start stream with replies := [greeting g.domain]}) ⟨[], hstart⟩ h
  obtain ⟨hclear, earlier, raw, heard, ⟨before, hstream, hcontents⟩, hheard, hsaid, hempty⟩ := hturns
  rw [hempty, List.append_nil] at hcontents
  exact ⟨hclear, before, earlier, raw, heard, hstream, hcontents, hheard, hsaid⟩

/-- **Nothing sent in clear text is a command of the encrypted phase.** If a session has a second phase, the bytes
read before it end with the `STARTTLS` that was answered, the handshake is given exactly what follows, and the
second phase is a phase over the decrypted stream alone: it starts without an introduction or a transaction, its
mails are transactions of its own lines, and it is not upgraded again. -/
theorem session_secured {accept : Stream → Except IoError Stream} {stream : Stream} {first second : Session}
    {ending : Ending} (h : session g accept stream = (first, some second, ending)) :
    (∃ before earlier raw heard, stream = before ++ first.io.arrivals ∧ BufReader.contents before = earlier ++ raw ∧
      first.heard = heard ++ [raw] ∧ said raw = some ("STARTTLS".toList, [])) ∧
    (∃ decrypted, accept first.io.arrivals = .ok decrypted ∧ (second, ending) = phase (g.after first) true decrypted) ∧
    Transacted (g.after first) second.heard second.delivered ∧ ending ≠ .upgrade := by
  unfold session at h
  split at h
  · next s hphase =>
    split at h
    · cases (Prod.mk.inj (Prod.mk.inj h).2).1
    · next decrypted haccept =>
      obtain ⟨rfl, hrest⟩ := Prod.mk.inj h
      obtain ⟨hsome, rfl⟩ := Prod.mk.inj hrest
      cases hsome
      refine ⟨(phase_upgrade hphase).2, ⟨decrypted, haccept, rfl⟩, phase_transacted _ true decrypted, fun hupgrade => ?_⟩
      exact absurd (phase_upgrade (Prod.ext rfl hupgrade)).1 (by decide)
  · cases (Prod.mk.inj (Prod.mk.inj h).2).1

/-! ### A session -/

namespace Example

def sent (text : String) : Stream := [.chunk (Text.utf8 text.toList)]

/-- The handshake of the example decrypts what it is given to the one thing it stands for. -/
def accept : Stream → Except IoError Stream
  | [.chunk _] => .ok (sent "QUIT\r\n")
  | _ => .error .other

theorem session_secured_example : ∃ first second ending,
    session gateway accept (sent "EHLO a\r\nSTARTTLS\r\n" ++ sent "hello") = (first, some second, ending) ∧
      Transacted (gateway.after first) second.heard second.delivered ∧ ending ≠ .upgrade :=
  ⟨_, _, _, rfl, (session_secured (rfl : session gateway accept
    (sent "EHLO a\r\nSTARTTLS\r\n" ++ sent "hello") = (_, some _, _))).2.2⟩

end Example

end CsMail.Smtp
