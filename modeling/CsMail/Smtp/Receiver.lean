import CsMail.Application.Generation
import CsMail.Correspondence.Email
import CsMail.Library.BufReader
import CsMail.Smtp.Address

/-! The receive-only SMTP transport.

A session is read line by line from a connection that delivers its bytes in arbitrary
pieces. Its first phase is in clear text and may end in an upgrade; the second runs over
the decrypted stream and starts afresh. Permission and persistence are the receiver's. -/
namespace CsMail.Smtp
open Library

inductive IoError
  | invalidData
  | unexpectedEof
  | timedOut
  | other
  deriving DecidableEq

inductive IpAddr
  | v4 (bits : U32)
  | v6 (bits : U128)
  deriving DecidableEq

structure IncomingMail where
  remoteIp : IpAddr
  helo : Text
  mailFrom : Option Text
  recipient : Text
  data : Bytes
  deriving DecidableEq

inductive Received
  | admitted
  | requestLinkHandled
  deriving DecidableEq

/-- What a phase is given beside its stream. `takes n` is how writing the reply after `n` others ends, and
`deliver` what the receiver answers after the mail it was handed before. -/
structure Gateway where
  domain : DomainIdentity
  peer : IpAddr
  takes : ℕ → Except IoError Unit
  deliver : List IncomingMail → IncomingMail → Except Refusal Received

abbrev Io := BufReader UInt8 IoError
abbrev Stream := List (Arrival UInt8 IoError)

/-! ### Lines -/

def cr : UInt8 := 13
def lf : UInt8 := 10
def dot : UInt8 := 46

/-- The line ends as lines must, and holds no NUL. -/
def framed (line : Bytes) : Bool := [cr, lf] <:+ line ∧ 0 ∉ line

/-- `line`: the next line with its end, of at most `max` bytes. Thirty seconds of silence arrive as a
failed read. -/
def line (max : ℕ) (io : Io) : Except IoError Bytes × Io :=
  match io.readUntil lf max .unexpectedEof .invalidData with
  | (.ok result, io) => if framed result then (.ok result, io) else (.error .invalidData, io)
  | (.error error, io) => (.error error, io)

/-- The row that ends a message. -/
def endOfData : Bytes := [dot, cr, lf]

/-- `strip_prefix(b".").unwrap_or(row)`. -/
def unstuffed (row : Bytes) : Bytes := if row.head? = some dot then row.tail else row

/-- The rows of a message up to its end, after `bytes`. Every row takes a byte, so as many turns as there
are bytes to come are enough. -/
def rows : ℕ → Bytes → Io → Except IoError Bytes × Io
  | 0, _, io => (.error .invalidData, io)
  | turns + 1, bytes, io =>
    match line 1001 io with
    | (.error error, io) => (.error error, io)
    | (.ok row, io) =>
      if row = endOfData then (.ok bytes, io)
      else if 1000 < (unstuffed row).length ∨ maxEmailBytes < bytes.length + (unstuffed row).length then
        (.error .invalidData, io)
      else rows turns (bytes ++ unstuffed row) io

/-- `data`. -/
def data (io : Io) : Except IoError Bytes × Io :=
  rows ((io.pending IoError.unexpectedEof).1.length + 1) [] io

/-! ### Commands -/

/-- `path`: the address between angle brackets after a keyword, and what follows it. -/
def path (argument : Text) (keyword : String) : Option (Text × Text) :=
  if Text.equalsIgnoringCase (argument.take keyword.length) keyword then
    match (argument.drop keyword.length).dropWhile isWhitespace with
    | '<' :: rest => Text.splitOnce '>' rest
    | _ => none
  else none

/-- `parse::<usize>`. -/
def parseUsize (t : Text) : Option U64 :=
  let digits := match t with
    | '+' :: rest => rest
    | _ => t
  if digits = [] ∨ digits.all Char.isDigit = false then none
  else Checked.ofNat (2 ^ 64) (digits.foldl (fun n c => 10 * n + (c.toNat - 48)) 0)

/-- A parameter of `MAIL` that is understood. -/
def mailParameter (p : Text) : Bool :=
  p.equalsIgnoringCase "BODY=8BITMIME" || p.equalsIgnoringCase "BODY=7BIT" ||
    (Text.equalsIgnoringCase (p.take 5) "SIZE=" &&
      (parseUsize (p.drop 5)).any fun size => size.val ≤ maxEmailBytes)

/-- The text of a line, which must be ASCII, without its end. -/
def commandText (raw : Bytes) : Option Text :=
  if raw.dropLast.dropLast.all (· < 128) then some (raw.dropLast.dropLast.map fun b => Char.ofNat b.toNat) else none

/-- A command's verb in upper case, and its argument. -/
def verbOf (command : Text) : Text × Text :=
  let (verb, argument) := (command.splitOnce ' ').getD (command, [])
  (verb.map Char.toUpper, argument)

/-- Where the dialogue stands. `heard` is the list of lines read so far: the source keeps none, and
nothing here reads it. -/
structure Session where
  io : Io
  helo : Option Text
  sender : Option (Option Text)
  recipient : Option Text
  replies : List Text
  delivered : List IncomingMail
  heard : List Bytes

def Session.start (stream : Stream) : Session := ⟨⟨[], stream⟩, none, none, none, [], [], []⟩

inductive Ending
  | upgrade
  | done
  | failed (error : IoError)
  deriving DecidableEq

/-- The arms of the command match. -/
inductive Command
  | quit
  | noop
  | rset
  | hello (extended : Bool) (name : Text)
  | startTls
  | mail (argument : Text)
  | rcpt (argument : Text)
  | data
  | unavailable
  | invalid
  deriving DecidableEq

/-- A name that `EHLO` and `HELO` take. -/
def helloName (name : Text) : Bool := name ≠ [] ∧ name.any (fun c => c.toNat ≤ 32 ∨ 127 ≤ c.toNat) = false

/-- Which arm a command takes, given what was said before it. -/
def Session.command (s : Session) (encrypted : Bool) (text : Text) : Command :=
  let (verb, argument) := verbOf text
  if verb = "QUIT".toList ∧ argument = [] then .quit
  else if verb = "NOOP".toList then .noop
  else if verb = "RSET".toList ∧ argument = [] then .rset
  else if (verb = "EHLO".toList ∨ verb = "HELO".toList) ∧ helloName argument then
    .hello (verb = "EHLO".toList) argument
  else if verb = "STARTTLS".toList ∧ argument = [] ∧ ¬encrypted ∧ s.helo.isSome ∧ s.sender.isNone then .startTls
  else if verb = "MAIL".toList ∧ s.helo.isSome ∧ s.sender.isNone then .mail argument
  else if verb = "RCPT".toList ∧ s.sender.isSome then .rcpt argument
  else if verb = "DATA".toList ∧ argument = [] ∧ s.sender.isSome ∧ s.recipient.isSome then .data
  else if verb = "AUTH".toList ∨ verb = "VRFY".toList ∨ verb = "EXPN".toList then .unavailable
  else .invalid

/-! ### Turns -/

/-- What a turn leaves: the loop goes on unless there is an ending. -/
abbrev Turn := Session × Option Ending

/-- `reply`, and what is done once the peer took it. -/
def Session.reply (g : Gateway) (text : Text) (s : Session) (next : Session → Turn) : Turn :=
  match g.takes s.replies.length with
  | .ok () => next {s with replies := s.replies ++ [text]}
  | .error error => (s, some (.failed error))

/-- The loop goes on. -/
def Session.again (s : Session) : Turn := (s, none)

def Session.stop (s : Session) : Turn := (s, some .done)

def Session.reset (s : Session) : Session := {s with sender := none, recipient := none}

def helloAnswer (domain : DomainIdentity) (encrypted extended : Bool) : Text :=
  if extended then
    "250-".toList ++ domain.name ++ "\r\n250-SIZE ".toList ++ Nat.toDigits 10 maxEmailBytes ++
      "\r\n250-8BITMIME\r\n".toList ++ (if encrypted then [] else "250-STARTTLS\r\n".toList) ++
      "250 ENHANCEDSTATUSCODES\r\n".toList
  else "250 ".toList ++ domain.name ++ "\r\n".toList

def deliveryStatus : Except Refusal Received → Text
  | .ok .admitted => "250 2.0.0 Durably admitted\r\n".toList
  | .ok .requestLinkHandled =>
    "250 2.0.0 Not delivered to member; request instructions queued or already requested today\r\n".toList
  | .error .temporary => "451 4.3.0 Please retry later\r\n".toList
  | .error .permanent => "550 5.7.1 Message not admitted\r\n".toList
  | .error .tooLarge => "552 5.3.4 Message too large\r\n".toList
  | .error .unsupported => "554 5.6.3 Only plain text is supported\r\n".toList

/-- `MAIL`: the reverse path, which may be empty. -/
def Session.mail (g : Gateway) (argument : Text) (s : Session) : Turn :=
  match path argument "FROM:" with
  | none => s.reply g "501 5.5.2 Invalid reverse path\r\n".toList Session.again
  | some (address, parameters) =>
    if (address = [] ∨ (GuestMailbox.parse address).isOk) ∧ parameters.splitWhitespace.all mailParameter then
      Session.reply g "250 2.1.0 Sender noted\r\n".toList
        {s with sender := some (if address = [] then none else some address)} Session.again
    else s.reply g "501 5.5.4 Unsupported sender or parameters\r\n".toList Session.again

/-- `RCPT`: one recipient, on this domain. -/
def Session.rcpt (g : Gateway) (argument : Text) (s : Session) : Turn :=
  if s.recipient.isSome then s.reply g "452 4.5.3 One recipient per transaction\r\n".toList Session.again
  else
    match path argument "TO:" with
    | some (address, []) =>
      if (destinationAddress address g.domain).isOk then
        Session.reply g "250 2.1.5 Recipient noted\r\n".toList {s with recipient := some address} Session.again
      else s.reply g "550 5.1.1 Unknown route\r\n".toList Session.again
    | _ => s.reply g "501 5.5.2 Invalid recipient\r\n".toList Session.again

/-- The message read is handed to the receiver, and the transaction is over. -/
def Session.deliver (g : Gateway) (bytes : Bytes) (s : Session) : Turn :=
  match s.helo, s.sender, s.recipient with
  | some helo, some mailFrom, some recipient =>
    let mail : IncomingMail := ⟨g.peer, helo, mailFrom, recipient, bytes⟩
    Session.reply g (deliveryStatus (g.deliver s.delivered mail))
      {s.reset with delivered := s.delivered ++ [mail]} Session.again
  | _, _, _ => (s, some (.failed .invalidData))

/-- `DATA`. -/
def Session.data (g : Gateway) (s : Session) : Turn :=
  s.reply g "354 End with <CRLF>.<CRLF>\r\n".toList fun s =>
    match Smtp.data s.io with
    | (.ok bytes, io) => Session.deliver g bytes {s with io}
    | (.error .invalidData, io) =>
      Session.reply g "552 5.3.4 Message too large or malformed\r\n".toList {s with io} Session.stop
    | (.error _, io) => Session.reply g "451 4.4.2 Message transfer interrupted\r\n".toList {s with io} Session.stop

def Session.perform (g : Gateway) (encrypted : Bool) (s : Session) : Command → Turn
  | .quit => s.reply g "221 2.0.0 Goodbye\r\n".toList Session.stop
  | .noop => s.reply g "250 2.0.0 OK\r\n".toList Session.again
  | .rset => s.reset.reply g "250 2.0.0 Reset\r\n".toList Session.again
  | .hello extended name =>
    Session.reply g (helloAnswer g.domain encrypted extended) {s.reset with helo := some name} Session.again
  | .startTls =>
    -- bytes pipelined in clear text must never become commands of the second phase
    if s.io.buffer ≠ [] then s.reply g "554 5.5.0 STARTTLS must end the command group\r\n".toList Session.stop
    else s.reply g "220 2.0.0 Ready for TLS\r\n".toList fun s => (s, some .upgrade)
  | .mail argument => s.mail g argument
  | .rcpt argument => s.rcpt g argument
  | .data => s.data g
  | .unavailable => s.reply g "502 5.5.1 Command not available\r\n".toList Session.again
  | .invalid => s.reply g "503 5.5.1 Invalid command or sequence\r\n".toList Session.again

/-- One turn of the command loop. -/
def Session.turn (g : Gateway) (encrypted : Bool) (s : Session) : Turn :=
  match line 512 s.io with
  | (.error error, io) =>
    -- the parting reply is written on a best effort
    (({s with io}.reply g "421 4.5.0 Closing connection\r\n".toList Session.again).1, some (.failed error))
  | (.ok raw, io) =>
    let s := {s with io, heard := s.heard ++ [raw]}
    match commandText raw with
    | none => (s, some (.failed .invalidData))
    | some text => s.perform g encrypted (s.command encrypted text)

/-- The command loop, for so many commands. -/
def Session.turns (g : Gateway) (encrypted : Bool) : ℕ → Session → Session × Ending
  | 0, s =>
    match s.reply g "421 4.5.0 Session limit\r\n".toList Session.stop with
    | (s, ending) => (s, ending.getD .done)
  | n + 1, s =>
    match s.turn g encrypted with
    | (s, some ending) => (s, ending)
    | (s, none) => s.turns g encrypted n

def greeting (domain : DomainIdentity) : Text := "220 ".toList ++ domain.name ++ " ESMTP cs-mail\r\n".toList

/-- `phase`. -/
def phase (g : Gateway) (encrypted : Bool) (stream : Stream) : Session × Ending :=
  let s := Session.start stream
  if encrypted then s.turns g encrypted 100
  else
    match s.reply g (greeting g.domain) Session.again with
    | (s, some ending) => (s, ending)
    | (s, none) => s.turns g encrypted 100

/-- What a gateway answers after the first phase. -/
def Gateway.after (g : Gateway) (s : Session) : Gateway :=
  {g with
    takes := fun n => g.takes (s.replies.length + n)
    deliver := fun earlier => g.deliver (s.delivered ++ earlier)}

/-- `session`: the clear phase and, after an upgrade, the one over what `accept` decrypts. The handshake is
given the stream as the first phase left it. -/
def session (g : Gateway) (accept : Stream → Except IoError Stream) (stream : Stream) :
    Session × Option Session × Ending :=
  match phase g false stream with
  | (s, .upgrade) =>
    match accept s.io.arrivals with
    | .error error => (s, none, .failed error)
    | .ok decrypted =>
      let second := phase (g.after s) true decrypted
      (s, some second.1, second.2)
  | (s, ending) => (s, none, ending)

end CsMail.Smtp
