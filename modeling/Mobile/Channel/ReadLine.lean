import Mobile.Token.Scan

/-!
# The line reader

`ATChannel::ReadLine` of `channel.cc` over its static buffer.  The operating
system is a script: the bytes still on the wire and the outcome of each coming
`read()`.  A `data` outcome delivers at least one byte and at most what the call
asked for; it is passed over when the wire is empty, so every script denotes a
run and every run of the program is denoted by a script.
-/

namespace Mobile.Channel.ReadLine

open Mobile.ProofSupport.Memory Mobile.Token.Scan

/-- `MAX_AT_RESPONSE` -/
def maxAtResponse : Nat := 8 * 1024

inductive Errno
  | eintr
  | eagain
  | ewouldblock
  | other (code : Nat)
  deriving DecidableEq, Repr

inductive ReadEvent
  | data (count : Nat)
  | eof
  | error (errno : Errno)
  deriving DecidableEq, Repr

/-- The statics `kATBuffer` and `kATBufferCur`.  `pRead` is the local `p_read`,
the end of the received data, remembered between two calls. -/
structure LineBuffer where
  kATBuffer : Object (maxAtResponse + 1)
  kATBufferCur : Nat
  pRead : Nat

namespace LineBuffer

def initial : LineBuffer := ⟨Object.zero _, 0, 0⟩

def unread (b : LineBuffer) : List UInt8 := b.kATBuffer.view b.kATBufferCur

/-- `kATBufferCur = kATBuffer; *kATBufferCur = '\0'; p_read = kATBuffer;` -/
def reset (b : LineBuffer) : Option LineBuffer := do
  let buf ← b.kATBuffer.store 0 [0]
  return ⟨buf, 0, 0⟩

/-- `while (*kATBufferCur == '\r' || *kATBufferCur == '\n') kATBufferCur++;` -/
def skipNewlines (b : LineBuffer) : Option LineBuffer := do
  let k ← scan isEol b.unread
  return { b with kATBufferCur := b.kATBufferCur + k }

/-- The partial line moves to the front of the buffer. -/
def moveUp (b : LineBuffer) : Option LineBuffer := do
  let len ← strlen b.unread
  let buf ← b.kATBuffer.store 0 (b.unread.take (len + 1))
  return ⟨buf, 0, len⟩

/-- The test at the head of the read loop: a full buffer is thrown away. -/
def resetIfFull (b : LineBuffer) : Option LineBuffer :=
  if b.pRead = maxAtResponse then b.reset else some b

/-- `read()` puts `chunk` at `p_read`, then `p_read[count] = '\0'`. -/
def receive (b : LineBuffer) (chunk : List UInt8) : Option LineBuffer := do
  let buf ← b.kATBuffer.store b.pRead (chunk ++ [0])
  return { b with kATBuffer := buf, pRead := b.pRead + chunk.length }

/-- A full line is in the buffer: `*p_eol = '\0'`, and the cursor steps behind. -/
def takeLine (b : LineBuffer) (eol : Nat) : Option (Line × LineBuffer) := do
  let buf ← b.kATBuffer.store (b.kATBufferCur + eol) [0]
  return (cString (buf.view b.kATBufferCur),
    { b with kATBuffer := buf, kATBufferCur := b.kATBufferCur + eol + 1 })

end LineBuffer

/-- How one `ReadLine` call ends: a line, the null pointer after the given
`read()` outcome, still inside `read()` when the script is over, or an access
outside `kATBuffer`.  `α` is what is given of the line. -/
inductive OutcomeOf (α : Type)
  | line (l : α)
  | null (cause : ReadEvent)
  | waiting
  | fault
  deriving DecidableEq, Repr

abbrev Outcome := OutcomeOf Line

/-- The reader with its environment.  `received`, `reads` and `scanned` are logs:
the bytes received, the `read()` outcomes and the strings `AtFindNextEOL` was
applied to. -/
structure Session where
  buffer : LineBuffer
  wire : List UInt8
  events : List ReadEvent
  received : List UInt8
  reads : List ReadEvent
  scanned : List Line

namespace Session

def start (stream : List UInt8) (events : List ReadEvent) : Session :=
  ⟨LineBuffer.initial, stream, events, [], [], []⟩

/-- The end-of-line search at the cursor, with its argument logged. -/
def findEOL (s : Session) (b : LineBuffer) : Option (Option Nat × Session) := do
  let eol ← atFindNextEOL b.unread
  return (eol, { s with buffer := b, scanned := s.scanned ++ [cString b.unread] })

def finish (s : Session) (eol : Nat) : Outcome × Session :=
  match s.buffer.takeLine eol with
  | some (l, b) => (.line l, { s with buffer := b })
  | none => (.fault, s)

/-- The body of the read loop after a `read()` that delivered `chunk`. -/
def accept (s : Session) (chunk : List UInt8) : Option (Option Nat × Session) := do
  let b ← s.buffer.receive chunk
  let b ← b.skipNewlines
  findEOL { s with wire := s.wire.drop chunk.length, received := s.received ++ chunk } b

def enterLoop (s : Session) : Option Session := do
  let b ← s.buffer.resetIfFull
  return { s with buffer := b }

/-- The read loop, with `exit` below it. -/
def readLoop {α : Type} (exit : Session → Nat → OutcomeOf α × Session) (s : Session) :
    List ReadEvent → OutcomeOf α × Session
  | [] => (.waiting, { s with events := [] })
  | .data count :: events =>
    let chunk := s.wire.take (min count (maxAtResponse - s.buffer.pRead))
    if chunk = [] then readLoop exit s events else
    match ({ s with reads := s.reads ++ [.data count] } : Session).accept chunk with
    | none => (.fault, s)
    | some (some eol, s) => exit { s with events := events } eol
    | some (none, s) =>
      match s.enterLoop with
      | none => (.fault, s)
      | some s => readLoop exit s events
  | .error .eintr :: events =>
    readLoop exit { s with reads := s.reads ++ [.error .eintr] } events
  | ev :: events =>
    (.null ev, { s with events := events, reads := s.reads ++ [ev] })

/-- Everything before the read loop: start over on a consumed buffer, else look
for a buffered line and move a partial one up. -/
def prepare (s : Session) : Option (Option Nat × Session) :=
  match s.buffer.unread with
  | [] => none
  | c :: _ =>
    if c = 0 then do
      let b ← s.buffer.reset
      return (none, { s with buffer := b })
    else do
      let b ← s.buffer.skipNewlines
      let (eol, s) ← s.findEOL b
      match eol with
      | some k => return (some k, s)
      | none =>
        let b ← s.buffer.moveUp
        return (none, { s with buffer := b })

def readLineTo {α : Type} (exit : Session → Nat → OutcomeOf α × Session) (s : Session) :
    OutcomeOf α × Session :=
  match s.prepare with
  | none => (.fault, s)
  | some (some eol, s) => exit s eol
  | some (none, s) =>
    match s.enterLoop with
    | none => (.fault, s)
    | some s => readLoop exit s s.events

def readLine (s : Session) : Outcome × Session := s.readLineTo finish

end Session

/-- Successive calls: the session they leave, the lines they returned, in order,
and how the last one ended. -/
structure Calls where
  session : Session
  returned : List Line
  last : Option Outcome

def OutcomeOf.lines : OutcomeOf Line → List Line
  | .line l => [l]
  | _ => []

def Session.calls (s : Session) : Nat → Calls
  | 0 => ⟨s, [], none⟩
  | n + 1 =>
    let prev := s.calls n
    let r := prev.session.readLine
    ⟨r.2, prev.returned ++ r.1.lines, some r.1⟩

end Mobile.Channel.ReadLine
