import Mobile.Channel.ReaderLoop

/-!
# The reader on pointers

`ReadLine` returns a pointer into `kATBuffer`, and the next call moves and
overwrites what it points to.  Here `ReaderLoop` and `ProcessUnsolLine` read their
lines through the pointers, each at the time the code does, and log the calls they
make with them.
-/

namespace Mobile.Channel.LinePointers

open Mobile.ProofSupport.Memory Mobile.Token.Scan Mobile.Channel.ReadLine
open Mobile.Channel.Types Mobile.Channel.ProcessLine Mobile.Channel.SendCommand
open Mobile.Channel.ReaderLoop

abbrev Returned := OutcomeOf Nat

/-- The C string a pointer into `kATBuffer` designates now. -/
def textAt (s : Session) (p : Nat) : Line := cString (s.buffer.kATBuffer.view p)

/-- `ret = kATBufferCur; *p_eol = '\0'; kATBufferCur = p_eol + 1;` -/
def finishAt (s : Session) (eol : Nat) : Returned × Session :=
  match s.buffer.takeLine eol with
  | some (_, b) => (.line s.buffer.kATBufferCur, { s with buffer := b })
  | none => (.fault, s)

def readLineAt (s : Session) : Returned × Session := s.readLineTo finishAt

inductive LineCall
  | isSMSUnsolicited (line : Option Line)
  | processLine (line : Option Line)
  | unsolHandler (line1 line2 : Option Line)
  deriving DecidableEq, Repr

structure PtrReader where
  reader : Reader
  calls : List LineCall

namespace PtrReader

def log (r : PtrReader) (call : LineCall) : PtrReader := { r with calls := r.calls ++ [call] }

def setSession (r : PtrReader) (s : Session) : PtrReader :=
  { r with reader := { r.reader with session := s } }

def setChan (r : PtrReader) (ch : ATChannel) : PtrReader :=
  { r with reader := { r.reader with chan := ch } }

def close (r : PtrReader) (cause : ReadEvent) : PtrReader :=
  { r with reader := r.reader.close cause }

def processUnsolLine (r : PtrReader) (line : Nat) : LoopEnd × PtrReader :=
  -- `strdup(line)`, before the buffer is read into again
  let line1 := textAt r.reader.session line
  let (ret, s) := readLineAt r.reader.session
  let r := r.setSession s
  match ret with
  | .line ret =>
    let line2 := textAt s ret
    if r.reader.chan.unsolHandler then
      (.returned, (r.setChan (r.reader.chan.log (.unsolHandler line1 (some line2)))).log
        (.unsolHandler (some line1) (some line2)))
    else (.returned, r)
  | .null cause => (.returned, r.close cause)
  | .waiting => (.waiting, r)
  | .fault => (.crashed, r)

def readerLoop (r : PtrReader) : LoopEnd × PtrReader :=
  let (ret, s) := readLineAt r.reader.session
  let r := r.setSession s
  match ret with
  | .line ret =>
    let line := textAt s ret
    let r := r.log (.isSMSUnsolicited (some line))
    if isSMSUnsolicited line then r.processUnsolLine ret
    else
      let r := r.log (.processLine (some line))
      match processLine r.reader.chan line with
      | some chan => (.returned, r.setChan chan)
      | none => (.crashed, r)
  -- no return after `ReaderClose`: `IsSMSUnsolicited` reads through the null pointer
  | .null cause => (.crashed, (r.close cause).log (.isSMSUnsolicited none))
  | .waiting => (.waiting, r)
  | .fault => (.crashed, r)

/-- Successive calls of `ReaderLoop` up to one that does not return.  The other
threads change the members of the channel at will: call `k` finds `chans k`. -/
def loops (chans : Nat → ATChannel) (r : PtrReader) : Nat → LoopEnd × PtrReader
  | 0 => (.returned, r)
  | n + 1 =>
    let prev := loops chans r n
    if prev.1 = .returned then (prev.2.setChan (chans n)).readerLoop else prev

end PtrReader

end Mobile.Channel.LinePointers
