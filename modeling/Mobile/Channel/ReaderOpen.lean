import Mobile.Channel.SendCommand

/-!
# Opening the port

`Initialize` and `ReaderOpen` of `channel.cc`, beside `ReaderClose`, with the calls that
they make on descriptors.  The `open()` calls and the settings behind them are scripted;
`none` stands for an `open()` that is interrupted for ever.
-/

namespace Mobile.Channel.ReaderOpen

open Mobile.Channel.Types Mobile.Channel.SendCommand

inductive OpenErrno
  | eintr
  | enfile
  | emfile
  | other (errno : Nat)
  deriving DecidableEq, Repr

/-- What one `open()` gives; with a descriptor, what `SetSerialBaud` and
`SetSerialRawMode` return for it. -/
inductive OpenResult
  | failed (errno : OpenErrno)
  | opened (fd : Nat) (baud raw : Int)
  deriving DecidableEq, Repr

inductive FdCall
  | opened (fd : Nat)
  | closed (fd : Int)
  /-- `install_at_handler_` -/
  | installed (fd : Int)
  deriving DecidableEq, Repr

structure Port where
  chan : ATChannel
  opens : List OpenResult
  calls : List FdCall
  deriving DecidableEq, Repr

namespace Port

def log (p : Port) (call : FdCall) : Port := { p with calls := p.calls ++ [call] }

/-- `close(read_fd_); read_fd_ = -1;` -/
def closeFd (p : Port) : Port :=
  { p.log (.closed p.chan.readFd) with chan := { p.chan with readFd := -1 } }

/-- `ReaderOpen`, from the coming `open()` results.  The result of the call that it makes of
itself is not looked at. -/
def openFrom (p : Port) : List OpenResult → Option (Bool × Port)
  | [] => none
  | .failed .eintr :: rest => do
    let (_, p) ← openFrom { p with chan := { p.chan with readFd := -1 } } rest
    return (false, p)
  | .failed _ :: rest =>
    some (false, { p with chan := { p.chan with readFd := -1 }, opens := rest })
  | .opened fd baud raw :: rest =>
    let p := { p.log (.opened fd) with chan := { p.chan with readFd := fd }, opens := rest }
    if baud ≠ 0 then some (false, p.closeFd)
    else if raw ≠ 0 then some (false, p.closeFd)
    else some (true, p)

def readerOpen (p : Port) : Option (Bool × Port) := p.openFrom p.opens

def initializeChannel (p : Port) : Option Port := do
  let (opened, p) ← p.readerOpen
  if opened then return p.log (.installed p.chan.readFd) else return p

/-- `ReaderClose`, which the destructor calls too. -/
def readerClose (p : Port) : Port :=
  let closes := !p.chan.readClosed && decide (p.chan.readFd > 0)
  { p with
    chan := SendCommand.readerClose p.chan
    calls := p.calls ++ if closes then [.closed p.chan.readFd] else [] }

end Port

inductive Action
  | initializeChannel
  | readerClose
  deriving DecidableEq, Repr

def Port.act (p : Port) : Action → Option Port
  | .initializeChannel => p.initializeChannel
  | .readerClose => some p.readerClose

end Mobile.Channel.ReaderOpen
