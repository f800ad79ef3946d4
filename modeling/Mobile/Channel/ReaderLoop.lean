import Mobile.Channel.SendCommand

/-!
# The reader

`ATChannel::ReaderLoop` and `ProcessUnsolLine` of `channel.cc`: one line read and
dispatched for each readable event.  `LOG(FATAL)` of the logging library logs and
returns.
-/

namespace Mobile.Channel.ReaderLoop

open Mobile.Token.Scan Mobile.Channel.ReadLine Mobile.Channel.Types
open Mobile.Channel.ProcessLine Mobile.Channel.SendCommand

/-- The channel with its line reader.  `closes` logs, for each call of
`ReaderClose`, the `read()` outcome it answers. -/
structure Reader where
  chan : ATChannel
  session : Session
  closes : List ReadEvent

inductive LoopEnd
  | returned
  | waiting
  | crashed
  deriving DecidableEq, Repr

namespace Reader

def close (r : Reader) (cause : ReadEvent) : Reader :=
  { r with chan := readerClose r.chan, closes := r.closes ++ [cause] }

def processUnsolLine (r : Reader) (line1 : Line) : LoopEnd × Reader :=
  let next := { r with session := r.session.readLine.2 }
  match r.session.readLine.1 with
  | .line line2 =>
    if next.chan.unsolHandler then
      (.returned, { next with chan := next.chan.log (.unsolHandler line1 (some line2)) })
    else (.returned, next)
  | .null cause => (.returned, next.close cause)
  | .waiting => (.waiting, next)
  | .fault => (.crashed, next)

def readerLoop (r : Reader) : LoopEnd × Reader :=
  let next := { r with session := r.session.readLine.2 }
  match r.session.readLine.1 with
  | .line line =>
    if isSMSUnsolicited line then next.processUnsolLine line
    else
      match processLine next.chan line with
      | some chan => (.returned, { next with chan := chan })
      | none => (.crashed, next)
  -- no return after `ReaderClose`: `IsSMSUnsolicited` reads the null line
  | .null cause => (.crashed, next.close cause)
  | .waiting => (.waiting, next)
  | .fault => (.crashed, next)

/-- `n` readable events.  The reader stands still once a call has not returned or
the descriptor is closed. -/
def loops (r : Reader) : Nat → LoopEnd × Reader
  | 0 => (.returned, r)
  | n + 1 =>
    let prev := r.loops n
    if prev.1 = .returned ∧ prev.2.chan.readClosed = false then prev.2.readerLoop else prev

end Reader

end Mobile.Channel.ReaderLoop
