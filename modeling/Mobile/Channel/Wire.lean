import Mathlib.Logic.Function.Basic
import Mobile.Channel.WriteLine

/-!
# Two threads on one descriptor

`WriteLine` once more, cut at its `write()` calls: one thread runs it inside
`SendCommandFull` with `mutex_` locked, the other as the `write_line_` callback of
the SMS manager, which `Modem::Init` binds to the same function without a lock.
The channel is open; on a closed one `WriteLine` writes nothing.
-/

namespace Mobile.Channel.Wire

open Mobile.Token.Scan Mobile.Channel.ReadLine Mobile.Channel.Types

inductive Writer
  | command
  | sms
  deriving DecidableEq, Repr

inductive WriterPc
  | idle
  /-- in the loop over the main string, with what went out and what is left -/
  | main (sent rest ctrl : Line)
  /-- at the terminator of `s` -/
  | last (s ctrl : Line)
  deriving DecidableEq, Repr

def terminator (ctrl : Line) : Line := (ctrl ++ [0]).take 1

/-- The loop test `cur < len`. -/
def WriterPc.next (sent rest ctrl : Line) : WriterPc :=
  if rest = [] then .last sent ctrl else .main sent rest ctrl

/-- One `write()`: the bytes it takes and where the thread goes on. -/
def WriterPc.write (r : WriteResult) : WriterPc → Option (Line × WriterPc)
  | .idle => none
  | .main sent rest ctrl =>
    match r with
    | .wrote count =>
      some (rest.take count, .next (sent ++ rest.take count) (rest.drop count) ctrl)
    | .failed .eintr => some ([], .main sent rest ctrl)
    | .failed _ => some ([], .idle)
  | .last s ctrl =>
    match r with
    | .wrote 0 => some ([], .last s ctrl)
    | .wrote (_ + 1) => some (terminator ctrl, .idle)
    | .failed .eintr => some ([], .last s ctrl)
    | .failed _ => some ([], .idle)

/-- The bytes sent so far, the calls begun with their arguments, and the threads. -/
structure WireState where
  wire : Line
  begun : List (Line × Line)
  pc : Writer → WriterPc

def WireState.enter (st : WireState) (w : Writer) (s ctrl : Line) : WireState :=
  { st with begun := st.begun ++ [(s, ctrl)], pc := Function.update st.pc w (.next [] s ctrl) }

def WireState.move (st : WireState) (w : Writer) (bytes : Line) (pc : WriterPc) : WireState :=
  { st with wire := st.wire ++ bytes, pc := Function.update st.pc w pc }

inductive WireAction
  | begin (w : Writer) (s ctrl : Line)
  | write (w : Writer) (r : WriteResult)
  deriving DecidableEq, Repr

inductive WireStep : WireState → WireAction → WireState → Prop
  | begin {st : WireState} {w : Writer} (s ctrl : Line) (pc : st.pc w = .idle) :
      WireStep st (.begin w s ctrl) (st.enter w s ctrl)
  | write {st : WireState} {w : Writer} {r : WriteResult} {bytes : Line} {pc : WriterPc}
      (h : (st.pc w).write r = some (bytes, pc)) :
      WireStep st (.write w r) (st.move w bytes pc)

def WireState.quiet : WireState := ⟨[], [], fun _ => .idle⟩

end Mobile.Channel.Wire
