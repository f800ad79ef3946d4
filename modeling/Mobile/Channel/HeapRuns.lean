import Mathlib.Order.Lattice.Nat
import Mobile.Channel.Heap

/-!
# Runs on the heap

The critical sections of the channel in any order, with the responses handed out to
callers, and whole calls one after another on the heap and without one.
-/

namespace Mobile.Channel.HeapRuns

open Mobile.ProofSupport.Separation
open Mobile.Token.Scan Mobile.Channel.Types Mobile.Channel.ProcessLine
open Mobile.Channel.SendCommand Mobile.Channel.Heap

structure Owner where
  chan : HeapChannel
  held : List Addr

def Owner.opened (fd : Int) (writes : List WriteResult) : Owner :=
  ⟨⟨none, .opened fd writes, ⟨∅, 0⟩⟩, []⟩

theorem behindLast_free (_ : Nat) (h : Heap Addr Obj) (a : Addr)
    (ha : some (h.keys.sup id + 1) = some a) : a ∉ h := by
  intro hmem
  have hle : a ≤ h.keys.sup id := Finset.le_sup (f := id) (Finmap.mem_keys.2 hmem)
  cases ha
  exact Nat.not_succ_le_self _ hle

/-- An allocator that always hands out the address behind the last one in use. -/
def behindLast : Allocator Addr Obj := ⟨fun _ h => some (h.keys.sup id + 1), behindLast_free⟩

theorem behindLast_total : behindLast.Total := fun _ _ => Option.some_ne_none _

/-- What a thread does to the channel at a stretch: `SendCommandNoLock` above its wait,
the condition of the wait with what follows once it is met, the way out of a wait that
timed out, the reader's and a closer's part, and a caller's `FreeResponce` of a response
it holds. -/
inductive Section
  | start (c : Command)
  | processLine (line : Line)
  | readerClose
  | check (outRsp : Bool)
  | timeOut
  | freeResponce (i : Nat)

def HeapOut.addr : HeapOut → List Addr
  | .pointer (some a) => [a]
  | _ => []

namespace Owner

variable (al : Allocator Addr Obj)

def giveUp (s : Owner) (i : Nat) : Except Stop Owner :=
  match s.held[i]? with
  | none => return s
  | some a => do
    let (_, chan) ← s.chan.exec (freeResponce (some a))
    return ⟨chan, s.held.eraseIdx i⟩

def step (s : Owner) : Section → Except Stop Owner
  | .start c => do
    let (_, chan) ← s.chan.startCommand al c
    return { s with chan := chan }
  | .processLine line => do
    let chan ← s.chan.processLine al line
    return { s with chan := chan }
  | .readerClose => return { s with chan := s.chan.readerClose }
  | .check outRsp => do
    if ← s.chan.answered then
      let sent ← s.chan.takeResponse outRsp
      return ⟨sent.chan, s.held ++ HeapOut.addr sent.out⟩
    else return s
  | .timeOut => do
    let chan ← s.chan.clearPendingCommand
    return { s with chan := chan }
  | .freeResponce i => s.giveUp i

end Owner

def finalText (hc : HeapChannel) : Option Line :=
  match hc.rsp.bind hc.mem.heap.lookup with
  | some (.response r) =>
    match r.finalResp.bind hc.mem.heap.lookup with
    | some (.chars s) => some s
    | _ => none
  | _ => none

def replaced (s : Owner) : Section → List Line
  | .processLine line => if isFinalResponse line then (finalText s.chan).toList else []
  | _ => []

/-- The final lines replaced in a run, the latest first. -/
def replacedIn (al : Allocator Addr Obj) (s : Owner) : List Section → List Line
  | [] => []
  | a :: as =>
    match s.step al a with
    | .ok t => replacedIn al t as ++ replaced s a
    | .error _ => []

inductive Entry
  | sendCommand (cmd : Line) (outRsp : Bool)
  | sendCommandSingleLine (cmd rspPrefix : Line) (outRsp : Bool)
  | sendCommandNumeric (cmd : Line) (outRsp : Bool)
  | sendCommandMultiLine (cmd rspPrefix : Line) (outRsp : Bool)
  | sendCommandSms (cmd pdu rspPrefix : Line) (outRsp : Bool)

def Entry.run (ch : ATChannel) (wakes : List Wake) : Entry → Option Sent
  | .sendCommand cmd outRsp => SendCommand.sendCommand ch cmd outRsp wakes
  | .sendCommandSingleLine cmd rspPrefix outRsp =>
    SendCommand.sendCommandSingleLine ch cmd rspPrefix outRsp wakes
  | .sendCommandNumeric cmd outRsp => SendCommand.sendCommandNumeric ch cmd outRsp wakes
  | .sendCommandMultiLine cmd rspPrefix outRsp =>
    SendCommand.sendCommandMultiLine ch cmd rspPrefix outRsp wakes
  | .sendCommandSms cmd pdu rspPrefix outRsp =>
    SendCommand.sendCommandSms ch cmd pdu rspPrefix outRsp wakes

def Entry.runHeap (al : Allocator Addr Obj) (hc : HeapChannel) (wakes : List Wake) :
    Entry → Except Stop HeapSent
  | .sendCommand cmd outRsp => hc.sendCommand al cmd outRsp wakes
  | .sendCommandSingleLine cmd rspPrefix outRsp =>
    hc.sendCommandSingleLine al cmd rspPrefix outRsp wakes
  | .sendCommandNumeric cmd outRsp => hc.sendCommandNumeric al cmd outRsp wakes
  | .sendCommandMultiLine cmd rspPrefix outRsp =>
    hc.sendCommandMultiLine al cmd rspPrefix outRsp wakes
  | .sendCommandSms cmd pdu rspPrefix outRsp =>
    hc.sendCommandSms al cmd pdu rspPrefix outRsp wakes

inductive SessionStep
  | call (e : Entry) (wakes : List Wake)
  | act (a : Act)
  | freeResponce (i : Nat)

structure Session where
  chan : ATChannel
  held : List ATResponse
  rets : List Int

def OutRsp.responses : OutRsp → List ATResponse
  | .resp r => [r]
  | _ => []

def Session.step (s : Session) : SessionStep → Option Session
  | .call e wakes => do
    let sent ← e.run s.chan wakes
    return ⟨sent.chan, s.held ++ OutRsp.responses sent.out, s.rets ++ [sent.ret]⟩
  | .act a => do
    let chan ← a.run s.chan
    return { s with chan := chan }
  | .freeResponce i => return { s with held := s.held.eraseIdx i }

structure HeapSession where
  owner : Owner
  rets : List Int

def HeapSession.step (al : Allocator Addr Obj) (s : HeapSession) :
    SessionStep → Except Stop HeapSession
  | .call e wakes => do
    let sent ← e.runHeap al s.owner.chan wakes
    return ⟨⟨sent.chan, s.owner.held ++ HeapOut.addr sent.out⟩, s.rets ++ [sent.ret]⟩
  | .act a => do
    let chan ← s.owner.chan.act al a
    return { s with owner := { s.owner with chan := chan } }
  | .freeResponce i => do
    let owner ← s.owner.giveUp i
    return { s with owner := owner }

end Mobile.Channel.HeapRuns
