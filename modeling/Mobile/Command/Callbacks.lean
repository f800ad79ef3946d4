import Mobile.Channel.SendCommand
import Mobile.Token.Tokenizer

/-!
# The callbacks of the command manager

`ATCommandManager` reaches the channel through callbacks.  A run of one of its
operations meets a sequence of replies, one for each command sent, and leaves a
trace.  A response carries the number of the command it was handed out for as its
identity, and a pointer that a call leaves unassigned keeps its old value.
-/

namespace Mobile.Command.Callbacks

open Mobile.Token.Scan Mobile.Token.Tokenizer Mobile.Channel.Types
open Mobile.Channel.ProcessLine Mobile.Channel.SendCommand

/-- One command sent through a callback; `outRsp` is false for a null `outRsp`. -/
inductive Call
  | command (cmd : Line) (outRsp : Bool)
  | singleLine (cmd rspPrefix : Line)
  | multiLine (cmd rspPrefix : Line)
  deriving DecidableEq, Repr

namespace Call

def outRsp : Call → Bool
  | .command _ outRsp => outRsp
  | _ => true

def send (ch : ATChannel) (wakes : List Wake) : Call → Option Sent
  | .command cmd outRsp => sendCommand ch cmd outRsp wakes
  | .singleLine cmd rspPrefix => sendCommandSingleLine ch cmd rspPrefix true wakes
  | .multiLine cmd rspPrefix => sendCommandMultiLine ch cmd rspPrefix true wakes

end Call

structure Reply where
  ret : Int
  out : OutRsp
  deriving DecidableEq, Repr

def Producible (call : Call) (reply : Reply) : Prop :=
  ∃ ch wakes sent, call.send ch wakes = some sent ∧ sent.ret = reply.ret ∧ sent.out = reply.out

inductive Ptr
  | unassigned
  | null
  | resp (id : Nat) (r : ATResponse)
  deriving DecidableEq, Repr

inductive Crash
  | nullResponse
  | unassignedResponse
  | freedResponse
  | nullIntermediates
  | nullCursor
  deriving DecidableEq, Repr

inductive OpEvent
  | sent (call : Call) (reply : Reply)
  | handOut (id : Nat)
  | use (id : Nat)
  | free (id : Nat)
  /-- the test of a return code, and whether the failure branch was taken -/
  | tested (ret : Int) (failed : Bool)
  /-- the callback argument of `getModem` -/
  | modemMatch (name : Line)
  deriving DecidableEq, Repr

structure World where
  replies : Nat → Reply
  sent : Nat
  trace : List OpEvent

def World.log (w : World) (ev : OpEvent) : World := { w with trace := w.trace ++ [ev] }

structure Op (α : Type) where
  run : World → Except Crash α × World

namespace Op

instance : Monad Op where
  pure a := ⟨fun w => (.ok a, w)⟩
  bind x f := ⟨fun w =>
    match x.run w with
    | (.ok a, w) => (f a).run w
    | (.error c, w) => (.error c, w)⟩

def log (ev : OpEvent) : Op Unit := ⟨fun w => (.ok (), w.log ev)⟩

def crash {α : Type} (c : Crash) : Op α := ⟨fun w => (.error c, w)⟩

end Op

def send (call : Call) (rsp : Ptr) : Op (Int × Ptr) := ⟨fun w =>
  let reply := w.replies w.sent
  let w' := { w.log (.sent call reply) with sent := w.sent + 1 }
  match reply.out with
  | .unassigned => (.ok (reply.ret, rsp), w')
  | .null => (.ok (reply.ret, .null), w')
  | .resp r => (.ok (reply.ret, .resp w.sent r), w'.log (.handOut w.sent))⟩

/-- `send_command_(cmd, nullptr)` -/
def sendOnly (cmd : Line) : Op Int := ⟨fun w =>
  let reply := w.replies w.sent
  (.ok reply.ret, { w.log (.sent (.command cmd false) reply) with sent := w.sent + 1 })⟩

def deref : Ptr → Op ATResponse
  | .unassigned => Op.crash .unassignedResponse
  | .null => Op.crash .nullResponse
  | .resp id r => ⟨fun w =>
    if .free id ∈ w.trace then (.error .freedResponse, w.log (.use id))
    else (.ok r, w.log (.use id))⟩

/-- `free_resp_`; the channel's `FreeResponce` ignores the null pointer. -/
def freeResp : Ptr → Op Unit
  | .unassigned => Op.crash .unassignedResponse
  | .null => pure ()
  | .resp id _ => Op.log (.free id)

/-- `GetCmeError`, as the value of its enumeration. -/
def getCmeError (r : ATResponse) : Option Int :=
  if r.success > 0 then some 0 else
  match r.finalResp with
  | none => some (-1)
  | some final =>
    if !atStrStartWith final (text "+CME ERROR:") then some (-1) else
    let (err, cur) := atTokStart (some final)
    if err < 0 then some (-1) else do
      let (err, ret, _) ← atTokNextInt cur
      if err < 0 then return -1 else return ret.getD 0

/-- A tokenizer call; it reads through its cursor. -/
def tok {α : Type} (x : Option α) : Op α :=
  match x with
  | some a => pure a
  | none => Op.crash .nullCursor

/-- How the operations invoke the callbacks, each with what it does to the response. -/
class Calls (M : Type → Type) extends Monad M where
  /-- a step that invokes none -/
  lift {α : Type} : Op α → M α
  /-- `send_command_`, `send_command_singleline_` or `send_command_mutiline_` with `&rsp` -/
  send : Call → Ptr → M (Int × Ptr)
  /-- `send_command_(cmd, nullptr)` -/
  sendOnly : Line → M Int
  /-- `free_resp_(rsp)` -/
  freeResp : Ptr → M Unit
  /-- `get_cme_error_(rsp)` -/
  cmeError : Ptr → M Int

/-- The callbacks are the functions of the channel. -/
@[default_instance] instance : Calls Op where
  lift x := x
  send := send
  sendOnly := sendOnly
  freeResp := freeResp
  cmeError rsp := do
    let r ← deref rsp
    tok (getCmeError r)

end Mobile.Command.Callbacks
