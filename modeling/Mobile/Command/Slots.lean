import Mobile.Command.Callbacks

/-!
# The slots of the command manager

The `std::function` members of `ATCommandManager`, how `RegisterATCommandCb` fills
them, and calls that go through them.  A call through an empty slot throws
`std::bad_function_call`; what was in the slot is recorded with each call.
-/

namespace Mobile.Command.Slots

open Mobile.Token.Scan Mobile.Token.Tokenizer Mobile.Channel.Types Mobile.Command.Callbacks

inductive Slot
  | sendCommand
  | sendCommandNumberic
  | sendCommandSingleline
  | sendCommandMutiline
  | allocResp
  | freeResp
  | getCmeError
  deriving DecidableEq, Repr

inductive ChannelFn
  | sendCommand
  | sendCommandNumeric
  | sendCommandSingleLine
  | sendCommandMultiLine
  | allocResponce
  | freeResponce
  | getCmeError
  deriving DecidableEq, Repr

def Slot.kind : Slot → ChannelFn
  | sendCommand => .sendCommand
  | sendCommandNumberic => .sendCommandNumeric
  | sendCommandSingleline => .sendCommandSingleLine
  | sendCommandMutiline => .sendCommandMultiLine
  | allocResp => .allocResponce
  | freeResp => .freeResponce
  | getCmeError => .getCmeError

abbrev Bindings := Slot → Option ChannelFn

/-- `ATCommandManager() = default` -/
def noSlots : Bindings := fun _ => none

/-- The first two assignments are to the same member. -/
def setSendCommandCb (slots : Bindings)
    (send sendNum sendSLine sendMLine allocRsp freeRsp getErr : ChannelFn) : Bindings :=
  let slots := Function.update slots .sendCommandNumberic (some send)
  let slots := Function.update slots .sendCommandNumberic (some sendNum)
  let slots := Function.update slots .sendCommandSingleline (some sendSLine)
  let slots := Function.update slots .sendCommandMutiline (some sendMLine)
  let slots := Function.update slots .allocResp (some allocRsp)
  let slots := Function.update slots .freeResp (some freeRsp)
  Function.update slots .getCmeError (some getErr)

def registerATCommandCb (slots : Bindings) : Bindings :=
  setSendCommandCb slots .sendCommand .sendCommandNumeric .sendCommandSingleLine
    .sendCommandMultiLine .allocResponce .freeResponce .getCmeError

structure Invocation where
  slot : Slot
  held : Option ChannelFn
  deriving DecidableEq, Repr

def Invocation.Matches (i : Invocation) : Prop := i.held = some i.slot.kind

inductive Fault
  | crash (c : Crash)
  | badFunctionCall
  deriving DecidableEq, Repr

structure Dispatch where
  slots : Bindings
  world : World
  invoked : List Invocation

structure Via (α : Type) where
  run : Dispatch → Except Fault α × Dispatch

namespace Via

instance : Monad Via where
  pure a := ⟨fun d => (.ok a, d)⟩
  bind x f := ⟨fun d =>
    match x.run d with
    | (.ok a, d) => (f a).run d
    | (.error e, d) => (.error e, d)⟩

def lift {α : Type} (x : Op α) : Via α := ⟨fun d =>
  match x.run d.world with
  | (.ok a, w) => (.ok a, { d with world := w })
  | (.error c, w) => (.error (.crash c), { d with world := w })⟩

def invoke (slot : Slot) : Via Unit := ⟨fun d =>
  let d' := { d with invoked := d.invoked ++ [⟨slot, d.slots slot⟩] }
  match d.slots slot with
  | some _ => (.ok (), d')
  | none => (.error .badFunctionCall, d')⟩

end Via

def slotOf : Call → Slot
  | .command _ _ => .sendCommand
  | .singleLine _ _ => .sendCommandSingleline
  | .multiLine _ _ => .sendCommandMutiline

/-- `send_command_`, `send_command_singleline_` or `send_command_mutiline_` with `&rsp`. -/
def sendVia (call : Call) (rsp : Ptr) : Via (Int × Ptr) := do
  Via.invoke (slotOf call)
  Via.lift (send call rsp)

/-- `send_command_(cmd, nullptr)` -/
def sendCommand (cmd : Line) : Via Int := do
  Via.invoke .sendCommand
  Via.lift (sendOnly cmd)

def freeVia (rsp : Ptr) : Via Unit := do
  Via.invoke .freeResp
  Via.lift (freeResp rsp)

def cmeVia (rsp : Ptr) : Via Int := do
  Via.invoke .getCmeError
  Via.lift do
    let r ← deref rsp
    tok (getCmeError r)

instance : Calls Via where
  lift := Via.lift
  send := sendVia
  sendOnly := sendCommand
  freeResp := freeVia
  cmeError := cmeVia

end Mobile.Command.Slots
