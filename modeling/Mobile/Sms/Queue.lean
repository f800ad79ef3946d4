import Mobile.Token.Scan

/-!
# The message queue

`AddMsg` and `DelMsg` of `sms.cc`, each atomic under the manager's `mutex_`.  An
element of the queue is named by the number of elements constructed before it:
this is what a reference to it denotes, and `pop` ends its lifetime.
-/

namespace Mobile.Sms.Queue

open Mobile.Token.Scan

structure SMS where
  idx : UInt32
  msg : Line
  resp : UInt32
  deriving DecidableEq, Repr

def SMS.ofMsg (msg : Line) : SMS := ⟨0, msg, 0⟩

structure SMSManager where
  maxMsgNum : UInt32
  smsQueue : List (SMS × Nat)
  constructed : Nat
  deriving DecidableEq, Repr

def SMSManager.new (maxMsgNum : UInt32) : SMSManager := ⟨maxMsgNum, [], 0⟩

def addMsg (m : SMSManager) (msg : Line) : Bool × SMSManager :=
  if m.smsQueue.length > m.maxMsgNum.toNat then (false, m)
  else
    (true, { m with
      smsQueue := m.smsQueue ++ [(SMS.ofMsg msg, m.constructed)]
      constructed := m.constructed + 1 })

/-- `none` is `front()` of an empty queue.  The result is the reference to the front
element, which `pop()` has destroyed by then. -/
def delMsg (m : SMSManager) : Option (Nat × SMSManager) :=
  match m.smsQueue with
  | [] => none
  | (_, ref) :: rest => some (ref, { m with smsQueue := rest })

/-- What a reference shows: its element, `none` when that has been destroyed. -/
def SMSManager.read (m : SMSManager) (ref : Nat) : Option SMS :=
  (m.smsQueue.find? fun sms => sms.2 = ref).map Prod.fst

inductive QueueState
  | running (m : SMSManager)
  /-- behind `front()` of an empty queue -/
  | undefined
  deriving DecidableEq, Repr

/-- A call with what it returned: for `DelMsg` the reference and what it shows then. -/
inductive QueueCall
  | addMsg (msg : Line) (ret : Bool)
  | delMsg (ret : Option (Nat × Option SMS))
  deriving DecidableEq, Repr

inductive QueueStep : QueueState → QueueCall → QueueState → Prop
  | addMsg (m : SMSManager) (msg : Line) :
      QueueStep (.running m) (.addMsg msg (Queue.addMsg m msg).1)
        (.running (Queue.addMsg m msg).2)
  | delMsg {m m' : SMSManager} {ref : Nat} (h : Queue.delMsg m = some (ref, m')) :
      QueueStep (.running m) (.delMsg (some (ref, m'.read ref))) (.running m')
  | delEmpty {m : SMSManager} (h : Queue.delMsg m = none) :
      QueueStep (.running m) (.delMsg none) .undefined

end Mobile.Sms.Queue
