import Mobile.ProofSupport.Transition
import Mobile.Sms.Queue

/-!
# The queue as a bounded FIFO

The references that `DelMsg` returns denote the accepted messages in their order, but
each is to an element that `pop()` has destroyed, so no message is ever read from the
queue.  The bound holds as long as `AddMsg` is not called on a queue that has reached
it: the test of `AddMsg` lets one more message in.
-/

namespace Mobile.Sms.Proofs.Fifo

open Mobile.Token.Scan Mobile.ProofSupport.Transition Mobile.Sms.Queue

def accepted (calls : List QueueCall) : List SMS :=
  calls.filterMap fun call =>
    match call with
    | .addMsg msg true => some (SMS.ofMsg msg)
    | _ => none

def references (calls : List QueueCall) : List Nat :=
  calls.filterMap fun call =>
    match call with
    | .delMsg ret => ret.map Prod.fst
    | _ => none

def returned (calls : List QueueCall) : List (Option SMS) :=
  calls.filterMap fun call =>
    match call with
    | .delMsg ret => ret.map Prod.snd
    | _ => none

def queued (m : SMSManager) : List SMS := m.smsQueue.map Prod.fst

/-- The queue has served the calls so far as a FIFO of its capacity. -/
def BoundedFifo (calls : List QueueCall) : QueueState → Prop
  | .undefined => False
  | .running m =>
    m.smsQueue.length ≤ m.maxMsgNum.toNat ∧
    returned calls ++ (queued m).map some = (accepted calls).map some ∧
    ∀ msg, (addMsg m msg).1 = false ↔ (addMsg m msg).2 = m

/-- The call is an `AddMsg` off the boundary of the capacity test. -/
def Regular : QueueState → QueueCall → Prop
  | .running m, .addMsg _ _ => m.smsQueue.length ≠ m.maxMsgNum.toNat
  | .running _, .delMsg _ => False
  | .undefined, _ => True

@[simp] theorem accepted_append (calls : List QueueCall) (call : QueueCall) :
    accepted (calls ++ [call]) = accepted calls ++ accepted [call] := by
  simp [accepted]

@[simp] theorem references_append (calls : List QueueCall) (call : QueueCall) :
    references (calls ++ [call]) = references calls ++ references [call] := by
  simp [references]

@[simp] theorem returned_append (calls : List QueueCall) (call : QueueCall) :
    returned (calls ++ [call]) = returned calls ++ returned [call] := by
  simp [returned]

theorem addMsg_full {m : SMSManager} (h : m.smsQueue.length > m.maxMsgNum.toNat) (msg : Line) :
    addMsg m msg = (false, m) := by
  simp [addMsg, h]

theorem addMsg_room {m : SMSManager} (h : m.smsQueue.length ≤ m.maxMsgNum.toNat) (msg : Line) :
    addMsg m msg = (true, { m with
      smsQueue := m.smsQueue ++ [(SMS.ofMsg msg, m.constructed)]
      constructed := m.constructed + 1 }) := by
  have hnot : ¬ m.smsQueue.length > m.maxMsgNum.toNat := by omega
  simp [addMsg, hnot]

theorem addMsg_false_iff (m : SMSManager) (msg : Line) :
    (addMsg m msg).1 = false ↔ (addMsg m msg).2 = m := by
  by_cases hfull : m.smsQueue.length > m.maxMsgNum.toNat
  · simp [addMsg_full hfull]
  · rw [addMsg_room (by omega)]
    constructor
    · intro h
      cases h
    · intro h
      have hlen := congrArg (fun m => m.constructed) h
      simp at hlen

theorem delMsg_some {m m' : SMSManager} {ref : Nat} (hdel : delMsg m = some (ref, m')) :
    ∃ sms, m.smsQueue = (sms, ref) :: m'.smsQueue ∧ m'.constructed = m.constructed := by
  unfold delMsg at hdel
  split at hdel
  · cases hdel
  · rename_i sms front rest hqueue
    cases hdel
    exact ⟨sms, hqueue, rfl⟩

/-! ### The order of the references -/

/-- The elements that the returned references denoted, then the queued ones, are the
accepted messages in their order. -/
structure Ordered (calls : List QueueCall) (m : SMSManager) : Prop where
  denoted : ∃ taken : List (SMS × Nat), taken.map Prod.snd = references calls ∧
    taken ++ m.smsQueue = (accepted calls).zipIdx
  constructed : m.constructed = (accepted calls).length

theorem Ordered.addMsg {calls : List QueueCall} {m : SMSManager} (h : Ordered calls m)
    (msg : Line) : Ordered (calls ++ [.addMsg msg (addMsg m msg).1]) (addMsg m msg).2 := by
  obtain ⟨taken, hrefs, hcontents⟩ := h.denoted
  by_cases hfull : m.smsQueue.length > m.maxMsgNum.toNat
  · rw [addMsg_full hfull]
    constructor
    · exact ⟨taken, by simpa [references] using hrefs, by simpa [accepted] using hcontents⟩
    · simpa [accepted] using h.constructed
  · rw [addMsg_room (by omega)]
    constructor
    · refine ⟨taken, by simpa [references] using hrefs, ?_⟩
      calc taken ++ (m.smsQueue ++ [(SMS.ofMsg msg, m.constructed)])
          = (taken ++ m.smsQueue) ++ [(SMS.ofMsg msg, m.constructed)] := by simp
        _ = (accepted calls).zipIdx ++ [(SMS.ofMsg msg, (accepted calls).length)] := by
            rw [hcontents, h.constructed]
        _ = (accepted (calls ++ [.addMsg msg true])).zipIdx := by
            simp [accepted, List.zipIdx_append]
    · simp [accepted, h.constructed]

theorem Ordered.delMsg {calls : List QueueCall} {m m' : SMSManager} {ref : Nat}
    (h : Ordered calls m) (hdel : delMsg m = some (ref, m')) (shown : Option SMS) :
    Ordered (calls ++ [.delMsg (some (ref, shown))]) m' := by
  obtain ⟨taken, hrefs, hcontents⟩ := h.denoted
  obtain ⟨sms, hqueue, hconstructed⟩ := delMsg_some hdel
  constructor
  · refine ⟨taken ++ [(sms, ref)], by simpa [references] using hrefs, ?_⟩
    calc taken ++ [(sms, ref)] ++ m'.smsQueue
        = taken ++ m.smsQueue := by simp [hqueue]
      _ = (accepted (calls ++ [.delMsg (some (ref, shown))])).zipIdx := by
          simpa [accepted] using hcontents
  · rw [hconstructed, h.constructed]
    simp [accepted]

/-- In every run the references have denoted the accepted messages in their order;
nothing more is said once `front()` of an empty queue was called. -/
theorem run_ordered {maxMsgNum : UInt32} {calls : List QueueCall} {m : SMSManager}
    {s : QueueState} (run : Run QueueStep (.running (.new maxMsgNum)) calls s)
    (hs : s = .running m) : Ordered calls m := by
  induction run generalizing m with
  | nil =>
      cases hs
      exact ⟨⟨[], rfl, rfl⟩, rfl⟩
  | snoc run last ih =>
      cases last with
      | addMsg m₀ msg =>
          cases hs
          exact (ih rfl).addMsg msg
      | delMsg hdel =>
          cases hs
          exact (ih rfl).delMsg hdel _
      | delEmpty => cases hs

theorem Ordered.nodup {calls : List QueueCall} {m : SMSManager} (h : Ordered calls m) :
    (references calls ++ m.smsQueue.map Prod.snd).Nodup := by
  obtain ⟨taken, hrefs, hcontents⟩ := h.denoted
  rw [← hrefs, ← List.map_append, hcontents, List.zipIdx_map_snd]
  exact List.nodup_range'

theorem Ordered.read_none {calls : List QueueCall} {m : SMSManager} (h : Ordered calls m)
    {ref : Nat} (href : ref ∈ references calls) : m.read ref = none := by
  rw [SMSManager.read, Option.map_eq_none_iff, List.find?_eq_none]
  intro sms hsms heq
  have hsame : sms.2 = ref := by simpa using heq
  have hne := (List.nodup_append.1 h.nodup).2.2 ref href sms.2 (List.mem_map_of_mem hsms)
  exact hne hsame.symm

theorem delMsg_shows_none {calls : List QueueCall} {m m' : SMSManager} {ref : Nat}
    (h : Ordered calls m) (hdel : delMsg m = some (ref, m')) : m'.read ref = none :=
  (h.delMsg hdel none).read_none (by simp [references])

/-! ### The bound -/

theorem BoundedFifo.step {calls : List QueueCall} {s t : QueueState} {call : QueueCall}
    (h : BoundedFifo calls s) (hstep : QueueStep s call t) (hregular : Regular s call) :
    BoundedFifo (calls ++ [call]) t := by
  cases hstep with
  | addMsg m msg =>
      obtain ⟨hbound, hcontents, -⟩ := h
      have hroom : m.smsQueue.length ≠ m.maxMsgNum.toNat := hregular
      rw [addMsg_room hbound]
      refine ⟨?_, ?_, addMsg_false_iff _⟩
      · simp only [List.length_append, List.length_singleton]
        omega
      · calc returned (calls ++ [QueueCall.addMsg msg true]) ++
              ((m.smsQueue ++ [(SMS.ofMsg msg, m.constructed)]).map Prod.fst).map some
            = (returned calls ++ (queued m).map some) ++ [some (SMS.ofMsg msg)] := by
              simp [returned, queued]
          _ = (accepted (calls ++ [QueueCall.addMsg msg true])).map some := by
              rw [hcontents]
              simp [accepted]
  | delMsg | delEmpty => exact hregular.elim

theorem BoundedFifo.of_step {calls : List QueueCall} {m : SMSManager} {t : QueueState}
    {call : QueueCall} (hordered : Ordered calls m) (hstep : QueueStep (.running m) call t)
    (h : BoundedFifo (calls ++ [call]) t) :
    BoundedFifo calls (.running m) ∧ Regular (.running m) call := by
  cases hstep with
  | addMsg _ msg =>
      obtain ⟨hbound, hcontents, -⟩ := h
      by_cases hfull : m.smsQueue.length > m.maxMsgNum.toNat
      · rw [addMsg_full hfull] at hbound
        exact absurd hbound (Nat.not_le_of_gt hfull)
      · rw [addMsg_room (by omega)] at hbound hcontents
        simp only [List.length_append, List.length_singleton] at hbound
        refine ⟨⟨by omega, ?_, addMsg_false_iff m⟩, by simp only [Regular]; omega⟩
        simpa [returned, accepted, queued, ← List.append_assoc] using hcontents
  | @delMsg _ m' ref hdel =>
      obtain ⟨-, hcontents, -⟩ := h
      have hnone : none ∈ (accepted (calls ++ [.delMsg (some (ref, m'.read ref))])).map some := by
        rw [← hcontents, delMsg_shows_none hordered hdel]
        simp [returned]
      simp at hnone
  | delEmpty => exact h.elim

/-- The queue is a FIFO of its capacity at the end of a run exactly when the calls of
the run were all regular. -/
theorem boundedFifo_iff_regular (maxMsgNum : UInt32) {calls : List QueueCall} {s : QueueState}
    (run : Run QueueStep (.running (.new maxMsgNum)) calls s) :
    BoundedFifo calls s ↔ Run (Restrict QueueStep Regular) (.running (.new maxMsgNum)) calls s := by
  constructor
  · intro h
    induction run with
    | nil => exact .nil
    | @snoc calls call s t run last ih =>
        cases s with
        | undefined => nomatch last
        | running m =>
            obtain ⟨hbefore, hregular⟩ := BoundedFifo.of_step (run_ordered run rfl) last h
            exact (ih hbefore).snoc_restrict last hregular
  · intro hregular
    clear run
    induction hregular with
    | nil => exact ⟨by simp [SMSManager.new], rfl, addMsg_false_iff _⟩
    | snoc _ last ih => exact ih.step last.1 last.2

/-- Two messages in a queue for two. -/
theorem boundedFifo_iff_regular_two :
    BoundedFifo [.addMsg [0x61] true, .addMsg [0x62] true]
      (.running ⟨2, [(SMS.ofMsg [0x61], 0), (SMS.ofMsg [0x62], 1)], 2⟩) :=
  (boundedFifo_iff_regular 2
    (((Run.single (.addMsg (.new 2) [0x61])).snoc (.addMsg _ [0x62])) :
      Run QueueStep (.running (.new 2)) [.addMsg [0x61] true, .addMsg [0x62] true] _)).2
    ((Run.single ⟨.addMsg (.new 2) [0x61], by simp [Regular, SMSManager.new]⟩).snoc_restrict
      (.addMsg _ [0x62]) (by simp [Regular, addMsg, SMSManager.new]))

/-- A queue for no message takes one, a message taken from the empty queue is
undefined, and one taken from a queue of one cannot be read. -/
theorem run_not_boundedFifo :
    (∃ calls s, Run QueueStep (.running (.new 0)) calls s ∧ ¬ BoundedFifo calls s) ∧
    (∃ calls s, Run QueueStep (.running (.new 1000)) calls s ∧ ¬ BoundedFifo calls s) ∧
    ∃ s, Run QueueStep (.running (.new 1000))
      [.addMsg [0x61] true, .delMsg (some (0, none))] s ∧
      ¬ BoundedFifo [.addMsg [0x61] true, .delMsg (some (0, none))] s := by
  refine ⟨⟨_, _, Run.single (.addMsg (.new 0) [0x61]), ?_⟩, ⟨_, _, Run.single (.delEmpty rfl), id⟩,
    _, (Run.single (.addMsg (.new 1000) [0x61])).snoc (@QueueStep.delMsg _ ⟨1000, [], 1⟩ 0 rfl), ?_⟩
  · rintro ⟨hbound, -⟩
    exact absurd hbound (by decide)
  · rintro ⟨-, hcontents, -⟩
    exact absurd hcontents (by decide)

end Mobile.Sms.Proofs.Fifo
