import Mobile.Command.Manager
import Mobile.Command.Proofs.Effects
import Mobile.ProofSupport.Transition

/-!
# Which slots the operations call

`SetSendCommandCb` fills every slot with the channel function of its kind, but
for `send_command_`, which it leaves empty.  An operation that calls through the
other slots only finds what it looks for; one that comes to `send_command_` does
not.
-/

namespace Mobile.Command.Proofs.Dispatch

open Mobile.ProofSupport.Transition
open Mobile.Token.Scan Mobile.Token.Tokenizer Mobile.Channel.Types Mobile.Channel.SendCommand
open Mobile.Command.Callbacks Mobile.Command.Slots Mobile.Command.Operations
open Mobile.Command.Manager Mobile.Command.Proofs

section Monad

variable {α β : Type} {x : Via α} {f : α → Via β} {d d' : Dispatch}

theorem via_bind_ok {a : α} (h : x.run d = (.ok a, d')) : (x >>= f).run d = (f a).run d' := by
  simp only [bind, h]

theorem via_bind_error {e : Fault} (h : x.run d = (.error e, d')) :
    (x >>= f).run d = (.error e, d') := by
  simp only [bind, h]

theorem lift_ok {y : Op α} {a : α} {w : World} (h : y.run d.world = (.ok a, w)) :
    (Via.lift y).run d = (.ok a, { d with world := w }) := by
  simp only [Via.lift, h]

theorem lift_error {y : Op α} {c : Crash} {w : World} (h : y.run d.world = (.error c, w)) :
    (Via.lift y).run d = (.error (.crash c), { d with world := w }) := by
  simp only [Via.lift, h]

theorem invoke_some {slot : Slot} {fn : ChannelFn} (h : d.slots slot = some fn) :
    (Via.invoke slot).run d =
      (.ok (), { d with invoked := d.invoked ++ [⟨slot, some fn⟩] }) := by
  simp only [Via.invoke, h]

theorem invoke_none {slot : Slot} (h : d.slots slot = none) :
    (Via.invoke slot).run d =
      (.error .badFunctionCall, { d with invoked := d.invoked ++ [⟨slot, none⟩] }) := by
  simp only [Via.invoke, h]

end Monad

/-! ### Calls through other slots -/

/-- A run from `d` leaves the slots as they are and calls through none but those
that meet `P`. -/
def ThroughAt {α : Type} (P : Slot → Prop) (x : Via α) (d : Dispatch) : Prop :=
  (x.run d).2.slots = d.slots ∧ ∃ new, (x.run d).2.invoked = d.invoked ++ new ∧
    ∀ i ∈ new, P i.slot ∧ i.held = d.slots i.slot

def Through {α : Type} (P : Slot → Prop) (x : Via α) : Prop := ∀ d, ThroughAt P x d

section Through

variable {α β : Type} {P : Slot → Prop}

theorem through_pure (a : α) : Through P (pure a : Via α) := fun d => ⟨rfl, [], by simp [pure]⟩

theorem ThroughAt.bind {x : Via α} {f : α → Via β} {d : Dispatch} (hx : ThroughAt P x d)
    (hf : ∀ a d', x.run d = (.ok a, d') → ThroughAt P (f a) d') : ThroughAt P (x >>= f) d := by
  obtain ⟨hslots, new, hnew, hmeet⟩ := hx
  cases hrun : x.run d with
  | mk res d' =>
      rw [hrun] at hslots hnew
      unfold ThroughAt
      cases res with
      | error e =>
          rw [via_bind_error hrun]
          exact ⟨hslots, new, hnew, hmeet⟩
      | ok a =>
          rw [via_bind_ok hrun]
          obtain ⟨hslots', new', hnew', hmeet'⟩ := hf a d' hrun
          refine ⟨hslots'.trans hslots, new ++ new', ?_, ?_⟩
          · rw [hnew', hnew, List.append_assoc]
          · intro i hi
            rcases List.mem_append.1 hi with hi | hi
            · exact hmeet i hi
            · exact ⟨(hmeet' i hi).1, (hmeet' i hi).2.trans (by rw [hslots])⟩

theorem Through.bind {x : Via α} {f : α → Via β} (hx : Through P x) (hf : ∀ a, Through P (f a)) :
    Through P (x >>= f) :=
  fun d => (hx d).bind fun a d' _ => hf a d'

theorem Through.ite {c : Prop} [Decidable c] {x y : Via α} (hx : Through P x)
    (hy : Through P y) : Through P (if c then x else y) := by
  split
  · exact hx
  · exact hy

theorem through_lift (y : Op α) : Through P (Via.lift y) := by
  intro d
  unfold ThroughAt
  cases hrun : y.run d.world with
  | mk res w =>
      cases res with
      | ok a =>
          rw [lift_ok hrun]
          exact ⟨rfl, [], by simp⟩
      | error c =>
          rw [lift_error hrun]
          exact ⟨rfl, [], by simp⟩

theorem through_invoke {slot : Slot} (h : P slot) : Through P (Via.invoke slot) := by
  intro d
  unfold ThroughAt
  cases hslot : d.slots slot with
  | none =>
      rw [invoke_none hslot]
      exact ⟨rfl, [⟨slot, none⟩], rfl, by simp [h, hslot]⟩
  | some fn =>
      rw [invoke_some hslot]
      exact ⟨rfl, [⟨slot, some fn⟩], rfl, by simp [h, hslot]⟩

theorem through_sendVia {call : Call} (h : P (slotOf call)) (rsp : Ptr) :
    Through P (sendVia call rsp) :=
  (through_invoke h).bind fun _ => through_lift _

theorem through_freeVia (h : P .freeResp) (rsp : Ptr) : Through P (freeVia rsp) :=
  (through_invoke h).bind fun _ => through_lift _

theorem through_cmeVia (h : P .getCmeError) (rsp : Ptr) : Through P (cmeVia rsp) :=
  (through_invoke h).bind fun _ => through_lift _

end Through

def Elsewhere (slot : Slot) : Prop := slot ≠ .sendCommand

section Elsewhere

variable {α : Type}

theorem through_freed (rsp : Ptr) (a : α) :
    Through Elsewhere (do freeVia rsp; return a) :=
  (through_freeVia (by simp [Elsewhere]) rsp).bind fun _ => through_pure a

theorem through_query {store : Int → Int} {cmd rspPrefix : Line} {rsp : Ptr} {failure : α}
    {read : Ptr → Line → Via α} (hread : ∀ rsp line, Through Elsewhere (read rsp line)) :
    Through Elsewhere (query store cmd rspPrefix rsp failure read) :=
  (through_sendVia (by simp [Elsewhere, slotOf]) rsp).bind fun r =>
    (through_lift _).bind fun _ =>
      (through_freed r.2 failure).ite ((through_lift _).bind fun line => hread r.2 line)

theorem through_readModel (rsp : Ptr) (line : Line) : Through Elsewhere (readModel rsp line) :=
  (through_freed _ _).ite ((through_lift _).bind fun _ =>
    (through_freed _ _).ite ((through_lift _).bind fun _ => through_freed _ _))

theorem through_readRadio (rsp : Ptr) (line : Line) : Through Elsewhere (readRadio rsp line) :=
  (through_freed _ _).ite ((through_lift _).bind fun _ =>
    (through_freed _ _).ite (through_freed _ _))

theorem through_readNet3GPP (rsp : Ptr) (line : Line) :
    Through Elsewhere (readNet3GPP rsp line) :=
  (through_freed _ _).ite ((through_lift _).bind fun _ =>
    (through_freed _ _).ite (through_freed _ _))

theorem through_getRadioState : Through Elsewhere getRadioState := through_query through_readRadio

/-- The loop of `setRadioState` is not entered. -/
theorem setRadioLoop_five (cmd : Line) (cfun : Int) (rsp : Ptr) :
    setRadioLoop cmd cfun 1 5 rsp = (pure rsp : Via Ptr) := if_neg (by decide)

theorem through_setRadioState (cfun : Int) : Through Elsewhere (setRadioState cfun) := by
  refine through_getRadioState.bind fun _ => (through_pure _).ite ?_
  rw [setRadioLoop_five]
  exact (through_pure _).bind fun _ => through_freed _ _

theorem through_readCpin (rsp : Ptr) (line : Line) : Through Elsewhere (readCpin rsp line) :=
  (through_freed _ _).ite ((through_lift _).bind fun _ =>
    (through_freed _ _).ite (through_freed _ _))

theorem through_readSIM (rsp : Ptr) : Through Elsewhere (readSIM rsp) :=
  (through_cmeVia (by simp [Elsewhere]) rsp).bind fun _ =>
    ((through_lift _).bind fun _ => through_readCpin _ _).ite
      ((through_freed _ _).ite (through_freed _ _))

theorem through_getSIMStatus : Through Elsewhere getSIMStatus :=
  (through_sendVia (by simp [Elsewhere, slotOf]) _).bind fun _ => (through_lift _).bind fun _ =>
    ((through_sendVia (by simp [Elsewhere, slotOf]) _).bind fun _ => (through_lift _).bind fun _ =>
      (through_freed _ _).ite (through_readSIM _)).ite (through_readSIM _)

theorem through_apnLines (rsp : Ptr) (lines : List Line) :
    Through Elsewhere (apnLines rsp lines) := by
  induction lines with
  | nil => exact through_freed _ _
  | cons line lines ih => exact (through_lift _).bind fun _ => ih.ite (through_freed _ _)

theorem through_getAPNS : Through Elsewhere getAPNS :=
  (through_sendVia (by simp [Elsewhere, slotOf]) _).bind fun _ => (through_lift _).bind fun _ =>
    (through_pure _).ite ((through_lift _).bind fun _ => through_apnLines _ _)

end Elsewhere

/-! ### Operations that begin with `send_command_` -/

/-- On an empty slot the operation ends in its first call. -/
def BeginsWithSend {α : Type} (x : Via α) : Prop :=
  ∀ d, d.slots .sendCommand = none →
    x.run d = (.error .badFunctionCall, { d with invoked := d.invoked ++ [⟨.sendCommand, none⟩] })

section Begins

variable {α β : Type}

theorem BeginsWithSend.bind {x : Via α} (hx : BeginsWithSend x) (f : α → Via β) :
    BeginsWithSend (x >>= f) :=
  fun d hslot => via_bind_error (hx d hslot)

theorem begins_invoke : BeginsWithSend (Via.invoke .sendCommand) := fun _ hslot => invoke_none hslot

theorem begins_sendCommand (cmd : Line) : BeginsWithSend (sendCommand cmd) := begins_invoke.bind _

theorem begins_sendAll (cmd : String) (cmds : List String) : BeginsWithSend (sendAll (cmd :: cmds)) :=
  (begins_sendCommand _).bind _

theorem begins_sendEither (first second : Line) : BeginsWithSend (sendEither first second) :=
  (begins_sendCommand _).bind _

end Begins

/-! ### `setEhrpd` -/

def lineOn (line : Line) : Bool :=
  let (rc, cur) := atTokStart (some line)
  decide (0 ≤ rc) &&
    match atTokNextBool cur with
    | some (rc, value, _) => decide (0 ≤ rc) && decide (value ≠ some 0)
    | none => false

/-- The answer to `AT+EHRPDENABLE?` with which `setEhrpd` goes on to switch off. -/
def ehrpdOn (reply : Reply) : Bool :=
  decide (0 ≤ reply.ret) &&
    match reply.out with
    | .resp r => decide (r.success ≠ 0) && (r.intermediates.head?.any lineOn)
    | _ => false

section Ehrpd

variable {d d' : Dispatch} {ret : Int} {p : Ptr}

theorem lift_run_ok {α : Type} {y : Op α} {a : α} (h : (Via.lift y).run d = (.ok a, d')) :
    (y.run d.world).1 = .ok a := by
  cases hrun : y.run d.world with
  | mk res w =>
      cases res with
      | ok b =>
          rw [lift_ok hrun] at h
          cases h
          rfl
      | error c =>
          rw [lift_error hrun] at h
          cases h

theorem lift_tok_ok {α : Type} {x : Option α} {a : α}
    (h : (Via.lift (tok x)).run d = (.ok a, d')) : x = some a := by
  cases x with
  | none => cases h
  | some b =>
      cases h
      rfl

theorem failedReply_false {w : World} (h : ((failedReply ret p).run w).1 = .ok false) :
    0 ≤ ret ∧ ∃ id r, p = .resp id r ∧ r.success ≠ 0 := by
  by_cases hneg : ret < 0
  · simp [failedReply, hneg, bind, pure, Op.log] at h
  · have hret : 0 ≤ ret := by omega
    cases p with
    | unassigned => simp [failedReply, hneg, bind, deref, Op.crash] at h
    | null => simp [failedReply, hneg, bind, deref, Op.crash] at h
    | resp id r =>
        by_cases hfree : .free id ∈ w.trace
        · simp [failedReply, hneg, bind, deref, hfree] at h
        · rw [Effects.failedReply_resp hret hfree] at h
          exact ⟨hret, id, r, rfl, by simpa using h⟩

theorem firstLine_head {w : World} {id : Nat} {r : ATResponse} {line : Line}
    (h : ((firstLine (.resp id r)).run w).1 = .ok line) : r.intermediates.head? = some line := by
  by_cases hfree : .free id ∈ w.trace
  · simp [firstLine, bind, deref, hfree] at h
  · cases hlines : r.intermediates with
    | nil =>
        rw [Effects.firstLine_nil hlines hfree] at h
        cases h
    | cons first lines =>
        rw [Effects.firstLine_cons hlines hfree] at h
        cases h
        rfl

theorem sendVia_ok {call : Call} {rsp : Ptr} (h : (sendVia call rsp).run d = (.ok (ret, p), d')) :
    ret = (d.world.replies d.world.sent).ret ∧ (p = rsp ∨ p = .null ∨
      ∃ id r, (d.world.replies d.world.sent).out = .resp r ∧ p = .resp id r) := by
  cases hslot : d.slots (slotOf call) with
  | none =>
      rw [sendVia, via_bind_error (invoke_none hslot)] at h
      cases h
  | some fn =>
      rw [sendVia, via_bind_ok (invoke_some hslot)] at h
      have hsend := lift_run_ok h
      cases hout : (d.world.replies d.world.sent).out with
      | unassigned =>
          rw [Effects.send_unassigned hout] at hsend
          cases hsend
          exact ⟨rfl, Or.inl rfl⟩
      | null =>
          rw [Effects.send_null hout] at hsend
          cases hsend
          exact ⟨rfl, Or.inr (Or.inl rfl)⟩
      | resp r =>
          rw [Effects.send_resp hout] at hsend
          cases hsend
          exact ⟨rfl, Or.inr (Or.inr ⟨_, r, rfl, rfl⟩)⟩

theorem through_readEhrpd {line : Line} (hline : lineOn line = false) (rsp : Ptr) :
    Through Elsewhere (readEhrpd rsp line) := by
  intro d
  unfold readEhrpd
  simp only
  by_cases hrc : (atTokStart (some line)).1 < 0
  · rw [if_pos hrc]
    exact through_freed _ _ d
  rw [if_neg hrc]
  refine (through_lift _ d).bind fun a d' hrun => ?_
  have htok := lift_tok_ok hrun
  obtain ⟨rc, value, cur⟩ := a
  by_cases hneg : rc < 0
  · simp only [if_pos hneg]
    exact through_freed _ _ d'
  · have hvalue : value = some 0 := by
      by_contra hne
      have hon : lineOn line = true := by
        simp only [lineOn, htok, Bool.and_eq_true, decide_eq_true_eq]
        exact ⟨by omega, by omega, hne⟩
      rw [hline] at hon
      cases hon
    simp only [if_neg hneg, hvalue, disableEhrpd, if_true]
    exact ((through_freeVia (by simp [Elsewhere]) rsp).bind fun _ => through_freed _ _) d'

/-- With any other answer `setEhrpd` does not come to `send_command_`. -/
theorem setEhrpd_throughAt (hoff : ehrpdOn (d.world.replies d.world.sent) = false) :
    ThroughAt Elsewhere setEhrpd d := by
  unfold setEhrpd query
  refine (through_sendVia (by simp [Elsewhere, slotOf]) _ d).bind fun a d₁ hsend => ?_
  obtain ⟨ret, p⟩ := a
  refine (through_lift _ d₁).bind fun failed d₂ hfailed => ?_
  cases failed with
  | true => exact through_freed _ _ d₂
  | false =>
      obtain ⟨hret, id, r, hp, hsuccess⟩ := failedReply_false (lift_run_ok hfailed)
      obtain ⟨hreply, hptr⟩ := sendVia_ok hsend
      subst hp
      refine (through_lift _ d₂).bind fun line d₃ hfirst => ?_
      have hhead := firstLine_head (lift_run_ok hfirst)
      refine through_readEhrpd ?_ _ d₃
      by_contra hon
      rcases hptr with hptr | hptr | ⟨id', r', hout, hptr⟩
      · cases hptr
      · cases hptr
      · cases hptr
        have hon' : ehrpdOn (d.world.replies d.world.sent) = true := by
          simp only [ehrpdOn, hout, hhead, Bool.and_eq_true, decide_eq_true_eq, Option.any_some]
          exact ⟨hreply ▸ hret, hsuccess, by simpa using hon⟩
        rw [hoff] at hon'
        cases hon'

def MeetsEmpty {α : Type} (x : Via α) (d : Dispatch) : Prop :=
  ⟨.sendCommand, none⟩ ∈ (x.run d).2.invoked

theorem meetsEmpty_bind {α β : Type} {x : Via α} {f : α → Via β} {a : α}
    (hx : x.run d = (.ok a, d')) (hf : MeetsEmpty (f a) d') : MeetsEmpty (x >>= f) d := by
  unfold MeetsEmpty
  rw [via_bind_ok hx]
  exact hf

theorem BeginsWithSend.meetsEmpty {α : Type} {x : Via α} (hx : BeginsWithSend x)
    (hslot : d.slots .sendCommand = none) : MeetsEmpty x d := by
  unfold MeetsEmpty
  rw [hx d hslot]
  simp

theorem freeVia_resp {id : Nat} {r : ATResponse} {fn : ChannelFn} (h : d.slots .freeResp = some fn) :
    (freeVia (.resp id r)).run d =
      (.ok (), { d with
        world := Effects.logs d.world [.free id]
        invoked := d.invoked ++ [⟨.freeResp, some fn⟩] }) := by
  rw [freeVia, via_bind_ok (invoke_some h), lift_ok Effects.freeResp_resp]

theorem sendVia_resp {call : Call} {rsp : Ptr} {r : ATResponse} {fn : ChannelFn}
    (h : d.slots (slotOf call) = some fn) (hout : (d.world.replies d.world.sent).out = .resp r) :
    (sendVia call rsp).run d =
      (.ok ((d.world.replies d.world.sent).ret, .resp d.world.sent r), { d with
        world := Effects.sends d.world
          [.sent call (d.world.replies d.world.sent), .handOut d.world.sent]
        invoked := d.invoked ++ [⟨slotOf call, some fn⟩] }) := by
  rw [sendVia, via_bind_ok (invoke_some h)]
  exact lift_ok (Effects.send_resp hout)

theorem readEhrpd_meetsEmpty {id : Nat} {r : ATResponse} {line : Line} {fn : ChannelFn}
    (hfree : d.slots .freeResp = some fn) (hempty : d.slots .sendCommand = none)
    (hon : lineOn line = true) : MeetsEmpty (readEhrpd (.resp id r) line) d := by
  simp only [lineOn, Bool.and_eq_true, decide_eq_true_eq] at hon
  obtain ⟨hrc, hon⟩ := hon
  cases htok : atTokNextBool (atTokStart (some line)).2 with
  | none => simp [htok] at hon
  | some a =>
      obtain ⟨rc, value, cur⟩ := a
      simp only [htok, Bool.and_eq_true, decide_eq_true_eq] at hon
      unfold readEhrpd
      simp only [if_neg (show ¬ (atTokStart (some line)).1 < 0 by omega), htok]
      refine meetsEmpty_bind (lift_ok rfl) ?_
      simp only [if_neg (show ¬ rc < 0 by omega)]
      refine meetsEmpty_bind (freeVia_resp hfree) ?_
      unfold disableEhrpd
      rw [if_neg hon.2]
      exact ((begins_invoke.bind _).bind _).meetsEmpty hempty

end Ehrpd

/-! ### The slots behind a registration -/

/-- Every slot but one holds the function of its kind. -/
structure Registered (slots : Bindings) : Prop where
  empty : slots .sendCommand = none
  filled : ∀ slot, Elsewhere slot → slots slot = some slot.kind

theorem registered_slots : Registered (registerATCommandCb noSlots) where
  empty := rfl
  filled slot hslot := by
    cases slot with
    | sendCommand => exact absurd rfl hslot
    | _ => rfl

theorem Registered.again {slots : Bindings} (h : Registered slots) :
    Registered (registerATCommandCb slots) where
  empty := h.empty
  filled slot hslot := by
    cases slot with
    | sendCommand => exact absurd rfl hslot
    | _ => rfl

theorem setEhrpd_meetsEmpty {d : Dispatch} (hslots : Registered d.slots)
    (htrace : d.world.trace = []) (hon : ehrpdOn (d.world.replies d.world.sent) = true) :
    MeetsEmpty setEhrpd d := by
  simp only [ehrpdOn, Bool.and_eq_true, decide_eq_true_eq] at hon
  obtain ⟨hret, hon⟩ := hon
  cases hout : (d.world.replies d.world.sent).out with
  | unassigned => simp [hout] at hon
  | null => simp [hout] at hon
  | resp r =>
      simp only [hout, Bool.and_eq_true, decide_eq_true_eq, Option.any_eq_true] at hon
      obtain ⟨hsuccess, line, hhead, hline⟩ := hon
      obtain ⟨lines, hlines⟩ := List.head?_eq_some_iff.1 hhead
      have hsingle := hslots.filled .sendCommandSingleline (by simp [Elsewhere])
      unfold setEhrpd query
      refine meetsEmpty_bind (sendVia_resp hsingle hout) ?_
      refine meetsEmpty_bind (lift_ok (Effects.failedReply_resp hret (by simp [htrace]))) ?_
      simp only [beq_eq_false_iff_ne.2 hsuccess, Bool.false_eq_true, if_false]
      refine meetsEmpty_bind (lift_ok (Effects.firstLine_cons hlines (by simp [htrace]))) ?_
      exact readEhrpd_meetsEmpty (hslots.filled .freeResp (by simp [Elsewhere])) hslots.empty hline

/-! ### Requests and runs -/

/-- The request does not come to `send_command_` with these channel outcomes. -/
def RequestClear (replies : Nat → Reply) : Request → Prop
  | .getModem | .getRadioState | .setRadioState _ | .getSIMStatus | .getNet3GPP | .getAPNS
  | .getNetSearchType | .setNetSearchType | .setTTS | .getOperator
  | .getNetStatus .network5G => True
  | .setEhrpd => ehrpdOn (replies 0) = false
  | _ => False

def KeepsClear : Action → Prop
  | .register => True
  | .request r replies => RequestClear replies r

section Requests

variable {slots : Bindings} {replies : Nat → Reply}

def fresh (slots : Bindings) (replies : Nat → Reply) : Dispatch := ⟨slots, ⟨replies, 0, []⟩, []⟩

theorem matches_of_through {α : Type} {x : Via α} (hslots : Registered slots)
    (h : ThroughAt Elsewhere x (fresh slots replies)) :
    ∀ i ∈ (x.run (fresh slots replies)).2.invoked, i.Matches := by
  obtain ⟨-, new, hnew, hmeet⟩ := h
  intro i hi
  rw [hnew] at hi
  obtain ⟨helse, hheld⟩ := hmeet i hi
  exact hheld.trans (hslots.filled i.slot helse)

theorem not_matches_of_meetsEmpty {α : Type} {x : Via α} {d : Dispatch} (h : MeetsEmpty x d) :
    ¬ ∀ i ∈ (x.run d).2.invoked, i.Matches := by
  intro hall
  have hmatch := hall _ h
  cases hmatch

theorem ThroughAt.withoutResult {α : Type} {x : Via α} {d : Dispatch}
    (h : ThroughAt Elsewhere x d) : ThroughAt Elsewhere (withoutResult x) d :=
  h.bind fun _ d' _ => through_pure _ d'

theorem request_through {r : Request} (h : RequestClear replies r) :
    ThroughAt Elsewhere r.perform (fresh slots replies) := by
  cases r with
  | getModem => exact (through_query through_readModel _).withoutResult
  | getRadioState => exact (through_getRadioState _).withoutResult
  | setRadioState cfun => exact (through_setRadioState cfun _).withoutResult
  | getSIMStatus => exact (through_getSIMStatus _).withoutResult
  | getNet3GPP => exact (through_query through_readNet3GPP _).withoutResult
  | getAPNS => exact (through_getAPNS _).withoutResult
  | getNetSearchType => exact (through_pure _ _).withoutResult
  | setNetSearchType => exact (through_pure _ _).withoutResult
  | setTTS => exact (through_pure _ _).withoutResult
  | getOperator => exact (through_pure _ _).withoutResult
  | setEhrpd =>
      have hoff : ehrpdOn (replies 0) = false := h
      exact ThroughAt.withoutResult (setEhrpd_throughAt hoff)
  | getNetStatus type =>
      cases type with
      | network5G =>
          have hnone : Through Elsewhere (getNetStatus .network5G) :=
            (through_pure ()).bind fun _ => through_pure true
          exact (hnone _).withoutResult
      | _ => exact absurd h id
  | _ => exact absurd h id

theorem meetsEmpty_withoutResult {α : Type} {x : Via α} {d : Dispatch} (h : MeetsEmpty x d) :
    MeetsEmpty (withoutResult x) d := by
  cases hrun : x.run d with
  | mk res d' =>
      have hmem : ⟨.sendCommand, none⟩ ∈ d'.invoked := by
        have hmem := h
        unfold MeetsEmpty at hmem
        rwa [hrun] at hmem
      unfold MeetsEmpty withoutResult
      cases res with
      | ok a =>
          rw [via_bind_ok hrun]
          exact hmem
      | error e =>
          rw [via_bind_error hrun]
          exact hmem

theorem request_meetsEmpty (hslots : Registered slots) {r : Request}
    (h : ¬ RequestClear replies r) : MeetsEmpty r.perform (fresh slots replies) := by
  have hbegin : ∀ {α : Type} {x : Via α}, BeginsWithSend x →
      MeetsEmpty (withoutResult x) (fresh slots replies) := fun hx =>
    meetsEmpty_withoutResult (hx.meetsEmpty hslots.empty)
  cases r with
  | getModem | getRadioState | setRadioState | getSIMStatus | getNet3GPP | getAPNS
  | getNetSearchType | setNetSearchType | setTTS | getOperator => exact absurd trivial h
  | setEhrpd =>
      have hon : ehrpdOn (replies 0) = true := by
        have hne : ¬ ehrpdOn (replies 0) = false := h
        simpa using hne
      exact meetsEmpty_withoutResult (setEhrpd_meetsEmpty hslots rfl hon)
  | getNetStatus type =>
      cases type with
      | network5G => exact absurd trivial h
      | _ => exact hbegin ((begins_sendAll _ _).bind _)
  | setChipErrorLevel | setSIMUnlockPinCode | setNewPinCode | setPDPStatus | setAPNS
  | setAuthInfo => exact hbegin ((begins_sendCommand _).bind _)
  | getSIMLock | setSignalNotify | setSMSFormat | hasSMS =>
      exact hbegin ((begins_sendEither _ _).bind _)
  | _ => exact hbegin ((begins_sendAll _ _).bind _)

theorem request_matches_iff (hslots : Registered slots) (r : Request) (replies : Nat → Reply) :
    (∀ i ∈ (r.perform.run (fresh slots replies)).2.invoked, i.Matches) ↔
      RequestClear replies r := by
  constructor
  · intro hall
    by_contra hclear
    exact not_matches_of_meetsEmpty (request_meetsEmpty hslots hclear) hall
  · intro hclear
    exact matches_of_through hslots (request_through hclear)

end Requests

open ManagerState

theorem run_registered {actions : List Action} {m : ManagerState}
    (h : Run Step registered actions m) : Registered m.slots := by
  refine h.invariant (fun m => Registered m.slots) ?_ registered_slots
  rintro m a m' ⟨-, rfl⟩ hm
  cases a with
  | register => exact hm.again
  | request r replies => exact hm

/-- In every run of registrations and requests, each callback that was invoked
had been set and was of its kind exactly when no request came to `send_command_`. -/
theorem callbacks_found_iff (actions : List Action) (m : ManagerState)
    (h : Run Step registered actions m) :
    (∀ i ∈ m.invoked, i.Matches) ↔ ∀ a ∈ actions, KeepsClear a := by
  induction h with
  | nil => simp [registered]
  | @snoc actions a m m' run last ih =>
      obtain ⟨-, rfl⟩ := last
      have hslots := run_registered run
      simp only [List.mem_append, List.mem_singleton, or_imp, forall_and, forall_eq]
      rw [← ih]
      cases a with
      | register => simp [exec, KeepsClear]
      | request r replies =>
          have hreq := request_matches_iff hslots r replies
          simp only [exec, List.mem_append, or_imp, forall_and, KeepsClear]
          exact and_congr_right fun _ => hreq

/-- What a closed channel replies: its code, and a response in which nothing was set. -/
def closedReply : Reply := ⟨ATErrno.errorChannelClosed.code, .resp .alloc⟩

/-- The state of the SIM is asked for on a channel that is closed. -/
theorem callbacks_found_simStatus :
    (registered.exec (.request .getSIMStatus fun _ => closedReply)).invoked.length = 3 ∧
      ∀ i ∈ (registered.exec (.request .getSIMStatus fun _ => closedReply)).invoked, i.Matches :=
  ⟨by decide, (callbacks_found_iff [.request .getSIMStatus fun _ => closedReply] _
    (Run.single ⟨rfl, rfl⟩)).2 (by simp [KeepsClear, RequestClear, closedReply, ATErrno.code])⟩

/-- `resetModem` calls through the slot that was never set. -/
theorem reset_finds_nothing :
    ¬ ∀ (actions : List Action) (m : ManagerState), Run Step registered actions m →
      ∀ i ∈ m.invoked, i.Matches := by
  intro hclaim
  have hrun : Run Step registered [.request .resetModem fun _ => ⟨0, .unassigned⟩] _ :=
    Run.single ⟨rfl, rfl⟩
  have hmem : ⟨.sendCommand, none⟩ ∈
      (registered.exec (.request .resetModem fun _ => ⟨0, .unassigned⟩)).invoked := by decide
  have hmatch := hclaim _ _ hrun _ hmem
  cases hmatch

end Mobile.Command.Proofs.Dispatch
