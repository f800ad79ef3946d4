import Mobile.Command.Manager
import Mobile.Command.Proofs.Dispatch

/-!
# Operations with every slot filled

When no slot is empty, an operation that calls through the slots does to the world
what the operation without them does, and ends in the same way.
-/

namespace Mobile.Command.Proofs.Agreement

open Mobile.Token.Scan Mobile.Token.Tokenizer Mobile.Channel.Types
open Mobile.Command.Callbacks Mobile.Command.Slots Mobile.Command.Operations
open Mobile.Command.Proofs.Dispatch

/-- With no slot empty, `x` keeps the slots and has the effects and the outcome of `y`. -/
def Agrees {α : Type} (x : Via α) (y : Op α) : Prop :=
  ∀ d, (∀ slot, d.slots slot ≠ none) → (x.run d).2.slots = d.slots ∧
    (x.run d).2.world = (y.run d.world).2 ∧ (x.run d).1 = (y.run d.world).1.mapError Fault.crash

section Agrees

variable {α β γ : Type}

theorem agrees_lift (y : Op α) : Agrees (Via.lift y) y := by
  intro d _
  cases hrun : y.run d.world with
  | mk res w =>
      cases res with
      | ok a =>
          rw [lift_ok hrun]
          exact ⟨rfl, rfl, rfl⟩
      | error c =>
          rw [lift_error hrun]
          exact ⟨rfl, rfl, rfl⟩

theorem agrees_pure (a : α) : Agrees (pure a : Via α) (pure a) := fun _ _ => ⟨rfl, rfl, rfl⟩

theorem Agrees.bind {x : Via α} {y : Op α} {f : α → Via β} {g : α → Op β} (hx : Agrees x y)
    (hf : ∀ a, Agrees (f a) (g a)) : Agrees (x >>= f) (y >>= g) := by
  intro d hslots
  obtain ⟨hkeep, hworld, hres⟩ := hx d hslots
  cases hrun : x.run d with
  | mk res d' =>
      rw [hrun] at hkeep hworld hres
      cases hrun' : y.run d.world with
      | mk res' w' =>
          rw [hrun'] at hworld hres
          cases res' with
          | ok a =>
              cases hres
              obtain ⟨hkeep', hworld', hres'⟩ := hf a d' (by rwa [hkeep])
              have hsame : d'.world = w' := hworld
              rw [via_bind_ok hrun, Effects.bind_ok hrun', ← hsame]
              exact ⟨hkeep'.trans hkeep, hworld', hres'⟩
          | error c =>
              cases hres
              rw [via_bind_error hrun, Effects.bind_error hrun']
              exact ⟨hkeep, hworld, rfl⟩

theorem Agrees.ite {c : Prop} [Decidable c] {x x' : Via α} {y y' : Op α} (h : Agrees x y)
    (h' : Agrees x' y') : Agrees (if c then x else x') (if c then y else y') := by
  split
  · exact h
  · exact h'

theorem agrees_invoke {slot : Slot} {y : Op α} :
    Agrees (do Via.invoke slot; Via.lift y) y := by
  intro d hslots
  obtain ⟨fn, hslot⟩ := Option.ne_none_iff_exists'.1 (hslots slot)
  rw [via_bind_ok (invoke_some hslot)]
  exact agrees_lift y _ hslots

theorem agrees_sendVia (call : Call) (rsp : Ptr) : Agrees (sendVia call rsp) (send call rsp) :=
  agrees_invoke

theorem agrees_sendCommand (cmd : Line) : Agrees (sendCommand cmd) (sendOnly cmd) := agrees_invoke

theorem agrees_freeVia (rsp : Ptr) : Agrees (freeVia rsp) (freeResp rsp) := agrees_invoke

theorem agrees_cmeVia (rsp : Ptr) : Agrees (cmeVia rsp) (Calls.cmeError rsp) := agrees_invoke

theorem agrees_freed (rsp : Ptr) (a : α) :
    Agrees (do freeVia rsp; return a) (do freeResp rsp; return a) :=
  (agrees_freeVia rsp).bind fun _ => agrees_pure a

end Agrees

/-! ### The operations -/

theorem agrees_sendAll (cmds : List String) : Agrees (sendAll cmds) (sendAll cmds) := by
  induction cmds with
  | nil => exact agrees_pure ()
  | cons cmd cmds ih => exact (agrees_sendCommand _).bind fun _ => ih

theorem agrees_query {α : Type} {store : Int → Int} {cmd rspPrefix : Line} {rsp : Ptr}
    {failure : α} {read : Ptr → Line → Via α} {read' : Ptr → Line → Op α}
    (hread : ∀ rsp line, Agrees (read rsp line) (read' rsp line)) :
    Agrees (query store cmd rspPrefix rsp failure read)
      (query store cmd rspPrefix rsp failure read') :=
  (agrees_sendVia _ _).bind fun r => (agrees_lift _).bind fun _ =>
    (agrees_freed _ _).ite ((agrees_lift _).bind fun line => hread r.2 line)

theorem agrees_initModem : Agrees initModem initModem := by
  refine (agrees_sendAll _).bind fun _ => (agrees_sendVia _ _).bind fun _ =>
    (agrees_lift _).bind fun _ => ?_
  have hrest : ∀ (rsp : Ptr) (ret : Int) (cmds : List String), Agrees
      (do freeVia rsp; sendAll cmds; return ret == 0)
      (do freeResp rsp; sendAll cmds; return ret == 0) := fun rsp ret cmds =>
    (agrees_freeVia rsp).bind fun _ => (agrees_sendAll cmds).bind fun _ => agrees_pure _
  exact ((agrees_sendAll _).bind fun _ => hrest _ _ _).ite (hrest _ _ _)

theorem agrees_getModem : Agrees getModem getModem :=
  agrees_query fun _ _ => (agrees_freed _ _).ite ((agrees_lift _).bind fun _ =>
    (agrees_freed _ _).ite ((agrees_lift _).bind fun _ => agrees_freed _ _))

theorem agrees_getRadioState : Agrees getRadioState getRadioState :=
  agrees_query fun _ _ => (agrees_freed _ _).ite ((agrees_lift _).bind fun _ =>
    (agrees_freed _ _).ite (agrees_freed _ _))

theorem agrees_setRadioLoop (cmd : Line) (cfun : Int) (rounds : Nat) (count : Int) (rsp : Ptr) :
    Agrees (setRadioLoop cmd cfun rounds count rsp) (setRadioLoop cmd cfun rounds count rsp) := by
  induction rounds generalizing count rsp with
  | zero => exact agrees_pure rsp
  | succ rounds ih =>
      refine Agrees.ite ((agrees_sendVia _ _).bind fun _ => (agrees_lift _).bind fun _ =>
        (ih _ _).ite ?_) (agrees_pure _)
      exact agrees_getRadioState.bind fun _ => (agrees_pure _).ite (ih _ _)

theorem agrees_setRadioState (cfun : Int) : Agrees (setRadioState cfun) (setRadioState cfun) :=
  agrees_getRadioState.bind fun _ => (agrees_pure _).ite
    ((agrees_setRadioLoop _ _ _ _ _).bind fun _ => agrees_freed _ _)

theorem agrees_readCpin (rsp : Ptr) (line : Line) :
    Agrees (readCpin rsp line) (readCpin rsp line) :=
  (agrees_freed _ _).ite ((agrees_lift _).bind fun _ => (agrees_freed _ _).ite (agrees_freed _ _))

theorem agrees_readSIM (rsp : Ptr) : Agrees (readSIM rsp) (readSIM rsp) :=
  (agrees_cmeVia _).bind fun _ => ((agrees_lift _).bind fun _ => agrees_readCpin _ _).ite
    ((agrees_freed _ _).ite (agrees_freed _ _))

theorem agrees_getSIMStatus : Agrees getSIMStatus getSIMStatus :=
  (agrees_sendVia _ _).bind fun _ => (agrees_lift _).bind fun _ =>
    ((agrees_sendVia _ _).bind fun _ => (agrees_lift _).bind fun _ =>
      (agrees_freed _ _).ite (agrees_readSIM _)).ite (agrees_readSIM _)

theorem agrees_disableEhrpd (rsp : Ptr) (value : Option Int) :
    Agrees (disableEhrpd rsp value) (disableEhrpd rsp value) :=
  (agrees_freed _ _).ite ((agrees_sendVia _ _).bind fun _ => (agrees_lift _).bind fun _ =>
    (agrees_freed _ _).ite (agrees_freed _ _))

theorem agrees_setEhrpd : Agrees setEhrpd setEhrpd :=
  agrees_query fun _ _ => (agrees_freed _ _).ite ((agrees_lift _).bind fun _ =>
    (agrees_freed _ _).ite ((agrees_freeVia _).bind fun _ => agrees_disableEhrpd _ _))

theorem agrees_getNet3GPP : Agrees getNet3GPP getNet3GPP :=
  agrees_query fun _ _ => (agrees_freed _ _).ite ((agrees_lift _).bind fun _ =>
    (agrees_freed _ _).ite (agrees_freed _ _))

theorem agrees_apnLines (rsp : Ptr) (lines : List Line) :
    Agrees (apnLines rsp lines) (apnLines rsp lines) := by
  induction lines with
  | nil => exact agrees_freed _ _
  | cons line lines ih => exact (agrees_lift _).bind fun _ => ih.ite (agrees_freed _ _)

theorem agrees_getAPNS : Agrees getAPNS getAPNS :=
  (agrees_sendVia _ _).bind fun _ => (agrees_lift _).bind fun _ =>
    (agrees_pure _).ite ((agrees_lift _).bind fun _ => agrees_apnLines _ _)

def requestOf : Operation → Manager.Request
  | .initModem => .initModem
  | .getModem => .getModem
  | .getRadioState => .getRadioState
  | .setRadioState cfun => .setRadioState cfun
  | .getSIMStatus => .getSIMStatus
  | .setEhrpd => .setEhrpd
  | .getNet3GPP => .getNet3GPP
  | .getAPNS => .getAPNS

theorem withoutResult_agrees {α : Type} {x : Via α} {y : Op α} (h : Agrees x y) {slots : Bindings}
    (hslots : ∀ slot, slots slot ≠ none) (replies : Nat → Reply) :
    ((Manager.withoutResult x).run (fresh slots replies)).2.world =
        (y.run ⟨replies, 0, []⟩).2 ∧
      ((Manager.withoutResult x).run (fresh slots replies)).1 =
        ((y.run ⟨replies, 0, []⟩).1.map fun _ => ()).mapError Fault.crash := by
  obtain ⟨-, hworld, hres⟩ := h (fresh slots replies) hslots
  cases hrun : x.run (fresh slots replies) with
  | mk res d =>
      rw [hrun] at hworld hres
      have hres' : res = ((y.run ⟨replies, 0, []⟩).1).mapError Fault.crash := hres
      rw [← show d.world = (y.run ⟨replies, 0, []⟩).2 from hworld]
      cases hend : (y.run ⟨replies, 0, []⟩).1 with
      | ok a =>
          rw [hend] at hres'
          subst hres'
          rw [Manager.withoutResult, via_bind_ok hrun]
          exact ⟨rfl, rfl⟩
      | error c =>
          rw [hend] at hres'
          subst hres'
          rw [Manager.withoutResult, via_bind_error hrun]
          exact ⟨rfl, rfl⟩

/-- An operation of a manager with no empty slot is the operation on its own. -/
theorem request_agrees (o : Operation) {slots : Bindings}
    (hslots : ∀ slot, slots slot ≠ none) (replies : Nat → Reply) :
    ((requestOf o).perform.run (fresh slots replies)).2.world = (o.run replies).2 ∧
      ((requestOf o).perform.run (fresh slots replies)).1 =
        (o.run replies).1.mapError Fault.crash := by
  cases o with
  | initModem => exact withoutResult_agrees agrees_initModem hslots replies
  | getModem => exact withoutResult_agrees agrees_getModem hslots replies
  | getRadioState => exact withoutResult_agrees agrees_getRadioState hslots replies
  | setRadioState cfun => exact withoutResult_agrees (agrees_setRadioState cfun) hslots replies
  | getSIMStatus => exact withoutResult_agrees agrees_getSIMStatus hslots replies
  | setEhrpd => exact withoutResult_agrees agrees_setEhrpd hslots replies
  | getNet3GPP => exact withoutResult_agrees agrees_getNet3GPP hslots replies
  | getAPNS => exact withoutResult_agrees agrees_getAPNS hslots replies

end Mobile.Command.Proofs.Agreement
