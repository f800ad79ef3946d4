import Mathlib.Data.List.Forall2
import Mathlib.Data.List.Induction
import Mobile.Channel.HeapRuns
import Mobile.Channel.Proofs.Collection
import Mobile.Channel.Proofs.Log

/-!
# Whose lines a response holds

A caller gets a response that is made of lines handled while its own call slept, in their
order.  Nothing that came before its command or that another call heard is in it.
-/

namespace Mobile.Channel.Proofs.Attribution

open Mobile.Token.Scan Mobile.Channel.Types Mobile.Channel.WriteLine
open Mobile.Channel.ProcessLine Mobile.Channel.SendCommand Mobile.Channel.HeapRuns
open Mobile.Channel.Proofs.WriteSpec Mobile.Channel.Proofs.Log
open Mobile.Channel.Proofs.Collection

def actLines : Act → List Line
  | .processLine line => [line]
  | .readerClose => []

def heard (wakes : List Wake) : List Line :=
  wakes.flatMap fun wake => wake.acts.flatMap actLines

def callsHeard (steps : List SessionStep) : List (List Line) :=
  steps.flatMap fun step =>
    match step with
    | .call _ wakes => [heard wakes]
    | _ => []

/-- The success is that of the final line, which is one of `lines`, or there is none yet. -/
inductive Concluded (lines : List Line) (rsp : ATResponse) : Prop
  | pending (hfinal : rsp.finalResp = none) (hsuccess : rsp.success = 0)
  | final {f : Line} (hmem : f ∈ lines) (hf : isFinalResponse f = true)
      (hfinal : rsp.finalResp = some f)
      (hsuccess : rsp.success = if isFinalResponseSuccess f then 1 else 0)

/-- A response in arrival order, made of `lines`. -/
structure MadeOf (lines : List Line) (rsp : ATResponse) : Prop where
  intermediates : rsp.intermediates.Sublist lines
  outcome : Concluded lines rsp

def Filled (lines : List Line) (ch : ATChannel) : Prop :=
  ∀ rsp, ch.rsp = some rsp → MadeOf lines (reverseIntermediates rsp)

variable {lines : List Line} {ch ch' : ATChannel} {wakes : List Wake} {sent : Sent}
  {r : ATResponse}

/-! ### While a call sleeps -/

theorem reverse_intermediates (rsp : ATResponse) :
    (reverseIntermediates rsp).intermediates = rsp.intermediates.reverse := by
  simp [reverseIntermediates, reverseLoop_eq]

theorem MadeOf.mono {rsp : ATResponse} (h : MadeOf lines rsp) (more : List Line) :
    MadeOf (lines ++ more) rsp := by
  refine ⟨h.intermediates.trans (List.sublist_append_left _ _), ?_⟩
  cases h.outcome with
  | pending hfinal hsuccess => exact .pending hfinal hsuccess
  | final hmem hf hfinal hsuccess =>
      exact .final (List.mem_append_left _ hmem) hf hfinal hsuccess

theorem addIntermediate_madeOf {rsp : ATResponse} (h : MadeOf lines (reverseIntermediates rsp))
    (line : Line) : MadeOf (lines ++ [line])
      (reverseIntermediates { rsp with intermediates := line :: rsp.intermediates }) := by
  constructor
  · have hold := h.intermediates
    rw [reverse_intermediates] at hold ⊢
    rw [List.reverse_cons]
    exact hold.append (List.Sublist.refl _)
  · cases (h.mono [line]).outcome with
    | pending hfinal hsuccess => exact .pending hfinal hsuccess
    | final hmem hf hfinal hsuccess => exact .final hmem hf hfinal hsuccess

theorem processLine_filled {line : Line} (h : Filled lines ch)
    (hline : processLine ch line = some ch') : Filled (lines ++ [line]) ch' := by
  obtain rfl | ⟨rsp, hrsp, rfl⟩ | ⟨rsp, success, hrsp, hf, hch⟩ | ⟨pdu, -, -, rfl⟩ :=
    processLine_cases hline
  · intro rsp hrsp
    refine (h rsp ?_).mono [line]
    unfold handleUnsolicited at hrsp
    split at hrsp <;> exact hrsp
  · intro new hnew
    cases hnew
    exact addIntermediate_madeOf (h rsp hrsp) line
  · -- a final line brings its own success, whatever was noted before
    rw [processLine_final hrsp hf] at hline
    cases hline
    intro new hnew
    cases hnew
    exact ⟨((h rsp hrsp).mono [line]).intermediates, .final (by simp) hf rfl rfl⟩
  · intro rsp hrsp
    refine (h rsp ?_).mono [line]
    obtain ⟨written, ⟨writes, hwritten⟩, -⟩ := writeLine_spec ch pdu kCtrlZ
    rw [hwritten] at hrsp
    exact hrsp

theorem act_filled {a : Act} (h : Filled lines ch) (hact : a.run ch = some ch') :
    Filled (lines ++ actLines a) ch' := by
  cases a with
  | processLine line => exact processLine_filled h hact
  | readerClose =>
      cases hact
      intro rsp hrsp
      rw [readerClose_rsp] at hrsp
      exact (h rsp hrsp).mono []

theorem acts_filled {acts : List Act} (h : Filled lines ch)
    (hacts : acts.foldlM Act.run ch = some ch') : Filled (lines ++ acts.flatMap actLines) ch' := by
  induction acts generalizing ch lines with
  | nil =>
      cases hacts
      rwa [List.flatMap_nil, List.append_nil]
  | cons a acts ih =>
      rw [List.foldlM_cons, Option.bind_eq_bind, Option.bind_eq_some_iff] at hacts
      obtain ⟨ch₁, hact, hrest⟩ := hacts
      rw [List.flatMap_cons, ← List.append_assoc]
      exact ih (act_filled h hact) hrest

theorem waited_madeOf {timeoutMsec : Nat} {outRsp : Bool}
    (h : Waited timeoutMsec outRsp ch wakes sent) (hfilled : Filled lines ch)
    (hout : sent.out = .resp r) : MadeOf (lines ++ heard wakes) r := by
  induction h generalizing lines with
  | @answered ch rsp wakes hrsp _ =>
      cases outRsp with
      | false => cases hout
      | true =>
          cases hout
          exact (hfilled rsp hrsp).mono _
  | expired => cases hout
  | @woken ch ch' wake wakes sent hacts _ ih =>
      have hsleep : Filled lines (ch.log (.sleep timeoutMsec)) := hfilled
      rw [heard, List.flatMap_cons, ← List.append_assoc]
      exact ih (acts_filled hsleep hacts) hout

/-! ### One call -/

theorem sendCommandFull_madeOf {c : Command} (h : sendCommandFull ch c wakes = some sent)
    (hout : sent.out = .resp r) : MadeOf (heard wakes) r := by
  rw [sendCommandFull, Option.bind_eq_bind, Option.bind_eq_some_iff] at h
  obtain ⟨inner, hinner, h⟩ := h
  have hsame : sent.out = inner.out := by split at h <;> cases h <;> rfl
  rw [hsame] at hout
  by_cases hrsp : ch.rsp = none
  · rw [sendCommandNoLock, startCommand_ok c hrsp] at hinner
    have hfresh : Filled []
        (setUp (writeLine ch c.cmd kCtrlEnter).2 c.type c.rspPrefix c.smsPdu) := by
      intro rsp hnew
      cases hnew
      exact ⟨List.nil_sublist _, .pending rfl rfl⟩
    exact waited_madeOf (waitLoop_waited hinner) hfresh hout
  · simp only [sendCommandNoLock, startCommand, ne_eq, hrsp, not_false_eq_true, if_true,
      Option.some.injEq] at hinner
    rw [← hinner] at hout
    cases hout

theorem requireIntermediate_out (h : (requireIntermediate sent).out = .resp r) :
    sent.out = .resp r := by
  unfold requireIntermediate at h
  split at h
  · split at h
    · cases h
    · exact h
  · exact h

theorem entry_madeOf {e : Entry} (h : e.run ch wakes = some sent) (hout : sent.out = .resp r) :
    MadeOf (heard wakes) r := by
  have hchecked : ∀ {c : Command},
      (sendCommandFull ch c wakes).map requireIntermediate = some sent → MadeOf (heard wakes) r := by
    intro c hmap
    obtain ⟨inner, hinner, rfl⟩ := Option.map_eq_some_iff.1 hmap
    exact sendCommandFull_madeOf hinner (requireIntermediate_out hout)
  cases e with
  | sendCommand cmd outRsp => exact sendCommandFull_madeOf h hout
  | sendCommandSingleLine cmd rspPrefix outRsp => exact hchecked h
  | sendCommandNumeric cmd outRsp => exact hchecked h
  | sendCommandMultiLine cmd rspPrefix outRsp => exact sendCommandFull_madeOf h hout
  | sendCommandSms cmd pdu rspPrefix outRsp => exact hchecked h

/-! ### A session -/

/-- The responses in hand are made of what as many calls heard, each of its own. -/
def OwnLines (steps : List SessionStep) (s : Session) : Prop :=
  ∃ calls, calls.Sublist (callsHeard steps) ∧ List.Forall₂ MadeOf calls s.held

theorem forall₂_eraseIdx {α β : Type} {R : α → β → Prop} {xs : List α} {ys : List β}
    (h : List.Forall₂ R xs ys) (i : Nat) : List.Forall₂ R (xs.eraseIdx i) (ys.eraseIdx i) := by
  induction h generalizing i with
  | nil => exact .nil
  | cons hxy hrest ih =>
      cases i with
      | zero => exact hrest
      | succ i => exact .cons hxy (ih i)

theorem callsHeard_snoc (steps : List SessionStep) (a : SessionStep) :
    callsHeard (steps ++ [a]) = callsHeard steps ++ callsHeard [a] :=
  List.flatMap_append

theorem step_ownLines {steps : List SessionStep} {a : SessionStep} {s s' : Session}
    (h : OwnLines steps s) (hstep : s.step a = some s') : OwnLines (steps ++ [a]) s' := by
  obtain ⟨calls, hcalls, hmade⟩ := h
  unfold OwnLines
  rw [callsHeard_snoc]
  cases a with
  | call e wakes =>
      rw [Session.step, Option.bind_eq_bind, Option.bind_eq_some_iff] at hstep
      obtain ⟨sent, hsent, hlast⟩ := hstep
      cases hlast
      cases hout : sent.out with
      | resp r =>
          refine ⟨calls ++ [heard wakes], hcalls.append (List.Sublist.refl _), ?_⟩
          exact List.rel_append hmade (.cons (entry_madeOf hsent hout) .nil)
      | _ =>
          refine ⟨calls, hcalls.trans (List.sublist_append_left _ _), ?_⟩
          simpa [OutRsp.responses] using hmade
  | act a =>
      rw [Session.step, Option.bind_eq_bind, Option.bind_eq_some_iff] at hstep
      obtain ⟨chan, -, hlast⟩ := hstep
      cases hlast
      exact ⟨calls, hcalls.trans (List.sublist_append_left _ _), hmade⟩
  | freeResponce i =>
      cases hstep
      refine ⟨calls.eraseIdx i, ?_, forall₂_eraseIdx hmade i⟩
      exact ((List.eraseIdx_sublist _ _).trans hcalls).trans (List.sublist_append_left _ _)

/-- In any session each response in hand is made of the lines that one call heard, no two of
the same, in the order of the calls: no line of one command ends up with another. -/
theorem session_own_lines (fd : Int) (writes : List WriteResult) (steps : List SessionStep)
    (s : Session) (hrun : steps.foldlM Session.step ⟨.opened fd writes, [], []⟩ = some s) :
    ∃ calls, calls.Sublist (callsHeard steps) ∧ List.Forall₂ MadeOf calls s.held := by
  change OwnLines steps s
  induction steps using List.reverseRecOn generalizing s with
  | nil =>
      cases hrun
      exact ⟨[], List.Sublist.refl _, .nil⟩
  | append_singleton steps a ih =>
      rw [List.foldlM_append, Option.bind_eq_bind, Option.bind_eq_some_iff] at hrun
      obtain ⟨s₁, hbefore, hlast⟩ := hrun
      rw [List.foldlM_cons, Option.bind_eq_bind, Option.bind_eq_some_iff] at hlast
      obtain ⟨s₂, hstep, hend⟩ := hlast
      cases hend
      exact step_ownLines (ih s₁ hbefore) hstep

def csqSession : List SessionStep :=
  [.call (.sendCommandSingleLine (text "AT+CSQ") (text "+CSQ:") true)
    [⟨[.processLine (text "+CSQ: 1"), .processLine (text "OK")], 0⟩],
    .act (.processLine (text "+CSQ: 2")),
    .call (.sendCommandSingleLine (text "AT+CSQ") (text "+CSQ:") true)
      [⟨[.processLine (text "+CSQ: 3"), .processLine (text "ERROR")], 0⟩],
    .freeResponce 0]

theorem session_own_lines_csq : ∃ s calls,
    csqSession.foldlM Session.step ⟨.opened 3 [], [], []⟩ = some s ∧
    calls.Sublist [[text "+CSQ: 1", text "OK"], [text "+CSQ: 3", text "ERROR"]] ∧
    List.Forall₂ MadeOf calls s.held := by
  obtain ⟨calls, hcalls, hmade⟩ := session_own_lines 3 [] csqSession _ rfl
  exact ⟨_, calls, rfl, hcalls, hmade⟩

end Mobile.Channel.Proofs.Attribution
