import Mathlib.Data.List.Induction
import Mathlib.Data.List.Perm.Basic
import Mobile.Channel.ReaderOpen
import Mobile.Channel.Proofs.Log
import Mobile.ProofSupport.Transition

/-!
# The descriptors of the port

The channel closes no descriptor but the one it holds, unless it is closed before its
first `Initialize`, with `read_fd_` as the constructor left it.  The descriptors that stay
open are the one it holds and those that an `Initialize` has overwritten.
-/

namespace Mobile.Channel.Proofs.Descriptors

open Mobile.ProofSupport.Transition
open Mobile.Channel.Types Mobile.Channel.SendCommand Mobile.Channel.ReaderOpen
open Mobile.Channel.Proofs.Log

def alive (calls : List FdCall) : List Int :=
  calls.foldl (fun fds call =>
    match call with
    | .opened fd => (fd : Int) :: fds
    | .closed fd => fds.erase fd
    | .installed _ => fds) []

/-- Only what is open is closed, or handed to the event loop. -/
inductive Legal : List FdCall → Prop
  | nil : Legal []
  | opened {calls : List FdCall} (h : Legal calls) (fd : Nat) : Legal (calls ++ [.opened fd])
  | closed {calls : List FdCall} (h : Legal calls) {fd : Int} (hfd : fd ∈ alive calls) :
      Legal (calls ++ [.closed fd])
  | installed {calls : List FdCall} (h : Legal calls) {fd : Int} (hfd : fd ∈ alive calls) :
      Legal (calls ++ [.installed fd])

def held (p : Port) : List Int :=
  if p.chan.readFd ∈ alive p.calls then [p.chan.readFd] else []

def overwritten (p : Port) : List Action → List Int
  | [] => []
  | a :: as =>
    (if a = .initializeChannel then held p else []) ++
      match p.act a with
      | some p' => overwritten p' as
      | none => []

section Calls

variable (calls : List FdCall) (fd : Int)

theorem alive_opened (fd : Nat) : alive (calls ++ [.opened fd]) = (fd : Int) :: alive calls := by
  simp [alive]

theorem alive_closed : alive (calls ++ [.closed fd]) = (alive calls).erase fd := by
  simp [alive]

theorem alive_installed : alive (calls ++ [.installed fd]) = alive calls := by
  simp [alive]

theorem alive_nonneg : ∀ fd ∈ alive calls, 0 ≤ fd := by
  induction calls using List.reverseRecOn with
  | nil => simp [alive]
  | append_singleton calls call ih =>
      cases call with
      | opened fd =>
          rw [alive_opened, List.forall_mem_cons]
          exact ⟨Int.natCast_nonneg fd, ih⟩
      | closed fd =>
          rw [alive_closed]
          exact fun fd' hfd' => ih fd' (List.mem_of_mem_erase hfd')
      | installed fd =>
          rw [alive_installed]
          exact ih

theorem legal_snoc {call : FdCall} (h : Legal (calls ++ [call])) : Legal calls := by
  generalize hlast : calls ++ [call] = all at h
  cases h with
  | nil => simp at hlast
  | opened h => exact (List.append_inj' hlast rfl).1 ▸ h
  | closed h => exact (List.append_inj' hlast rfl).1 ▸ h
  | installed h => exact (List.append_inj' hlast rfl).1 ▸ h

theorem Legal.of_prefix {calls all : List FdCall} (h : Legal all) (hbegin : calls <+: all) :
    Legal calls := by
  obtain ⟨rest, rfl⟩ := hbegin
  induction rest using List.reverseRecOn with
  | nil => rwa [List.append_nil] at h
  | append_singleton rest call ih =>
      rw [← List.append_assoc] at h
      exact ih (legal_snoc _ h)

theorem not_legal_closed : ¬ Legal [.closed fd] := by
  intro h
  generalize hall : [FdCall.closed fd] = all at h
  cases h with
  | nil => cases hall
  | opened h fd' => cases (List.append_inj' (show [] ++ [_] = _ from hall) rfl).2
  | installed h hfd => cases (List.append_inj' (show [] ++ [_] = _ from hall) rfl).2
  | closed h hfd =>
      obtain ⟨rfl, -⟩ := List.append_inj' (show [] ++ [_] = _ from hall) rfl
      cases hfd

end Calls

/-! ## One call -/

/-- What a call of `ReaderOpen` has opened: nothing that is left, or what the channel holds
then. -/
inductive Opens (calls : List FdCall) : Bool → Port → Prop
  | nothing {p : Port} (hfd : p.chan.readFd = -1) (hcalls : p.calls = calls) :
      Opens calls false p
  | closed {p : Port} (hfd : p.chan.readFd = -1) (fd : Nat)
      (hcalls : p.calls = calls ++ [.opened fd] ++ [.closed fd]) : Opens calls false p
  | opened {p : Port} {success : Bool} (fd : Nat) (hfd : p.chan.readFd = fd)
      (hcalls : p.calls = calls ++ [.opened fd]) : Opens calls success p

theorem openFrom_opens {p p' : Port} {rs : List OpenResult} {success : Bool}
    (h : p.openFrom rs = some (success, p')) : Opens p.calls success p' := by
  induction rs generalizing p success with
  | nil => cases h
  | cons r rs ih =>
      cases r with
      | opened fd baud raw =>
          unfold Port.openFrom at h
          simp only at h
          split_ifs at h with hbaud hraw
          · cases h
            exact .closed rfl fd rfl
          · cases h
            exact .closed rfl fd rfl
          · cases h
            exact .opened fd rfl rfl
      | failed errno =>
          cases errno with
          | eintr =>
              rw [Port.openFrom, Option.bind_eq_bind, Option.bind_eq_some_iff] at h
              obtain ⟨⟨inner, p₁⟩, hinner, hlast⟩ := h
              cases hlast
              have hopens := ih hinner
              cases hopens with
              | nothing hfd hcalls => exact .nothing hfd hcalls
              | closed hfd fd hcalls => exact .closed hfd fd hcalls
              | opened fd hfd hcalls => exact .opened fd hfd hcalls
          | _ =>
              cases h
              exact .nothing rfl rfl

theorem readerClose_readFd (ch : ATChannel) :
    (SendCommand.readerClose ch).readFd =
      if ch.readClosed = false ∧ 0 < ch.readFd then -1 else ch.readFd := by
  unfold SendCommand.readerClose
  cases hclosed : ch.readClosed <;> by_cases hfd : ch.readFd > 0 <;>
    by_cases hhandler : ch.closeHandler = true <;>
      simp [hclosed, hfd, hhandler, ATChannel.log]

/-- The account of the open descriptors; `lost` have been overwritten. -/
structure Accounted (p : Port) (lost : List Int) : Prop where
  legal : Legal p.calls
  perm : (alive p.calls).Perm (held p ++ lost)
  /-- what `ReaderClose` will close is held -/
  own : p.chan.readClosed = false → 0 < p.chan.readFd → p.chan.readFd ∈ alive p.calls

theorem held_eq {p : Port} (h : p.chan.readFd ∈ alive p.calls) : held p = [p.chan.readFd] :=
  if_pos h

theorem held_nil {p : Port} (h : p.chan.readFd = -1) : held p = [] := by
  refine if_neg fun hmem => ?_
  have hnonneg := alive_nonneg p.calls _ hmem
  omega

theorem accounted_closed {p : Port} {lost : List Int} (hlegal : Legal p.calls)
    (hlost : (alive p.calls).Perm lost) (hfd : p.chan.readFd = -1) : Accounted p lost := by
  refine ⟨hlegal, ?_, fun _ hpos => by omega⟩
  rwa [held_nil hfd]

/-- What was open before is lost, whether it was held or not. -/
theorem initialize_accounted {p p' : Port} {lost : List Int} (hlegal : Legal p.calls)
    (hlost : (alive p.calls).Perm lost) (h : p.initializeChannel = some p') :
    Accounted p' lost := by
  rw [Port.initializeChannel, Option.bind_eq_bind, Option.bind_eq_some_iff] at h
  obtain ⟨⟨success, p₁⟩, hopen, hlast⟩ := h
  cases openFrom_opens hopen with
  | nothing hfd hcalls =>
      cases hlast
      rw [← hcalls] at hlegal hlost
      exact accounted_closed hlegal hlost hfd
  | closed hfd fd hcalls =>
      cases hlast
      have hopened : alive (p.calls ++ [.opened fd]) = (fd : Int) :: alive p.calls :=
        alive_opened _ fd
      refine accounted_closed ?_ ?_ hfd
      · rw [hcalls]
        exact (hlegal.opened fd).closed (by simp [hopened])
      · rw [hcalls, alive_closed, hopened, List.erase_cons_head]
        exact hlost
  | opened fd hfd hcalls =>
      have hopened : alive p₁.calls = p₁.chan.readFd :: alive p.calls := by
        rw [hcalls, alive_opened, hfd]
      have hlegal₁ : Legal p₁.calls := by
        rw [hcalls]
        exact hlegal.opened fd
      have hmem : p₁.chan.readFd ∈ alive p₁.calls := by simp [hopened]
      cases success with
      | false =>
          cases hlast
          refine ⟨hlegal₁, ?_, fun _ _ => hmem⟩
          rw [held_eq hmem, hopened]
          exact hlost.cons _
      | true =>
          cases hlast
          have hsame : alive (p₁.log (.installed p₁.chan.readFd)).calls = alive p₁.calls :=
            alive_installed _ _
          refine ⟨hlegal₁.installed hmem, ?_, fun _ _ => hsame ▸ hmem⟩
          rw [held_eq (hsame ▸ hmem), hsame, hopened]
          exact hlost.cons _

theorem readerClose_accounted {p : Port} {lost : List Int} (h : Accounted p lost) :
    Accounted p.readerClose lost := by
  by_cases hcloses : p.chan.readClosed = false ∧ 0 < p.chan.readFd
  · have hmem := h.own hcloses.1 hcloses.2
    have hcalls : p.readerClose.calls = p.calls ++ [.closed p.chan.readFd] := by
      simp [Port.readerClose, hcloses.1, hcloses.2]
    have hperm := h.perm
    rw [held_eq hmem] at hperm
    refine accounted_closed ?_ ?_ ?_
    · rw [hcalls]
      exact h.legal.closed hmem
    · rw [hcalls, alive_closed]
      simpa using hperm.erase p.chan.readFd
    · exact (readerClose_readFd p.chan).trans (if_pos hcloses)
  · have hcalls : p.readerClose.calls = p.calls := by
      have hno : (!p.chan.readClosed && decide (p.chan.readFd > 0)) = false := by
        simpa [Bool.and_eq_false_iff] using hcloses
      simp [Port.readerClose, hno]
    have hfd : p.readerClose.chan.readFd = p.chan.readFd :=
      (readerClose_readFd p.chan).trans (if_neg hcloses)
    have hclosed : p.readerClose.chan.readClosed = true := (readerClose_closes p.chan).1
    refine ⟨by rw [hcalls]; exact h.legal, ?_, fun hopen => ?_⟩
    · rw [held, hcalls, hfd]
      exact h.perm
    · rw [hclosed] at hopen
      cases hopen

/-! ## Whole runs -/

theorem run_accounted {p p' : Port} {lost : List Int} {actions : List Action}
    (h : Accounted p lost) (hrun : actions.foldlM Port.act p = some p') :
    Accounted p' (overwritten p actions ++ lost) := by
  induction actions generalizing p lost with
  | nil =>
      cases hrun
      exact h
  | cons a as ih =>
      rw [List.foldlM_cons, Option.bind_eq_bind, Option.bind_eq_some_iff] at hrun
      obtain ⟨p₁, hact, hrest⟩ := hrun
      simp only [overwritten, hact]
      cases a with
      | readerClose =>
          cases hact
          simpa using ih (readerClose_accounted h) hrest
      | initializeChannel =>
          have hstep := ih (initialize_accounted h.legal h.perm hact) hrest
          simp only [if_true]
          refine ⟨hstep.legal, hstep.perm.trans ?_, hstep.own⟩
          refine List.Perm.append_left _ ?_
          rw [← List.append_assoc]
          exact List.perm_append_comm.append_right _

theorem act_calls {p p' : Port} {a : Action} (h : p.act a = some p') : p.calls <+: p'.calls := by
  cases a with
  | readerClose =>
      cases h
      exact List.prefix_append _ _
  | initializeChannel =>
      rw [Port.act, Port.initializeChannel, Option.bind_eq_bind, Option.bind_eq_some_iff] at h
      obtain ⟨⟨success, p₁⟩, hopen, hlast⟩ := h
      have hgrow : p.calls <+: p₁.calls := by
        cases openFrom_opens hopen with
        | nothing _ hcalls => exact hcalls ▸ List.prefix_rfl
        | closed _ _ hcalls =>
            rw [hcalls, List.append_assoc]
            exact List.prefix_append _ _
        | opened _ _ hcalls =>
            rw [hcalls]
            exact List.prefix_append _ _
      cases success with
      | false =>
          cases hlast
          exact hgrow
      | true =>
          cases hlast
          exact hgrow.trans (List.prefix_append _ _)

/-- The channel behind its constructor, which leaves `garbage` in `read_fd_`. -/
def constructed (garbage : Int) (opens : List OpenResult) : Port := ⟨.opened garbage [], opens, []⟩

theorem foreign_closed {garbage : Int} {opens : List OpenResult} {actions : List Action}
    {p : Port} (hpos : 0 < garbage)
    (hrun : (Action.readerClose :: actions).foldlM Port.act (constructed garbage opens) = some p) :
    ¬ Legal p.calls := by
  intro hlegal
  rw [List.foldlM_cons, Option.bind_eq_bind, Option.bind_eq_some_iff] at hrun
  obtain ⟨p₁, hact, hrest⟩ := hrun
  cases hact
  have hfirst : (constructed garbage opens).readerClose.calls = [.closed garbage] := by
    simp [Port.readerClose, constructed, ATChannel.opened, hpos]
  have hgrow : (constructed garbage opens).readerClose.calls <+: p.calls :=
    foldlM_invariant (fun q => _ <+: q.calls)
      (fun _ _ _ hq hbegin => hbegin.trans (act_calls hq)) List.prefix_rfl hrest
  rw [hfirst] at hgrow
  exact not_legal_closed _ (hlegal.of_prefix hgrow)

theorem constructed_accounted {garbage : Int} {opens : List OpenResult} {actions : List Action}
    {p : Port} (hown : ¬ (actions.head? = some .readerClose ∧ 0 < garbage))
    (hrun : actions.foldlM Port.act (constructed garbage opens) = some p) :
    Legal p.calls ∧
      (alive p.calls).Perm (held p ++ overwritten (constructed garbage opens) actions) := by
  have hheld : held (constructed garbage opens) = [] := if_neg (by simp [constructed, alive])
  have hempty : (alive (constructed garbage opens).calls).Perm [] := List.Perm.refl _
  cases actions with
  | nil =>
      cases hrun
      refine ⟨.nil, ?_⟩
      rw [hheld]
      exact hempty
  | cons a as =>
      rw [List.foldlM_cons, Option.bind_eq_bind, Option.bind_eq_some_iff] at hrun
      obtain ⟨p₁, hact, hrest⟩ := hrun
      have hfirst : Accounted p₁ [] := by
        cases a with
        | initializeChannel => exact initialize_accounted .nil hempty hact
        | readerClose =>
            cases hact
            refine readerClose_accounted ⟨.nil, by rw [hheld]; exact hempty, fun _ hpos => ?_⟩
            exact absurd ⟨rfl, hpos⟩ hown
      have hlast := run_accounted hfirst hrest
      refine ⟨hlast.legal, ?_⟩
      simpa [overwritten, hact, hheld] using hlast.perm

/-- In any run from the constructor only held descriptors are closed and handed on, unless
the channel is closed first and `read_fd_` happens to be positive; and what is open is what
is held and what an `Initialize` has overwritten. -/
theorem descriptors_accounted (garbage : Int) (opens : List OpenResult) (actions : List Action)
    (p : Port) (hrun : actions.foldlM Port.act (constructed garbage opens) = some p) :
    (Legal p.calls ↔ ¬ (actions.head? = some .readerClose ∧ 0 < garbage)) ∧
    (Legal p.calls →
      (alive p.calls).Perm (held p ++ overwritten (constructed garbage opens) actions)) := by
  have hlegal : Legal p.calls ↔ ¬ (actions.head? = some .readerClose ∧ 0 < garbage) := by
    refine ⟨fun hlegal hforeign => ?_, fun hown => (constructed_accounted hown hrun).1⟩
    obtain ⟨rest, rfl⟩ := List.head?_eq_some_iff.1 hforeign.1
    exact foreign_closed hforeign.2 hrun hlegal
  exact ⟨hlegal, fun h => (constructed_accounted (hlegal.1 h) hrun).2⟩

/-- The second `open()` is interrupted once: the channel is not installed again, and after the
close the first descriptor is still open. -/
theorem descriptors_accounted_reopened : ∃ p,
    [Action.initializeChannel, .initializeChannel, .readerClose].foldlM Port.act
      (constructed 7 [.opened 5 0 0, .failed .eintr, .opened 6 0 0]) = some p ∧
    p.calls = [.opened 5, .installed 5, .opened 6, .closed 6] ∧ Legal p.calls ∧
    (alive p.calls).Perm [5] := by
  refine ⟨_, rfl, by decide, ?_⟩
  obtain ⟨hlegal, hperm⟩ := descriptors_accounted 7 [.opened 5 0 0, .failed .eintr, .opened 6 0 0]
    [.initializeChannel, .initializeChannel, .readerClose] _ rfl
  have hown := hlegal.2 (by decide)
  exact ⟨hown, hperm hown⟩

end Mobile.Channel.Proofs.Descriptors
