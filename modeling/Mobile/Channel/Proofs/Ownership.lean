import Mobile.Channel.Proofs.HeapSections
import Mobile.ProofSupport.Outcomes

/-!
# Who owns what is alive

Between any two sections of the channel, taken in any order and with an allocator
that may fail, every live object belongs to the pending response, to one response in
a caller's hands, or is the copy of a final line that a later one replaced.
-/

namespace Mobile.Channel.Proofs.Ownership

open Mobile.ProofSupport.Separation Mobile.ProofSupport.Separation.Assertion
open Mobile.ProofSupport.Outcomes
open Mobile.Token.Scan Mobile.Channel.Types Mobile.Channel.ProcessLine
open Mobile.Channel.SendCommand Mobile.Channel.Heap Mobile.Channel.HeapRuns
open Mobile.Channel.Proofs.HeapSpecs Mobile.Channel.Proofs.HeapSections

def Responses (contents : List (Addr × Contents)) : Own :=
  (contents.map fun x => Response x.1 x.2).prod

def Strays (lost : List Line) : Own := (lost.map Stray).prod

structure Alive (s : Owner) (pending : Option Contents) (contents : List (Addr × Contents))
    (lost : List Line) : Prop where
  held : s.held = contents.map Prod.fst
  heap : Has s.chan pending (Responses contents * Strays lost)

def Owned (lost : List Line) (s : Owner) : Prop :=
  ∃ pending contents, Alive s pending contents lost

def NullPointer (stop : Stop) : Prop := stop = .fault .nullPointer

variable {al : Allocator Addr Obj} {s : Owner} {pending : Option Contents}
  {contents : List (Addr × Contents)} {lost : List Line}

theorem opened_owned (fd : Int) (writes : List WriteResult) :
    Owned [] (.opened fd writes) :=
  ⟨none, [], rfl, fact_mul.2 ⟨rfl, by
    rw [Responses, Strays, List.map_nil, List.map_nil, List.prod_nil, one_mul]
    rfl⟩⟩

theorem start_owned (h : Alive s pending contents lost) (c : Command) :
    Gives NullPointer (Owned lost) (s.step al (.start c)) := by
  obtain ⟨early, hc', pending', hrun, hhas, -⟩ := startCommand_ok al h.heap c
  rw [Owner.step, hrun]
  exact .ok ⟨pending', contents, h.held, hhas⟩

theorem timeOut_owned (h : Alive s pending contents lost) :
    Gives NullPointer (Owned lost) (s.step al .timeOut) := by
  obtain ⟨mem, hrun, hmem⟩ := clearPendingCommand_ok h.heap
  rw [Owner.step, hrun]
  exact .ok ⟨none, contents, h.held, fact_mul.2 ⟨rfl, hmem⟩⟩

theorem responses_concat (contents : List (Addr × Contents)) (a : Addr) (c : Contents) :
    Responses (contents ++ [(a, c)]) = Response a c * Responses contents := by
  rw [Responses, List.map_append, List.prod_append, mul_comm]
  simp [Responses]

theorem check_owned (h : Alive s pending contents lost) (outRsp : Bool) :
    Gives NullPointer (Owned lost) (s.step al (.check outRsp)) := by
  cases pending with
  | none =>
      rw [Owner.step, answered_none h.heap.rsp_none.1]
      exact .stop rfl
  | some c =>
      rw [Owner.step, answered_ok h.heap]
      change Gives _ _ (if _ then _ else _)
      split
      · cases outRsp with
        | true =>
            obtain ⟨a, mem, -, hrun, hmem⟩ := takeResponse_handed h.heap
            rw [hrun]
            refine .ok ⟨none, contents ++ [(a, Contents.turned c)], ?_, fact_mul.2 ⟨rfl, ?_⟩⟩
            · simp [h.held, HeapOut.addr]
            · rwa [responses_concat, mul_assoc]
        | false =>
            obtain ⟨mem, hrun, hmem⟩ := takeResponse_freed h.heap
            rw [hrun]
            refine .ok ⟨none, contents, ?_, fact_mul.2 ⟨rfl, hmem⟩⟩
            simp [h.held, HeapOut.addr]
      · exact .ok ⟨some c, contents, h.held, h.heap⟩

theorem responses_eraseIdx {i : Nat} (hi : i < contents.length) :
    Responses contents = Response contents[i].1 contents[i].2 *
      Responses (contents.eraseIdx i) := by
  have hprod := List.CommMonoid.mul_prod_eraseIdx (l := contents.map fun x => Response x.1 x.2)
    (i := i) (by simpa using hi)
  rw [List.getElem_map, List.eraseIdx_map] at hprod
  exact hprod.symm

theorem giveUp_owned (h : Alive s pending contents lost) (i : Nat) :
    Gives NullPointer (Owned lost) (s.giveUp i) := by
  rw [Owner.giveUp, h.held, List.getElem?_map]
  by_cases hi : i < contents.length
  · rw [List.getElem?_eq_getElem hi]
    have hown := h.heap
    rw [Has, responses_eraseIdx hi, mul_assoc, mul_left_comm] at hown
    have hfree := (freeResponce_spec (some contents[i].1) (some contents[i].2)).entails
      (pending_some _ _) fun _ => le_refl _
    obtain ⟨r, mem, hrun, hmem⟩ := exec_ok hfree hown
    rw [one_mul] at hmem
    change Gives _ _ (s.chan.exec _ >>= _)
    rw [hrun]
    exact .ok ⟨pending, contents.eraseIdx i, List.eraseIdx_map _ _ _, hmem⟩
  · rw [List.getElem?_eq_none (by omega)]
    exact .ok ⟨pending, contents, h⟩

/-! ## Lines -/

theorem strays_append (lost lost' : List Line) :
    Strays (lost ++ lost') = Strays lost * Strays lost' := by
  rw [Strays, List.map_append, List.prod_append]
  rfl

theorem lost_eq_strays (text : Option Line) : Lost text = Strays text.toList := by
  cases text with
  | none => rfl
  | some s => exact List.prod_singleton.symm

/-- What a line leaves without an owner is the copy of the final line it replaces. -/
theorem effect_lost {ch ch' : ATChannel} {c c' : Contents} {line : Line} {v : Verdict} {L : Own}
    (heffect : LineEffect al ch c line v ch' c' L) :
    L = Strays (if v.isFinal then c.finalResp.toList else []) := by
  cases heffect with
  | unsolicited => rfl
  | final _ => exact lost_eq_strays _
  | prompt => rfl
  | intermediate _ => rfl

theorem processLine_owned (h : Alive s pending contents lost) (line : Line) :
    Gives NullPointer (Owned (replaced s (.processLine line) ++ lost))
      (s.step al (.processLine line)) := by
  have htext := finalText_eq h.heap
  cases pending with
  | none =>
      have hreplaced : replaced s (.processLine line) = [] := by
        simp [replaced, htext]
      rw [Owner.step, processLine_none h.heap.rsp_none.1, hreplaced]
      exact .ok ⟨none, contents, h.held, h.heap⟩
  | some c =>
      rw [Owner.step, processLine_heap_eq_verdict h.heap]
      obtain ⟨-, hrun⟩ | ⟨hc', c', L, hrun, heffect, hhas⟩ :=
        applyHeapVerdict_effect al h.heap line _
      · rw [hrun]
        exact .stop rfl
      · rw [hrun]
        refine .ok ⟨some c', contents, h.held, ?_⟩
        rw [effect_lost heffect, verdict_isFinal, mul_left_comm, ← strays_append] at hhas
        rw [replaced, htext]
        exact hhas

theorem step_owned (al : Allocator Addr Obj) (h : Owned lost s) (a : Section) :
    Gives NullPointer (Owned (replaced s a ++ lost)) (s.step al a) := by
  obtain ⟨pending, contents, h⟩ := h
  cases a with
  | start c => exact start_owned h c
  | processLine line => exact processLine_owned h line
  | readerClose => exact .ok ⟨pending, contents, h.held, h.heap⟩
  | check outRsp => exact check_owned h outRsp
  | timeOut => exact timeOut_owned h
  | freeResponce i => exact giveUp_owned h i

theorem run_owned (al : Allocator Addr Obj) (h : Owned lost s) (sections : List Section) :
    Gives NullPointer (Owned (replacedIn al s sections ++ lost))
      (sections.foldlM (Owner.step al) s) := by
  induction sections generalizing s lost with
  | nil => exact .ok h
  | cons a as ih =>
      have hstep := step_owned al h a
      rw [List.foldlM_cons, replacedIn]
      generalize s.step al a = next at hstep
      cases hstep with
      | stop hstop => exact .stop hstop
      | ok hnext =>
          have hrest := ih hnext
          rw [← List.append_assoc] at hrest
          exact hrest

/-- Whatever order the sections are taken in and whichever allocations fail, nothing is
freed twice or used after it was freed, no loop over a response runs on for ever, and
what is alive is the pending response, the responses handed out and the copies of the
final lines that were replaced. -/
theorem run_owns_all (al : Allocator Addr Obj) (fd : Int) (writes : List WriteResult)
    (sections : List Section) :
    Gives NullPointer (Owned (replacedIn al (.opened fd writes) sections))
      (sections.foldlM (Owner.step al) (.opened fd writes)) := by
  have hrun := run_owned al (opened_owned fd writes) sections
  rwa [List.append_nil] at hrun

theorem stray_card {text : Line} {h : Heap Addr Obj} (hstray : Stray text h) :
    h.keys.card = 1 := by
  obtain ⟨a, ha⟩ := hstray
  exact card_pointsTo ha

theorem strays_card {h : Heap Addr Obj} (hstrays : Strays lost h) :
    h.keys.card = lost.length := by
  induction lost generalizing h with
  | nil =>
      rw [show h = ∅ from hstrays]
      rfl
  | cons text lost ih =>
      rw [Strays, List.map_cons, List.prod_cons] at hstrays
      obtain ⟨h₁, h₂, hfirst, hrest, hsum⟩ := card_mul hstrays
      rw [hsum, stray_card hfirst, ih hrest, List.length_cons, Nat.add_comm]

/-- With no command pending and every response given up, what is left alive is one copy
for each final line that was replaced. -/
theorem left_alive_at_rest (al : Allocator Addr Obj) (fd : Int) (writes : List WriteResult)
    (sections : List Section) (s : Owner)
    (hrun : sections.foldlM (Owner.step al) (.opened fd writes) = .ok s)
    (hrsp : s.chan.rsp = none) (hheld : s.held = []) :
    s.chan.mem.heap.keys.card = (replacedIn al (.opened fd writes) sections).length := by
  have howned := run_owned al (opened_owned fd writes) sections
  rw [hrun, List.append_nil] at howned
  obtain ⟨⟨pending, contents, h⟩⟩ := howned
  have hcontents : contents = [] := List.map_eq_nil_iff.1 (h.held.symm.trans hheld)
  cases pending with
  | some c =>
      obtain ⟨a, hsome, -⟩ := h.heap.rsp_eq
      rw [hrsp] at hsome
      cases hsome
  | none =>
      have hheap := h.heap.rsp_none.2
      rw [hcontents, Responses, List.map_nil, List.prod_nil, one_mul] at hheap
      exact strays_card hheap

/-- A second final line before the caller wakes leaves the copy of the first. -/
theorem left_alive_at_rest_replaced : ∃ s,
    [Section.start ⟨text "AT", .noResult, none, none, 0, false⟩, .processLine (text "OK"),
      .processLine (text "ERROR"), .check false].foldlM (Owner.step behindLast)
      (.opened 3 []) = .ok s ∧ s.chan.mem.heap.keys.card = 1 := by
  have hrest : ([Section.start ⟨text "AT", .noResult, none, none, 0, false⟩,
      .processLine (text "OK"), .processLine (text "ERROR"), .check false].foldlM
        (Owner.step behindLast) (.opened 3 [])).toOption.any
      (fun s => decide (s.chan.rsp = none ∧ s.held = [])) = true := by decide +kernel
  have hone : (replacedIn behindLast (.opened 3 [])
      [.start ⟨text "AT", .noResult, none, none, 0, false⟩, .processLine (text "OK"),
        .processLine (text "ERROR"), .check false]).length = 1 := by decide +kernel
  cases hrun : [Section.start ⟨text "AT", .noResult, none, none, 0, false⟩,
      .processLine (text "OK"), .processLine (text "ERROR"), .check false].foldlM
        (Owner.step behindLast) (.opened 3 []) with
  | error e =>
      rw [hrun] at hrest
      cases hrest
  | ok s =>
      rw [hrun] at hrest
      obtain ⟨hrsp, hheld⟩ := of_decide_eq_true hrest
      refine ⟨s, rfl, ?_⟩
      rw [left_alive_at_rest behindLast 3 [] _ s hrun hrsp hheld, hone]

end Mobile.Channel.Proofs.Ownership
