import Mobile.Command.Proofs.Evaluation

/-!
# The release of the responses

Every response handed out to an operation is to be freed exactly once, and not
used afterwards.  An operation that ends in a crash does not free what it holds.
-/

namespace Mobile.Command.Proofs.Release

open Mobile.Token.Scan Mobile.Token.Tokenizer Mobile.Channel.Types Mobile.Channel.SendCommand
open Mobile.Command.Callbacks Mobile.Command.Operations
open Mobile.Command.Proofs.Effects Mobile.Command.Proofs.Replies
open Mobile.Command.Proofs.Evaluation

/-! ### The ledger -/

def touches (id : Nat) : OpEvent → Bool
  | .handOut n | .use n | .free n => n == id
  | _ => false

def history (id : Nat) (trace : List OpEvent) : List OpEvent := trace.filter (touches id)

/-- Handed out once, used, and freed once at the end. -/
def Settled (id : Nat) (events : List OpEvent) : Prop :=
  ∃ uses, events = .handOut id :: List.replicate uses (.use id) ++ [.free id]

def Balanced (trace : List OpEvent) : Prop :=
  ∀ id, .handOut id ∈ trace → Settled id (history id trace)

def Idle (events : List OpEvent) : Prop := ∀ ev ∈ events, ∀ id, touches id ev = false

structure Held (id : Nat) (trace : List OpEvent) : Prop where
  others : ∀ n, n ≠ id → .handOut n ∈ trace → Settled n (history n trace)
  own : ∃ uses, history id trace = .handOut id :: List.replicate uses (.use id)

section Ledger

variable {events trace : List OpEvent}

theorem history_append (n : Nat) (xs ys : List OpEvent) :
    history n (xs ++ ys) = history n xs ++ history n ys :=
  List.filter_append ..

theorem mem_history {ev : OpEvent} {id : Nat} (hev : touches id ev = true) :
    ev ∈ history id trace ↔ ev ∈ trace := by
  simp [history, hev]

theorem Idle.handOut_not_mem (h : Idle events) (n : Nat) : .handOut n ∉ events := by
  intro hmem
  have := h _ hmem n
  simp [touches] at this

theorem Idle.history (h : Idle events) (n : Nat) : history n events = [] := by
  rw [Release.history, List.filter_eq_nil_iff]
  intro ev hev
  simp [h ev hev n]

theorem idle_of_quiet (h : Quiet events) : Idle events := by
  intro ev hev
  obtain ⟨_, _, rfl⟩ := h ev hev
  simp [touches]

theorem idle_modemMatch (names : List Line) : Idle (names.map OpEvent.modemMatch) := by
  simp [Idle, touches]

theorem Idle.balanced (h : Idle events) : Balanced events :=
  fun n hmem => absurd hmem (h.handOut_not_mem n)

theorem balanced_nil : Balanced [] := by
  simp [Balanced]

theorem Balanced.idle (h : Balanced trace) (hidle : Idle events) : Balanced (trace ++ events) := by
  intro n hmem
  rw [history_append, hidle.history, List.append_nil]
  exact h n ((List.mem_append.1 hmem).resolve_right (hidle.handOut_not_mem n))

variable {id : Nat}

theorem Balanced.handOut (h : Balanced trace) (hfresh : history id trace = []) :
    Held id (trace ++ [.handOut id]) := by
  constructor
  · intro n hn hmem
    have hother : touches n (.handOut id) = false := by simp [touches, Ne.symm hn]
    have hmem : .handOut n ∈ trace := by simpa [hn] using hmem
    simpa [history_append, history, hother] using h n hmem
  · refine ⟨0, ?_⟩
    rw [history_append, hfresh]
    simp [history, touches]

theorem Held.idle (h : Held id trace) (hidle : Idle events) : Held id (trace ++ events) := by
  constructor
  · intro n hn hmem
    rw [history_append, hidle.history, List.append_nil]
    exact h.others n hn ((List.mem_append.1 hmem).resolve_right (hidle.handOut_not_mem n))
  · rw [history_append, hidle.history, List.append_nil]
    exact h.own

theorem Held.use (h : Held id trace) : Held id (trace ++ [.use id]) := by
  constructor
  · intro n hn hmem
    have hother : touches n (.use id) = false := by simp [touches, Ne.symm hn]
    simpa [history_append, history, hother] using h.others n hn (by simpa using hmem)
  · obtain ⟨uses, hown⟩ := h.own
    refine ⟨uses + 1, ?_⟩
    rw [history_append, hown, List.replicate_succ']
    simp [history, touches]

theorem Held.handOut_mem (h : Held id trace) : .handOut id ∈ trace := by
  obtain ⟨uses, hown⟩ := h.own
  exact (mem_history (by simp [touches])).1 (hown ▸ List.mem_cons_self)

theorem Held.not_freed (h : Held id trace) : .free id ∉ trace := by
  obtain ⟨uses, hown⟩ := h.own
  intro hmem
  have hfree : .free id ∈ history id trace := (mem_history (by simp [touches])).2 hmem
  rw [hown] at hfree
  simp [List.mem_replicate] at hfree

theorem Held.free (h : Held id trace) : Balanced (trace ++ [.free id]) := by
  intro n hmem
  have hmem : .handOut n ∈ trace := by simpa using hmem
  by_cases hn : n = id
  · obtain ⟨uses, hown⟩ := h.own
    rw [hn]
    refine ⟨uses, ?_⟩
    rw [history_append, hown]
    simp [history, touches]
  · have hother : touches n (.free id) = false := by simp [touches, Ne.symm hn]
    simpa [history_append, history, hother] using h.others n hn hmem

theorem not_balanced_of_leak (id : Nat) (hout : .handOut id ∈ trace) (hfree : .free id ∉ trace) :
    ¬ Balanced trace := by
  intro h
  obtain ⟨uses, hset⟩ := h id hout
  have hmem : .free id ∈ history id trace := by simp [hset]
  exact hfree ((mem_history (by simp [touches])).1 hmem)

theorem Held.not_balanced (h : Held id trace) : ¬ Balanced trace :=
  not_balanced_of_leak id h.handOut_mem h.not_freed

theorem not_balanced_of_twice (hout : .handOut id ∈ trace) (hfree : .free id ∈ trace) :
    ¬ Balanced (trace ++ [.free id]) := by
  intro h
  obtain ⟨uses, hset⟩ := h id (by simp [hout])
  have hcount : (history id trace).count (.free id) = 0 := by
    have h1 : (history id (trace ++ [.free id])).count (.free id) = 1 := by
      simp [hset, List.count_replicate]
    simpa [history_append, history, touches] using h1
  exact List.count_eq_zero.1 hcount ((mem_history (by simp [touches])).2 hfree)

theorem not_balanced_of_used (hout : .handOut id ∈ trace) :
    ¬ Balanced (trace ++ [.use id]) := by
  intro h
  obtain ⟨uses, hset⟩ := h id (by simp [hout])
  have hlast := congrArg List.getLast? hset
  rw [history_append, List.getLast?_concat] at hlast
  simp [history, touches] at hlast

end Ledger

/-! ### A query -/

theorem finishes_balanced_iff {α : Type} {x : Op α} {id : Nat} {readable : Bool} {w : World}
    (h : Finishes x id readable) (hw : Held id w.trace) :
    Balanced (x.run w).2.trace ↔ readable = true := by
  have hx := h w
  cases readable with
  | false =>
      rw [if_neg (by simp)] at hx
      rw [hx]
      exact ⟨fun hbal => absurd hbal hw.not_balanced, fun hfalse => by cases hfalse⟩
  | true =>
      obtain ⟨a, names, hx⟩ := hx
      rw [hx]
      refine ⟨fun _ => rfl, fun _ => ?_⟩
      rw [logs_trace, ← List.append_assoc]
      exact (hw.idle (idle_modemMatch names)).free

section Query

variable {α : Type} {replies : Nat → Reply} {store : Int → Int} {cmd pre : Line} {p : Ptr}
  {failure : α} {read : Ptr → Line → Op α}

theorem asked_held (replies : Nat → Reply) (store : Int → Int) (cmd pre : Line) (failed : Bool) :
    Held 0 (asked (start replies) store cmd pre failed) := by
  have hsent : Idle [.sent (.singleLine cmd pre) (replies 0)] := by simp [Idle, touches]
  have hused : Held 0 [.sent (.singleLine cmd pre) (replies 0), .handOut 0, .use 0] :=
    (hsent.balanced.handOut (hsent.history 0)).use
  have htested : Idle [.tested (store (replies 0).ret) failed] := by simp [Idle, touches]
  exact hused.idle htested

theorem lineWorld_held (replies : Nat → Reply) (store : Int → Int) (cmd pre : Line) :
    Held 0 (lineWorld replies store cmd pre).trace :=
  (asked_held replies store cmd pre false).use

def FirstLine (good : Line → Prop) (reply : Reply) : Prop :=
  ∀ r, reply.out = .resp r → r.success ≠ 0 →
    ∃ line lines, r.intermediates = line :: lines ∧ good line

/-- A query is balanced exactly when what is done with its line is. -/
theorem query_balanced_iff {good : Line → Prop} (hp : p = .null ∨ p = .unassigned)
    (hstore : 0 ≤ store (replies 0).ret)
    (hread : ∀ r line lines, (replies 0).out = .resp r → r.success ≠ 0 →
      r.intermediates = line :: lines →
      (Balanced ((read (.resp 0 r) line).run (lineWorld replies store cmd pre)).2.trace ↔
        good line)) :
    Balanced ((query store cmd pre p failure read).run (start replies)).2.trace ↔
      FirstLine good (replies 0) := by
  have hfresh : .free (start replies).sent ∉ (start replies).trace := by simp
  by_cases hout : ∃ r, (replies 0).out = .resp r
  · obtain ⟨r, hr⟩ := hout
    have honly : ∀ r', (replies 0).out = .resp r' → r' = r := by
      intro r' hr'
      cases hr.symm.trans hr'
      rfl
    by_cases hsucc : r.success = 0
    · rw [query_failed hstore hfresh hr hsucc]
      refine ⟨fun _ r' hr' hne => absurd (honly r' hr' ▸ hsucc) hne, fun _ => ?_⟩
      exact (asked_held replies store cmd pre true).free
    cases hlines : r.intermediates with
    | nil =>
        rw [query_empty hstore hfresh hr hsucc hlines]
        refine ⟨fun hbal => absurd hbal (lineWorld_held replies store cmd pre).not_balanced,
          fun hall => ?_⟩
        obtain ⟨line, lines, hcons, -⟩ := hall r hr hsucc
        rw [hlines] at hcons
        cases hcons
    | cons line lines =>
        rw [query_line hstore hfresh hr hsucc hlines]
        refine (hread r line lines hr hsucc hlines).trans ⟨fun hgood r' hr' _ => ?_, fun hall => ?_⟩
        · rw [honly r' hr']
          exact ⟨line, lines, hlines, hgood⟩
        · obtain ⟨line', lines', hcons, hgood⟩ := hall r hr hsucc
          rw [hlines] at hcons
          cases hcons
          exact hgood
  · have hmissing : ∀ r, (replies 0).out ≠ .resp r := not_exists.1 hout
    obtain ⟨c, -, hrun⟩ : ∃ c, (c = .nullResponse ∨ c = .unassignedResponse) ∧
        (query store cmd pre p failure read).run (start replies) = (.error c, _) :=
      query_missing hstore hp hmissing
    rw [hrun]
    refine ⟨fun _ r hr => absurd hr (hmissing r), fun _ => ?_⟩
    exact Idle.balanced (by simp [Idle, touches])

theorem finishing_query_balanced_iff {readable : Line → Bool}
    (hp : p = .null ∨ p = .unassigned) (hstore : ∀ n, 0 ≤ n → 0 ≤ store n)
    (hgrow : ∀ p line, Grows (read p line))
    (hread : ∀ r line, Finishes (read (.resp 0 r) line) 0 (readable line))
    (h : ChannelReplies ((query store cmd pre p failure read).run (start replies)).2.trace) :
    Balanced ((query store cmd pre p failure read).run (start replies)).2.trace ↔
      FirstLine (fun line => readable line = true) (replies 0) := by
  have hret := (query_replied hgrow h).ret_mem.1
  exact query_balanced_iff hp (hstore _ hret) fun r line _ _ _ _ =>
    finishes_balanced_iff (hread r line) (lineWorld_held replies store cmd pre)

end Query

theorem initModem_balanced {replies : Nat → Reply}
    (h : ChannelReplies (initModem.run (start replies)).2.trace) :
    Balanced (initModem.run (start replies)).2.trace := by
  have hret : 0 ≤ (replies 5).ret := (initModem_replied h).ret_mem.1
  by_cases hout : ∃ r, (replies 5).out = .resp r
  · obtain ⟨r, hr⟩ := hout
    obtain ⟨before, between, after, n, hbefore, hbetween, hafter, hrun⟩ :=
      initModem_answered hret hr
    have hsent : Idle (before ++ [.sent (.command (text "AT+CREG=2") true) (replies 5)]) :=
      idle_of_quiet (by simpa [Quiet, or_imp, forall_and] using hbefore)
    have hused := (hsent.balanced.handOut (hsent.history 5)).use
    have htested : Idle ([.tested (replies 5).ret (r.success == 0)] ++ between) := by
      simpa [Idle, touches] using idle_of_quiet hbetween
    rw [hrun]
    simpa using ((hused.idle htested).free).idle (idle_of_quiet hafter)
  · obtain ⟨before, hbefore, hrun⟩ := initModem_missing hret (not_exists.1 hout)
    rw [hrun]
    exact (idle_of_quiet (by simpa [Quiet, or_imp, forall_and] using hbefore)).balanced

/-! ### setEhrpd -/

theorem disableEhrpd_balanced_iff {id : Nat} {r : ATResponse} {w : World}
    (hret : 0 ≤ (w.replies w.sent).ret) (hw : Balanced w.trace)
    (hfresh : history w.sent w.trace = []) (hout : .handOut id ∈ w.trace)
    (hfreed : .free id ∈ w.trace) :
    Balanced ((disableEhrpd (.resp id r) (some 1)).run w).2.trace ↔
      (w.replies w.sent).out ≠ .unassigned := by
  have hidle : Idle [.sent (.command (text "AT+EHRPDENABLE=0") true) (w.replies w.sent)] := by
    simp [Idle, touches]
  have hsent := hw.idle hidle
  cases hrsp : (w.replies w.sent).out with
  | resp r₁ =>
      have hnot : .free w.sent ∉ w.trace := by
        intro hmem
        have : .free w.sent ∈ history w.sent w.trace := (mem_history (by simp [touches])).2 hmem
        simp [hfresh] at this
      rw [disableEhrpd_answered hret hrsp hnot]
      refine ⟨fun _ => by simp, fun _ => ?_⟩
      have hheld := hsent.handOut (by rw [history_append, hfresh, hidle.history]; rfl)
      have htested : Idle [.tested (w.replies w.sent).ret (r₁.success == 0)] := by
        simp [Idle, touches]
      simpa [disabled] using ((hheld.use.idle htested).free)
  | null =>
      rw [disableEhrpd_null hret hrsp]
      exact ⟨fun _ => by simp, fun _ => hsent⟩
  | unassigned =>
      rw [disableEhrpd_unassigned hret hrsp hfreed]
      have hmem : .handOut id ∈ w.trace ++
          [.sent (.command (text "AT+EHRPDENABLE=0") true) (w.replies w.sent)] := by simp [hout]
      refine ⟨fun hbal => absurd ?_ (not_balanced_of_used hmem), fun hne => absurd rfl hne⟩
      simpa using hbal

/-- The line of the query can be read, the mode is not off, and when it is on the
second command leaves something in the response pointer. -/
def EhrpdLine (second : OutRsp) (line : Line) : Prop :=
  intReadable line = true ∧ ehrpdValue line ≠ some 0 ∧
    (ehrpdValue line = some 1 → second ≠ .unassigned)

theorem setEhrpd_balanced_iff {replies : Nat → Reply}
    (h : ChannelReplies (setEhrpd.run (start replies)).2.trace) :
    Balanced (setEhrpd.run (start replies)).2.trace ↔
      FirstLine (EhrpdLine (replies 1).out) (replies 0) := by
  have hreply := query_replied grows_readEhrpd h
  refine query_balanced_iff (.inl rfl) hreply.ret_mem.1 fun r line lines hout hr hlines => ?_
  have hrun : setEhrpd.run (start replies) = (readEhrpd (.resp 0 r) line).run
      (lineWorld replies id (text "AT+EHRPDENABLE?") (text "+EHRPDENABLE:")) :=
    query_line hreply.ret_mem.1 (by simp) hout hr hlines
  rw [hrun] at h
  have hheld := lineWorld_held replies id (text "AT+EHRPDENABLE?") (text "+EHRPDENABLE:")
  have hfree := hheld.free
  have hout₀ : .handOut 0 ∈
      (lineWorld replies id (text "AT+EHRPDENABLE?") (text "+EHRPDENABLE:")).trace ++ [.free 0] :=
    List.mem_append_left _ hheld.handOut_mem
  have hfreed : .free 0 ∈
      (lineWorld replies id (text "AT+EHRPDENABLE?") (text "+EHRPDENABLE:")).trace ++ [.free 0] :=
    by simp
  obtain ⟨hread, hval, hcase⟩ | ⟨hread, hval, hcase⟩ | ⟨hread, hval, hcase⟩ |
      ⟨hread, hval, hcase⟩ :=
    readEhrpd_cases 0 r line
      (lineWorld replies id (text "AT+EHRPDENABLE?") (text "+EHRPDENABLE:"))
  · rw [hcase, EhrpdLine, hread]
    exact ⟨fun hbal => absurd hbal hheld.not_balanced, fun hline => by cases hline.1⟩
  · rw [hcase, EhrpdLine, hread, hval]
    exact ⟨fun _ => by simp, fun _ => hfree⟩
  · rw [hcase, EhrpdLine, hval]
    refine ⟨fun hbal => absurd ?_ (not_balanced_of_twice hout₀ hfreed), fun hline =>
      absurd rfl hline.2.1⟩
    simpa using hbal
  · rw [hcase] at h ⊢
    rw [EhrpdLine, hread, hval]
    refine (disableEhrpd_balanced_iff (disableEhrpd_replied h).ret_mem.1 hfree ?_ hout₀
      hfreed).trans ?_
    · simp [logs, lineWorld, sends, asked, history, touches]
    · simp [logs, lineWorld, sends]
/-! ### getSIMStatus -/

theorem Held.reads {id : Nat} {evs trace : List OpEvent} (h : Held id trace)
    (hevs : Reads id evs) : Held id (trace ++ evs) := by
  induction evs generalizing trace with
  | nil => simpa using h
  | cons ev evs ih =>
      have hrest : Reads id evs := fun ev' hev' => hevs ev' (List.mem_cons_of_mem _ hev')
      rw [← List.singleton_append, ← List.append_assoc]
      rcases hevs ev List.mem_cons_self with rfl | ⟨name, rfl⟩
      · exact ih h.use hrest
      · exact ih (h.idle (idle_modemMatch [name])) hrest

theorem readSIM_balanced_iff {id : Nat} {r : ATResponse} {w : World} (hw : Held id w.trace) :
    Balanced ((readSIM (.resp id r)).run w).2.trace ↔ SimReadable r := by
  obtain ⟨hgood, status, evs, hevs, hrun⟩ | ⟨hbad, -, evs, hevs, hrun⟩ |
      ⟨hbad, -, -, evs, hevs, hrun⟩ := readSIM_cases (r := r) hw.not_freed
  · rw [hrun, logs_trace, ← List.append_assoc]
    exact ⟨fun _ => hgood, fun _ => (hw.reads hevs).free⟩
  · rw [hrun]
    exact ⟨fun hbal => absurd hbal (hw.reads hevs).not_balanced, fun hgood => absurd hgood hbad⟩
  · rw [hrun]
    exact ⟨fun hbal => absurd hbal (hw.reads hevs).not_balanced, fun hgood => absurd hgood hbad⟩

theorem readSIM_frees {id n : Nat} {r : ATResponse} {w : World} (hn : n ≠ id)
    (hfresh : .free id ∉ w.trace) (hfree : .free n ∉ w.trace) :
    .free n ∉ ((readSIM (.resp id r)).run w).2.trace := by
  have hreads : ∀ {evs}, Reads id evs → .free n ∉ evs := by
    intro evs hevs hmem
    rcases hevs _ hmem with hev | ⟨_, hev⟩ <;> cases hev
  obtain ⟨-, status, evs, hevs, hrun⟩ | ⟨-, -, evs, hevs, hrun⟩ | ⟨-, -, -, evs, hevs, hrun⟩ :=
    readSIM_cases (r := r) hfresh
  · rw [hrun]
    simp [hfree, hreads hevs, hn]
  · rw [hrun]
    simp [hfree, hreads hevs]
  · rw [hrun]
    simp [hfree, hreads hevs]

/-- No response is lost when the second command of `getSIMStatus` assigns the pointer. -/
def NotOverwritten (first second : OutRsp) : Prop :=
  (∀ r, first ≠ .resp r) ∨ second = .unassigned

theorem handed_ne {id : Nat} {out : OutRsp} (h : ∀ r, out ≠ .resp r) : handed id out = [] := by
  cases out with
  | resp r => exact absurd rfl (h r)
  | null => rfl
  | unassigned => rfl

theorem tests_idle {call : Call} {id : Nat} {reply : Reply} (h : ∀ r, reply.out ≠ .resp r) :
    Idle (tests call id reply) := by
  simp [tests, handed_ne h, Idle, touches]

theorem tests_held {call : Call} {id : Nat} {reply : Reply} {r : ATResponse} {trace : List OpEvent}
    (hout : reply.out = .resp r) (hbal : Balanced trace) (hfresh : history id trace = []) :
    Held id (trace ++ tests call id reply) := by
  have hsent : Idle [.sent call reply] := by simp [Idle, touches]
  have htested : Idle [.tested reply.ret (reply.ret != 0)] := by simp [Idle, touches]
  have hheld := ((hbal.idle hsent).handOut
    (by rw [history_append, hfresh, hsent.history]; rfl)).idle htested
  simpa [tests, handed, hout] using hheld

theorem zero_balanced_iff {call : Call} {reply : Reply} {p : Ptr} {id : Nat} {w : World}
    {trace : List OpEvent} (hreply : Replied call reply) (hret : reply.ret = 0)
    (htrace : w.trace = trace ++ tests call id reply) (hbal : Balanced trace)
    (hfresh : history id trace = []) :
    Balanced ((readSIM (assigned p id reply.out)).run w).2.trace ↔
      ∀ r, reply.out = .resp r → SimReadable r := by
  obtain ⟨r, rfl⟩ := hreply.resp_of_zero hret
  have hheld : Held id w.trace := by
    rw [htrace]
    exact tests_held rfl hbal hfresh
  refine (readSIM_balanced_iff hheld).trans ⟨fun hgood r' hr' => ?_, fun hall => hall r rfl⟩
  cases hr'
  exact hgood

section Fallback

variable {replies : Nat → Reply} {p : Ptr}

theorem fallback_balanced_iff (hfirst : ∀ r, (replies 0).out ≠ .resp r)
    (h : ChannelReplies ((fallback .null).run (cpinWorld replies)).2.trace) :
    Balanced ((fallback .null).run (cpinWorld replies)).2.trace ↔
      ((replies 1).ret = 0 → ∀ r, (replies 1).out = .resp r → SimReadable r) := by
  have hidle : Idle (tests cpin 0 (replies 0)) := tests_idle hfirst
  have hreply := fallback_replied h
  rw [fallback_run]
  by_cases hret : (replies 1).ret = 0
  · rw [if_neg (not_not.2 hret)]
    refine (zero_balanced_iff hreply hret rfl hidle.balanced (hidle.history 1)).trans ?_
    simp [hret]
  · rw [if_pos hret]
    refine ⟨fun _ hzero => absurd hzero hret, fun _ => ?_⟩
    cases hout : (replies 1).out with
    | resp r₁ =>
        have hheld : Held 1 (qcpinWorld replies).trace :=
          tests_held hout hidle.balanced (hidle.history 1)
        rw [assigned, freed_run]
        exact hheld.free
    | null => exact hidle.balanced.idle (tests_idle (by simp [hout]))
    | unassigned => exact hidle.balanced.idle (tests_idle (by simp [hout]))

theorem fallback_attached_balanced_iff {r : ATResponse} (hfirst : (replies 0).out = .resp r)
    (h : ChannelReplies ((fallback (.resp 0 r)).run (cpinWorld replies)).2.trace) :
    Balanced ((fallback (.resp 0 r)).run (cpinWorld replies)).2.trace ↔
      (replies 1).out = .unassigned := by
  have hheld : Held 0 ([] ++ tests cpin 0 (replies 0)) := tests_held hfirst balanced_nil rfl
  have hreply := fallback_replied h
  have hmem : .handOut 0 ∈ (qcpinWorld replies).trace :=
    List.mem_append_left _ hheld.handOut_mem
  have hfree : ∀ n, .free n ∉ (qcpinWorld replies).trace := by
    simp [qcpinWorld, fresh_tests]
  rw [fallback_run]
  by_cases hret : (replies 1).ret = 0
  · rw [if_neg (not_not.2 hret)]
    obtain ⟨r₁, hr₁⟩ := hreply.resp_of_zero hret
    rw [hr₁]
    refine ⟨fun hbal => absurd hbal (not_balanced_of_leak 0 ?_ ?_), fun hnone => by cases hnone⟩
    · exact (grows_readSIM (.resp 1 r₁) (qcpinWorld replies)).subset hmem
    · exact readSIM_frees (by decide) (hfree 1) (hfree 0)
  · rw [if_pos hret]
    cases hout : (replies 1).out with
    | resp r₁ =>
        rw [assigned, freed_run]
        refine ⟨fun hbal => absurd hbal (not_balanced_of_leak 0 ?_ ?_), fun hnone => by cases hnone⟩
        · exact List.mem_append_left _ hmem
        · simp [hfree]
    | null =>
        refine ⟨fun hbal => absurd hbal (not_balanced_of_leak 0 hmem (hfree 0)), ?_⟩
        exact fun hnone => by cases hnone
    | unassigned =>
        rw [assigned, freed_run]
        have hidle : Idle (tests qcpin 1 (replies 1)) := tests_idle (by simp [hout])
        exact ⟨fun _ => rfl, fun _ => (hheld.idle hidle).free⟩

end Fallback

def SimReplies (first second : Reply) : Prop :=
  if first.ret = 0 then ∀ r, first.out = .resp r → SimReadable r
  else NotOverwritten first.out second.out ∧
    (second.ret = 0 → ∀ r, second.out = .resp r → SimReadable r)

theorem getSIMStatus_balanced_iff {replies : Nat → Reply}
    (h : ChannelReplies (getSIMStatus.run (start replies)).2.trace) :
    Balanced (getSIMStatus.run (start replies)).2.trace ↔
      SimReplies (replies 0) (replies 1) := by
  have hreply := getSIMStatus_replied h
  rw [getSIMStatus_run] at h ⊢
  by_cases hret : (replies 0).ret = 0
  · rw [if_neg (not_not.2 hret), SimReplies, if_pos hret]
    exact zero_balanced_iff hreply hret (List.nil_append _).symm balanced_nil rfl
  rw [if_pos hret] at h
  rw [if_pos hret, SimReplies, if_neg hret]
  cases hout : (replies 0).out with
  | resp r =>
      rw [hout] at h
      refine (fallback_attached_balanced_iff hout h).trans ?_
      refine ⟨fun hnone => ⟨.inr hnone, ?_⟩, fun hboth => hboth.1.resolve_left (by simp)⟩
      simp [hnone]
  | null =>
      rw [hout] at h
      refine (fallback_balanced_iff (by simp [hout]) h).trans ?_
      simp [NotOverwritten]
  | unassigned =>
      rw [hout] at h
      refine (fallback_balanced_iff (by simp [hout]) h).trans ?_
      simp [NotOverwritten]

/-! ### getAPNS -/

/-- No response, or a successful one that is read to its end or to a bad line. -/
def ApnReply (reply : Reply) : Prop :=
  ∀ r, reply.out = .resp r → reply.ret = 0 ∧ r.success ≠ 0 ∧ apnReadable r.intermediates = true

theorem getAPNS_balanced_iff {replies : Nat → Reply}
    (h : ChannelReplies (getAPNS.run (start replies)).2.trace) :
    Balanced (getAPNS.run (start replies)).2.trace ↔ ApnReply (replies 0) := by
  by_cases hret : (replies 0).ret = 0
  · obtain ⟨r, hrep⟩ := (getAPNS_replied h).resp_of_zero hret
    have hcond : ApnReply (replies 0) ↔ r.success ≠ 0 ∧ apnReadable r.intermediates = true := by
      simp [ApnReply, hrep]
    have hsent : Idle [.sent cgdcont (replies 0)] := by simp [Idle, touches]
    have htested : Idle [.tested 0 (r.success == 0)] := by simp [Idle, touches]
    have hheld : Held 0 [.sent cgdcont (replies 0), .handOut 0, .use 0,
        .tested 0 (r.success == 0)] :=
      (hsent.balanced.handOut (hsent.history 0)).use.idle htested
    rw [hcond]
    by_cases hr : r.success = 0
    · rw [getAPNS_refused hrep hr]
      rw [hr] at hheld
      exact ⟨fun hbal => absurd hbal hheld.not_balanced, fun hgood => absurd hr hgood.1⟩
    · have hflag : (r.success == 0) = false := by simpa using hr
      rw [hflag] at hheld
      rw [getAPNS_lines hrep hr]
      refine (finishes_balanced_iff (apnLines_finishes _) hheld.use).trans ?_
      simp [hr]
  · rw [getAPNS_failed hret]
    by_cases hout : ∃ r, (replies 0).out = .resp r
    · obtain ⟨r, hr⟩ := hout
      have hheld : Held 0 ([] ++ tests cgdcont 0 (replies 0)) := tests_held hr balanced_nil rfl
      exact ⟨fun hbal => absurd hbal hheld.not_balanced, fun hgood => absurd (hgood r hr).1 hret⟩
    · have hnone : ∀ r, (replies 0).out ≠ .resp r := not_exists.1 hout
      exact ⟨fun _ r hr => absurd hr (hnone r), fun _ => (tests_idle hnone).balanced⟩

/-! ### All operations -/

def Releases (replies : Nat → Reply) : Operation → Prop
  | .initModem => True
  | .getModem => FirstLine (fun line => strReadable line = true) (replies 0)
  | .getRadioState | .setRadioState _ | .getNet3GPP =>
    FirstLine (fun line => intReadable line = true) (replies 0)
  | .getSIMStatus => SimReplies (replies 0) (replies 1)
  | .setEhrpd => FirstLine (EhrpdLine (replies 1).out) (replies 0)
  | .getAPNS => ApnReply (replies 0)

theorem getRadioState_balanced_iff {replies : Nat → Reply}
    (h : ChannelReplies (getRadioState.run (start replies)).2.trace) :
    Balanced (getRadioState.run (start replies)).2.trace ↔
      FirstLine (fun line => intReadable line = true) (replies 0) :=
  finishing_query_balanced_iff (.inl rfl) (fun n _ => Int.not_lt.1 (toChar_nonneg n))
    grows_readRadio (fun _ line => readRadio_finishes line) h

/-- For every sequence of replies the channel can give, every response handed out to
an operation is freed exactly once, and not used afterwards, exactly when its
replies are of this kind. -/
theorem operation_balanced_iff (o : Operation) (replies : Nat → Reply)
    (h : ChannelReplies (o.run replies).2.trace) :
    Balanced (o.run replies).2.trace ↔ Releases replies o := by
  cases o with
  | initModem => exact ⟨fun _ => trivial, fun _ => initModem_balanced h⟩
  | getModem =>
      exact finishing_query_balanced_iff (.inl rfl) (fun _ hn => hn) grows_readModel
        (fun _ line => readModel_finishes line) h
  | getRadioState => exact getRadioState_balanced_iff h
  | setRadioState cfun =>
      have htrace : ((Operation.setRadioState cfun).run replies).2.trace =
          (getRadioState.run (start replies)).2.trace :=
        congrArg (·.2.trace) (setRadioState_run cfun (start replies))
      rw [htrace] at h ⊢
      exact getRadioState_balanced_iff h
  | getSIMStatus => exact getSIMStatus_balanced_iff h
  | setEhrpd => exact setEhrpd_balanced_iff h
  | getNet3GPP =>
      exact finishing_query_balanced_iff (.inr rfl) (fun _ hn => hn) grows_readNet3GPP
        (fun _ line => readNet3GPP_finishes line) h
  | getAPNS => exact getAPNS_balanced_iff h

theorem getSIMStatus_balanced_ready :
    Releases (fun _ => ⟨0, .resp ⟨1, some (text "OK"), [text "+CPIN: READY"]⟩⟩) .getSIMStatus ∧
      Balanced (Operation.getSIMStatus.run fun _ =>
        ⟨0, .resp ⟨1, some (text "OK"), [text "+CPIN: READY"]⟩⟩).2.trace := by
  have hrel : Releases (fun _ => ⟨0, .resp ⟨1, some (text "OK"), [text "+CPIN: READY"]⟩⟩)
      .getSIMStatus := by
    show SimReplies _ _
    rw [SimReplies, if_pos rfl]
    intro r hr
    cases hr
    exact ⟨0, by decide, fun _ => ⟨_, [], rfl, by decide⟩⟩
  refine ⟨hrel, (operation_balanced_iff .getSIMStatus _ ?_).2 hrel⟩
  have htrace : (Operation.getSIMStatus.run fun _ =>
      ⟨0, .resp ⟨1, some (text "OK"), [text "+CPIN: READY"]⟩⟩).2.trace =
      [.sent cpin ⟨0, .resp ⟨1, some (text "OK"), [text "+CPIN: READY"]⟩⟩, .handOut 0,
        .tested 0 false, .use 0, .use 0, .free 0] := by decide
  intro call reply hmem
  rw [htrace] at hmem
  obtain ⟨rfl, rfl⟩ : call = cpin ∧
      reply = ⟨0, .resp ⟨1, some (text "OK"), [text "+CPIN: READY"]⟩⟩ := by simpa using hmem
  exact ⟨.opened 3 [], [⟨[.processLine (text "+CPIN: READY"), .processLine (text "OK")], 0⟩], _,
    rfl, by decide, by decide⟩

/-- A modem in the wanted state: `setEhrpd` frees the response of its query twice. -/
theorem wanted_state_freed_twice :
    ¬ ∀ o replies, ChannelReplies (Operation.run replies o).2.trace →
      Balanced (Operation.run replies o).2.trace := by
  intro hall
  have htrace : (Operation.setEhrpd.run fun _ =>
      ⟨0, .resp ⟨1, some (text "OK"), [text "+EHRPDENABLE: 0"]⟩⟩).2.trace =
      [.sent (.singleLine (text "AT+EHRPDENABLE?") (text "+EHRPDENABLE:"))
        ⟨0, .resp ⟨1, some (text "OK"), [text "+EHRPDENABLE: 0"]⟩⟩, .handOut 0, .use 0,
        .tested 0 false, .use 0, .free 0] ++ [.free 0] := by decide
  have hbal := hall .setEhrpd
    (fun _ => ⟨0, .resp ⟨1, some (text "OK"), [text "+EHRPDENABLE: 0"]⟩⟩) ?_
  · rw [htrace] at hbal
    exact not_balanced_of_twice (by simp) (by simp) hbal
  · intro call reply hmem
    rw [htrace] at hmem
    obtain ⟨rfl, rfl⟩ : call = .singleLine (text "AT+EHRPDENABLE?") (text "+EHRPDENABLE:") ∧
        reply = ⟨0, .resp ⟨1, some (text "OK"), [text "+EHRPDENABLE: 0"]⟩⟩ := by
      simpa using hmem
    exact ⟨.opened 3 [],
      [⟨[.processLine (text "+EHRPDENABLE: 0"), .processLine (text "OK")], 0⟩], _, rfl,
      by decide, by decide⟩

end Mobile.Command.Proofs.Release
