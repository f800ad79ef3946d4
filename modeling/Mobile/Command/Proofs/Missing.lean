import Mobile.Command.Proofs.Evaluation

/-!
# Missing responses

`initModem`, `getModem`, `getRadioState`, `setEhrpd` and `getNet3GPP` test the
channel's return code with `ret < 0` although no code of the channel is negative,
and go on to the response of a command that has none.
-/

namespace Mobile.Command.Proofs.Missing

open Mobile.Token.Scan Mobile.Token.Tokenizer Mobile.Channel.Types Mobile.Channel.SendCommand
open Mobile.Command.Callbacks Mobile.Command.Operations
open Mobile.Command.Proofs.Effects Mobile.Command.Proofs.Replies
open Mobile.Command.Proofs.Evaluation

def missing : Crash → Bool
  | .nullCursor => false
  | _ => true

/-- The failure path is taken on every return code but 0. -/
def FailurePaths (trace : List OpEvent) : Prop :=
  ∀ ret failed, .tested ret failed ∈ trace → ret ≠ 0 → failed = true

/-- The operation reads nothing of a missing response, and takes its failure paths. -/
structure Sound {α : Type} (r : Except Crash α × World) : Prop where
  no_missing : ∀ c, r.1 = .error c → missing c = false
  failure_path : FailurePaths r.2.trace

/-- A response came with the reply, and not a successful one with an error code. -/
def Answers (reply : Reply) : Prop :=
  ∃ r, reply.out = .resp r ∧ (reply.ret ≠ 0 → r.success = 0)

theorem sound_map {α β : Type} {f : α → β} {r : Except Crash α × World} :
    Sound (r.1.map f, r.2) ↔ Sound r := by
  obtain ⟨res, w⟩ := r
  cases res with
  | ok a =>
      exact ⟨fun h => ⟨by simp, h.failure_path⟩, fun h => ⟨by simp [Except.map], h.failure_path⟩⟩
  | error c =>
      refine ⟨fun h => ⟨fun c' hc => h.no_missing c' ?_, h.failure_path⟩,
        fun h => ⟨fun c' hc => h.no_missing c' ?_, h.failure_path⟩⟩
      · cases hc
        rfl
      · cases hc
        rfl

theorem failurePaths_append {xs ys : List OpEvent} :
    FailurePaths (xs ++ ys) ↔ FailurePaths xs ∧ FailurePaths ys := by
  simp only [FailurePaths, List.mem_append, or_imp, forall_and]

theorem failurePaths_of_quiet {evs : List OpEvent} (h : Quiet evs) : FailurePaths evs := by
  intro ret failed hmem
  obtain ⟨_, _, hev⟩ := h _ hmem
  cases hev

theorem not_sound_of_missing {α : Type} {c : Crash} {w : World} (hc : missing c = true) :
    ¬ Sound ((.error c, w) : Except Crash α × World) := by
  intro h
  have := h.no_missing c rfl
  rw [hc] at this
  cases this

theorem not_sound_of_tested {α : Type} {x : Op α} {w : World} {ret : Int} (hx : Grows x)
    (hret : ret ≠ 0) (hmem : .tested ret false ∈ w.trace) : ¬ Sound (x.run w) := by
  intro h
  cases h.failure_path ret false ((hx w).subset hmem) hret

theorem finishes_sound {α : Type} {x : Op α} {id : Nat} {readable : Bool}
    (h : Finishes x id readable) {w : World} (hw : FailurePaths w.trace) :
    Sound (x.run w) := by
  have hx := h w
  cases readable with
  | false =>
      rw [if_neg (by simp)] at hx
      rw [hx]
      exact ⟨by simp [missing], hw⟩
  | true =>
      obtain ⟨a, names, hx⟩ := hx
      rw [hx]
      refine ⟨by simp, fun ret failed hmem hne => hw ret failed ?_ hne⟩
      simpa using hmem

section Query

variable {α : Type} {replies : Nat → Reply} {store : Int → Int} {cmd pre : Line} {p : Ptr}
  {failure : α} {read : Ptr → Line → Op α}

theorem store_ret (hstore : ∀ n, 0 ≤ n → n < 256 → store n = n) {call : Call} {reply : Reply}
    (hreply : Replied call reply) : store reply.ret = reply.ret :=
  hstore _ hreply.ret_mem.1 hreply.ret_mem.2

theorem query_missing_unsound (hp : p = .null ∨ p = .unassigned)
    (hret : 0 ≤ store (replies 0).ret) (hout : ∀ r, (replies 0).out ≠ .resp r) :
    ¬ Sound ((query store cmd pre p failure read).run (start replies)) := by
  obtain ⟨c, hc, hrun⟩ : ∃ c, (c = .nullResponse ∨ c = .unassignedResponse) ∧
      (query store cmd pre p failure read).run (start replies) = (.error c, _) :=
    query_missing hret hp hout
  have hmiss : missing c = true := by rcases hc with rfl | rfl <;> rfl
  rw [hrun]
  exact not_sound_of_missing hmiss

theorem query_failed_sound {r : ATResponse} (hret : 0 ≤ store (replies 0).ret)
    (hout : (replies 0).out = .resp r) (hr : r.success = 0) :
    Sound ((query store cmd pre p failure read).run (start replies)) := by
  have hfresh : .free (start replies).sent ∉ (start replies).trace := by simp
  rw [query_failed hret hfresh hout hr]
  exact ⟨by simp, by simp [FailurePaths, asked]⟩

/-- A response that counts as successful under another code is read all the same. -/
theorem query_code_unsound {r : ATResponse} (hret : 0 ≤ store (replies 0).ret)
    (hgrow : ∀ p line, Grows (read p line)) (hout : (replies 0).out = .resp r)
    (hr : r.success ≠ 0) (hcode : store (replies 0).ret ≠ 0) :
    ¬ Sound ((query store cmd pre p failure read).run (start replies)) := by
  have hfresh : .free (start replies).sent ∉ (start replies).trace := by simp
  have htested : .tested (store (replies 0).ret) false ∈
      (lineWorld replies store cmd pre).trace := by
    simp [lineWorld, asked]
  cases hlines : r.intermediates with
  | nil =>
      rw [query_empty hret hfresh hout hr hlines]
      exact not_sound_of_missing rfl
  | cons line lines =>
      rw [query_line hret hfresh hout hr hlines]
      exact not_sound_of_tested (hgrow _ _) hcode htested

/-- A query is sound exactly when its reply answers and what is done with the line
of a successful reply is sound. -/
theorem query_sound_iff {rest : Prop} (hp : p = .null ∨ p = .unassigned)
    (hstore : ∀ n, 0 ≤ n → n < 256 → store n = n) (hgrow : ∀ p line, Grows (read p line))
    (hreply : Replied (.singleLine cmd pre) (replies 0))
    (hrest : ∀ r line lines, replies 0 = ⟨0, .resp r⟩ → r.success ≠ 0 →
      r.intermediates = line :: lines →
      (Sound ((read (.resp 0 r) line).run (lineWorld replies store cmd pre)) ↔ rest))
    (hnone : (∀ r, (replies 0).out = .resp r → r.success = 0) → rest) :
    Sound ((query store cmd pre p failure read).run (start replies)) ↔
      Answers (replies 0) ∧ rest := by
  have hcode : store (replies 0).ret = (replies 0).ret := store_ret hstore hreply
  have hret : 0 ≤ store (replies 0).ret := by
    rw [hcode]
    exact hreply.ret_mem.1
  by_cases hout : ∃ r, (replies 0).out = .resp r
  · obtain ⟨r, hr⟩ := hout
    have honly : ∀ r', (replies 0).out = .resp r' → r' = r := by
      intro r' hr'
      cases hr.symm.trans hr'
      rfl
    by_cases hsucc : r.success = 0
    · have hquiet : ∀ r', (replies 0).out = .resp r' → r'.success = 0 :=
        fun r' hr' => honly r' hr' ▸ hsucc
      exact ⟨fun _ => ⟨⟨r, hr, fun _ => hsucc⟩, hnone hquiet⟩,
        fun _ => query_failed_sound hret hr hsucc⟩
    by_cases hzero : (replies 0).ret = 0
    · have hrep : replies 0 = ⟨0, .resp r⟩ := by rw [← hzero, ← hr]
      obtain ⟨line, lines, hlines⟩ :=
        List.exists_cons_of_ne_nil (hreply.line_of_success hr hsucc hzero)
      rw [query_line hret (by simp) hr hsucc hlines]
      refine (hrest r line lines hrep hsucc hlines).trans ⟨fun h => ⟨⟨r, hr, ?_⟩, h⟩, And.right⟩
      exact fun hne => absurd hzero hne
    · refine ⟨fun h => absurd h ?_, fun h => ?_⟩
      · exact query_code_unsound hret hgrow hr hsucc (by rwa [hcode])
      · obtain ⟨r', hr', hfail⟩ := h.1
        exact absurd (honly r' hr' ▸ hfail hzero) hsucc
  · have hmissing : ∀ r, (replies 0).out ≠ .resp r := not_exists.1 hout
    exact ⟨fun h => absurd h (query_missing_unsound hp hret hmissing),
      fun h => absurd h.1.choose_spec.1 (hmissing _)⟩

end Query

theorem lineWorld_tested {replies : Nat → Reply} {store : Int → Int} {cmd pre : Line}
    {r : ATResponse} (hstore : ∀ n, 0 ≤ n → n < 256 → store n = n)
    (hrep : replies 0 = ⟨0, .resp r⟩) :
    FailurePaths (lineWorld replies store cmd pre).trace := by
  intro ret failed hmem hret
  have h0 : store 0 = 0 := hstore 0 (by omega) (by omega)
  simp only [lineWorld, start, asked, sends_trace, hrep, h0] at hmem
  simp at hmem
  exact absurd hmem.1 hret

theorem finishing_query_sound_iff {α : Type} {replies : Nat → Reply} {store : Int → Int}
    {cmd pre : Line} {p : Ptr} {failure : α} {read : Ptr → Line → Op α}
    (hp : p = .null ∨ p = .unassigned) (hstore : ∀ n, 0 ≤ n → n < 256 → store n = n)
    (hgrow : ∀ p line, Grows (read p line))
    (hread : ∀ id r line, ∃ readable, Finishes (read (.resp id r) line) id readable)
    (hreply : Replied (.singleLine cmd pre) (replies 0)) :
    Sound ((query store cmd pre p failure read).run (start replies)) ↔ Answers (replies 0) := by
  have h : Sound ((query store cmd pre p failure read).run (start replies)) ↔
      Answers (replies 0) ∧ True := by
    refine query_sound_iff hp hstore hgrow hreply (fun r line lines hrep _ _ => ?_)
      fun _ => trivial
    obtain ⟨readable, hfin⟩ := hread 0 r line
    exact ⟨fun _ => trivial, fun _ => finishes_sound hfin (lineWorld_tested hstore hrep)⟩
  simpa using h

theorem initModem_sound_iff {replies : Nat → Reply}
    (h : ChannelReplies (initModem.run (start replies)).2.trace) :
    Sound (initModem.run (start replies)) ↔ Answers (replies 5) := by
  have hret : 0 ≤ (replies 5).ret := (initModem_replied h).ret_mem.1
  by_cases hout : ∃ r, (replies 5).out = .resp r
  · obtain ⟨r, hr⟩ := hout
    obtain ⟨before, between, after, n, hbefore, hbetween, hafter, hrun⟩ :=
      initModem_answered hret hr
    rw [hrun]
    constructor
    · intro hsound
      refine ⟨r, hr, fun hne => ?_⟩
      have := hsound.failure_path _ (r.success == 0) (by simp) hne
      simpa using this
    · rintro ⟨r', hr', hcode⟩
      rw [hr] at hr'
      cases hr'
      refine ⟨by simp, ?_⟩
      simp only [failurePaths_append, failurePaths_of_quiet, hbefore, hbetween, hafter, true_and,
        and_true]
      simpa [FailurePaths] using hcode
  · have hmissing : ∀ r, (replies 5).out ≠ .resp r := not_exists.1 hout
    obtain ⟨before, -, hrun⟩ := initModem_missing hret hmissing
    rw [hrun]
    refine ⟨fun hsound => absurd hsound (not_sound_of_missing rfl), fun hans => ?_⟩
    exact absurd hans.choose_spec.1 (hmissing _)

/-! ### setEhrpd -/

def EhrpdOn (reply : Reply) : Prop :=
  ∃ r line lines, reply.out = .resp r ∧ r.success ≠ 0 ∧ r.intermediates = line :: lines ∧
    ehrpdValue line = some 1

theorem disableEhrpd_sound_iff {id : Nat} {r : ATResponse} {w : World}
    (hw : FailurePaths w.trace) (hfreed : .free id ∈ w.trace) (hfresh : .free w.sent ∉ w.trace)
    (h : ChannelReplies ((disableEhrpd (.resp id r) (some 1)).run w).2.trace) :
    Sound ((disableEhrpd (.resp id r) (some 1)).run w) ↔ Answers (w.replies w.sent) := by
  have hret : 0 ≤ (w.replies w.sent).ret := (disableEhrpd_replied h).ret_mem.1
  cases hout : (w.replies w.sent).out with
  | resp r₁ =>
      rw [disableEhrpd_answered hret hout hfresh]
      constructor
      · intro hsound
        refine ⟨r₁, hout, fun hne => ?_⟩
        have := hsound.failure_path _ (r₁.success == 0) (by simp [disabled]) hne
        simpa using this
      · rintro ⟨r', hr', hcode⟩
        rw [hout] at hr'
        cases hr'
        refine ⟨by simp, failurePaths_append.2 ⟨hw, ?_⟩⟩
        simpa [FailurePaths, disabled] using hcode
  | null =>
      rw [disableEhrpd_null hret hout]
      refine ⟨fun hsound => absurd hsound (not_sound_of_missing rfl), fun hans => ?_⟩
      cases hout.symm.trans hans.choose_spec.1
  | unassigned =>
      rw [disableEhrpd_unassigned hret hout hfreed]
      refine ⟨fun hsound => absurd hsound (not_sound_of_missing rfl), fun hans => ?_⟩
      cases hout.symm.trans hans.choose_spec.1

theorem setEhrpd_sound_iff {replies : Nat → Reply}
    (h : ChannelReplies (setEhrpd.run (start replies)).2.trace) :
    Sound (setEhrpd.run (start replies)) ↔
      Answers (replies 0) ∧ (EhrpdOn (replies 0) → Answers (replies 1)) := by
  have hreply := query_replied grows_readEhrpd h
  refine query_sound_iff (.inl rfl) (fun _ _ _ => rfl) grows_readEhrpd hreply ?_ ?_
  · intro r line lines hrep hr hlines
    have hw : FailurePaths
        (lineWorld replies id (text "AT+EHRPDENABLE?") (text "+EHRPDENABLE:")).trace :=
      lineWorld_tested (fun _ _ _ => rfl) hrep
    have hout : (replies 0).out = .resp r := by rw [hrep]
    have hrun : setEhrpd.run (start replies) = (readEhrpd (.resp 0 r) line).run
        (lineWorld replies id (text "AT+EHRPDENABLE?") (text "+EHRPDENABLE:")) :=
      query_line hreply.ret_mem.1 (by simp) hout hr hlines
    have hon : EhrpdOn (replies 0) ↔ ehrpdValue line = some 1 := by
      constructor
      · rintro ⟨r', line', lines', hr', -, hlines', hval⟩
        rw [hout] at hr'
        cases hr'
        rw [hlines] at hlines'
        cases hlines'
        exact hval
      · exact fun hval => ⟨r, line, lines, hout, hr, hlines, hval⟩
    rw [hrun] at h
    rw [hon]
    obtain ⟨-, hval, hcase⟩ | ⟨-, hval, hcase⟩ | ⟨-, hval, hcase⟩ | ⟨-, hval, hcase⟩ :=
      readEhrpd_cases 0 r line
        (lineWorld replies id (text "AT+EHRPDENABLE?") (text "+EHRPDENABLE:"))
    · rw [hcase, hval]
      exact ⟨fun _ => by simp, fun _ => ⟨by simp [missing], hw⟩⟩
    · rw [hcase, hval]
      exact ⟨fun _ => by simp, fun _ => ⟨by simp, failurePaths_append.2 ⟨hw, by simp [FailurePaths]⟩⟩⟩
    · rw [hcase, hval]
      exact ⟨fun _ => by simp, fun _ => ⟨by simp, failurePaths_append.2 ⟨hw, by simp [FailurePaths]⟩⟩⟩
    · rw [hcase] at h ⊢
      rw [hval]
      refine (disableEhrpd_sound_iff ?_ (by simp) ?_ h).trans (by simp [logs, lineWorld, sends])
      · exact failurePaths_append.2 ⟨hw, by simp [FailurePaths]⟩
      · simp [logs, lineWorld, sends, asked]
  · rintro hquiet ⟨r, _, _, hout, hr, -⟩
    exact absurd (hquiet r hout) hr

/-! ### getSIMStatus and getAPNS -/

/-- A reply with code 0 that counts as successful has a line. -/
def LineBehindZero (reply : Reply) : Prop :=
  reply.ret = 0 → ∀ r, reply.out = .resp r → getCmeError r = some 0 → r.intermediates ≠ []

theorem failurePaths_of_reads {id : Nat} {evs : List OpEvent} (h : Reads id evs) :
    FailurePaths evs := by
  intro ret failed hmem
  rcases h _ hmem with hev | ⟨_, hev⟩ <;> cases hev

theorem readSIM_sound_iff {id : Nat} {r : ATResponse} {w : World} (hw : FailurePaths w.trace)
    (hfresh : .free id ∉ w.trace) :
    Sound ((readSIM (.resp id r)).run w) ↔ (getCmeError r = some 0 → r.intermediates ≠ []) := by
  obtain ⟨⟨cme, hcme, hline⟩, status, evs, hevs, hrun⟩ | ⟨-, hlines, evs, hevs, hrun⟩ |
      ⟨-, hcme, hlines, evs, hevs, hrun⟩ := readSIM_cases (r := r) hfresh
  · rw [hrun]
    refine ⟨fun _ hzero => ?_, fun _ => ⟨by simp, failurePaths_append.2 ⟨hw, ?_⟩⟩⟩
    · obtain ⟨line, lines, hcons, -⟩ := hline (by simpa [hcme] using hzero)
      simp [hcons]
    · exact failurePaths_append.2 ⟨failurePaths_of_reads hevs, by simp [FailurePaths]⟩
  · rw [hrun]
    exact ⟨fun _ => hlines, fun _ => ⟨by simp [missing],
      failurePaths_append.2 ⟨hw, failurePaths_of_reads hevs⟩⟩⟩
  · rw [hrun]
    exact ⟨fun hsound => absurd hsound (not_sound_of_missing rfl),
      fun hne => absurd hlines (hne hcme)⟩

theorem tests_failurePaths (call : Call) (id : Nat) (reply : Reply) :
    FailurePaths (tests call id reply) := by
  intro ret failed hmem hret
  have htest : ret = reply.ret ∧ failed = (reply.ret != 0) := by
    cases hout : reply.out <;> simpa [tests, handed, hout] using hmem
  obtain ⟨rfl, rfl⟩ := htest
  simpa using hret

theorem freed_sound {p : Ptr} {w : World} {α : Type} {a : α} (hp : p ≠ .unassigned)
    (hw : FailurePaths w.trace) : Sound ((do freeResp p; return a : Op α).run w) := by
  cases p with
  | unassigned => exact absurd rfl hp
  | null => exact ⟨by simp [freeResp, bind_ok (pure_run _), pure_run], hw⟩
  | resp id r =>
      rw [freed_run]
      exact ⟨by simp, failurePaths_append.2 ⟨hw, by simp [FailurePaths]⟩⟩

theorem zero_sound_iff {call : Call} {reply : Reply} {p : Ptr} {id : Nat} {w : World}
    (hreply : Replied call reply) (hret : reply.ret = 0) (hw : FailurePaths w.trace)
    (hfresh : .free id ∉ w.trace) :
    Sound ((readSIM (assigned p id reply.out)).run w) ↔ LineBehindZero reply := by
  obtain ⟨r, rfl⟩ := hreply.resp_of_zero hret
  refine (readSIM_sound_iff hw hfresh).trans ?_
  simp [LineBehindZero]

theorem getSIMStatus_sound_iff {replies : Nat → Reply}
    (h : ChannelReplies (getSIMStatus.run (start replies)).2.trace) :
    Sound (getSIMStatus.run (start replies)) ↔
      LineBehindZero (if (replies 0).ret = 0 then replies 0 else replies 1) := by
  have hreply := getSIMStatus_replied h
  have hfirst : FailurePaths (cpinWorld replies).trace := tests_failurePaths _ _ _
  rw [getSIMStatus_run] at h ⊢
  by_cases hret : (replies 0).ret = 0
  · rw [if_neg (not_not.2 hret), if_pos hret]
    exact zero_sound_iff hreply hret hfirst (fresh_tests _ _ _ _)
  rw [if_pos hret] at h
  rw [if_pos hret, if_neg hret]
  have hreply₁ := fallback_replied h
  have hboth : FailurePaths (qcpinWorld replies).trace :=
    failurePaths_append.2 ⟨hfirst, tests_failurePaths _ _ _⟩
  rw [fallback_run]
  by_cases hret₁ : (replies 1).ret = 0
  · rw [if_neg (not_not.2 hret₁)]
    refine zero_sound_iff hreply₁ hret₁ hboth ?_
    simp [qcpinWorld, fresh_tests]
  · rw [if_pos hret₁]
    have hptr := assigned_ne (assigned_ne (p := .null) (by simp) 0 (replies 0).out) 1
      (replies 1).out
    exact ⟨fun _ hzero => absurd hzero hret₁, fun _ => freed_sound hptr hboth⟩

theorem getAPNS_sound {replies : Nat → Reply}
    (h : ChannelReplies (getAPNS.run (start replies)).2.trace) :
    Sound (getAPNS.run (start replies)) := by
  by_cases hret : (replies 0).ret = 0
  · obtain ⟨r, hrep⟩ := (getAPNS_replied h).resp_of_zero hret
    by_cases hr : r.success = 0
    · rw [getAPNS_refused hrep hr]
      exact ⟨by simp, by simp [FailurePaths]⟩
    · rw [getAPNS_lines hrep hr]
      exact finishes_sound (apnLines_finishes _) (by simp [FailurePaths])
  · rw [getAPNS_failed hret]
    exact ⟨by simp, tests_failurePaths _ _ _⟩

def Answered (replies : Nat → Reply) : Operation → Prop
  | .initModem => Answers (replies 5)
  | .getModem | .getRadioState | .setRadioState _ | .getNet3GPP => Answers (replies 0)
  | .getSIMStatus => LineBehindZero (if (replies 0).ret = 0 then replies 0 else replies 1)
  | .setEhrpd => Answers (replies 0) ∧ (EhrpdOn (replies 0) → Answers (replies 1))
  | .getAPNS => True

theorem getRadioState_sound_iff {replies : Nat → Reply}
    (h : ChannelReplies (getRadioState.run (start replies)).2.trace) :
    Sound (getRadioState.run (start replies)) ↔ Answers (replies 0) :=
  finishing_query_sound_iff (.inl rfl) (fun _ h0 h1 => Int.emod_eq_of_lt h0 h1) grows_readRadio
    (fun _ _ line => ⟨_, readRadio_finishes line⟩) (query_replied grows_readRadio h)

/-- For every sequence of replies the channel can give, an operation reads no
missing response and takes its failure paths exactly when the replies it goes on
from are answers. -/
theorem operation_sound_iff (o : Operation) (replies : Nat → Reply)
    (h : ChannelReplies (o.run replies).2.trace) :
    Sound (o.run replies) ↔ Answered replies o := by
  cases o with
  | initModem => exact sound_map.trans (initModem_sound_iff h)
  | getModem =>
      exact sound_map.trans (finishing_query_sound_iff (.inl rfl) (fun _ _ _ => rfl)
        grows_readModel (fun _ _ line => ⟨_, readModel_finishes line⟩)
        (query_replied grows_readModel h))
  | getRadioState => exact sound_map.trans (getRadioState_sound_iff h)
  | setRadioState cfun =>
      have hrun := setRadioState_run cfun (start replies)
      have htrace : ((Operation.setRadioState cfun).run replies).2.trace =
          (getRadioState.run (start replies)).2.trace := congrArg (·.2.trace) hrun
      rw [htrace] at h
      refine sound_map.trans ?_
      exact (iff_of_eq (congrArg Sound hrun)).trans (sound_map.trans (getRadioState_sound_iff h))
  | getSIMStatus => exact sound_map.trans (getSIMStatus_sound_iff h)
  | setEhrpd => exact sound_map.trans (setEhrpd_sound_iff h)
  | getNet3GPP =>
      exact sound_map.trans (finishing_query_sound_iff (.inr rfl) (fun _ _ _ => rfl)
        grows_readNet3GPP (fun _ _ line => ⟨_, readNet3GPP_finishes line⟩)
        (query_replied grows_readNet3GPP h))
  | getAPNS => exact sound_map.trans ⟨fun _ => trivial, fun _ => getAPNS_sound h⟩

theorem getModem_sound_answered :
    Answered (fun _ => ⟨0, .resp ⟨1, some (text "OK"), [text "Model: EC20"]⟩⟩) .getModem ∧
      Sound (Operation.getModem.run fun _ =>
        ⟨0, .resp ⟨1, some (text "OK"), [text "Model: EC20"]⟩⟩) := by
  have hans : Answered (fun _ => ⟨0, .resp ⟨1, some (text "OK"), [text "Model: EC20"]⟩⟩)
      .getModem := ⟨_, rfl, by simp⟩
  refine ⟨hans, (operation_sound_iff .getModem _ ?_).2 hans⟩
  have htrace : (Operation.getModem.run fun _ =>
      ⟨0, .resp ⟨1, some (text "OK"), [text "Model: EC20"]⟩⟩).2.trace =
      [.sent (.singleLine (text "ATI") (text "Model:"))
        ⟨0, .resp ⟨1, some (text "OK"), [text "Model: EC20"]⟩⟩, .handOut 0, .use 0,
        .tested 0 false, .use 0, .modemMatch (text "EC20"), .free 0] := by decide
  intro call reply hmem
  rw [htrace] at hmem
  obtain ⟨rfl, rfl⟩ : call = .singleLine (text "ATI") (text "Model:") ∧
      reply = ⟨0, .resp ⟨1, some (text "OK"), [text "Model: EC20"]⟩⟩ := by simpa using hmem
  exact ⟨.opened 3 [], [⟨[.processLine (text "Model: EC20"), .processLine (text "OK")], 0⟩], _,
    rfl, by decide, by decide⟩

/-- A modem that answers `ATI` with `OK` alone: the code is `INVALID_RESPONSE`, which
is not negative, and the response pointer is null. -/
theorem bare_ok_read :
    ¬ ∀ o replies, ChannelReplies (Operation.run replies o).2.trace →
      Sound (Operation.run replies o) := by
  intro hall
  have hsound := hall .getModem (fun _ => ⟨ATErrno.errorInvalidResponse.code, .null⟩) ?_
  · exact absurd (hsound.no_missing .nullResponse rfl) (by decide)
  · intro call reply hmem
    have htrace : (Operation.getModem.run fun _ =>
        ⟨ATErrno.errorInvalidResponse.code, .null⟩).2.trace =
        [.sent (.singleLine (text "ATI") (text "Model:"))
          ⟨ATErrno.errorInvalidResponse.code, .null⟩] := by decide
    rw [htrace] at hmem
    obtain ⟨rfl, rfl⟩ : call = .singleLine (text "ATI") (text "Model:") ∧
        reply = ⟨ATErrno.errorInvalidResponse.code, .null⟩ := by simpa using hmem
    exact ⟨.opened 3 [], [⟨[.processLine (text "OK")], 0⟩], _, rfl, by decide, by decide⟩

end Mobile.Command.Proofs.Missing
