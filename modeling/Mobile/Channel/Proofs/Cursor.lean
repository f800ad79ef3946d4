import Mobile.Channel.Proofs.ReadLineSpec
import Mobile.ProofSupport.Lines

/-!
# The cursor stays inside the received data

The comment at the return of `ReadLine` claims that the new cursor never passes
`p_read` and that a NUL stands there.  This holds as long as `AtFindNextEOL` is
not applied to a bare SMS prompt, whose end of line is the sentinel itself; the
cursor then steps over the sentinel and old buffer contents become unread data.
-/

namespace Mobile.Channel.Proofs.Cursor

open Mobile.ProofSupport.Lines Mobile.Token.Scan Mobile.Channel.ReadLine
open Mobile.Channel.Proofs.ReadLineSpec
open Relation

/-- `kATBufferCur <= p_read <= kATBuffer + MAX_AT_RESPONSE` and `*p_read == '\0'`. -/
structure CursorInBounds (b : LineBuffer) : Prop where
  cur_le : b.kATBufferCur ≤ b.pRead
  pRead_le : b.pRead ≤ maxAtResponse
  sentinel : (b.kATBuffer.view b.pRead).head? = some 0

/-- Over `n` calls: the cursor is in bounds after each returned line, no call
leaves `kATBuffer`, and the returned lines are disjoint contiguous pieces of the
received bytes, in order. -/
structure DeliversOnce (s : Session) (n : Nat) : Prop where
  cursor : ∀ k ≤ n, ∀ l, (s.calls k).last = some (.line l) →
    CursorInBounds (s.calls k).session.buffer
  in_object : ∀ k ≤ n, (s.calls k).last ≠ some .fault
  pieces : Pieces (s.calls n).returned (s.calls n).session.received

theorem Holds.cursorInBounds {b : LineBuffer} {data : List UInt8} (h : Holds b data) :
    CursorInBounds b :=
  ⟨by have := h.pRead_eq; omega, h.pRead_le, h.view_pRead⟩

/-! ## The search log only grows -/

theorem findEOL_scanned {s s' : Session} {b : LineBuffer} {eol : Option Nat}
    (h : s.findEOL b = some (eol, s')) : s.scanned <+: s'.scanned := by
  simp only [Session.findEOL, Option.bind_eq_bind, Option.bind_eq_some_iff] at h
  obtain ⟨_, -, hs⟩ := h
  simp only [pure, Option.some.injEq, Prod.mk.injEq] at hs
  rw [← hs.2]
  exact List.prefix_append _ _

theorem accept_scanned {s s' : Session} {chunk : List UInt8} {eol : Option Nat}
    (h : s.accept chunk = some (eol, s')) : s.scanned <+: s'.scanned := by
  simp only [Session.accept, Option.bind_eq_bind, Option.bind_eq_some_iff] at h
  obtain ⟨_, -, _, -, hfind⟩ := h
  have hgrow := findEOL_scanned hfind
  exact hgrow

theorem enterLoop_scanned {s s' : Session} (h : s.enterLoop = some s') :
    s'.scanned = s.scanned := by
  simp only [Session.enterLoop, Option.bind_eq_bind, Option.bind_eq_some_iff] at h
  obtain ⟨_, -, hs⟩ := h
  simp only [pure, Option.some.injEq] at hs
  rw [← hs]

theorem finish_scanned (s : Session) (eol : Nat) : (s.finish eol).2.scanned = s.scanned := by
  unfold Session.finish
  split <;> rfl

theorem readLoop_scanned (events : List ReadEvent) (s : Session) :
    s.scanned <+: (s.readLoop Session.finish events).2.scanned := by
  induction events generalizing s with
  | nil => exact List.prefix_rfl
  | cons ev events ih =>
      match ev with
      | .eof => exact List.prefix_rfl
      | .error .eagain => exact List.prefix_rfl
      | .error .ewouldblock => exact List.prefix_rfl
      | .error (.other _) => exact List.prefix_rfl
      | .error .eintr => exact ih { s with reads := s.reads ++ [.error .eintr] }
      | .data count =>
          rw [Session.readLoop]
          split
          · exact ih s
          · split
            · exact List.prefix_rfl
            · rename_i heq
              rw [finish_scanned]
              have hgrow := accept_scanned heq
              exact hgrow
            · rename_i s₁ heq
              have h₁ := accept_scanned heq
              split
              · exact h₁
              · rename_i s₂ henter
                rw [← enterLoop_scanned henter] at h₁
                exact h₁.trans (ih s₂)

theorem prepare_scanned {s s' : Session} {eol : Option Nat}
    (h : s.prepare = some (eol, s')) : s.scanned <+: s'.scanned := by
  unfold Session.prepare at h
  split at h
  · cases h
  · split at h
    · simp only [Option.bind_eq_bind, Option.bind_eq_some_iff] at h
      obtain ⟨_, -, hs⟩ := h
      simp only [pure, Option.some.injEq, Prod.mk.injEq] at hs
      rw [← hs.2]
    · simp only [Option.bind_eq_bind, Option.bind_eq_some_iff] at h
      obtain ⟨_, -, ⟨eol', s₁⟩, hfind, hrest⟩ := h
      have h₁ := findEOL_scanned hfind
      cases eol' with
      | some k =>
          simp only [pure, Option.some.injEq, Prod.mk.injEq] at hrest
          rw [← hrest.2]
          exact h₁
      | none =>
          simp only [Option.bind_eq_some_iff] at hrest
          obtain ⟨_, -, hs⟩ := hrest
          simp only [pure, Option.some.injEq, Prod.mk.injEq] at hs
          rw [← hs.2]
          exact h₁

theorem readLine_scanned (s : Session) : s.scanned <+: s.readLine.2.scanned := by
  unfold Session.readLine Session.readLineTo
  split
  · exact List.prefix_rfl
  · rename_i hprep
    rw [finish_scanned]
    exact prepare_scanned hprep
  · rename_i s₁ hprep
    have h₁ := prepare_scanned hprep
    split
    · exact h₁
    · rename_i s₂ henter
      rw [← enterLoop_scanned henter] at h₁
      exact h₁.trans (readLoop_scanned s₂.events s₂)

/-! ## The invariant between two calls -/

structure Between (stream : List UInt8) (r : Calls) (data : List UInt8) : Prop where
  holds : Holds r.session.buffer data
  scanned : smsPrompt ∉ r.session.scanned
  whole : r.session.received ++ r.session.wire = stream
  pieces : ∃ used, r.session.received = used ++ data ∧ Pieces r.returned used
  no_fault : r.last ≠ some .fault

/-- A round of the loop leaves the pieces already cut in front of the unread data. -/
theorem pieces_steps {returned : List Line} {v w : View}
    (hsteps : ReflTransGen ReadStep v w)
    (h : ∃ used, v.received = used ++ v.pending ∧ Pieces returned used) :
    ∃ used, w.received = used ++ w.pending ∧ Pieces returned used := by
  induction hsteps with
  | refl => exact h
  | @tail u w _ hstep ih =>
      obtain ⟨used, hrec, hp⟩ := ih
      cases hstep with
      | @receive chunk =>
          refine ⟨used ++ (u.pending ++ chunk).takeWhile isEol, ?_, hp.append_right _⟩
          simp [hrec]
      | discard => exact ⟨used ++ u.pending, by simp [hrec], hp.append_right _⟩

theorem between_zero (stream : List UInt8) (events : List ReadEvent) :
    Between stream ((Session.start stream events).calls 0) [] :=
  ⟨Holds.initial, by simp [Session.calls, Session.start], rfl, ⟨[], rfl, .nil _⟩,
    by simp [Session.calls]⟩

section Stream

variable {stream : List UInt8} (hnul : (0 : UInt8) ∉ stream)

include hnul

/-- One more call: either it keeps the invariant, or it met the prompt and left
the cursor behind `p_read`. -/
theorem Between.call {s : Session} {n : Nat} {data : List UInt8}
    (h : Between stream (s.calls n) data) :
    (∃ data', Between stream (s.calls (n + 1)) data') ∨
      ((s.calls (n + 1)).last = some (.line smsPrompt) ∧
        smsPrompt ∈ (s.calls (n + 1)).session.scanned ∧
        ¬CursorInBounds (s.calls (n + 1)).session.buffer) := by
  have hwire : (0 : UInt8) ∉ (s.calls n).session.wire := fun h0 =>
    hnul (by rw [← h.whole]; simp [h0])
  obtain ⟨v, hsteps, hends, hrec, hwhole⟩ := readLine_spec h.holds hwire h.scanned
  rw [h.whole] at hwhole
  obtain ⟨used₀, hused₀, hpieces₀⟩ := h.pieces
  have hpieces₁ : Pieces (s.calls n).returned (used₀ ++ data.takeWhile isEol) :=
    hpieces₀.append_right _
  obtain ⟨used, hused, hpieces⟩ :=
    pieces_steps hsteps ⟨used₀ ++ data.takeWhile isEol, by simp [hused₀], hpieces₁⟩
  simp only [Session.calls]
  generalize (s.calls n).session.readLine = r at hends hrec hwhole ⊢
  obtain ⟨o, s'⟩ := r
  simp only at hends hrec hwhole ⊢
  cases hends with
  | @line l rest c hpending _ _ _ hholds hscan =>
      refine Or.inl ⟨rest, hholds, hscan, hwhole, ⟨used ++ [] ++ l ++ [c], ?_, ?_⟩, by simp⟩
      · simp [hrec, hused, hpending]
      · exact hpieces.snoc [] l [c]
  | prompt _ hcur hscan =>
      refine Or.inr ⟨rfl, hscan, fun hbounds => ?_⟩
      have := hbounds.cur_le
      omega
  | null _ hholds hscan =>
      refine Or.inl ⟨v.pending, hholds, hscan, hwhole, ⟨used, by rw [hrec]; exact hused, ?_⟩,
        by simp⟩
      simpa [OutcomeOf.lines] using hpieces
  | waiting _ hholds hscan =>
      refine Or.inl ⟨v.pending, hholds, hscan, hwhole, ⟨used, by rw [hrec]; exact hused, ?_⟩,
        by simp⟩
      simpa [OutcomeOf.lines] using hpieces

theorem between_of_scanned (events : List ReadEvent) (n : Nat)
    (hscan : smsPrompt ∉ ((Session.start stream events).calls n).session.scanned) :
    ∀ k ≤ n, ∃ data, Between stream ((Session.start stream events).calls k) data := by
  induction n with
  | zero =>
      intro k hk
      obtain rfl : k = 0 := by omega
      exact ⟨[], between_zero stream events⟩
  | succ n ih =>
      have hprev : smsPrompt ∉ ((Session.start stream events).calls n).session.scanned :=
        fun hmem => hscan ((readLine_scanned _).subset hmem)
      intro k hk
      by_cases hkn : k ≤ n
      · exact ih hprev k hkn
      · obtain rfl : k = n + 1 := by omega
        obtain ⟨data, hdata⟩ := ih hprev n le_rfl
        rcases hdata.call hnul with hnext | ⟨-, hmem, -⟩
        · exact hnext
        · exact absurd hmem hscan

/-- The first bare prompt that is searched breaks the cursor bound. -/
theorem scanned_of_cursor (events : List ReadEvent) (n : Nat)
    (hcursor : ∀ k ≤ n, ∀ l, ((Session.start stream events).calls k).last = some (.line l) →
      CursorInBounds ((Session.start stream events).calls k).session.buffer) :
    ∃ data, Between stream ((Session.start stream events).calls n) data := by
  induction n with
  | zero => exact ⟨[], between_zero stream events⟩
  | succ n ih =>
      obtain ⟨data, hdata⟩ := ih (fun k hk => hcursor k (by omega))
      rcases hdata.call hnul with hnext | ⟨hlast, -, hbad⟩
      · exact hnext
      · exact absurd (hcursor (n + 1) le_rfl smsPrompt hlast) hbad

end Stream

/-- Over any number of calls on any NUL-free stream, the reader delivers every
byte at most once with its cursor in bounds exactly if `AtFindNextEOL` was never
applied to a bare prompt. -/
theorem deliversOnce_iff (stream : List UInt8) (events : List ReadEvent) (n : Nat)
    (hnul : (0 : UInt8) ∉ stream) :
    DeliversOnce (Session.start stream events) n ↔
      smsPrompt ∉ ((Session.start stream events).calls n).session.scanned := by
  constructor
  · intro h
    obtain ⟨data, hdata⟩ := scanned_of_cursor hnul events n h.cursor
    exact hdata.scanned
  · intro hscan
    have hall := between_of_scanned hnul events n hscan
    refine ⟨fun k hk l _ => ?_, fun k hk => ?_, ?_⟩
    · obtain ⟨data, hdata⟩ := hall k hk
      exact Holds.cursorInBounds hdata.holds
    · obtain ⟨data, hdata⟩ := hall k hk
      exact hdata.no_fault
    · obtain ⟨data, hdata⟩ := hall n le_rfl
      obtain ⟨used, hused, hpieces⟩ := hdata.pieces
      rw [hused]
      exact hpieces.append_right data

/-- `"AAAAAA\r\n> OK\r\n"`: after the prompt the reader hands out three old bytes
of the first line in front of the answer. -/
theorem prompt_redelivers :
    let stream : List UInt8 := [0x41, 0x41, 0x41, 0x41, 0x41, 0x41, 0x0d, 0x0a, 0x3e, 0x20,
      0x4f, 0x4b, 0x0d, 0x0a]
    let s := Session.start stream [.data 8, .data 2, .data 4]
    (0 : UInt8) ∉ stream ∧
      (s.calls 3).returned = [[0x41, 0x41, 0x41, 0x41, 0x41, 0x41], smsPrompt,
        [0x41, 0x41, 0x41, 0x4f, 0x4b]] ∧
      ¬DeliversOnce s 3 := by
  refine ⟨by decide, by decide +kernel, fun h => ?_⟩
  have hbounds := (h.cursor 2 (by decide) smsPrompt (by decide +kernel)).cur_le
  revert hbounds
  decide +kernel

theorem deliversOnce_iff_split_line :
    let s := Session.start [0x4f, 0x4b, 0x0d, 0x0a] [.data 1, .error .eagain, .data 3]
    (0 : UInt8) ∉ s.wire ∧ DeliversOnce s 2 := by
  refine ⟨by decide, ?_⟩
  exact (deliversOnce_iff _ _ 2 (by decide)).mpr (by decide +kernel)

end Mobile.Channel.Proofs.Cursor
