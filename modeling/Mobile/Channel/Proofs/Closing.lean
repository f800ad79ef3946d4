import Mobile.Channel.ReaderLoop
import Mobile.Channel.Proofs.Log

/-!
# When the reader closes the channel

`ReadLine` returns the null pointer after every failed `read()` but `EINTR`, and
its callers take a null line for the end of the channel.  The descriptor is
opened with `O_NONBLOCK`, so a line that arrives in two pieces is enough.
-/

namespace Mobile.Channel.Proofs.Closing

open Mobile.Token.Scan Mobile.Channel.ReadLine Mobile.Channel.Types Mobile.Channel.ProcessLine
open Mobile.Channel.SendCommand Mobile.Channel.ReaderLoop Mobile.Channel.Proofs.Log

/-- The outcomes of `read()` that end the read loop with a null line. -/
def stopping : ReadEvent → Bool
  | .data _ => false
  | .error .eintr => false
  | _ => true

def hangup : ReadEvent → Bool
  | .eof => true
  | .error (.other _) => true
  | _ => false

def wouldBlock : ReadEvent → Bool
  | .error .eagain => true
  | .error .ewouldblock => true
  | _ => false

theorem stopping_iff (ev : ReadEvent) :
    stopping ev = true ↔ hangup ev = true ∨ wouldBlock ev = true := by
  match ev with
  | .data _ | .eof | .error .eintr | .error .eagain | .error .ewouldblock
  | .error (.other _) => simp [stopping, hangup, wouldBlock]

def causes : Outcome → List ReadEvent
  | .null cause => [cause]
  | _ => []

/-! ### The reads of one call -/

/-- The buffer is worked on between two `read()` calls. -/
def NoRead (s s' : Session) : Prop := s'.reads = s.reads ∧ s'.events = s.events

theorem finish_causes (s : Session) (eol : Nat) :
    NoRead s (s.finish eol).2 ∧ causes (s.finish eol).1 = [] := by
  unfold Session.finish
  split <;> exact ⟨⟨rfl, rfl⟩, rfl⟩

theorem findEOL_noRead {s s' : Session} {b : LineBuffer} {eol : Option Nat}
    (h : s.findEOL b = some (eol, s')) : NoRead s s' := by
  simp only [Session.findEOL, Option.bind_eq_bind, Option.bind_eq_some_iff] at h
  obtain ⟨_, -, h⟩ := h
  simp only [pure, Option.some.injEq, Prod.mk.injEq] at h
  rw [← h.2]
  exact ⟨rfl, rfl⟩

theorem accept_noRead {s s' : Session} {chunk : List UInt8} {eol : Option Nat}
    (h : s.accept chunk = some (eol, s')) : NoRead s s' := by
  simp only [Session.accept, Option.bind_eq_bind, Option.bind_eq_some_iff] at h
  obtain ⟨_, -, _, -, h⟩ := h
  have hkept := findEOL_noRead h
  exact hkept

theorem enterLoop_noRead {s s' : Session} (h : s.enterLoop = some s') : NoRead s s' := by
  simp only [Session.enterLoop, Option.bind_eq_bind, Option.bind_eq_some_iff] at h
  obtain ⟨_, -, h⟩ := h
  cases h
  exact ⟨rfl, rfl⟩

theorem prepare_noRead {s s' : Session} {eol : Option Nat}
    (h : s.prepare = some (eol, s')) : NoRead s s' := by
  unfold Session.prepare at h
  split at h
  · cases h
  · split at h
    · simp only [Option.bind_eq_bind, Option.bind_eq_some_iff] at h
      obtain ⟨_, -, h⟩ := h
      cases h
      exact ⟨rfl, rfl⟩
    · simp only [Option.bind_eq_bind, Option.bind_eq_some_iff] at h
      obtain ⟨_, -, ⟨eol', s₁⟩, hfind, hrest⟩ := h
      have h₁ := findEOL_noRead hfind
      cases eol' with
      | some k =>
          cases hrest
          exact h₁
      | none =>
          simp only [Option.bind_eq_some_iff] at hrest
          obtain ⟨_, -, hrest⟩ := hrest
          cases hrest
          exact h₁

theorem readLoop_causes (events : List ReadEvent) (s : Session) :
    (s.readLoop Session.finish events).2.reads.filter stopping =
      s.reads.filter stopping ++ causes (s.readLoop Session.finish events).1 := by
  induction events generalizing s with
  | nil => simp [Session.readLoop, causes]
  | cons ev events ih =>
      match ev with
      | .eof | .error .eagain | .error .ewouldblock | .error (.other _) =>
          simp [Session.readLoop, causes, stopping]
      | .error .eintr =>
          have h := ih { s with reads := s.reads ++ [.error .eintr] }
          simpa [Session.readLoop, stopping] using h
      | .data count =>
          rw [Session.readLoop]
          split
          · exact ih s
          · split
            · simp [causes]
            · rename_i s₁ heq
              have h₁ := (accept_noRead heq).1
              obtain ⟨⟨hreads, -⟩, hcauses⟩ := finish_causes { s₁ with events := events } _
              rw [hreads, hcauses, h₁]
              simp [stopping]
            · rename_i s₁ heq
              have h₁ := (accept_noRead heq).1
              split
              · rw [h₁]
                simp [causes, stopping]
              · rename_i s₂ henter
                rw [ih s₂, (enterLoop_noRead henter).1, h₁]
                simp [stopping]

/-- A call returns the null line exactly for the one read of it that stops the
loop. -/
theorem readLine_causes (s : Session) :
    s.readLine.2.reads.filter stopping = s.reads.filter stopping ++ causes s.readLine.1 := by
  unfold Session.readLine Session.readLineTo
  split
  · simp [causes]
  · rename_i s₁ hprep
    obtain ⟨⟨hreads, -⟩, hcauses⟩ := finish_causes s₁ _
    rw [hreads, hcauses, (prepare_noRead hprep).1, List.append_nil]
  · rename_i s₁ hprep
    split
    · rw [(prepare_noRead hprep).1]
      simp [causes]
    · rename_i s₂ henter
      rw [readLoop_causes, (enterLoop_noRead henter).1, (prepare_noRead hprep).1]

/-! ### The reads to come -/

/-- No `read()` to come stops the read loop. -/
def Undisturbed (s : Session) : Prop := ∀ ev ∈ s.events, stopping ev = false

theorem readLoop_undisturbed (events : List ReadEvent) {s : Session}
    (hs : Undisturbed s) (hevents : ∀ ev ∈ events, stopping ev = false) :
    Undisturbed (s.readLoop Session.finish events).2 ∧ causes (s.readLoop Session.finish events).1 = [] := by
  induction events generalizing s with
  | nil => exact ⟨by simp [Session.readLoop, Undisturbed], rfl⟩
  | cons ev events ih =>
      have hev : stopping ev = false := hevents ev (by simp)
      have hrest : ∀ ev ∈ events, stopping ev = false := fun ev hmem => hevents ev (by simp [hmem])
      match ev, hev with
      | .error .eintr, _ => exact ih (s := { s with reads := s.reads ++ [.error .eintr] }) hs hrest
      | .data count, _ =>
          rw [Session.readLoop]
          split
          · exact ih hs hrest
          · split
            · exact ⟨hs, rfl⟩
            · rename_i eol s₁ heq
              obtain ⟨⟨-, hkept⟩, hcauses⟩ := finish_causes { s₁ with events := events } eol
              refine ⟨?_, hcauses⟩
              rw [Undisturbed, hkept]
              exact hrest
            · rename_i s₁ heq
              have hs₁ : Undisturbed s₁ := by
                rw [Undisturbed, (accept_noRead heq).2]
                exact hs
              split
              · exact ⟨hs₁, rfl⟩
              · rename_i s₂ henter
                refine ih ?_ hrest
                rw [Undisturbed, (enterLoop_noRead henter).2]
                exact hs₁

theorem readLine_undisturbed {s : Session} (hs : Undisturbed s) :
    Undisturbed s.readLine.2 ∧ causes s.readLine.1 = [] := by
  unfold Session.readLine Session.readLineTo
  split
  · exact ⟨hs, rfl⟩
  · rename_i eol s₁ hprep
    obtain ⟨⟨-, hkept⟩, hcauses⟩ := finish_causes s₁ eol
    refine ⟨?_, hcauses⟩
    rw [Undisturbed, hkept, (prepare_noRead hprep).2]
    exact hs
  · rename_i s₁ hprep
    have hs₁ : Undisturbed s₁ := by
      rw [Undisturbed, (prepare_noRead hprep).2]
      exact hs
    split
    · exact ⟨hs₁, rfl⟩
    · rename_i s₂ henter
      have hs₂ : Undisturbed s₂ := by
        rw [Undisturbed, (enterLoop_noRead henter).2]
        exact hs₁
      exact readLoop_undisturbed s₂.events hs₂ hs₂

/-! ### The reader over a run -/

/-- The reader since the channel was `ch`: each close answers one stopping read,
and without one the channel has only served lines. -/
structure Tracks (ch : ATChannel) (r : Reader) : Prop where
  closes_eq : r.closes = r.session.reads.filter stopping
  served : r.closes = [] → Served ch r.chan

section Step

variable {ch : ATChannel} {r : Reader}

theorem Tracks.read (h : Tracks ch r) (hnone : causes r.session.readLine.1 = []) :
    Tracks ch { r with session := r.session.readLine.2 } := by
  refine ⟨?_, h.served⟩
  rw [readLine_causes, hnone, List.append_nil]
  exact h.closes_eq

theorem Tracks.close (h : Tracks ch r) {cause : ReadEvent}
    (hcause : r.session.readLine.1 = .null cause) :
    Tracks ch (Reader.close { r with session := r.session.readLine.2 } cause) := by
  refine ⟨?_, ?_⟩
  · rw [show (Reader.close { r with session := r.session.readLine.2 } cause).session.reads =
      r.session.readLine.2.reads from rfl, readLine_causes, hcause, ← h.closes_eq]
    rfl
  · intro hempty
    simp [Reader.close] at hempty

theorem Tracks.serve (h : Tracks ch r) {chan : ATChannel} (hserved : Served r.chan chan) :
    Tracks ch { r with chan := chan } :=
  ⟨h.closes_eq, fun hempty => (h.served hempty).trans hserved⟩

theorem Tracks.processUnsolLine (h : Tracks ch r) (line1 : Line) :
    Tracks ch (r.processUnsolLine line1).2 := by
  unfold Reader.processUnsolLine
  cases hread : r.session.readLine.1 with
  | line line2 =>
      have hnext := h.read (by rw [hread]; rfl)
      dsimp only
      split
      · exact hnext.serve (log_served _ rfl)
      · exact hnext
  | null cause => exact h.close hread
  | waiting => exact h.read (by rw [hread]; rfl)
  | fault => exact h.read (by rw [hread]; rfl)

theorem Tracks.readerLoop (h : Tracks ch r) : Tracks ch r.readerLoop.2 := by
  unfold Reader.readerLoop
  cases hread : r.session.readLine.1 with
  | line line =>
      have hnext := h.read (by rw [hread]; rfl)
      dsimp only
      split
      · exact hnext.processUnsolLine line
      · split
        · rename_i chan hchan
          exact hnext.serve (processLine_served hchan)
        · exact hnext
  | null cause => exact h.close hread
  | waiting => exact h.read (by rw [hread]; rfl)
  | fault => exact h.read (by rw [hread]; rfl)

end Step

theorem Tracks.loops {ch : ATChannel} {r : Reader} (h : Tracks ch r) (n : Nat) :
    Tracks ch (r.loops n).2 := by
  induction n with
  | zero => exact h
  | succ n ih =>
      rw [Reader.loops]
      split
      · exact ih.readerLoop
      · exact ih

/-- `ReaderClose` answers only the end of file and errors other than `EINTR`,
`EAGAIN` and `EWOULDBLOCK`; without such a read the channel stays open. -/
structure ClosesOnHangup (ch : ATChannel) (r : Reader) : Prop where
  closes : ∀ cause ∈ r.closes, hangup cause = true
  stays_open : (∀ ev ∈ r.session.reads, hangup ev = false) →
    r.chan.readClosed = ch.readClosed ∧ .closeHandler ∉ newEvents ch r.chan

def reader (ch : ATChannel) (stream : List UInt8) (events : List ReadEvent) : Reader :=
  ⟨ch, Session.start stream events, []⟩

theorem closesOnHangup_iff (ch : ATChannel) (stream : List UInt8) (events : List ReadEvent)
    (n : Nat) :
    ClosesOnHangup ch ((reader ch stream events).loops n).2 ↔
      ∀ ev ∈ ((reader ch stream events).loops n).2.session.reads, wouldBlock ev = false := by
  have hstart : Tracks ch (reader ch stream events) := ⟨rfl, fun _ => Served.refl ch⟩
  have htracks := hstart.loops n
  generalize ((reader ch stream events).loops n).2 = r at htracks
  constructor
  · intro hcloses ev hev
    by_contra hblock
    rw [Bool.not_eq_false] at hblock
    have hstop : stopping ev = true := (stopping_iff ev).2 (.inr hblock)
    have hmem : ev ∈ r.closes := by
      rw [htracks.closes_eq]
      exact List.mem_filter.2 ⟨hev, hstop⟩
    have hhangup := hcloses.closes ev hmem
    revert hhangup hblock
    match ev with
    | .data _ | .eof | .error .eintr | .error .eagain | .error .ewouldblock
    | .error (.other _) => simp [hangup, wouldBlock]
  · intro hreads
    have hhangup : ∀ ev ∈ r.session.reads, stopping ev = true → hangup ev = true := by
      intro ev hev hstop
      rcases (stopping_iff ev).1 hstop with h | h
      · exact h
      · rw [hreads ev hev] at h
        cases h
    constructor
    · intro cause hcause
      rw [htracks.closes_eq, List.mem_filter] at hcause
      exact hhangup cause hcause.1 hcause.2
    · intro hquiet
      have hempty : r.closes = [] := by
        rw [htracks.closes_eq, List.filter_eq_nil_iff]
        intro ev hev hstop
        have h := hhangup ev hev hstop
        rw [hquiet ev hev] at h
        cases h
      have hserved := htracks.served hempty
      exact ⟨hserved.readClosed, fun hmem => by cases hserved.newEvents hmem⟩

/-- `OK` and its line end arrive in two pieces, with nothing to read between them. -/
theorem split_line_closes :
    ¬ ∀ (ch : ATChannel) (stream : List UInt8) (events : List ReadEvent) (n : Nat),
      (0 : UInt8) ∉ stream → ClosesOnHangup ch ((reader ch stream events).loops n).2 := by
  intro h
  have hrun := h (.opened 3 [])
    (text "OK\x0d\x0a") [.data 2, .error .eagain, .data 2] 1 (by decide)
  have hclosed := (hrun.stays_open (by decide +kernel)).1
  exact absurd hclosed (by decide +kernel)

end Mobile.Channel.Proofs.Closing
