import Mobile.Channel.LinePointers
import Mobile.Channel.Proofs.Closing

/-!
# Which lines go where

The reader on pointers is the reader on lines: `ProcessUnsolLine` copies its first
line before it reads the second.  So the lines are handed on in the order in which
`ReadLine` delivers them, a notification together with the line behind it.  After a
failed read nothing is handed on in `ProcessUnsolLine`, but `ReaderLoop` goes on to
`IsSMSUnsolicited` with the null pointer.
-/

namespace Mobile.Channel.Proofs.Handover

open Mobile.Token.Scan Mobile.Channel.ReadLine Mobile.Channel.Types Mobile.Channel.ProcessLine
open Mobile.Channel.SendCommand Mobile.Channel.ReaderLoop Mobile.Channel.LinePointers
open Mobile.Channel.Proofs.Log Mobile.Channel.Proofs.Closing

/-! ### Pointers and lines -/

/-- What the returned pointer shows in the buffer that the call leaves. -/
def outcome (r : Returned × Session) : Outcome :=
  match r.1 with
  | .line ret => .line (textAt r.2 ret)
  | .null cause => .null cause
  | .waiting => .waiting
  | .fault => .fault

theorem finish_eq (s : Session) (eol : Nat) :
    s.finish eol = (outcome (finishAt s eol), (finishAt s eol).2) := by
  unfold Session.finish finishAt
  cases htake : s.buffer.takeLine eol with
  | none => rfl
  | some p =>
      obtain ⟨l, b⟩ := p
      simp only [LineBuffer.takeLine, Option.bind_eq_bind, Option.bind_eq_some_iff] at htake
      obtain ⟨buf, -, htake⟩ := htake
      cases htake
      rfl

theorem readLoop_eq (events : List ReadEvent) (s : Session) :
    s.readLoop Session.finish events =
      (outcome (s.readLoop finishAt events), (s.readLoop finishAt events).2) := by
  induction events generalizing s with
  | nil => rfl
  | cons ev events ih =>
      match ev with
      | .eof | .error .eagain | .error .ewouldblock | .error (.other _) => rfl
      | .error .eintr => exact ih _
      | .data count =>
          simp only [Session.readLoop]
          by_cases hchunk : s.wire.take (min count (maxAtResponse - s.buffer.pRead)) = []
          · simp only [if_pos hchunk]
            exact ih s
          · simp only [if_neg hchunk]
            cases haccept : ({ s with reads := s.reads ++ [.data count] } : Session).accept
                (s.wire.take (min count (maxAtResponse - s.buffer.pRead))) with
            | none => rfl
            | some p =>
                obtain ⟨eol, s₁⟩ := p
                cases eol with
                | some eol => exact finish_eq { s₁ with events := events } eol
                | none =>
                    cases henter : s₁.enterLoop with
                    | none => simp only [henter, outcome]
                    | some s₂ =>
                        simp only [henter]
                        exact ih s₂

theorem readLine_eq (s : Session) :
    s.readLine = (outcome (readLineAt s), (readLineAt s).2) := by
  unfold Session.readLine readLineAt Session.readLineTo
  cases hprep : s.prepare with
  | none => rfl
  | some p =>
      obtain ⟨eol, s₁⟩ := p
      cases eol with
      | some eol => exact finish_eq s₁ eol
      | none =>
          cases henter : s₁.enterLoop with
          | none => simp only [henter, outcome]
          | some s₂ =>
              simp only [henter]
              exact readLoop_eq s₂.events s₂

/-- `ProcessUnsolLine` reads its first line where it still stands. -/
theorem processUnsolLine_eq (r : PtrReader) (line : Nat) :
    (r.processUnsolLine line).1 =
        (r.reader.processUnsolLine (textAt r.reader.session line)).1 ∧
      (r.processUnsolLine line).2.reader =
        (r.reader.processUnsolLine (textAt r.reader.session line)).2 := by
  unfold PtrReader.processUnsolLine Reader.processUnsolLine
  rw [readLine_eq]
  obtain ⟨ret, s⟩ := readLineAt r.reader.session
  cases ret with
  | line ret =>
      by_cases hhandler : r.reader.chan.unsolHandler = true <;>
        simp [outcome, PtrReader.setSession, PtrReader.setChan, PtrReader.log, hhandler]
  | null cause => exact ⟨rfl, rfl⟩
  | waiting => exact ⟨rfl, rfl⟩
  | fault => exact ⟨rfl, rfl⟩

theorem readerLoop_eq (r : PtrReader) :
    r.readerLoop.1 = r.reader.readerLoop.1 ∧ r.readerLoop.2.reader = r.reader.readerLoop.2 := by
  unfold PtrReader.readerLoop Reader.readerLoop
  rw [readLine_eq]
  obtain ⟨ret, s⟩ := readLineAt r.reader.session
  cases ret with
  | line ret =>
      simp only [outcome]
      by_cases hsms : isSMSUnsolicited (textAt s ret) = true
      · simp only [if_pos hsms]
        exact processUnsolLine_eq ((r.setSession s).log (.isSMSUnsolicited (some (textAt s ret)))) ret
      · simp only [if_neg hsms, PtrReader.setSession, PtrReader.log]
        cases processLine r.reader.chan (textAt s ret) <;> exact ⟨rfl, rfl⟩
  | null cause => exact ⟨rfl, rfl⟩
  | waiting => exact ⟨rfl, rfl⟩
  | fault => exact ⟨rfl, rfl⟩

/-! ### The calls of one turn -/

def pairCalls (ch : ATChannel) (line1 : Line) : Outcome → List LineCall
  | .line line2 => if ch.unsolHandler then [.unsolHandler (some line1) (some line2)] else []
  | _ => []

def turnCalls (r : Reader) : List LineCall :=
  match r.session.readLine.1 with
  | .line line =>
    .isSMSUnsolicited (some line) ::
      if isSMSUnsolicited line then pairCalls r.chan line r.session.readLine.2.readLine.1
      else [.processLine (some line)]
  | .null _ => [.isSMSUnsolicited none]
  | _ => []

theorem processUnsolLine_calls (r : PtrReader) (line : Nat) :
    (r.processUnsolLine line).2.calls = r.calls ++
      pairCalls r.reader.chan (textAt r.reader.session line) r.reader.session.readLine.1 := by
  unfold PtrReader.processUnsolLine
  rw [readLine_eq]
  obtain ⟨ret, s⟩ := readLineAt r.reader.session
  cases ret with
  | line ret =>
      by_cases hhandler : r.reader.chan.unsolHandler = true <;>
        simp [outcome, pairCalls, PtrReader.setSession, PtrReader.setChan, PtrReader.log, hhandler]
  | null cause => simp [outcome, pairCalls, PtrReader.setSession, PtrReader.close]
  | waiting => simp [outcome, pairCalls, PtrReader.setSession]
  | fault => simp [outcome, pairCalls, PtrReader.setSession]

theorem readerLoop_calls (r : PtrReader) :
    r.readerLoop.2.calls = r.calls ++ turnCalls r.reader := by
  unfold PtrReader.readerLoop turnCalls
  rw [readLine_eq]
  obtain ⟨ret, s⟩ := readLineAt r.reader.session
  cases ret with
  | line ret =>
      simp only [outcome]
      by_cases hsms : isSMSUnsolicited (textAt s ret) = true
      · simp only [if_pos hsms]
        rw [processUnsolLine_calls]
        simp [PtrReader.setSession, PtrReader.log]
      · simp only [if_neg hsms, PtrReader.setSession, PtrReader.log]
        cases processLine r.reader.chan (textAt s ret) <;> simp [PtrReader.setChan]
  | null cause => simp [outcome, PtrReader.setSession, PtrReader.close, PtrReader.log]
  | waiting => simp [outcome, PtrReader.setSession]
  | fault => simp [outcome, PtrReader.setSession]

/-! ### After a failed read -/

def returnsNull (s : Session) : Prop := ∃ cause, (readLineAt s).1 = .null cause

/-- `ReadLine` returns the null pointer inside `ReaderLoop`, or inside
`ProcessUnsolLine` for the line behind a notification. -/
def MissesLine (r : PtrReader) : Prop :=
  returnsNull r.reader.session ∨
    ∃ ret, (readLineAt r.reader.session).1 = .line ret ∧
      isSMSUnsolicited (textAt (readLineAt r.reader.session).2 ret) = true ∧
      returnsNull (readLineAt r.reader.session).2

def onMissing : LineCall → Bool
  | .isSMSUnsolicited line => line.isNone
  | .processLine line => line.isNone
  | .unsolHandler line1 line2 => line1.isNone || line2.isNone

/-- The channel ends closed, by one call of `close_handler_` if it was open and the
handler is set, and no call was given the missing line. -/
structure ClosesQuietly (r r' : PtrReader) : Prop where
  closed : r'.reader.chan.readClosed = true
  once : (newEvents r.reader.chan r'.reader.chan).count .closeHandler =
    if r.reader.chan.readClosed = false ∧ r.reader.chan.closeHandler = true then 1 else 0
  quiet : ∀ call ∈ r'.calls.drop r.calls.length, onMissing call = false

theorem readLine_of_null {s : Session} (h : returnsNull s) : ∃ cause, s.readLine.1 = .null cause := by
  obtain ⟨cause, hcause⟩ := h
  exact ⟨cause, by simp [readLine_eq, outcome, hcause]⟩

theorem readLine_of_line {s : Session} {ret : Nat} (h : (readLineAt s).1 = .line ret) :
    s.readLine = (.line (textAt (readLineAt s).2 ret), (readLineAt s).2) := by
  simp [readLine_eq, outcome, h]

theorem readerLoop_missing_second {r : Reader} {l : Line} {cause : ReadEvent}
    (hfirst : r.session.readLine.1 = .line l) (hsms : isSMSUnsolicited l = true)
    (hsecond : r.session.readLine.2.readLine.1 = .null cause) :
    r.readerLoop.2.chan = readerClose r.chan ∧ turnCalls r = [.isSMSUnsolicited (some l)] := by
  refine ⟨?_, by simp [turnCalls, hfirst, hsms, hsecond, pairCalls]⟩
  simp [Reader.readerLoop, Reader.processUnsolLine, hfirst, hsms, hsecond, Reader.close]

/-- After a failed read the channel is closed and nothing more is called, exactly
when the line was not missing to `ReaderLoop` itself. -/
theorem closes_quietly_iff (r : PtrReader) :
    (MissesLine r → ClosesQuietly r r.readerLoop.2) ↔ ¬ returnsNull r.reader.session := by
  constructor
  · intro hquiet hnull
    have hcalls := readerLoop_calls r
    obtain ⟨cause, hfirst⟩ := readLine_of_null hnull
    simp only [turnCalls, hfirst] at hcalls
    have hmem : .isSMSUnsolicited none ∈ r.readerLoop.2.calls.drop r.calls.length := by
      simp [hcalls]
    exact absurd ((hquiet (.inl hnull)).quiet _ hmem) (by decide)
  · rintro hnot (hnull | ⟨ret, hret, hsms, hnull⟩)
    · exact absurd hnull hnot
    · have hfirst := readLine_of_line hret
      obtain ⟨cause, hsecond⟩ := readLine_of_null hnull
      obtain ⟨hchan, hcalls⟩ := readerLoop_missing_second (r := r.reader) (by rw [hfirst]) hsms
        (by rw [hfirst]; exact hsecond)
      obtain ⟨hclosed, honce⟩ := readerClose_closes r.reader.chan
      have hreader := (readerLoop_eq r).2
      refine ⟨?_, ?_, ?_⟩
      · rw [hreader, hchan]
        exact hclosed
      · rw [hreader, hchan]
        exact honce
      · rw [readerLoop_calls, hcalls]
        simp [onMissing]

def ptrReader (ch : ATChannel) (stream : List UInt8) (events : List ReadEvent) : PtrReader :=
  ⟨reader ch stream events, []⟩

/-- The modem is unplugged while the reader waits for a line. -/
theorem null_line_classified :
    ¬ ∀ r : PtrReader, MissesLine r → ClosesQuietly r r.readerLoop.2 := by
  intro h
  have hnull : returnsNull (ptrReader (.opened 3 []) [] [.eof]).reader.session := ⟨.eof, by decide⟩
  have hquiet := (h (ptrReader (.opened 3 []) [] [.eof]) (.inl hnull)).quiet
  exact absurd (hquiet (.isSMSUnsolicited none) (by decide)) (by decide)

/-! ### The lines of a run -/

inductive Delivery
  | line (l : Line)
  | pair (line1 line2 : Line)
  deriving DecidableEq, Repr

/-- The next line goes to the notification in front of it, if there is one, begins
a notification, or stands alone. -/
def deliverNext : List Delivery × Option Line → Line → List Delivery × Option Line
  | (ds, some line1), l => (ds ++ [.pair line1 l], none)
  | (ds, none), l => if isSMSUnsolicited l then (ds, some l) else (ds ++ [.line l], none)

/-- The deliveries for a sequence of lines, and the notification whose second line
is still to come. -/
def deliver (ls : List Line) : List Delivery × Option Line := ls.foldl deliverNext ([], none)

def Delivery.calls (ch : ATChannel) : Delivery → List LineCall
  | .line l => [.isSMSUnsolicited (some l), .processLine (some l)]
  | .pair line1 line2 =>
    .isSMSUnsolicited (some line1) ::
      if ch.unsolHandler then [.unsolHandler (some line1) (some line2)] else []

/-- The calls of all deliveries, the `k`-th on the channel `chans k`, and the test of
a notification that waits for its second line. -/
def deliveryCalls (chans : Nat → ATChannel) (d : List Delivery × Option Line) : List LineCall :=
  (d.1.mapIdx fun k d => d.calls (chans k)).flatten ++
    d.2.toList.map fun l => .isSMSUnsolicited (some l)

theorem deliveryCalls_snoc (chans : Nat → ATChannel) (ds : List Delivery) (d : Delivery) :
    deliveryCalls chans (ds ++ [d], none) =
      deliveryCalls chans (ds, none) ++ d.calls (chans ds.length) := by
  simp [deliveryCalls, List.mapIdx_append]

/-- A `ReadLine` call that delivers no line, and how the turn in which it is made ends. -/
inductive Stuck : LoopEnd → Outcome → Prop
  | waiting : Stuck .waiting .waiting
  | fault : Stuck .crashed .fault

theorem Stuck.no_lines {e : LoopEnd} {o : Outcome} (h : Stuck e o) : o.lines = [] := by
  cases h <;> rfl

/-- A waiting `ReadLine` call has used up every `read()` that is still to come. -/
theorem readLoop_waiting {events : List ReadEvent} {s : Session}
    (h : (s.readLoop Session.finish events).1 = .waiting) :
    (s.readLoop Session.finish events).2.events = [] := by
  induction events generalizing s with
  | nil => rfl
  | cons ev events ih =>
      match ev with
      | .eof | .error .eagain | .error .ewouldblock | .error (.other _) => cases h
      | .error .eintr =>
          rw [Session.readLoop] at h ⊢
          exact ih h
      | .data count =>
          rw [Session.readLoop] at h ⊢
          by_cases hchunk : s.wire.take (min count (maxAtResponse - s.buffer.pRead)) = []
          · rw [if_pos hchunk] at h ⊢
            exact ih h
          · rw [if_neg hchunk] at h ⊢
            split at h
            · cases h
            · rename_i s₁ eol
              unfold Session.finish at h
              split at h <;> cases h
            · split at h
              · cases h
              · exact ih h

theorem readLine_waiting {s : Session} (h : s.readLine.1 = .waiting) :
    s.readLine.2.events = [] := by
  unfold Session.readLine Session.readLineTo at h ⊢
  split at h
  · cases h
  · unfold Session.finish at h
    split at h <;> cases h
  · split at h
    · cases h
    · exact readLoop_waiting h

/-- How `n` calls of `ReaderLoop` on a reader at `s` end, when they have called
`ReadLine` `m` times and its lines make the deliveries `d`: all calls return, or one of
them waits because `ReadLine` has no further line, or one of them crashes, in
`ReadLine` or in `ProcessLine`. -/
inductive LoopsEnd (chans : Nat → ATChannel) (s : Session) (n m : Nat)
    (d : List Delivery × Option Line) : LoopEnd → Prop
  | returned (whole : d.2 = none) (count : d.1.length = n) : LoopsEnd chans s n m d .returned
  | stuck {k : Nat} {e : LoopEnd} (last : m = k + 1)
      (reading : Stuck e (s.calls k).session.readLine.1) (count : d.1.length < n) :
      LoopsEnd chans s n m d e
  | crashed {ds : List Delivery} {l : Line} (last : d = (ds ++ [.line l], none))
      (crash : processLine (chans ds.length) l = none) (count : ds.length < n) :
      LoopsEnd chans s n m d .crashed

theorem LoopsEnd.succ {chans : Nat → ATChannel} {s : Session} {n m : Nat}
    {d : List Delivery × Option Line} {e : LoopEnd} (h : LoopsEnd chans s n m d e)
    (hend : e ≠ .returned) : LoopsEnd chans s (n + 1) m d e := by
  cases h with
  | returned => exact absurd rfl hend
  | stuck last reading count => exact .stuck last reading (Nat.lt_succ_of_lt count)
  | crashed last crash count => exact .crashed last crash (Nat.lt_succ_of_lt count)

structure Delivered (chans : Nat → ATChannel) (r : PtrReader) (m : Nat)
    (d : List Delivery × Option Line) (r' : PtrReader) : Prop where
  session : r'.reader.session = (r.reader.session.calls m).session
  lines : deliver (r.reader.session.calls m).returned = d
  calls : r'.calls = r.calls ++ deliveryCalls chans d

section Turn

variable {chans : Nat → ATChannel} {r r' : PtrReader} {ds : List Delivery} {m : Nat}

/-- The turns of a reader on `r` whose reads do not fail: how they end, what they
leave, and the calls they add. -/
inductive Turn (r : Reader) : LoopEnd → Session → List LineCall → Prop
  | line {l : Line} {e : LoopEnd} (first : r.session.readLine.1 = .line l)
      (alone : isSMSUnsolicited l = false)
      (ends : e = .returned ∨ e = .crashed ∧ processLine r.chan l = none) :
      Turn r e r.session.readLine.2 ((Delivery.line l).calls r.chan)
  | pair {line1 line2 : Line} (first : r.session.readLine.1 = .line line1)
      (sms : isSMSUnsolicited line1 = true)
      (second : r.session.readLine.2.readLine.1 = .line line2) :
      Turn r .returned r.session.readLine.2.readLine.2 ((Delivery.pair line1 line2).calls r.chan)
  | half {l : Line} {e : LoopEnd} (first : r.session.readLine.1 = .line l)
      (sms : isSMSUnsolicited l = true)
      (second : Stuck e r.session.readLine.2.readLine.1) :
      Turn r e r.session.readLine.2.readLine.2 [.isSMSUnsolicited (some l)]
  | none {e : LoopEnd} (first : Stuck e r.session.readLine.1) :
      Turn r e r.session.readLine.2 []

theorem turn_of_sms {r : Reader} {l : Line} (hfirst : r.session.readLine.1 = .line l)
    (hsms : isSMSUnsolicited l = true) (hcause : causes r.session.readLine.2.readLine.1 = []) :
    Turn r r.readerLoop.1 r.readerLoop.2.session (turnCalls r) := by
  have hcalls : turnCalls r =
      .isSMSUnsolicited (some l) :: pairCalls r.chan l r.session.readLine.2.readLine.1 := by
    simp only [turnCalls, hfirst, if_pos hsms]
  have hturn : r.readerLoop =
      Reader.processUnsolLine { r with session := r.session.readLine.2 } l := by
    simp only [Reader.readerLoop, hfirst, if_pos hsms]
  rw [hcalls, hturn, Reader.processUnsolLine]
  cases hsecond : r.session.readLine.2.readLine.1 with
  | line line2 =>
      have hturn := Turn.pair hfirst hsms hsecond
      by_cases hhandler : r.chan.unsolHandler = true <;>
        simpa [Delivery.calls, pairCalls, hhandler] using hturn
  | null cause => simp [hsecond, causes] at hcause
  | waiting => exact .half hfirst hsms (by rw [hsecond]; exact .waiting)
  | fault => exact .half hfirst hsms (by rw [hsecond]; exact .fault)

theorem turn_cases {r : Reader} (hquiet : Undisturbed r.session) :
    Turn r r.readerLoop.1 r.readerLoop.2.session (turnCalls r) := by
  obtain ⟨hquiet₁, hcause₁⟩ := readLine_undisturbed hquiet
  cases hfirst : r.session.readLine.1 with
  | line l =>
      by_cases hsms : isSMSUnsolicited l = true
      · exact turn_of_sms hfirst hsms (readLine_undisturbed hquiet₁).2
      · have hturn : ∀ e, (e = .returned ∨ e = .crashed ∧ processLine r.chan l = none) →
            Turn r e r.session.readLine.2 (turnCalls r) := by
          intro e hends
          simp only [turnCalls, hfirst, if_neg hsms]
          exact .line hfirst (by simpa using hsms) hends
        simp only [Reader.readerLoop, hfirst, if_neg hsms]
        cases hline : processLine r.chan l with
        | none => exact hturn _ (.inr ⟨rfl, hline⟩)
        | some ch => exact hturn _ (.inl rfl)
  | null cause => simp [hfirst, causes] at hcause₁
  | waiting =>
      simp only [Reader.readerLoop, turnCalls, hfirst]
      exact .none (by rw [hfirst]; exact .waiting)
  | fault =>
      simp only [Reader.readerLoop, turnCalls, hfirst]
      exact .none (by rw [hfirst]; exact .fault)

theorem deliver_calls {s s' : Session} {d : List Delivery × Option Line}
    (hsession : s' = (s.calls m).session) (hd : deliver (s.calls m).returned = d) :
    s'.readLine.2 = (s.calls (m + 1)).session ∧
      deliver (s.calls (m + 1)).returned = s'.readLine.1.lines.foldl deliverNext d := by
  subst hsession hd
  exact ⟨rfl, by simp [deliver, Session.calls]⟩

/-- One turn without a failed read, from a state in which every line so far has
been handed on. -/
theorem Delivered.turn (h : Delivered chans r m (ds, none) r')
    (hquiet : Undisturbed r'.reader.session) (hch : r'.reader.chan = chans ds.length) :
    ∃ m' d, Delivered chans r m' d r'.readerLoop.2 ∧
      Undisturbed r'.readerLoop.2.reader.session ∧
      LoopsEnd chans r.reader.session (ds.length + 1) m' d r'.readerLoop.1 := by
  obtain ⟨hsession, hdeliver, hlog⟩ := h
  obtain ⟨hs₁, hd₁⟩ := deliver_calls hsession hdeliver
  obtain ⟨hs₂, hd₂⟩ := deliver_calls hs₁ hd₁
  have hquiet₁ := (readLine_undisturbed hquiet).1
  have hquiet₂ := (readLine_undisturbed hquiet₁).1
  have hturn := turn_cases hquiet
  have hcalls := readerLoop_calls r'
  obtain ⟨hend, hreader⟩ := readerLoop_eq r'
  rw [← hend, ← hreader] at hturn
  rw [hlog, List.append_assoc] at hcalls
  generalize turnCalls r'.reader = calls at hturn hcalls
  generalize hlast : r'.readerLoop.2.reader.session = s' at hturn ⊢
  generalize r'.readerLoop.1 = e at hturn ⊢
  cases hturn with
  | @line l _ first alone ends =>
      rw [first] at hd₁
      refine ⟨m + 1, (ds ++ [.line l], none), ⟨hlast.trans hs₁, ?_, ?_⟩, hquiet₁, ?_⟩
      · simpa [OutcomeOf.lines, deliverNext, alone] using hd₁
      · rw [hcalls, deliveryCalls_snoc, hch]
      · rcases ends with rfl | ⟨rfl, hcrash⟩
        · exact .returned rfl (by simp)
        · exact .crashed rfl (hch ▸ hcrash) (Nat.lt_succ_self _)
  | @pair line1 line2 first sms second =>
      rw [first, second] at hd₂
      refine ⟨m + 2, (ds ++ [.pair line1 line2], none), ⟨hlast.trans hs₂, ?_, ?_⟩, hquiet₂,
        .returned rfl (by simp)⟩
      · simpa [OutcomeOf.lines, deliverNext, sms] using hd₂
      · rw [hcalls, deliveryCalls_snoc, hch]
  | @half l _ first sms second =>
      rw [first, second.no_lines] at hd₂
      refine ⟨m + 2, (ds, some l), ⟨hlast.trans hs₂, ?_, ?_⟩, hquiet₂,
        .stuck rfl (hs₁ ▸ second) (Nat.lt_succ_self _)⟩
      · simpa [OutcomeOf.lines, deliverNext, sms] using hd₂
      · rw [hcalls]
        simp [deliveryCalls]
  | none first =>
      rw [first.no_lines] at hd₁
      exact ⟨m + 1, (ds, .none), ⟨hlast.trans hs₁, hd₁, by simpa using hcalls⟩, hquiet₁,
        .stuck rfl (hsession ▸ first) (Nat.lt_succ_self _)⟩

end Turn

theorem loops_delivered (chans : Nat → ATChannel) {r : PtrReader}
    (hquiet : Undisturbed r.reader.session) (n : Nat) :
    ∃ m d, Delivered chans r m d (r.loops chans n).2 ∧
      Undisturbed (r.loops chans n).2.reader.session ∧
      LoopsEnd chans r.reader.session n m d (r.loops chans n).1 := by
  induction n with
  | zero =>
      exact ⟨0, ([], none), ⟨rfl, rfl, by simp [PtrReader.loops, deliveryCalls]⟩, hquiet,
        .returned rfl rfl⟩
  | succ n ih =>
      obtain ⟨m, d, hd, hundisturbed, hends⟩ := ih
      rw [PtrReader.loops]
      by_cases hend : (r.loops chans n).1 = .returned
      · rw [if_pos hend]
        rw [hend] at hends
        cases hends with
        | returned whole count =>
            obtain ⟨ds, pending⟩ := d
            simp only at whole count
            subst whole count
            exact Delivered.turn ⟨hd.session, hd.lines, hd.calls⟩ hundisturbed rfl
        | stuck last reading => nomatch reading
      · rw [if_neg hend]
        exact ⟨m, d, hd, hundisturbed, hends.succ hend⟩

/-- Every line that `ReadLine` delivers in a run without a failed read is handed on
once and in order: a notification with the line behind it, whatever that one says,
in one call of `unsol_handler_`, and every other line to `ProcessLine`.  Each call of
`ReaderLoop` that returns makes one delivery, and one that waits has found no further
line in the reads to come. -/
theorem lines_handed_on (chans : Nat → ATChannel) (r : PtrReader)
    (hquiet : Undisturbed r.reader.session) (n : Nat) :
    ∃ m, (r.loops chans n).2.reader.session = (r.reader.session.calls m).session ∧
      (r.loops chans n).2.calls =
        r.calls ++ deliveryCalls chans (deliver (r.reader.session.calls m).returned) ∧
      LoopsEnd chans r.reader.session n m (deliver (r.reader.session.calls m).returned)
        (r.loops chans n).1 ∧
      ((r.loops chans n).1 = .waiting → (r.loops chans n).2.reader.session.events = []) := by
  obtain ⟨m, d, ⟨hsession, rfl, hcalls⟩, -, hends⟩ := loops_delivered chans hquiet n
  refine ⟨m, hsession, hcalls, hends, ?_⟩
  intro hwaiting
  rw [hwaiting] at hends
  cases hends with
  | @stuck k _ last reading =>
      rw [hsession, last]
      generalize hread : (r.reader.session.calls k).session.readLine.1 = o at reading
      cases reading with
      | waiting => exact readLine_waiting hread

def cmtReader : PtrReader :=
  ptrReader (.opened 3 []) (text "+CMT: 1\x0d\x0aOK\x0d\x0a") [.data 9, .data 4]

theorem lines_handed_on_cmt :
    Undisturbed cmtReader.reader.session ∧
      ∃ m, (cmtReader.loops (fun _ => .opened 3 []) 2).2.calls =
          deliveryCalls (fun _ => .opened 3 [])
            (deliver (cmtReader.reader.session.calls m).returned) ∧
        LoopsEnd (fun _ => .opened 3 []) cmtReader.reader.session 2 m
          (deliver (cmtReader.reader.session.calls m).returned) .waiting := by
  have hquiet : Undisturbed cmtReader.reader.session := by
    unfold Undisturbed
    decide
  have hwaiting : (cmtReader.loops (fun _ => .opened 3 []) 2).1 = .waiting := by
    decide +kernel
  obtain ⟨m, -, hcalls, hends, -⟩ := lines_handed_on (fun _ => .opened 3 []) cmtReader hquiet 2
  rw [hwaiting] at hends
  exact ⟨hquiet, m, hcalls, hends⟩

example : (cmtReader.loops (fun _ => .opened 3 []) 1).2.calls =
    [.isSMSUnsolicited (some (text "+CMT: 1")),
      .unsolHandler (some (text "+CMT: 1")) (some (text "OK"))] := by
  decide +kernel

end Mobile.Channel.Proofs.Handover
