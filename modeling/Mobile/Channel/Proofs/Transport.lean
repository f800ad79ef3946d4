import Mobile.Channel.Proofs.Handover
import Mobile.Channel.Proofs.Reassembly

/-!
# From the wire to the channel

What a run of the reader does to the channel is a function of the byte stream: the
lines of the stream, notifications paired with the line behind them, handled one
after another, however the bytes arrive.
-/

namespace Mobile.Channel.Proofs.Transport

open Mobile.ProofSupport.Lines Mobile.Token.Scan Mobile.Channel.ReadLine
open Mobile.Channel.Types Mobile.Channel.ProcessLine Mobile.Channel.ReaderLoop
open Mobile.Channel.Proofs.Log Mobile.Channel.Proofs.Closing Mobile.Channel.Proofs.Handover
open Mobile.Channel.Proofs.Reassembly

def handle (ch : ATChannel) : Delivery → Option ATChannel
  | .line l => processLine ch l
  | .pair line1 line2 =>
    some (if ch.unsolHandler then ch.log (.unsolHandler line1 (some line2)) else ch)

def deliveries (stream : List UInt8) : List Delivery :=
  (deliver (completeLines isEol stream)).1

/-! ## One turn -/

theorem handle_readClosed {ch ch' : ATChannel} {d : Delivery} (h : handle ch d = some ch') :
    ch'.readClosed = ch.readClosed := by
  cases d with
  | line l => exact (processLine_served h).readClosed
  | pair line1 line2 =>
      cases h
      split <;> rfl

theorem processUnsolLine_returned {r r' : Reader} {line1 : Line} (hquiet : Undisturbed r.session)
    (h : r.processUnsolLine line1 = (.returned, r')) :
    ∃ line2, r.session.readLine.1 = .line line2 ∧
      handle r.chan (.pair line1 line2) = some r'.chan ∧ r'.session = r.session.readLine.2 := by
  unfold Reader.processUnsolLine at h
  cases hsecond : r.session.readLine.1 with
  | line line2 =>
      rw [hsecond] at h
      refine ⟨line2, rfl, ?_⟩
      by_cases hhandler : r.chan.unsolHandler = true
      · simp only [hhandler, if_true] at h
        cases h
        simp [handle, hhandler]
      · simp only [hhandler] at h
        cases h
        simp [handle, hhandler]
  | null cause =>
      have hcauses := (readLine_undisturbed hquiet).2
      rw [hsecond] at hcauses
      simp [causes] at hcauses
  | waiting => rw [hsecond] at h; cases h
  | fault => rw [hsecond] at h; cases h

theorem readerLoop_returned {r r' : Reader} (hquiet : Undisturbed r.session)
    (h : r.readerLoop = (.returned, r')) :
    (∃ l, r.session.readLine.1 = .line l ∧ isSMSUnsolicited l = false ∧
      handle r.chan (.line l) = some r'.chan ∧ r'.session = r.session.readLine.2) ∨
    ∃ line1 line2, r.session.readLine.1 = .line line1 ∧ isSMSUnsolicited line1 = true ∧
      r.session.readLine.2.readLine.1 = .line line2 ∧
      handle r.chan (.pair line1 line2) = some r'.chan ∧
      r'.session = r.session.readLine.2.readLine.2 := by
  unfold Reader.readerLoop at h
  cases hfirst : r.session.readLine.1 with
  | line l =>
      rw [hfirst] at h
      by_cases hsms : isSMSUnsolicited l = true
      · simp only [hsms, if_true] at h
        right
        obtain ⟨line2, hsecond, hpair, hsession⟩ :=
          processUnsolLine_returned (readLine_undisturbed hquiet).1 h
        exact ⟨l, line2, rfl, hsms, hsecond, hpair, hsession⟩
      · simp only [hsms] at h
        left
        refine ⟨l, rfl, by simpa using hsms, ?_⟩
        cases hline : processLine r.chan l with
        | none => simp [hline] at h
        | some ch =>
            simp only [hline] at h
            cases h
            exact ⟨hline, rfl⟩
  | null cause => rw [hfirst] at h; cases h
  | waiting => rw [hfirst] at h; cases h
  | fault => rw [hfirst] at h; cases h

/-! ## A run -/

theorem deliver_append (ls more : List Line) :
    deliver (ls ++ more) = more.foldl deliverNext (deliver ls) :=
  List.foldl_append

theorem deliver_snoc (ls : List Line) (l : Line) :
    deliver (ls ++ [l]) = deliverNext (deliver ls) l := by
  rw [deliver_append]
  rfl

theorem foldl_deliverNext_prefix (d : List Delivery × Option Line) (ls : List Line) :
    d.1 <+: (ls.foldl deliverNext d).1 := by
  induction ls generalizing d with
  | nil => exact List.prefix_rfl
  | cons l ls ih =>
      refine List.IsPrefix.trans ?_ (ih (deliverNext d l))
      obtain ⟨ds, line1⟩ := d
      cases line1 with
      | some line1 => exact List.prefix_append _ _
      | none =>
          by_cases hsms : isSMSUnsolicited l = true <;> simp [deliverNext, hsms]

structure Handled (ch : ATChannel) (s : Session) (n : Nat) (r : Reader) : Prop where
  lines : ∃ m ds, r.session = (s.calls m).session ∧
    deliver (s.calls m).returned = (ds, none) ∧ ds.length = n ∧
    ds.foldlM handle ch = some r.chan
  quiet : Undisturbed r.session
  opened : r.chan.readClosed = false

theorem foldlM_snoc {ch ch₁ ch₂ : ATChannel} {ds : List Delivery} {d : Delivery}
    (h : ds.foldlM handle ch = some ch₁) (hlast : handle ch₁ d = some ch₂) :
    (ds ++ [d]).foldlM handle ch = some ch₂ := by
  rw [List.foldlM_append, h]
  simpa using hlast

theorem Handled.turn {ch : ATChannel} {s : Session} {n : Nat} {r r' : Reader}
    (h : Handled ch s n r) (hturn : r.readerLoop = (.returned, r')) :
    Handled ch s (n + 1) r' := by
  obtain ⟨m, ds, hsession, hdeliver, hlen, hfold⟩ := h.lines
  have hquiet₁ := (readLine_undisturbed h.quiet).1
  have hcalls₁ : (s.calls (m + 1)).session = r.session.readLine.2 := by rw [hsession]; rfl
  have hlines₁ : (s.calls (m + 1)).returned =
      (s.calls m).returned ++ r.session.readLine.1.lines := by rw [hsession]; rfl
  obtain ⟨l, hl, hsms, hhandle, hnext⟩ | ⟨line1, line2, hl₁, hsms, hl₂, hhandle, hnext⟩ :=
    readerLoop_returned h.quiet hturn
  · refine ⟨⟨m + 1, ds ++ [.line l], by rw [hnext, hcalls₁], ?_, by simp [hlen],
      foldlM_snoc hfold hhandle⟩, by rwa [hnext], ?_⟩
    · rw [hlines₁, hl, OutcomeOf.lines, deliver_snoc, hdeliver]
      simp [deliverNext, hsms]
    · rw [handle_readClosed hhandle, h.opened]
  · have hcalls₂ : (s.calls (m + 2)).session = r.session.readLine.2.readLine.2 := by
      rw [← hcalls₁]
      rfl
    have hlines₂ : (s.calls (m + 2)).returned =
        (s.calls (m + 1)).returned ++ r.session.readLine.2.readLine.1.lines := by
      rw [← hcalls₁]
      rfl
    refine ⟨⟨m + 2, ds ++ [.pair line1 line2], by rw [hnext, hcalls₂], ?_, by simp [hlen],
      foldlM_snoc hfold hhandle⟩, by rw [hnext]; exact (readLine_undisturbed hquiet₁).1, ?_⟩
    · rw [hlines₂, hl₂, hlines₁, hl₁, OutcomeOf.lines, OutcomeOf.lines, deliver_snoc, deliver_snoc,
        hdeliver]
      simp [deliverNext, hsms]
    · rw [handle_readClosed hhandle, h.opened]

theorem loops_handled {ch : ATChannel} {s : Session} (hopen : ch.readClosed = false)
    (hquiet : Undisturbed s) {n : Nat}
    (hreturned : ((⟨ch, s, []⟩ : Reader).loops n).1 = .returned) :
    Handled ch s n ((⟨ch, s, []⟩ : Reader).loops n).2 := by
  induction n with
  | zero => exact ⟨⟨0, [], rfl, rfl, rfl, rfl⟩, hquiet, hopen⟩
  | succ n ih =>
      rw [Reader.loops] at hreturned ⊢
      generalize hprev : (⟨ch, s, []⟩ : Reader).loops n = prev at hreturned ih ⊢
      by_cases hgo : prev.1 = .returned ∧ prev.2.chan.readClosed = false
      · simp only [if_pos hgo] at hreturned ⊢
        exact (ih hgo.1).turn (Prod.ext hreturned rfl)
      · simp only [if_neg hgo] at hreturned
        exact absurd ⟨hreturned, (ih hreturned).opened⟩ hgo

/-- The channel after `n` turns of the reader is the channel that has handled the first
`n` deliveries of the stream, whatever the reads brought at a time. -/
theorem reader_handles_stream (ch : ATChannel) (stream : List UInt8) (events : List ReadEvent)
    (n : Nat) (hnul : (0 : UInt8) ∉ stream) (hprompt : NoPromptLine stream)
    (hfit : LinesFit stream) (hquiet : ∀ ev ∈ events, stopping ev = false)
    (hopen : ch.readClosed = false)
    (hreturned : ((⟨ch, .start stream events, []⟩ : Reader).loops n).1 = .returned) :
    n ≤ (deliveries stream).length ∧
      ((deliveries stream).take n).foldlM handle ch =
        some ((⟨ch, .start stream events, []⟩ : Reader).loops n).2.chan := by
  have hhandled := loops_handled hopen (s := .start stream events) hquiet hreturned
  obtain ⟨m, ds, -, hdeliver, hlen, hfold⟩ := hhandled.lines
  obtain ⟨data, hbetween⟩ := between_calls hnul hprompt hfit events m
  have hlines := hbetween.lines ((Session.start stream events).calls m).session.wire
  rw [hbetween.whole] at hlines
  have hprefix : ds <+: deliveries stream := by
    rw [deliveries, hlines, deliver_append, hdeliver]
    exact foldl_deliverNext_prefix (ds, none) _
  have htake : (deliveries stream).take n = ds := by
    rw [← hlen]
    exact (List.prefix_iff_eq_take.1 hprefix).symm
  exact ⟨hlen ▸ hprefix.length_le, by rw [htake, hfold]⟩

/-- A notification and a line, cut inside the message. -/
theorem reader_handles_stream_cmt :
    ((deliveries (text "+CMT: 1\r\nOK\r\nRING\r\n")).take 2).foldlM handle (.opened 3 []) =
      some ((⟨.opened 3 [], .start (text "+CMT: 1\r\nOK\r\nRING\r\n")
        [.data 10, .data 3, .error .eintr, .data 90], []⟩ : Reader).loops 2).2.chan :=
  (reader_handles_stream (.opened 3 []) (text "+CMT: 1\r\nOK\r\nRING\r\n")
    [.data 10, .data 3, .error .eintr, .data 90] 2 (by decide)
    (noPromptLine_of_not_mem (by decide)) (linesFit_of_length_le (by decide)) (by decide) rfl
    (by decide +kernel)).2

end Mobile.Channel.Proofs.Transport
