import Mobile.Channel.Proofs.ReadLineSpec
import Mobile.ProofSupport.Lines

/-!
# Line reassembly

For streams without NUL bytes, prompts and overlong lines, the lines `ReadLine`
returns are the complete lines of the stream, however the bytes arrive.  The
invariant relates three lists: for every continuation, the complete lines of the
received bytes are the returned lines followed by those of the unread bytes.
-/

namespace Mobile.Channel.Proofs.Reassembly

open Mobile.ProofSupport.Lines Mobile.Token.Scan Mobile.Channel.ReadLine
open Mobile.Channel.Proofs.ReadLineSpec
open Relation

def AtLineStart (pre : List UInt8) : Prop := ∀ c ∈ pre.getLast?, isEol c = true

def NoPromptLine (stream : List UInt8) : Prop :=
  ∀ pre post, stream = pre ++ (smsPrompt ++ post) → ¬AtLineStart pre

/-- A run of CR/LF bytes and the line right behind it leave room for one more
byte in the buffer. -/
def LinesFit (stream : List UInt8) : Prop :=
  ∀ pre nl l post, stream = pre ++ nl ++ l ++ post → (∀ c ∈ nl, isEol c = true) →
    l ≠ [] → (∀ c ∈ l, isEol c = false) → nl.length + l.length ≤ maxAtResponse - 1

theorem AtLineStart.append {pre nl : List UInt8} (h : AtLineStart pre)
    (hnl : ∀ c ∈ nl, isEol c = true) : AtLineStart (pre ++ nl) := by
  intro c hc
  rw [List.getLast?_append] at hc
  cases hlast : nl.getLast? with
  | none => exact h c (by simpa [hlast] using hc)
  | some d =>
      have hd : d = c := by simpa [hlast] using hc
      exact hnl c (hd ▸ List.mem_of_getLast? hlast)

theorem atLineStart_concat (pre : List UInt8) {c : UInt8} (hc : isEol c = true) :
    AtLineStart (pre ++ [c]) := by
  intro d hd
  simp only [List.getLast?_append, List.getLast?_singleton, Option.some_or,
    Option.mem_def, Option.some.injEq] at hd
  exact hd ▸ hc

theorem takeWhile_isEol (data : List UInt8) : ∀ c ∈ data.takeWhile isEol, isEol c = true :=
  List.all_eq_true.mp List.all_takeWhile

structure Collecting (returned : List Line) (v : View) : Prop where
  split : ∃ pre nl, v.received = pre ++ nl ++ v.pending ∧ AtLineStart pre ∧
    (∀ c ∈ nl, isEol c = true) ∧ nl.length = v.skipped
  lines : ∀ more, completeLines isEol (v.received ++ more) =
    returned ++ completeLines isEol (v.pending ++ more)

theorem takeWhile_append_of_pending {p : List UInt8} (chunk : List UInt8)
    (hp : ∀ c ∈ p, isEol c = false) :
    (p ++ chunk).takeWhile isEol = (if p = [] then chunk.takeWhile isEol else []) ∧
      (p ++ chunk).dropWhile isEol =
        (if p = [] then chunk.dropWhile isEol else p ++ chunk) := by
  cases p with
  | nil => simp
  | cons c p =>
      have hc : isEol c = false := hp c (by simp)
      simp [hc]

/-- One round of the loop keeps `Collecting`; only newline bytes are thrown away. -/
theorem Collecting.step {stream : List UInt8} (hfit : LinesFit stream)
    {returned : List Line} {v w : View} (h : Collecting returned v) (hstep : ReadStep v w)
    (hw : w.received <+: stream) : Collecting returned w := by
  obtain ⟨pre, nl, hrec, hpre, hnl, hlen⟩ := h.split
  cases hstep with
  | @receive chunk hnone _ =>
      have hp := (nextEol_eq_none.mp hnone).2
      obtain ⟨htake, hdrop⟩ := takeWhile_append_of_pending chunk hp
      constructor
      · by_cases hnil : v.pending = []
        · rw [if_pos hnil] at htake hdrop
          refine ⟨pre, nl ++ chunk.takeWhile isEol, ?_, hpre, ?_, ?_⟩
          · change v.received ++ chunk = pre ++ (nl ++ chunk.takeWhile isEol) ++
              (v.pending ++ chunk).dropWhile isEol
            rw [hdrop, hrec, hnil]
            simp
          · intro c hc
            rcases List.mem_append.mp hc with hc | hc
            · exact hnl c hc
            · exact takeWhile_isEol chunk c hc
          · simp only [List.length_append, hlen, htake]
        · rw [if_neg hnil] at htake hdrop
          exact ⟨pre, nl, by simp [hdrop, hrec], hpre, hnl, by simp [htake, hlen]⟩
      · intro more
        rw [List.append_assoc, h.lines, completeLines_dropWhile, List.append_assoc]
  | discard hnone hfull =>
      -- a full buffer without a line end holds newline bytes only
      have hnil : v.pending = [] := by
        by_contra hne
        obtain ⟨post, hpost⟩ := hw
        have hstream : stream = pre ++ nl ++ v.pending ++ post := by
          rw [← hpost, ← hrec]
        have hle := hfit pre nl v.pending post hstream hnl hne (nextEol_eq_none.mp hnone).2
        simp only [maxAtResponse] at hle hfull
        omega
      constructor
      · exact ⟨pre ++ nl, [], by simp [hrec, hnil], hpre.append hnl, by simp, rfl⟩
      · intro more
        rw [h.lines, hnil]

theorem Collecting.steps {stream : List UInt8} (hfit : LinesFit stream)
    {returned : List Line} {v w : View} (h : Collecting returned v)
    (hsteps : ReflTransGen ReadStep v w) (hw : w.received <+: stream) :
    Collecting returned w := by
  induction hsteps with
  | refl => exact h
  | tail _ hstep ih => exact (ih (hstep.received_grows.trans hw)).step hfit hstep hw

structure Between (stream : List UInt8) (r : Calls) (data : List UInt8) : Prop where
  holds : Holds r.session.buffer data
  scanned : smsPrompt ∉ r.session.scanned
  whole : r.session.received ++ r.session.wire = stream
  split : ∃ pre, r.session.received = pre ++ data ∧ AtLineStart pre
  lines : ∀ more, completeLines isEol (r.session.received ++ more) =
    r.returned ++ completeLines isEol (data ++ more)
  null : ∀ cause, r.last = some (.null cause) → completeLines isEol data = []
  no_fault : r.last ≠ some .fault

section Stream

variable {stream : List UInt8} (hnul : (0 : UInt8) ∉ stream) (hprompt : NoPromptLine stream)
  (hfit : LinesFit stream)

include hnul hprompt hfit

theorem Between.call {s : Session} {n : Nat} {data : List UInt8}
    (h : Between stream (s.calls n) data) :
    ∃ data', Between stream (s.calls (n + 1)) data' := by
  have hwire : (0 : UInt8) ∉ (s.calls n).session.wire := fun h0 =>
    hnul (by rw [← h.whole]; simp [h0])
  obtain ⟨v, hsteps, hends, hrec, hwhole⟩ := readLine_spec h.holds hwire h.scanned
  rw [h.whole] at hwhole
  obtain ⟨pre, hpre, hstart⟩ := h.split
  have hbegin : Collecting (s.calls n).returned
      ⟨(s.calls n).session.received, data.dropWhile isEol, 0⟩ := by
    constructor
    · refine ⟨pre ++ data.takeWhile isEol, [], ?_, hstart.append (takeWhile_isEol data),
        by simp, rfl⟩
      simp [hpre]
    · intro more
      rw [h.lines, completeLines_dropWhile]
  have hprefix : v.received <+: stream := ⟨_, by rw [← hrec]; exact hwhole⟩
  have hcoll := hbegin.steps hfit hsteps hprefix
  obtain ⟨pre', nl, hsplit, hpre', hnl, -⟩ := hcoll.split
  have hlineStart := hpre'.append hnl
  simp only [Session.calls]
  generalize (s.calls n).session.readLine = r at hends hrec hwhole ⊢
  obtain ⟨o, s'⟩ := r
  simp only at hends hrec hwhole ⊢
  cases hends with
  | @line l rest c hpending hne hl hc hholds hscan =>
      refine ⟨rest, hholds, hscan, hwhole, ⟨pre' ++ nl ++ (l ++ [c]), ?_, ?_⟩, ?_,
        by simp, by simp⟩
      · simp [hrec, hsplit, hpending]
      · rw [← List.append_assoc]
        exact atLineStart_concat _ hc
      · intro more
        simp only [hrec, OutcomeOf.lines]
        rw [hcoll.lines, hpending, List.append_assoc, List.cons_append,
          completeLines_line hne hl hc]
        simp
  | prompt hpending _ _ =>
      -- the prompt would begin a line of the stream
      obtain ⟨post, hpost⟩ := hprefix
      exact absurd hlineStart (hprompt _ post (by
        rw [← hpost, hsplit, hpending, List.append_assoc]))
  | null hnone hholds hscan =>
      refine ⟨v.pending, hholds, hscan, hwhole, ⟨pre' ++ nl, by rw [hrec]; exact hsplit,
        hlineStart⟩, ?_, ?_, by simp⟩
      · intro more
        simp only [hrec, OutcomeOf.lines, List.append_nil]
        exact hcoll.lines more
      · intro _ _
        exact completeLines_eq_nil (nextEol_eq_none.mp hnone).2
  | waiting hnone hholds hscan =>
      refine ⟨v.pending, hholds, hscan, hwhole, ⟨pre' ++ nl, by rw [hrec]; exact hsplit,
        hlineStart⟩, ?_, by simp, by simp⟩
      intro more
      simp only [hrec, OutcomeOf.lines, List.append_nil]
      exact hcoll.lines more

theorem between_calls (events : List ReadEvent) (n : Nat) :
    ∃ data, Between stream ((Session.start stream events).calls n) data := by
  induction n with
  | zero =>
      refine ⟨[], Holds.initial, by simp [Session.calls, Session.start], rfl,
        ⟨[], rfl, by simp [AtLineStart]⟩, ?_, by simp [Session.calls],
        by simp [Session.calls]⟩
      intro more
      simp [Session.calls, Session.start]
  | succ n ih =>
      obtain ⟨data, hdata⟩ := ih
      exact hdata.call hnul hprompt hfit

end Stream

/-- Line reassembly does not depend on how the bytes arrive: after any number of
calls the returned lines are a prefix of the complete lines of the stream, and
after a null result they are all complete lines of the bytes received so far. -/
theorem returned_eq_completeLines (stream : List UInt8) (events : List ReadEvent) (n : Nat)
    (hnul : (0 : UInt8) ∉ stream) (hprompt : NoPromptLine stream) (hfit : LinesFit stream) :
    let r := (Session.start stream events).calls n
    r.returned <+: completeLines isEol stream ∧ r.session.received <+: stream ∧
      (∀ cause, r.last = some (.null cause) →
        r.returned = completeLines isEol r.session.received) ∧
      r.last ≠ some .fault := by
  obtain ⟨data, h⟩ := between_calls hnul hprompt hfit events n
  refine ⟨?_, ⟨_, h.whole⟩, ?_, h.no_fault⟩
  · have hlines := h.lines ((Session.start stream events).calls n).session.wire
    rw [h.whole] at hlines
    exact ⟨_, hlines.symm⟩
  · intro cause hcause
    have hlines := h.lines []
    simpa [h.null cause hcause] using hlines.symm

theorem linesFit_of_length_le {stream : List UInt8}
    (h : stream.length ≤ maxAtResponse - 1) : LinesFit stream := by
  intro pre nl l post hstream _ _ _
  have hlen := congrArg List.length hstream
  simp only [List.length_append] at hlen
  omega

theorem noPromptLine_of_not_mem {stream : List UInt8} (h : (0x3e : UInt8) ∉ stream) :
    NoPromptLine stream := by
  rintro pre post rfl _
  exact h (by simp [smsPrompt])

/-- `"\r\nOK\r\nRI"`, cut inside the CR LF pairs and the first line, with a failing
read in between. -/
theorem returned_eq_completeLines_cut :
    ∃ r, r = (Session.start [0x0d, 0x0a, 0x4f, 0x4b, 0x0d, 0x0a, 0x52, 0x49]
        [.data 3, .error .eagain, .data 2, .data 9, .eof]).calls 3 ∧
      r.last = some (.null .eof) ∧ r.returned = [[0x4f, 0x4b]] ∧
      r.returned = completeLines isEol r.session.received := by
  obtain ⟨-, -, hnull, -⟩ := returned_eq_completeLines
    [0x0d, 0x0a, 0x4f, 0x4b, 0x0d, 0x0a, 0x52, 0x49]
    [.data 3, .error .eagain, .data 2, .data 9, .eof] 3 (by decide)
    (noPromptLine_of_not_mem (by decide)) (linesFit_of_length_le (by decide))
  exact ⟨_, rfl, by decide +kernel, by decide +kernel, hnull .eof (by decide +kernel)⟩

end Mobile.Channel.Proofs.Reassembly
