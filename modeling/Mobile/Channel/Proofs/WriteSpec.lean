import Mobile.Channel.WriteLine

/-!
# What a line write does

`WriteLine` touches nothing of the channel but the script and the log, and it
reports success exactly when the channel is open and no `write()` it made failed
for another reason than `EINTR`.
-/

namespace Mobile.Channel.Proofs.WriteSpec

open Mobile.Token.Scan Mobile.Channel.ReadLine Mobile.Channel.Types Mobile.Channel.WriteLine

def hardFailure : WriteResult → Bool
  | .wrote _ => false
  | .failed .eintr => false
  | .failed _ => true

/-- `ch'` is `ch` after the `write()` calls `sent`: their results and the bytes
they took. -/
def Wrote (ch ch' : ATChannel) (sent : List (WriteResult × Line)) : Prop :=
  ∃ writes, ch' = { ch with
    writes := writes, events := ch.events ++ sent.map fun p => .write p.1 p.2 }

theorem Wrote.log_cons {ch ch' : ATChannel} {r : WriteResult} {b : Line}
    {sent : List (WriteResult × Line)} (h : Wrote (ch.log (.write r b)) ch' sent) :
    Wrote ch ch' ((r, b) :: sent) := by
  obtain ⟨writes, rfl⟩ := h
  exact ⟨writes, by simp [ATChannel.log]⟩

theorem Wrote.append {ch ch₁ ch₂ : ATChannel} {sent₁ sent₂ : List (WriteResult × Line)}
    (h₁ : Wrote ch ch₁ sent₁) (h₂ : Wrote ch₁ ch₂ sent₂) :
    Wrote ch ch₂ (sent₁ ++ sent₂) := by
  obtain ⟨writes₁, rfl⟩ := h₁
  obtain ⟨writes₂, rfl⟩ := h₂
  exact ⟨writes₂, by simp⟩

theorem writeText_hard (ch : ATChannel) {text : Line} {r : WriteResult}
    (rest : List WriteResult) (htext : text ≠ []) (hr : hardFailure r = true) :
    writeText ch text (r :: rest) =
      (false, { ch.log (.write r []) with writes := rest }) := by
  match r, hr with
  | .failed .eagain, _ | .failed .ewouldblock, _ | .failed (.other _), _ =>
      simp [writeText, htext]

theorem writeCtrl_hard (ch : ATChannel) (c : Line) {r : WriteResult}
    (rest : List WriteResult) (hr : hardFailure r = true) :
    writeCtrl ch c (r :: rest) =
      (false, { ch.log (.write r []) with writes := rest }) := by
  match r, hr with
  | .failed .eagain, _ | .failed .ewouldblock, _ | .failed (.other _), _ => rfl

def taken (sent : List (WriteResult × Line)) : Line := sent.flatMap Prod.snd

@[simp] theorem taken_nil : taken [] = [] := rfl

@[simp] theorem taken_cons (r : WriteResult) (b : Line) (sent : List (WriteResult × Line)) :
    taken ((r, b) :: sent) = b ++ taken sent := rfl

@[simp] theorem taken_append (sent sent' : List (WriteResult × Line)) :
    taken (sent ++ sent') = taken sent ++ taken sent' := List.flatMap_append

/-- The loop over the text takes it from the left, and all of it when it succeeds. -/
theorem writeText_spec (ch : ATChannel) (text : Line) (script : List WriteResult) :
    ∃ sent rest, Wrote ch (writeText ch text script).2 sent ∧ text = taken sent ++ rest ∧
      ((writeText ch text script).1 = true → rest = []) ∧
      ((writeText ch text script).1 = true ↔ ∀ p ∈ sent, hardFailure p.1 = false) := by
  induction script generalizing ch text with
  | nil =>
      by_cases htext : text = []
      · exact ⟨[], [], ⟨[], by simp [writeText, htext]⟩, by simp [htext], by simp,
          by simp [writeText, htext]⟩
      · refine ⟨[(.wrote text.length, text)], [], ⟨[], ?_⟩, by simp, by simp, ?_⟩
        · simp [writeText, htext, ATChannel.log]
        · simp [writeText, htext, hardFailure]
  | cons r script ih =>
      by_cases htext : text = []
      · exact ⟨[], [], ⟨r :: script, by simp [writeText, htext]⟩, by simp [htext], by simp,
          by simp [writeText, htext]⟩
      by_cases hr : hardFailure r = true
      · rw [writeText_hard ch script htext hr]
        exact ⟨[(r, [])], text, ⟨script, rfl⟩, rfl, by simp, by simp [hr]⟩
      cases r with
      | wrote count =>
          obtain ⟨sent, rest, hsent, hsplit, hrest, hok⟩ :=
            ih (ch.log (.write (.wrote count) (text.take count))) (text.drop count)
          refine ⟨(.wrote count, text.take count) :: sent, rest, ?_, ?_, ?_, ?_⟩
          · simpa [writeText, htext] using hsent.log_cons
          · rw [taken_cons, List.append_assoc, ← hsplit, List.take_append_drop]
          · simpa [writeText, htext] using hrest
          · simpa [writeText, htext, hardFailure] using hok
      | failed errno =>
          cases errno with
          | eintr =>
              obtain ⟨sent, rest, hsent, hsplit, hrest, hok⟩ :=
                ih (ch.log (.write (.failed .eintr) [])) text
              refine ⟨(.failed .eintr, []) :: sent, rest, ?_, hsplit, ?_, ?_⟩
              · simpa [writeText, htext] using hsent.log_cons
              · simpa [writeText, htext] using hrest
              · simpa [writeText, htext, hardFailure] using hok
          | _ => exact absurd rfl hr

theorem writeCtrl_spec (ch : ATChannel) (c : Line) (script : List WriteResult) :
    ∃ sent, Wrote ch (writeCtrl ch c script).2 sent ∧
      taken sent = (if (writeCtrl ch c script).1 then c else []) ∧
      ((writeCtrl ch c script).1 = true ↔ ∀ p ∈ sent, hardFailure p.1 = false) := by
  induction script generalizing ch with
  | nil =>
      exact ⟨[(.wrote 1, c)], ⟨[], rfl⟩, by simp [writeCtrl], by simp [writeCtrl, hardFailure]⟩
  | cons r rest ih =>
      by_cases hr : hardFailure r = true
      · rw [writeCtrl_hard ch c rest hr]
        exact ⟨[(r, [])], ⟨rest, rfl⟩, rfl, by simp [hr]⟩
      cases r with
      | wrote count =>
          cases count with
          | zero =>
              obtain ⟨sent, hsent, htaken, hok⟩ := ih (ch.log (.write (.wrote 0) []))
              refine ⟨(.wrote 0, []) :: sent, hsent.log_cons, htaken, ?_⟩
              simpa [writeCtrl, hardFailure] using hok
          | succ count =>
              exact ⟨[(.wrote (count + 1), c)], ⟨rest, rfl⟩, by simp [writeCtrl],
                by simp [writeCtrl, hardFailure]⟩
      | failed errno =>
          cases errno with
          | eintr =>
              obtain ⟨sent, hsent, htaken, hok⟩ := ih (ch.log (.write (.failed .eintr) []))
              refine ⟨(.failed .eintr, []) :: sent, hsent.log_cons, htaken, ?_⟩
              simpa [writeCtrl, hardFailure] using hok
          | _ => exact absurd rfl hr

/-- How a line write ends, with the bytes it has taken of the text and of the
terminator `c`. -/
inductive LineEnd (s c : Line) : Int → Line → Prop
  | success : LineEnd s c ATErrno.success.code (s ++ c)
  | generic {bytes rest : Line} (split : s ++ c = bytes ++ rest) (left : rest ≠ []) :
      LineEnd s c ATErrno.errorGeneric.code bytes
  | closed : LineEnd s c ATErrno.errorChannelClosed.code []

theorem writeLine_spec (ch : ATChannel) (s ctrl : Line) :
    ∃ sent, Wrote (ch.log (.writeLine s ctrl)) (writeLine ch s ctrl).2 sent ∧
      ((writeLine ch s ctrl).1 = ATErrno.success.code ↔
        ch.isOpen = true ∧ ∀ p ∈ sent, hardFailure p.1 = false) ∧
      LineEnd s ((ctrl ++ [0]).take 1) (writeLine ch s ctrl).1 (taken sent) := by
  unfold writeLine
  show ∃ sent, _ ∧ (_ ↔ (ch.log (.writeLine s ctrl)).isOpen = true ∧ _) ∧ _
  generalize ch.log (.writeLine s ctrl) = ch
  have hc : (ctrl ++ [0]).take 1 ≠ [] := by cases ctrl <;> simp
  generalize (ctrl ++ [0]).take 1 = c at hc ⊢
  by_cases hopen : ch.isOpen = true
  · simp only [hopen, Bool.not_true, Bool.false_eq_true, if_false, true_and]
    obtain ⟨sent₁, rest, hsent₁, hsplit, hrest, hok₁⟩ := writeText_spec ch s ch.writes
    generalize writeText ch s ch.writes = main at hsent₁ hrest hok₁
    by_cases hmain : main.1 = true
    · have hwhole : s = taken sent₁ := by rw [hsplit, hrest hmain, List.append_nil]
      obtain ⟨sent₂, hsent₂, htaken, hok₂⟩ := writeCtrl_spec main.2 c main.2.writes
      generalize writeCtrl main.2 c main.2.writes = last at hsent₂ htaken hok₂
      refine ⟨sent₁ ++ sent₂, ?_, ?_, ?_⟩
      · by_cases hlast : last.1 = true <;>
          simpa [hmain, hlast] using hsent₁.append hsent₂
      · rw [List.forall_mem_append, ← hok₁, ← hok₂]
        by_cases hlast : last.1 = true <;> simp [hmain, hlast, ATErrno.code]
      · rw [taken_append, ← hwhole, htaken]
        by_cases hlast : last.1 = true
        · simpa [hmain, hlast] using LineEnd.success
        · simpa [hmain, hlast] using LineEnd.generic (by simp) hc
    · refine ⟨sent₁, by simpa [hmain] using hsent₁, ?_, ?_⟩
      · rw [← hok₁]
        simp [hmain, ATErrno.code]
      · have hleft : rest ++ c ≠ [] := by simp [hc]
        simpa [hmain] using LineEnd.generic (by rw [← List.append_assoc, ← hsplit]) hleft
  · exact ⟨[], ⟨ch.writes, by simp [hopen]⟩, by simp [hopen, ATErrno.code],
      by simpa [hopen] using LineEnd.closed⟩

theorem writeLine_ret_nonneg (ch : ATChannel) (s ctrl : Line) :
    0 ≤ (writeLine ch s ctrl).1 := by
  have hcode : ∃ e : ATErrno, (writeLine ch s ctrl).1 = e.code := by
    unfold writeLine
    dsimp only
    split_ifs
    · exact ⟨.errorChannelClosed, rfl⟩
    · exact ⟨.errorGeneric, rfl⟩
    · exact ⟨.errorGeneric, rfl⟩
    · exact ⟨.success, rfl⟩
  obtain ⟨e, he⟩ := hcode
  rw [he]
  exact e.code_nonneg

end Mobile.Channel.Proofs.WriteSpec
