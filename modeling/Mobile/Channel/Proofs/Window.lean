import Mobile.ProofSupport.Transition
import Mobile.Channel.Proofs.Collection
import Mobile.Channel.Proofs.Log

/-!
# Lines behind the final response

Between the notification and the moment the issuer resumes, `ProcessLine` still
finds the command pending.  It does not look whether the final response is already
there, so a line is passed on only if it is none of those the command takes.
-/

namespace Mobile.Channel.Proofs.Window

open Mobile.Token.Scan Mobile.ProofSupport.Transition
open Mobile.Channel.Types Mobile.Channel.WriteLine
open Mobile.Channel.ProcessLine Mobile.Channel.Proofs.WriteSpec Mobile.Channel.Proofs.Log
open Mobile.Channel.Proofs.Collection

def NotTaken (ch : ATChannel) (rsp : ATResponse) (line : Line) : Prop :=
  match ch.type with
  | .noResult => True
  | .numeric => rsp.intermediates ≠ [] ∨ startsWithDigit line = false
  | .singleLine =>
    rsp.intermediates ≠ [] ∨ ∃ pre, ch.rspPrefix = some pre ∧ ¬ pre <+: line
  | .multiLine => ∃ pre, ch.rspPrefix = some pre ∧ ¬ pre <+: line

/-- The line is no final response, no prompt for a PDU and not taken by the
command, and there is a handler for it. -/
structure PassedOn (ch : ATChannel) (rsp : ATResponse) (line : Line) : Prop where
  not_final : isFinalResponse line = false
  not_prompt : ch.smsPdu = none ∨ line ≠ smsPrompt
  not_taken : NotTaken ch rsp line
  handler : ch.unsolHandler = true

def Frozen (ch : ATChannel) (rsp : ATResponse) (lines : List Line) : Prop :=
  ∃ ch', lines.foldlM processLine ch = some ch' ∧ ch'.rsp = some rsp ∧
    unsolCalls (newEvents ch ch') = lines.map fun line => (line, none)

theorem processLine_dispatch {ch : ATChannel} {rsp : ATResponse} {line : Line}
    (hrsp : ch.rsp = some rsp) (hfinal : isFinalResponse line = false)
    (hprompt : ch.smsPdu = none ∨ line ≠ smsPrompt) :
    processLine ch line = dispatch ch rsp line := by
  obtain ⟨hsucc, herr⟩ := isFinalResponse_eq_false.1 hfinal
  unfold processLine
  simp only [hrsp, hsucc, herr, Bool.false_eq_true, if_false]
  cases hpdu : ch.smsPdu with
  | none => rfl
  | some pdu =>
      rw [hpdu] at hprompt
      have hline : line ≠ smsPrompt := hprompt.resolve_left (by simp)
      simp [hline]

theorem dispatch_passedOn {ch : ATChannel} {rsp : ATResponse} {line : Line}
    (h : NotTaken ch rsp line) : dispatch ch rsp line = some (handleUnsolicited ch line) := by
  unfold NotTaken at h
  unfold dispatch
  cases htype : ch.type with
  | noResult => rfl
  | numeric =>
      simp only [htype] at h
      rw [if_neg]
      rintro ⟨hnil, hdigit⟩
      rcases h with h | h
      · exact h hnil
      · exact absurd hdigit (by simp [h])
  | singleLine =>
      simp only [htype] at h
      rcases h with h | ⟨pre, hpre, hnot⟩
      · simp [h]
      · have hstart : atStrStartWith line pre = false := by
          rw [← Bool.not_eq_true, atStrStartWith_iff]
          exact hnot
        simp [hpre, hstart]
  | multiLine =>
      simp only [htype] at h
      obtain ⟨pre, hpre, hnot⟩ := h
      have hstart : atStrStartWith line pre = false := by
        rw [← Bool.not_eq_true, atStrStartWith_iff]
        exact hnot
      simp [hpre, hstart]

theorem dispatch_taken {ch ch' : ATChannel} {rsp : ATResponse} {line : Line}
    (h : ¬ NotTaken ch rsp line) (hch : dispatch ch rsp line = some ch') :
    ch' = addIntermediate ch rsp line := by
  unfold NotTaken at h
  unfold dispatch at hch
  cases htype : ch.type with
  | noResult => simp [htype] at h
  | numeric =>
      simp only [htype, not_or, ne_eq, not_not, Bool.not_eq_false] at h hch
      simpa [h] using hch.symm
  | singleLine =>
      simp only [htype, not_or, ne_eq, not_not, not_exists, not_and] at h hch
      rw [if_pos h.1] at hch
      cases hpre : ch.rspPrefix with
      | none => simp [hpre] at hch
      | some pre =>
          have hstart := (atStrStartWith_iff line pre).2 (h.2 pre hpre)
          simpa [hpre, hstart] using hch.symm
  | multiLine =>
      simp only [htype, not_exists, not_and, not_not] at h hch
      cases hpre : ch.rspPrefix with
      | none => simp [hpre] at hch
      | some pre =>
          have hstart := (atStrStartWith_iff line pre).2 (h pre hpre)
          simpa [hpre, hstart] using hch.symm

/-! ### What one line hands to the handler -/

theorem newEvents_of_eq {ch ch' : ATChannel} {new : List Event}
    (h : ch'.events = ch.events ++ new) : newEvents ch ch' = new := by
  simp [newEvents, h]

theorem newEvents_append {ch ch₁ ch₂ : ATChannel} (h₁ : ch.events <+: ch₁.events)
    (h₂ : ch₁.events <+: ch₂.events) :
    newEvents ch ch₂ = newEvents ch ch₁ ++ newEvents ch₁ ch₂ := by
  obtain ⟨new₁, hnew₁⟩ := h₁
  obtain ⟨new₂, hnew₂⟩ := h₂
  rw [newEvents_of_eq hnew₁.symm, newEvents_of_eq hnew₂.symm]
  exact newEvents_of_eq (by rw [← hnew₂, ← hnew₁, List.append_assoc])

theorem processLine_passedOn {ch : ATChannel} {rsp : ATResponse} {line : Line}
    (hrsp : ch.rsp = some rsp) (h : PassedOn ch rsp line) :
    processLine ch line = some (ch.log (.unsolHandler line none)) := by
  rw [processLine_dispatch hrsp h.not_final h.not_prompt, dispatch_passedOn h.not_taken]
  simp [handleUnsolicited, h.handler]

theorem unsolCalls_handleUnsolicited (ch : ATChannel) (line : Line) :
    unsolCalls (newEvents ch (handleUnsolicited ch line)) =
      if ch.unsolHandler then [(line, none)] else [] := by
  rw [newEvents_of_eq (by rw [handleUnsolicited_eq])]
  cases ch.unsolHandler <;> rfl

theorem unsolCalls_writeLine (ch : ATChannel) (s ctrl : Line) :
    unsolCalls (newEvents ch (writeLine ch s ctrl).2) = [] := by
  obtain ⟨sent, ⟨writes, hch⟩, -⟩ := writeLine_spec ch s ctrl
  have hnew : newEvents ch (writeLine ch s ctrl).2 =
      .writeLine s ctrl :: sent.map fun p => .write p.1 p.2 :=
    newEvents_of_eq (by rw [hch]; simp [ATChannel.log])
  rw [hnew]
  simp [unsolCalls]

theorem processLine_kept {ch ch' : ATChannel} {rsp : ATResponse} {line : Line}
    (hrsp : ch.rsp = some rsp) (h : ¬ PassedOn ch rsp line)
    (hch : processLine ch line = some ch') : unsolCalls (newEvents ch ch') = [] := by
  by_cases hfinal : isFinalResponse line = true
  · rw [processLine_final hrsp hfinal, Option.some.injEq] at hch
    have hnew : newEvents ch ch' = [.notify] := newEvents_of_eq (by rw [← hch]; rfl)
    rw [hnew]
    rfl
  by_cases hprompt : ch.smsPdu = none ∨ line ≠ smsPrompt
  · rw [processLine_dispatch hrsp (by simpa using hfinal) hprompt] at hch
    by_cases htaken : NotTaken ch rsp line
    · rw [dispatch_passedOn htaken, Option.some.injEq] at hch
      have hhandler : ch.unsolHandler = false := by
        rw [← Bool.not_eq_true]
        exact fun hhandler => h ⟨by simpa using hfinal, hprompt, htaken, hhandler⟩
      rw [← hch, unsolCalls_handleUnsolicited, hhandler]
      rfl
    · have hnew : newEvents ch ch' = [] :=
        newEvents_of_eq (by rw [dispatch_taken htaken hch]; simp [addIntermediate])
      rw [hnew]
      rfl
  · obtain ⟨hpdu, rfl⟩ := by simpa only [not_or, not_not] using hprompt
    obtain ⟨pdu, hpdu⟩ := Option.ne_none_iff_exists'.1 hpdu
    have hnot : isFinalResponseSuccess smsPrompt = false ∧ isFinalResponseError smsPrompt = false := by
      decide
    simp only [processLine, hrsp, hnot.1, hnot.2, hpdu, Bool.false_eq_true, if_false, if_true,
      Option.some.injEq] at hch
    rw [← hch]
    exact unsolCalls_writeLine ch pdu kCtrlZ

theorem unsolCalls_processLine_length {ch ch' : ATChannel} {line : Line}
    (hch : processLine ch line = some ch') : (unsolCalls (newEvents ch ch')).length ≤ 1 := by
  cases hrsp : ch.rsp with
  | none =>
      simp only [processLine, hrsp, Option.some.injEq] at hch
      rw [← hch, unsolCalls_handleUnsolicited]
      split <;> simp
  | some rsp =>
      by_cases h : PassedOn ch rsp line
      · rw [processLine_passedOn hrsp h, Option.some.injEq] at hch
        have hnew : newEvents ch ch' = [.unsolHandler line none] :=
          newEvents_of_eq (by rw [← hch]; rfl)
        rw [hnew]
        simp [unsolCalls]
      · rw [processLine_kept hrsp h hch]
        simp

theorem lines_events_grow {ch ch' : ATChannel} {lines : List Line}
    (h : lines.foldlM processLine ch = some ch') : ch.events <+: ch'.events := by
  apply foldlM_invariant (fun c => ch.events <+: c.events) _ (List.prefix_refl _) h
  intro c line c' hline hc
  exact hc.trans (processLine_served hline).events_grow

theorem unsolCalls_lines_length {ch ch' : ATChannel} {lines : List Line}
    (h : lines.foldlM processLine ch = some ch') :
    (unsolCalls (newEvents ch ch')).length ≤ lines.length := by
  induction lines generalizing ch with
  | nil =>
      cases h
      simp [newEvents, unsolCalls]
  | cons line lines ih =>
      rw [List.foldlM_cons, Option.bind_eq_bind, Option.bind_eq_some_iff] at h
      obtain ⟨ch₁, hline, hrest⟩ := h
      have hfirst := unsolCalls_processLine_length hline
      have hothers := ih hrest
      rw [newEvents_append (processLine_served hline).events_grow (lines_events_grow hrest),
        unsolCalls_append, List.length_append, List.length_cons]
      omega

theorem passedOn_log {ch : ATChannel} {rsp : ATResponse} {line : Line} (ev : Event) :
    PassedOn (ch.log ev) rsp line ↔ PassedOn ch rsp line :=
  ⟨fun h => ⟨h.not_final, h.not_prompt, h.not_taken, h.handler⟩,
    fun h => ⟨h.not_final, h.not_prompt, h.not_taken, h.handler⟩⟩

theorem frozen_cons {ch : ATChannel} {rsp : ATResponse} {line : Line} (lines : List Line)
    (hrsp : ch.rsp = some rsp) (h : PassedOn ch rsp line) :
    Frozen ch rsp (line :: lines) ↔ Frozen (ch.log (.unsolHandler line none)) rsp lines := by
  have hfold : (line :: lines).foldlM processLine ch =
      lines.foldlM processLine (ch.log (.unsolHandler line none)) := by
    rw [List.foldlM_cons, processLine_passedOn hrsp h]
    rfl
  have hevents : ∀ ch', lines.foldlM processLine (ch.log (.unsolHandler line none)) = some ch' →
      unsolCalls (newEvents ch ch') =
        (line, none) :: unsolCalls (newEvents (ch.log (.unsolHandler line none)) ch') := by
    intro ch' hch'
    have hfirst : newEvents ch (ch.log (.unsolHandler line none)) = [.unsolHandler line none] :=
      newEvents_of_eq rfl
    rw [newEvents_append (List.prefix_append _ _) (lines_events_grow hch'), unsolCalls_append,
      hfirst]
    rfl
  unfold Frozen
  rw [hfold]
  constructor
  · rintro ⟨ch', hch', hsame, hcalls⟩
    rw [hevents ch' hch', List.map_cons, List.cons.injEq] at hcalls
    exact ⟨ch', hch', hsame, hcalls.2⟩
  · rintro ⟨ch', hch', hsame, hcalls⟩
    exact ⟨ch', hch', hsame, by rw [hevents ch' hch', List.map_cons, hcalls]⟩

theorem frozen_iff_passedOn {ch : ATChannel} {rsp : ATResponse} (lines : List Line)
    (hrsp : ch.rsp = some rsp) :
    Frozen ch rsp lines ↔ ∀ line ∈ lines, PassedOn ch rsp line := by
  induction lines generalizing ch with
  | nil =>
      have hempty : Frozen ch rsp [] := ⟨ch, rfl, hrsp, by simp [newEvents, unsolCalls]⟩
      simpa using hempty
  | cons line lines ih =>
      by_cases h : PassedOn ch rsp line
      · have hrest : Frozen (ch.log (.unsolHandler line none)) rsp lines ↔ _ := ih hrsp
        rw [frozen_cons lines hrsp h, hrest, List.forall_mem_cons]
        simp only [passedOn_log, h, true_and]
      · constructor
        · rintro ⟨ch', hch', -, hcalls⟩
          rw [List.foldlM_cons, Option.bind_eq_bind, Option.bind_eq_some_iff] at hch'
          obtain ⟨ch₁, hline, hrest⟩ := hch'
          -- the kept line leaves one call too few
          have hlength := congrArg List.length hcalls
          have hothers := unsolCalls_lines_length hrest
          rw [newEvents_append (processLine_served hline).events_grow (lines_events_grow hrest),
            unsolCalls_append, processLine_kept hrsp h hline] at hlength
          simp at hlength
          omega
        · intro hall
          exact absurd (hall line (by simp)) h

theorem finished_response_frozen_iff (ch : ATChannel) (success : Int) (finalResp : Line)
    (intermediates : List Line) (lines : List Line)
    (hrsp : ch.rsp = some ⟨success, some finalResp, intermediates⟩) :
    Frozen ch ⟨success, some finalResp, intermediates⟩ lines ↔
      ∀ line ∈ lines, PassedOn ch ⟨success, some finalResp, intermediates⟩ line :=
  frozen_iff_passedOn lines hrsp

def answeredChannel : ATChannel :=
  { ATChannel.opened 3 [] with rsp := some ⟨1, some (text "OK"), []⟩ }

theorem finished_response_frozen_ring :
    Frozen answeredChannel ⟨1, some (text "OK"), []⟩ [text "RING"] :=
  (finished_response_frozen_iff answeredChannel 1 (text "OK") [] [text "RING"] rfl).2
    (by
      intro line hline
      rw [List.mem_singleton] at hline
      subst hline
      exact ⟨by decide, .inl rfl, trivial, rfl⟩)

/-- A second final response overwrites the first. -/
theorem finished_response_overwritten :
    ¬ Frozen answeredChannel ⟨1, some (text "OK"), []⟩ [text "NO CARRIER"] ∧
    ∃ ch, [text "NO CARRIER"].foldlM processLine answeredChannel = some ch ∧
      ch.rsp = some ⟨0, some (text "NO CARRIER"), []⟩ := by
  constructor
  · rintro ⟨ch, hch, hrsp, -⟩
    have hch' : [text "NO CARRIER"].foldlM processLine answeredChannel = some
        (handleFinalResponse answeredChannel ⟨1, some (text "OK"), []⟩ 0 (text "NO CARRIER")) := by
      decide
    rw [hch', Option.some.injEq] at hch
    rw [← hch] at hrsp
    revert hrsp
    decide
  · exact ⟨_, rfl, rfl⟩

end Mobile.Channel.Proofs.Window
