import Mobile.ProofSupport.Transition
import Mobile.Channel.Wire
import Mobile.Channel.Proofs.Log

/-!
# Whole lines on the wire

A line is one text with its terminator.  The wire carries whole lines, and behind
them at most the beginning of one, as long as no `write()` takes bytes while the
other thread has a line half way out, and none gives up in the middle of a line.
-/

namespace Mobile.Channel.Proofs.Units

open Mobile.Token.Scan Mobile.ProofSupport.Transition
open Mobile.Channel.ReadLine Mobile.Channel.Types Mobile.Channel.WriteLine Mobile.Channel.Wire
open Mobile.Channel.Proofs.WriteSpec Mobile.Channel.Proofs.Log

def unitBytes (u : Line × Line) : Line := u.1 ++ terminator u.2

@[simp] theorem move_pc_self (st : WireState) (w : Writer)
    (bytes : Line) (pc : WriterPc) : (st.move w bytes pc).pc w = pc :=
  Function.update_self ..

theorem enter_pc_self (st : WireState) (w : Writer) (s ctrl : Line) :
    (st.enter w s ctrl).pc w = .next [] s ctrl :=
  Function.update_self ..

def partOf : WriterPc → Line
  | .idle => []
  | .main sent _ _ => sent
  | .last s _ => s

def lineOf : WriterPc → Option (Line × Line)
  | .idle => none
  | .main sent rest ctrl => some (sent ++ rest, ctrl)
  | .last s ctrl => some (s, ctrl)

/-- Whole lines, and then what one thread has sent of its own. -/
def WholeUnits (st : WireState) : Prop :=
  ∃ (us : List (Line × Line)) (w : Writer), (∀ u ∈ us, u ∈ st.begun) ∧
    st.wire = us.flatMap unitBytes ++ partOf (st.pc w)

def Alone (st : WireState) (w : Writer) : Prop := ∀ v, v ≠ w → partOf (st.pc v) = []

/-- The `write()` takes no byte out of turn and does not fail for good in the middle of
a line. -/
def InTurn (st : WireState) : WireAction → Prop
  | .begin _ _ _ => True
  | .write w r =>
    (∀ bytes pc, (st.pc w).write r = some (bytes, pc) → bytes ≠ [] → Alone st w) ∧
    (hardFailure r = true → partOf (st.pc w) = [])

@[simp] theorem partOf_next (sent rest ctrl : Line) :
    partOf (.next sent rest ctrl) = sent := by
  unfold WriterPc.next
  split <;> rfl

theorem lineOf_next (sent rest ctrl : Line) :
    lineOf (.next sent rest ctrl) = some (sent ++ rest, ctrl) := by
  unfold WriterPc.next
  split
  · simp_all [lineOf]
  · rfl

/-! ### One call -/

def onWire (evs : List Event) : Line :=
  evs.flatMap fun ev =>
    match ev with
    | .write _ sent => sent
    | _ => []

theorem onWire_writes (sent : List (WriteResult × Line)) :
    onWire (sent.map fun p => .write p.1 p.2) = taken sent := by
  simp only [onWire, taken, List.flatMap_map]

theorem newEvents_of_wrote {ch ch' : ATChannel} {s ctrl : Line}
    {sent : List (WriteResult × Line)} (h : Wrote (ch.log (.writeLine s ctrl)) ch' sent) :
    newEvents ch ch' = .writeLine s ctrl :: sent.map fun p => .write p.1 p.2 := by
  obtain ⟨writes, rfl⟩ := h
  simp [newEvents, ATChannel.log]

/-- What a `WriteLine` of the text `s` may put on the wire, by its return code. -/
structure Transmits (s ctrl : Line) (ret : Int) (bytes : Line) : Prop where
  success : ret = ATErrno.success.code → bytes = s ++ [ctrl.headD 0]
  generic : ret = ATErrno.errorGeneric.code →
    bytes <+: s ++ [ctrl.headD 0] ∧ bytes ≠ s ++ [ctrl.headD 0]
  closed : ret = ATErrno.errorChannelClosed.code → bytes = []
  codes : ret ∈ [ATErrno.success, .errorGeneric, .errorChannelClosed].map ATErrno.code

theorem LineEnd.transmits {s ctrl bytes : Line} {ret : Int}
    (h : LineEnd s [ctrl.headD 0] ret bytes) : Transmits s ctrl ret bytes := by
  cases h with
  | success =>
      exact ⟨fun _ => rfl, fun hret => absurd hret (by decide), fun hret => absurd hret (by decide),
        by decide⟩
  | @generic bytes rest split left =>
      refine ⟨fun hret => absurd hret (by decide), fun _ => ?_,
        fun hret => absurd hret (by decide), by decide⟩
      rw [split]
      exact ⟨List.prefix_append bytes rest, by simpa using left⟩
  | closed =>
      exact ⟨fun hret => absurd hret (by decide), fun hret => absurd hret (by decide), fun _ => rfl,
        by decide⟩

/-- One `WriteLine` call puts on the wire the line and its terminator when it
succeeds, less than that when it fails, and nothing on a closed channel. -/
theorem writeLine_transmits (ch : ATChannel) (s ctrl : Line) :
    Transmits s ctrl (writeLine ch s ctrl).1 (onWire (newEvents ch (writeLine ch s ctrl).2)) := by
  obtain ⟨sent, hsent, -, hend⟩ := writeLine_spec ch s ctrl
  have hbyte : (ctrl ++ [0]).take 1 = [ctrl.headD 0] := by cases ctrl <;> rfl
  have hwire : onWire (newEvents ch (writeLine ch s ctrl).2) = taken sent := by
    rw [newEvents_of_wrote hsent]
    exact onWire_writes sent
  rw [hbyte] at hend
  rw [hwire]
  exact LineEnd.transmits hend

/-! ### One thread alone -/

/-- The `write()` calls of thread `w` alone, with the bytes each has taken. -/
structure Solo (w : Writer) (st : WireState) (sent : List (WriteResult × Line))
    (st' : WireState) : Prop where
  run : Run WireStep st (sent.map fun p => .write w p.1) st'
  wire : st'.wire = st.wire ++ sent.flatMap Prod.snd
  others : ∀ v, v ≠ w → st'.pc v = st.pc v

section Solo

variable {w : Writer} {st st' : WireState}

theorem Solo.nil (w : Writer) (st : WireState) : Solo w st [] st :=
  ⟨.nil, by simp, fun _ _ => rfl⟩

theorem Solo.cons {r : WriteResult} {bytes : Line} {pc : WriterPc}
    {sent : List (WriteResult × Line)} (h : (st.pc w).write r = some (bytes, pc))
    (hrest : Solo w (st.move w bytes pc) sent st') :
    Solo w st ((r, bytes) :: sent) st' := by
  refine ⟨(Run.single (.write h)).append hrest.run, ?_, ?_⟩
  · simp [hrest.wire, WireState.move]
  · intro v hv
    rw [hrest.others v hv]
    exact Function.update_of_ne hv ..

theorem Solo.retry {r : WriteResult} {sent : List (WriteResult × Line)}
    (hrest : Solo w st sent st') (h : (st.pc w).write r = some ([], st.pc w)) :
    Solo w st ((r, []) :: sent) st' := by
  apply Solo.cons h
  rw [WireState.move, List.append_nil, Function.update_eq_self]
  exact hrest

theorem Solo.append {st'' : WireState} {sent sent' : List (WriteResult × Line)}
    (h : Solo w st sent st') (h' : Solo w st' sent' st'') : Solo w st (sent ++ sent') st'' := by
  refine ⟨?_, ?_, ?_⟩
  · rw [List.map_append]
    exact h.run.append h'.run
  · rw [h'.wire, h.wire, List.flatMap_append, List.append_assoc]
  · intro v hv
    rw [h'.others v hv, h.others v hv]

theorem WriterPc.write_hard {pc : WriterPc} {r : WriteResult} (hpc : pc ≠ .idle)
    (hr : hardFailure r = true) : pc.write r = some ([], .idle) := by
  match r, hr with
  | .failed .eagain, _ | .failed .ewouldblock, _ | .failed (.other _), _ =>
    cases pc with
    | idle => exact absurd rfl hpc
    | main => rfl
    | last => rfl

theorem writeText_solo (script : List WriteResult) (ch : ATChannel) (done text ctrl : Line)
    (hpc : st.pc w = .next done text ctrl) :
    ∃ sent st', Wrote ch (writeText ch text script).2 sent ∧ Solo w st sent st' ∧
      st'.pc w = if (writeText ch text script).1 then .last (done ++ text) ctrl else .idle := by
  induction script generalizing ch done text st with
  | nil =>
      by_cases htext : text = []
      · refine ⟨[], st, ⟨[], by simp [writeText, htext]⟩, .nil w st, ?_⟩
        simp [writeText, htext, hpc, WriterPc.next]
      · have hmain : st.pc w = .main done text ctrl := by simp [hpc, WriterPc.next, htext]
        refine ⟨[(.wrote text.length, text)], _, ⟨[], by simp [writeText, htext, ATChannel.log]⟩,
          .cons (show (st.pc w).write _ = some (text, .last (done ++ text) ctrl) from ?_)
            (.nil w _), ?_⟩
        · simp [hmain, WriterPc.write, WriterPc.next]
        · simp [writeText, htext]
  | cons r rest ih =>
      by_cases htext : text = []
      · refine ⟨[], st, ⟨r :: rest, by simp [writeText, htext]⟩, .nil w st, ?_⟩
        simp [writeText, htext, hpc, WriterPc.next]
      have hmain : st.pc w = .main done text ctrl := by simp [hpc, WriterPc.next, htext]
      by_cases hr : hardFailure r = true
      · rw [writeText_hard ch rest htext hr]
        refine ⟨[(r, [])], _, ⟨rest, rfl⟩, .cons (WriterPc.write_hard (by simp [hmain]) hr)
          (.nil w _), by simp⟩
      cases r with
      | wrote count =>
          obtain ⟨sent, st', hsent, hsolo, hend⟩ :=
            ih (ch.log (.write (.wrote count) (text.take count))) _ _
              (move_pc_self st w (text.take count)
                (.next (done ++ text.take count) (text.drop count) ctrl))
          refine ⟨(.wrote count, text.take count) :: sent, st', ?_, .cons ?_ hsolo, ?_⟩
          · simpa [writeText, htext] using hsent.log_cons
          · simp [hmain, WriterPc.write]
          · rw [hend]
            simp [writeText, htext]
      | failed errno =>
          cases errno with
          | eintr =>
              obtain ⟨sent, st', hsent, hsolo, hend⟩ :=
                ih (ch.log (.write (.failed .eintr) [])) done text hpc
              refine ⟨(.failed .eintr, []) :: sent, st', ?_, hsolo.retry ?_, ?_⟩
              · simpa [writeText, htext] using hsent.log_cons
              · rw [hmain]
                rfl
              · rw [hend]
                simp [writeText, htext]
          | _ => exact absurd rfl hr

theorem writeCtrl_solo (script : List WriteResult) (ch : ATChannel) (s ctrl : Line)
    (hpc : st.pc w = .last s ctrl) :
    ∃ sent st', Wrote ch (writeCtrl ch (terminator ctrl) script).2 sent ∧ Solo w st sent st' ∧
      st'.pc w = .idle := by
  induction script generalizing ch with
  | nil =>
      have hlast : (st.pc w).write (.wrote 1) = some (terminator ctrl, .idle) := by
        rw [hpc]
        rfl
      exact ⟨[(.wrote 1, terminator ctrl)], _, ⟨[], rfl⟩, .cons hlast (.nil w _),
        Function.update_self ..⟩
  | cons r rest ih =>
      by_cases hr : hardFailure r = true
      · rw [writeCtrl_hard ch _ rest hr]
        exact ⟨[(r, [])], _, ⟨rest, rfl⟩, .cons (WriterPc.write_hard (by simp [hpc]) hr) (.nil w _),
          Function.update_self ..⟩
      cases r with
      | wrote count =>
          cases count with
          | zero =>
              obtain ⟨sent, st', hsent, hsolo, hend⟩ := ih (ch.log (.write (.wrote 0) []))
              refine ⟨(.wrote 0, []) :: sent, st', hsent.log_cons, hsolo.retry ?_, hend⟩
              rw [hpc]
              rfl
          | succ count =>
              have hlast : (st.pc w).write (.wrote (count + 1)) =
                  some (terminator ctrl, .idle) := by
                rw [hpc]
                rfl
              exact ⟨[(.wrote (count + 1), terminator ctrl)], _, ⟨rest, rfl⟩,
                .cons hlast (.nil w _), Function.update_self ..⟩
      | failed errno =>
          cases errno with
          | eintr =>
              obtain ⟨sent, st', hsent, hsolo, hend⟩ := ih (ch.log (.write (.failed .eintr) []))
              refine ⟨(.failed .eintr, []) :: sent, st', hsent.log_cons, hsolo.retry ?_, hend⟩
              rw [hpc]
              rfl
          | _ => exact absurd rfl hr

/-- A `WriteLine` call is a run of one thread that makes the same `write()` calls and
puts the same bytes on the wire. -/
theorem writeLine_solo {ch : ATChannel} (hopen : ch.isOpen = true) (s ctrl : Line)
    (hidle : st.pc w = .idle) :
    ∃ sent st', Wrote (ch.log (.writeLine s ctrl)) (writeLine ch s ctrl).2 sent ∧
      Run WireStep st (.begin w s ctrl :: sent.map fun p => .write w p.1) st' ∧
      st'.wire = st.wire ++ sent.flatMap Prod.snd ∧ st'.pc w = .idle ∧
      ∀ v, v ≠ w → st'.pc v = st.pc v := by
  have hbegin : WireStep st (.begin w s ctrl) (st.enter w s ctrl) := .begin s ctrl hidle
  have hothers : ∀ v, v ≠ w → (st.enter w s ctrl).pc v = st.pc v :=
    fun v hv => Function.update_of_ne hv ..
  have hopen' : (ch.log (.writeLine s ctrl)).isOpen = true := hopen
  unfold writeLine
  generalize ch.log (.writeLine s ctrl) = ch at hopen'
  simp only [hopen', Bool.not_true, Bool.false_eq_true, if_false]
  obtain ⟨sent₁, st₁, hsent₁, hsolo₁, hend₁⟩ :=
    writeText_solo ch.writes ch [] s ctrl (enter_pc_self st w s ctrl)
  generalize writeText ch s ch.writes = main at hsent₁ hend₁
  by_cases hmain : main.1 = true
  · rw [if_pos hmain] at hend₁
    obtain ⟨sent₂, st₂, hsent₂, hsolo₂, hend₂⟩ := writeCtrl_solo main.2.writes main.2 _ _ hend₁
    rw [terminator] at hsent₂
    generalize writeCtrl main.2 ((ctrl ++ [0]).take 1) main.2.writes = last at hsent₂
    have hsolo := hsolo₁.append hsolo₂
    refine ⟨sent₁ ++ sent₂, st₂, ?_, (Run.single hbegin).append hsolo.run, hsolo.wire, hend₂, ?_⟩
    · by_cases hlast : last.1 = true <;> simpa [hmain, hlast] using hsent₁.append hsent₂
    · intro v hv
      rw [hsolo.others v hv, hothers v hv]
  · rw [if_neg hmain] at hend₁
    refine ⟨sent₁, st₁, by simpa [hmain] using hsent₁, (Run.single hbegin).append hsolo₁.run,
      hsolo₁.wire, hend₁, ?_⟩
    intro v hv
    rw [hsolo₁.others v hv, hothers v hv]

end Solo

/-! ### Both threads -/

/-- A `write()` continues the line of its thread, ends it, or gives it up. -/
theorem write_cases {pc pc' : WriterPc} {r : WriteResult} {bytes : Line}
    (h : pc.write r = some (bytes, pc')) :
    (partOf pc' = partOf pc ++ bytes ∧ lineOf pc' = lineOf pc) ∨
    (∃ u, lineOf pc = some u ∧ partOf pc ++ bytes = unitBytes u ∧ bytes ≠ [] ∧ pc' = .idle) ∨
    (hardFailure r = true ∧ bytes = [] ∧ pc' = .idle) := by
  cases pc with
  | idle => cases h
  | main sent rest ctrl =>
      match r with
      | .wrote count =>
          cases h
          refine .inl ⟨partOf_next .., ?_⟩
          rw [lineOf_next, List.append_assoc, List.take_append_drop]
          rfl
      | .failed .eintr =>
          cases h
          exact .inl ⟨by simp, rfl⟩
      | .failed .eagain | .failed .ewouldblock | .failed (.other _) =>
          cases h
          exact .inr (.inr ⟨rfl, rfl, rfl⟩)
  | last s ctrl =>
      match r with
      | .wrote 0 | .failed .eintr =>
          cases h
          exact .inl ⟨by simp, rfl⟩
      | .wrote (_ + 1) =>
          cases h
          exact .inr (.inl ⟨(s, ctrl), rfl, rfl, by simp [terminator], rfl⟩)
      | .failed .eagain | .failed .ewouldblock | .failed (.other _) =>
          cases h
          exact .inr (.inr ⟨rfl, rfl, rfl⟩)

/-- `WholeUnits` with one thread at a time in the middle of its line. -/
structure OneAtATime (st : WireState) : Prop where
  whole : ∃ (us : List (Line × Line)) (w : Writer), (∀ u ∈ us, u ∈ st.begun) ∧
    st.wire = us.flatMap unitBytes ++ partOf (st.pc w) ∧ Alone st w
  begun : ∀ w u, lineOf (st.pc w) = some u → u ∈ st.begun

theorem OneAtATime.wholeUnits {st : WireState} (h : OneAtATime st) : WholeUnits st := by
  obtain ⟨us, w, hus, hwire, -⟩ := h.whole
  exact ⟨us, w, hus, hwire⟩

theorem quiet_oneAtATime : OneAtATime .quiet :=
  ⟨⟨[], .command, by simp, rfl, fun _ _ => rfl⟩, by simp [WireState.quiet, lineOf]⟩

theorem OneAtATime.same_parts {st st' : WireState} (h : OneAtATime st)
    (hwire : st'.wire = st.wire) (hparts : ∀ w, partOf (st'.pc w) = partOf (st.pc w))
    (hsub : ∀ u ∈ st.begun, u ∈ st'.begun)
    (hlines : ∀ w u, lineOf (st'.pc w) = some u → u ∈ st'.begun) : OneAtATime st' := by
  obtain ⟨us, w, hus, hw, halone⟩ := h.whole
  refine ⟨⟨us, w, fun u hu => hsub u (hus u hu), ?_, ?_⟩, hlines⟩
  · rw [hwire, hw, hparts w]
  · intro v hv
    rw [hparts v]
    exact halone v hv

theorem OneAtATime.focus {st : WireState} (h : OneAtATime st) {w : Writer} (hw : Alone st w) :
    ∃ us : List (Line × Line), (∀ u ∈ us, u ∈ st.begun) ∧
      st.wire = us.flatMap unitBytes ++ partOf (st.pc w) := by
  obtain ⟨us, v, hus, hwire, halone⟩ := h.whole
  by_cases hvw : v = w
  · exact ⟨us, hus, hvw ▸ hwire⟩
  · refine ⟨us, hus, ?_⟩
    rw [hwire, hw v hvw, halone w (Ne.symm hvw)]

theorem update_lines {st : WireState} {w : Writer} {pc : WriterPc} {begun : List (Line × Line)}
    (h : ∀ v u, lineOf (st.pc v) = some u → u ∈ begun)
    (hpc : ∀ u, lineOf pc = some u → u ∈ begun) (v : Writer) (u : Line × Line)
    (hv : lineOf (Function.update st.pc w pc v) = some u) : u ∈ begun := by
  by_cases hvw : v = w
  · subst hvw
    rw [Function.update_self] at hv
    exact hpc u hv
  · rw [Function.update_of_ne hvw] at hv
    exact h v u hv

theorem update_parts {st : WireState} {w : Writer} {pc : WriterPc}
    (hpc : partOf pc = partOf (st.pc w)) (v : Writer) :
    partOf (Function.update st.pc w pc v) = partOf (st.pc v) := by
  by_cases hvw : v = w
  · subst hvw
    rw [Function.update_self, hpc]
  · rw [Function.update_of_ne hvw]

theorem OneAtATime.sent {st : WireState} (h : OneAtATime st) {w : Writer} (hw : Alone st w)
    {bytes : Line} {pc : WriterPc} (us' : List (Line × Line))
    (hus' : ∀ u ∈ us', u ∈ st.begun)
    (hbytes : partOf (st.pc w) ++ bytes = us'.flatMap unitBytes ++ partOf pc)
    (hline : ∀ u, lineOf pc = some u → u ∈ st.begun) :
    OneAtATime (st.move w bytes pc) := by
  obtain ⟨us, hus, hwire⟩ := h.focus hw
  refine ⟨⟨us ++ us', w, ?_, ?_, ?_⟩, update_lines h.begun hline⟩
  · exact List.forall_mem_append.2 ⟨hus, hus'⟩
  · calc st.wire ++ bytes
        = us.flatMap unitBytes ++ (partOf (st.pc w) ++ bytes) := by
          rw [hwire, List.append_assoc]
      _ = (us ++ us').flatMap unitBytes ++ partOf (Function.update st.pc w pc w) := by
          rw [hbytes, Function.update_self, List.flatMap_append, List.append_assoc]
  · intro v hv
    change partOf (Function.update st.pc w pc v) = []
    rw [Function.update_of_ne hv]
    exact hw v hv

theorem OneAtATime.step {st st' : WireState} {a : WireAction} (h : OneAtATime st)
    (hstep : WireStep st a st') (hturn : InTurn st a) : OneAtATime st' := by
  cases hstep with
  | @begin w s ctrl pc =>
      refine h.same_parts rfl (update_parts (by rw [partOf_next, pc]; rfl))
        (fun u hu => by simp [WireState.enter, hu]) (update_lines (fun v u hv => ?_) ?_)
      · simp [WireState.enter, h.begun v u hv]
      · intro u hu
        rw [lineOf_next] at hu
        cases hu
        simp [WireState.enter]
  | @write w r bytes pc hwrite =>
      rcases write_cases hwrite with ⟨hpart, hline⟩ | ⟨u, hu, hwhole, hne, rfl⟩ | ⟨hhard, rfl, rfl⟩
      · have hlines : ∀ u, lineOf pc = some u → u ∈ st.begun :=
          fun u hu => h.begun w u (hline ▸ hu)
        by_cases hbytes : bytes = []
        · subst hbytes
          exact h.same_parts (List.append_nil _) (update_parts (by simpa using hpart))
            (fun _ hu => hu) (update_lines h.begun hlines)
        · have halone := hturn.1 bytes pc hwrite hbytes
          exact h.sent halone [] (by simp) (by simp [hpart]) hlines
      · have halone := hturn.1 bytes .idle hwrite hne
        have hmem := h.begun w u hu
        refine h.sent halone [u] (by simpa using hmem) ?_ (by simp [lineOf])
        rw [hwhole]
        simp [partOf]
      · refine h.same_parts (List.append_nil _) (update_parts ?_) (fun _ hu => hu)
          (update_lines h.begun (by simp [lineOf]))
        rw [hturn.2 hhard]
        rfl

/-- In every run in turn the wire carries whole lines, and only a thread that is
still writing may have left part of one behind them. -/
theorem wholeUnits_of_inTurn {as : List WireAction} {st : WireState}
    (run : Run (Restrict WireStep InTurn) .quiet as st) : WholeUnits st :=
  (Run.invariant OneAtATime (fun _ _ _ hstep h => h.step hstep.1 hstep.2) quiet_oneAtATime
    run).wholeUnits

theorem inTurn_of_idle {st : WireState} {w : Writer} {r : WriteResult}
    (hothers : ∀ v, v ≠ w → st.pc v = .idle) (hr : hardFailure r = false) :
    InTurn st (.write w r) := by
  refine ⟨fun _ _ _ _ v hv => ?_, by simp [hr]⟩
  rw [hothers v hv]
  rfl

/-- A command in two pieces, and then a line of the SMS manager. -/
theorem wholeUnits_of_inTurn_two_pieces :
    ∃ st : WireState, WholeUnits st ∧
      st.wire = text "ATI" ++ kCtrlEnter ++ (text "AT^HSMSSS=0,0,6,0" ++ kCtrlEnter) := by
  have hsms : ∀ pc : Writer → WriterPc, pc .sms = .idle → ∀ v, v ≠ .command → pc v = .idle := by
    intro pc hpc v hv
    cases v with
    | command => exact absurd rfl hv
    | sms => exact hpc
  have hcommand : ∀ pc : Writer → WriterPc, pc .command = .idle → ∀ v, v ≠ .sms → pc v = .idle := by
    intro pc hpc v hv
    cases v with
    | command => exact hpc
    | sms => exact absurd rfl hv
  have run : Run (Restrict WireStep InTurn) .quiet [] _ := .nil
  have run := run.snoc_restrict
    (WireStep.begin (w := .command) (text "ATI") kCtrlEnter rfl) trivial
  have run := run.snoc_restrict (WireStep.write (w := .command) (r := .wrote 2) rfl)
    (inTurn_of_idle (hsms _ rfl) rfl)
  have run := run.snoc_restrict (WireStep.write (w := .command) (r := .wrote 2) rfl)
    (inTurn_of_idle (hsms _ rfl) rfl)
  have run := run.snoc_restrict (WireStep.write (w := .command) (r := .wrote 1) rfl)
    (inTurn_of_idle (hsms _ rfl) rfl)
  have run := run.snoc_restrict
    (WireStep.begin (w := .sms) (text "AT^HSMSSS=0,0,6,0") kCtrlEnter rfl) trivial
  have run := run.snoc_restrict (WireStep.write (w := .sms) (r := .wrote 17) rfl)
    (inTurn_of_idle (hcommand _ rfl) rfl)
  have run := run.snoc_restrict (WireStep.write (w := .sms) (r := .wrote 1) rfl)
    (inTurn_of_idle (hcommand _ rfl) rfl)
  exact ⟨_, wholeUnits_of_inTurn run, rfl⟩

/-- A command cut by a line of the SMS manager. -/
theorem lines_mixed :
    ∃ (as : List WireAction) (st : WireState), Run WireStep .quiet as st ∧
      (∀ w, st.pc w = .idle) ∧ ¬ WholeUnits st := by
  have run : Run WireStep .quiet [] _ := .nil
  have run := run.snoc (WireStep.begin (w := .command) (text "AT+CREG=2") kCtrlEnter rfl)
  have run := run.snoc (WireStep.write (w := .command) (r := .wrote 2) rfl)
  have run := run.snoc (WireStep.begin (w := .sms) (text "AT^HSMSSS=0,0,6,0") kCtrlEnter rfl)
  have run := run.snoc (WireStep.write (w := .sms) (r := .wrote 17) rfl)
  have run := run.snoc (WireStep.write (w := .sms) (r := .wrote 1) rfl)
  have run := run.snoc (WireStep.write (w := .command) (r := .wrote 7) rfl)
  have run := run.snoc (WireStep.write (w := .command) (r := .wrote 1) rfl)
  refine ⟨_, _, run, fun w => by cases w <;> rfl, ?_⟩
  rintro ⟨us, w, hus, hwire⟩
  have hidle : ∀ pc : Writer → WriterPc, (∀ v, pc v = .idle) → partOf (pc w) = [] := by
    intro pc hpc
    rw [hpc]
    rfl
  rw [hidle _ (fun v => by cases v <;> rfl), List.append_nil] at hwire
  cases us with
  | nil => cases hwire
  | cons u us =>
      have hpre : unitBytes u <+: text "AT" ++ text "AT^HSMSSS=0,0,6,0" ++ kCtrlEnter ++
          text "+CREG=2" ++ kCtrlEnter :=
        ⟨us.flatMap unitBytes, by rw [← List.flatMap_cons, ← hwire]; rfl⟩
      have hu : u ∈ [(text "AT+CREG=2", kCtrlEnter), (text "AT^HSMSSS=0,0,6,0", kCtrlEnter)] :=
        hus u (by simp)
      rw [List.mem_cons, List.mem_singleton] at hu
      rcases hu with rfl | rfl
      · revert hpre
        decide
      · revert hpre
        decide

end Mobile.Channel.Proofs.Units
