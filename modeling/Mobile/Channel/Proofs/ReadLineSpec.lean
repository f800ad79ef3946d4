import Mobile.Channel.ReadLine
import Mathlib.Data.List.DropRight
import Mathlib.Logic.Relation

/-!
# What one `ReadLine` call does

The buffer is read through `Holds`: the cursor sees the received and unreturned
bytes followed by the sentinel.  Every buffer operation has one lemma in these
terms.  The read loop then becomes a sequence of `ReadStep`s between `View`s, in
which the buffer no longer occurs, and `readLine_spec` says how a call ends.
-/

namespace Mobile.Channel.Proofs.ReadLineSpec

open Mobile.ProofSupport.Memory Mobile.Token.Scan Mobile.Channel.ReadLine
open Relation

/-- The cursor sees the NUL-free bytes `data`, then the terminator at `p_read`. -/
structure Holds (b : LineBuffer) (data : List UInt8) : Prop where
  nul_free : (0 : UInt8) ∉ data
  pRead_eq : b.pRead = b.kATBufferCur + data.length
  unread_eq : ∃ tail, b.unread = data ++ 0 :: tail

namespace Holds

variable {b : LineBuffer} {data : List UInt8}

theorem length_tail {tail : List UInt8} (h : Holds b data)
    (htail : b.unread = data ++ 0 :: tail) : b.pRead + tail.length = maxAtResponse := by
  have hbound := Object.bound_of_view htail (by simp)
  have := h.pRead_eq
  simp only [List.length_cons] at hbound
  omega

theorem pRead_le (h : Holds b data) : b.pRead ≤ maxAtResponse := by
  obtain ⟨tail, htail⟩ := h.unread_eq
  have := h.length_tail htail
  omega

theorem cString_unread (h : Holds b data) : cString b.unread = data := by
  obtain ⟨tail, htail⟩ := h.unread_eq
  rw [htail, cString_append_zero h.nul_free]

theorem view_pRead (h : Holds b data) : (b.kATBuffer.view b.pRead).head? = some 0 := by
  obtain ⟨tail, htail⟩ := h.unread_eq
  have hview := Object.view_add htail
  rw [h.pRead_eq, hview]
  rfl

theorem initial : Holds LineBuffer.initial [] := by
  refine ⟨by simp, rfl, List.replicate maxAtResponse 0, ?_⟩
  change (Object.zero _).view 0 = _
  rw [Object.view_zero]
  rfl

theorem reset (b : LineBuffer) :
    ∃ b', b.reset = some b' ∧ Holds b' [] ∧ b'.kATBufferCur = 0 := by
  obtain ⟨buf, tail, hstore, hview⟩ :=
    Object.view_store_front b.kATBuffer [0] (by simp)
  refine ⟨⟨buf, 0, 0⟩, by simp [LineBuffer.reset, hstore], ⟨by simp, rfl, tail, ?_⟩, rfl⟩
  exact hview

theorem skipNewlines (h : Holds b data) :
    ∃ b', b.skipNewlines = some b' ∧ Holds b' (data.dropWhile isEol) ∧
      b'.kATBufferCur = b.kATBufferCur + (data.takeWhile isEol).length := by
  obtain ⟨tail, htail⟩ := h.unread_eq
  have hsplit := List.takeWhile_append_dropWhile (p := isEol) (l := data)
  have hunread : b.unread =
      data.takeWhile isEol ++ (data.dropWhile isEol ++ 0 :: tail) := by
    rw [← List.append_assoc, hsplit, htail]
  have hscan : scan isEol b.unread = some (data.takeWhile isEol).length := by
    -- the scan stops at the first other byte, or at the terminator
    rw [hunread]
    have hall : ∀ c ∈ data.takeWhile isEol, isEol c = true := fun c hc =>
      List.all_eq_true.mp List.all_takeWhile c hc
    cases hdrop : data.dropWhile isEol with
    | nil => exact scan_append_cons hall (by decide)
    | cons c rest =>
        have hc : isEol c = false := by
          have := List.head_dropWhile_not isEol (l := data) (by simp [hdrop])
          simpa [hdrop] using this
        exact scan_append_cons hall hc
  refine ⟨{ b with kATBufferCur := b.kATBufferCur + (data.takeWhile isEol).length },
    by simp [LineBuffer.skipNewlines, hscan], ⟨?_, ?_, tail, ?_⟩, rfl⟩
  · exact fun h0 => h.nul_free ((List.dropWhile_sublist isEol).subset h0)
  · have hlen := congrArg List.length hsplit
    rw [List.length_append] at hlen
    simp only [h.pRead_eq]
    omega
  · exact Object.view_add hunread

theorem moveUp (h : Holds b data) :
    ∃ b', b.moveUp = some b' ∧ Holds b' data ∧ b'.kATBufferCur = 0 := by
  obtain ⟨tail, htail⟩ := h.unread_eq
  have hlen : strlen b.unread = some data.length := by
    rw [htail, strlen_append_zero h.nul_free]
  have htake : b.unread.take (data.length + 1) = data ++ [0] := by
    rw [htail, List.take_append]
    simp
  have hfit : (data ++ [(0 : UInt8)]).length ≤ maxAtResponse + 1 := by
    have := h.length_tail htail
    have := h.pRead_eq
    simp only [List.length_append, List.length_singleton]
    omega
  obtain ⟨buf, rest, hstore, hview⟩ := Object.view_store_front b.kATBuffer _ hfit
  refine ⟨⟨buf, 0, data.length⟩, by simp [LineBuffer.moveUp, hlen, htake, hstore],
    ⟨h.nul_free, by simp, rest, ?_⟩, rfl⟩
  change buf.view 0 = data ++ 0 :: rest
  rw [hview]
  simp

theorem receive (h : Holds b data) {chunk : List UInt8} (hchunk : (0 : UInt8) ∉ chunk)
    (hfit : b.pRead + chunk.length ≤ maxAtResponse) :
    ∃ b', b.receive chunk = some b' ∧ Holds b' (data ++ chunk) ∧
      b'.kATBufferCur = b.kATBufferCur := by
  obtain ⟨tail, htail⟩ := h.unread_eq
  have htl := h.length_tail htail
  have hroom : (chunk ++ [(0 : UInt8)]).length ≤ (0 :: tail).length := by
    simp only [List.length_append, List.length_cons, List.length_nil]
    omega
  obtain ⟨buf, hstore, hview⟩ := Object.view_store _ htail hroom (by simp)
  rw [← h.pRead_eq] at hstore
  refine ⟨{ b with kATBuffer := buf, pRead := b.pRead + chunk.length },
    by simp [LineBuffer.receive, hstore], ⟨?_, ?_, ?_⟩, rfl⟩
  · simp [h.nul_free, hchunk]
  · simp only [h.pRead_eq, List.length_append]
    omega
  · refine ⟨(0 :: tail).drop (chunk ++ [(0 : UInt8)]).length, ?_⟩
    change buf.view b.kATBufferCur = _
    rw [hview]
    simp only [List.append_assoc, List.singleton_append]

theorem resetIfFull (h : Holds b data) :
    ∃ b' data', b.resetIfFull = some b' ∧ Holds b' data' ∧
      ((b.pRead = maxAtResponse ∧ data' = [] ∧ b'.kATBufferCur = 0) ∨
        (b.pRead ≠ maxAtResponse ∧ data' = data ∧ b' = b)) := by
  by_cases hfull : b.pRead = maxAtResponse
  · obtain ⟨b', hreset, hb', hcur⟩ := Holds.reset b
    exact ⟨b', [], by rw [LineBuffer.resetIfFull, if_pos hfull, hreset], hb',
      Or.inl ⟨hfull, rfl, hcur⟩⟩
  · exact ⟨b, data, by rw [LineBuffer.resetIfFull, if_neg hfull], h,
      Or.inr ⟨hfull, rfl, rfl⟩⟩

/-- Taking a line that ends at a CR or LF consumes exactly that byte. -/
theorem takeLine {l rest : List UInt8} {c : UInt8} (h : Holds b (l ++ c :: rest)) :
    ∃ b', b.takeLine l.length = some (l, b') ∧ Holds b' rest := by
  obtain ⟨tail, htail⟩ := h.unread_eq
  have hunread : b.unread = l ++ (c :: (rest ++ 0 :: tail)) := by simp [htail]
  have hl : (0 : UInt8) ∉ l := fun h0 => h.nul_free (by simp [h0])
  obtain ⟨buf, hstore, hview⟩ :=
    Object.view_store [0] hunread (by simp) (by simp)
  have hview' : buf.view b.kATBufferCur = (l ++ [0]) ++ (rest ++ 0 :: tail) := by
    simp [hview]
  refine ⟨{ b with kATBuffer := buf, kATBufferCur := b.kATBufferCur + l.length + 1 },
    ?_, ⟨?_, ?_, tail, ?_⟩⟩
  · have hline : cString (buf.view b.kATBufferCur) = l := by
      rw [hview, List.singleton_append, cString_append_zero hl]
    simp [LineBuffer.takeLine, hstore, hline]
  · exact fun h0 => h.nul_free (by simp [h0])
  · have := h.pRead_eq
    simp only [List.length_append, List.length_cons] at this ⊢
    omega
  · have := Object.view_add hview'
    simpa [LineBuffer.unread, Nat.add_assoc] using this

/-- Taking the prompt puts the cursor one behind the end of the data. -/
theorem takeLine_smsPrompt (h : Holds b smsPrompt) :
    ∃ b', b.takeLine 2 = some (smsPrompt, b') ∧ b'.pRead = b.pRead ∧
      b'.kATBufferCur = b.pRead + 1 := by
  obtain ⟨tail, htail⟩ := h.unread_eq
  obtain ⟨buf, hstore, hview⟩ :=
    Object.view_store [0] htail (by simp) (by simp)
  refine ⟨{ b with kATBuffer := buf, kATBufferCur := b.kATBufferCur + 2 + 1 }, ?_, rfl, ?_⟩
  · have hline : cString (buf.view b.kATBufferCur) = smsPrompt := by
      rw [hview, List.singleton_append, cString_append_zero h.nul_free]
    have hstore' : b.kATBuffer.store (b.kATBufferCur + 2) [0] = some buf := hstore
    simp [LineBuffer.takeLine, hstore', hline]
  · have := h.pRead_eq
    simp only [smsPrompt, List.length_cons, List.length_nil] at this
    simp only
    omega

end Holds

/-! ## The read loop without its buffer -/

/-- The received bytes, the unread ones among them, and how many newline bytes
the buffer still keeps in front of the unread ones. -/
structure View where
  received : List UInt8
  pending : List UInt8
  skipped : Nat

inductive ReadStep : View → View → Prop
  | receive {v : View} {chunk : List UInt8} (hnone : nextEol v.pending = none)
      (hchunk : chunk ≠ []) :
      ReadStep v ⟨v.received ++ chunk, (v.pending ++ chunk).dropWhile isEol,
        v.skipped + ((v.pending ++ chunk).takeWhile isEol).length⟩
  | discard {v : View} (hnone : nextEol v.pending = none)
      (hfull : v.skipped + v.pending.length = maxAtResponse) :
      ReadStep v ⟨v.received, [], 0⟩

theorem ReadStep.received_grows {v w : View} (h : ReadStep v w) :
    v.received <+: w.received := by
  cases h with
  | receive => exact List.prefix_append _ _
  | discard => exact List.prefix_rfl

structure Shows (s : Session) (v : View) : Prop where
  holds : Holds s.buffer v.pending
  received_eq : s.received = v.received
  cur_eq : s.buffer.kATBufferCur = v.skipped

/-- How a call that arrived at the view `v` ends, and in which session. -/
inductive Ends (s : Session) (v : View) : Outcome → Prop
  | line {l rest : List UInt8} {c : UInt8} (hpending : v.pending = l ++ c :: rest)
      (hne : l ≠ []) (hl : ∀ d ∈ l, isEol d = false) (hc : isEol c = true)
      (hholds : Holds s.buffer rest) (hscan : smsPrompt ∉ s.scanned) : Ends s v (.line l)
  | prompt (hpending : v.pending = smsPrompt)
      (hcur : s.buffer.kATBufferCur = s.buffer.pRead + 1)
      (hscan : smsPrompt ∈ s.scanned) : Ends s v (.line smsPrompt)
  | null {cause : ReadEvent} (hnone : nextEol v.pending = none)
      (hholds : Holds s.buffer v.pending) (hscan : smsPrompt ∉ s.scanned) :
      Ends s v (.null cause)
  | waiting (hnone : nextEol v.pending = none)
      (hholds : Holds s.buffer v.pending) (hscan : smsPrompt ∉ s.scanned) :
      Ends s v .waiting

def Trimmed (v : View) : Prop := v.pending.dropWhile isEol = v.pending

theorem trimmed_dropWhile (r data : List UInt8) (k : Nat) :
    Trimmed ⟨r, data.dropWhile isEol, k⟩ := by
  unfold Trimmed
  exact List.dropWhile_idempotent isEol data

theorem Trimmed.ne_nil {v : View} {l rest : List UInt8} {c : UInt8} (h : Trimmed v)
    (hpending : v.pending = l ++ c :: rest) (hc : isEol c = true) : l ≠ [] := by
  rintro rfl
  unfold Trimmed at h
  rw [hpending, List.nil_append, List.dropWhile_cons_of_pos hc] at h
  have hlen := congrArg List.length h
  have hle := (List.dropWhile_sublist isEol (l := rest)).length_le
  simp only [List.length_cons] at hlen
  omega

theorem finish_spec {s : Session} {v : View} {k : Nat} (hs : Holds s.buffer v.pending)
    (htrim : Trimmed v) (hk : nextEol v.pending = some k)
    (hscan : smsPrompt ∈ s.scanned ↔ v.pending = smsPrompt) :
    Ends (s.finish k).2 v (s.finish k).1 ∧ (s.finish k).2.received = s.received ∧
      (s.finish k).2.wire = s.wire := by
  by_cases hp : v.pending = smsPrompt
  · have hk2 : k = 2 := by simpa [nextEol, hp] using hk.symm
    subst hk2
    obtain ⟨b', htake, hpr, hcur⟩ := Holds.takeLine_smsPrompt (hp ▸ hs)
    rw [Session.finish, htake]
    exact ⟨.prompt hp (by rw [hcur, hpr]) (hscan.mpr hp), rfl, rfl⟩
  · rcases split_at_eol v.pending with hnone | ⟨l, c, rest, hpending, hl, hc⟩
    · rw [nextEol_eq_none.mpr ⟨hp, hnone⟩] at hk
      cases hk
    · have hkl : some k = some l.length := by
        rw [← hk, nextEol, if_neg hp, hpending, findIdx?_isEol_split hl hc]
      obtain rfl : k = l.length := Option.some.inj hkl
      obtain ⟨b', htake, hb'⟩ := Holds.takeLine (hpending ▸ hs)
      rw [Session.finish, htake]
      exact ⟨.line hpending (htrim.ne_nil hpending hc) hl hc hb' (fun h => hp (hscan.mp h)),
        rfl, rfl⟩

/-- A search logs its argument, so it is the only one that can add the prompt. -/
theorem smsPrompt_mem_append {scanned : List Line} (h : smsPrompt ∉ scanned) (data : Line) :
    smsPrompt ∈ scanned ++ [data] ↔ data = smsPrompt := by
  rw [List.mem_append, List.mem_singleton]
  exact ⟨fun hmem => (hmem.resolve_left h).symm, fun heq => Or.inr heq.symm⟩

theorem findEOL_spec (s : Session) {b : LineBuffer} {data : List UInt8}
    (hb : Holds b data) :
    s.findEOL b = some (nextEol data,
      { s with buffer := b, scanned := s.scanned ++ [data] }) := by
  obtain ⟨tail, htail⟩ := hb.unread_eq
  have hfind : atFindNextEOL b.unread = some (nextEol data) := by
    rw [htail, atFindNextEOL_append_zero hb.nul_free]
  simp [Session.findEOL, hfind, hb.cString_unread]

theorem accept_spec {s : Session} {v : View} (hs : Shows s v) {chunk : List UInt8}
    (hchunk : (0 : UInt8) ∉ chunk) (hfit : s.buffer.pRead + chunk.length ≤ maxAtResponse) :
    ∃ s', s.accept chunk = some (nextEol ((v.pending ++ chunk).dropWhile isEol), s') ∧
      Shows s' ⟨v.received ++ chunk, (v.pending ++ chunk).dropWhile isEol,
        v.skipped + ((v.pending ++ chunk).takeWhile isEol).length⟩ ∧
      s'.scanned = s.scanned ++ [(v.pending ++ chunk).dropWhile isEol] ∧
      s'.wire = s.wire.drop chunk.length := by
  obtain ⟨b₁, hrecv, hb₁, hcur₁⟩ := hs.holds.receive hchunk hfit
  obtain ⟨b₂, hskip, hb₂, hcur₂⟩ := hb₁.skipNewlines
  have hfind := findEOL_spec
    { s with wire := s.wire.drop chunk.length, received := s.received ++ chunk } hb₂
  have haccept : s.accept chunk = some (nextEol ((v.pending ++ chunk).dropWhile isEol),
      { s with buffer := b₂, wire := s.wire.drop chunk.length,
               received := s.received ++ chunk,
               scanned := s.scanned ++ [(v.pending ++ chunk).dropWhile isEol] }) := by
    simp only [Session.accept, hrecv, hskip, Option.bind_eq_bind, Option.bind_some]
    exact hfind
  refine ⟨_, haccept, ⟨hb₂, ?_, ?_⟩, rfl, rfl⟩
  · simp [hs.received_eq]
  · simp only [hcur₂, hcur₁, hs.cur_eq]

theorem accept_wire_spec {s : Session} {v : View} {count : Nat} {chunk : List UInt8}
    (hs : Shows s v) (hnone : nextEol v.pending = none) (hroom : s.buffer.pRead < maxAtResponse)
    (hwire : (0 : UInt8) ∉ s.wire) (hscan : smsPrompt ∉ s.scanned)
    (htake : chunk = s.wire.take (min count (maxAtResponse - s.buffer.pRead)))
    (hchunk : chunk ≠ []) :
    ∃ s' v', ({ s with reads := s.reads ++ [.data count] } : Session).accept chunk =
        some (nextEol v'.pending, s') ∧
      ReadStep v v' ∧ Shows s' v' ∧ Trimmed v' ∧
      (smsPrompt ∈ s'.scanned ↔ v'.pending = smsPrompt) ∧ (0 : UInt8) ∉ s'.wire ∧
      s'.received ++ s'.wire = s.received ++ s.wire := by
  have hnul : (0 : UInt8) ∉ chunk := fun h0 => hwire (List.mem_of_mem_take (htake ▸ h0))
  have hlen : chunk.length ≤ maxAtResponse - s.buffer.pRead := by
    rw [htake, List.length_take]
    omega
  have hsplit : chunk ++ s.wire.drop chunk.length = s.wire := by
    rw [htake, List.length_take, List.take_eq_take_min, List.take_append_drop]
  obtain ⟨s', haccept, hs', hscan', hwire'⟩ := accept_spec
    (s := { s with reads := s.reads ++ [.data count] })
    ⟨hs.holds, hs.received_eq, hs.cur_eq⟩ hnul (by simp only; omega)
  refine ⟨s', _, haccept, .receive hnone hchunk, hs', trimmed_dropWhile _ _ _, ?_, ?_, ?_⟩
  · rw [hscan']
    exact smsPrompt_mem_append hscan _
  · rw [hwire']
    exact fun h0 => hwire (List.mem_of_mem_drop h0)
  · rw [hs'.received_eq, hwire', ← hs.received_eq, List.append_assoc, hsplit]

theorem enterLoop_spec {s : Session} {v : View} (hs : Shows s v) (htrim : Trimmed v)
    (hnone : nextEol v.pending = none) :
    ∃ s' v', s.enterLoop = some s' ∧ ReflTransGen ReadStep v v' ∧ Shows s' v' ∧
      Trimmed v' ∧ nextEol v'.pending = none ∧ s'.buffer.pRead < maxAtResponse ∧
      s'.scanned = s.scanned ∧ s'.received = s.received ∧ s'.wire = s.wire := by
  obtain ⟨b', data', hreset, hb', hcase⟩ := hs.holds.resetIfFull
  have hpr := hs.holds.pRead_eq
  rw [hs.cur_eq] at hpr
  have hle := hs.holds.pRead_le
  refine ⟨{ s with buffer := b' }, ⟨v.received, data', b'.kATBufferCur⟩,
    by simp [Session.enterLoop, hreset], ?_, ⟨hb', hs.received_eq, rfl⟩, ?_⟩
  · rcases hcase with ⟨hfull, rfl, hcur⟩ | ⟨-, rfl, rfl⟩
    · rw [hcur]
      exact .single (.discard hnone (by omega))
    · rw [hs.cur_eq]
  · rcases hcase with ⟨-, rfl, hcur⟩ | ⟨hfull, rfl, rfl⟩
    · refine ⟨rfl, rfl, ?_, rfl, rfl, rfl⟩
      have := hb'.pRead_eq
      simp only [hcur, List.length_nil] at this
      simp only [this, maxAtResponse]
      omega
    · exact ⟨htrim, hnone, by simp only; omega, rfl, rfl, rfl⟩

/-- From the view `v` the call runs through `ReadStep`s, ends with `r`, and every
byte of the stream is afterwards either received or still on the wire. -/
def Runs (s : Session) (v : View) (r : Outcome × Session) : Prop :=
  ∃ v', ReflTransGen ReadStep v v' ∧ Ends r.2 v' r.1 ∧ r.2.received = v'.received ∧
    r.2.received ++ r.2.wire = s.received ++ s.wire

/-- The read loop is a run of `ReadStep`s that ends as `Ends` says. -/
theorem readLoop_spec (events : List ReadEvent) {s : Session} {v : View} (hs : Shows s v)
    (htrim : Trimmed v) (hnone : nextEol v.pending = none)
    (hroom : s.buffer.pRead < maxAtResponse) (hwire : (0 : UInt8) ∉ s.wire)
    (hscan : smsPrompt ∉ s.scanned) :
    Runs s v (s.readLoop Session.finish events) := by
  induction events generalizing s v with
  | nil => exact ⟨v, .refl, .waiting hnone hs.holds hscan, hs.received_eq, rfl⟩
  | cons ev events ih =>
      match ev with
      | .eof => exact ⟨v, .refl, .null hnone hs.holds hscan, hs.received_eq, rfl⟩
      | .error .eagain => exact ⟨v, .refl, .null hnone hs.holds hscan, hs.received_eq, rfl⟩
      | .error .ewouldblock =>
          exact ⟨v, .refl, .null hnone hs.holds hscan, hs.received_eq, rfl⟩
      | .error (.other _) =>
          exact ⟨v, .refl, .null hnone hs.holds hscan, hs.received_eq, rfl⟩
      | .error .eintr =>
          exact ih (s := { s with reads := s.reads ++ [.error .eintr] })
            ⟨hs.holds, hs.received_eq, hs.cur_eq⟩ htrim hnone hroom hwire hscan
      | .data count =>
          rw [Session.readLoop]
          set chunk := s.wire.take (min count (maxAtResponse - s.buffer.pRead)) with hdef
          by_cases hchunk : chunk = []
          · rw [if_pos hchunk]
            exact ih hs htrim hnone hroom hwire hscan
          · rw [if_neg hchunk]
            obtain ⟨s₁, v₁, haccept, hstep, hs₁, htrim₁, hscan₁, hwire₁, hall⟩ :=
              accept_wire_spec hs hnone hroom hwire hscan hdef hchunk
            simp only [haccept]
            cases hk : nextEol v₁.pending with
            | some k =>
                obtain ⟨hends, hrec, hw⟩ := finish_spec (s := { s₁ with events := events })
                  hs₁.holds htrim₁ hk hscan₁
                exact ⟨v₁, .single hstep, hends, by rw [hrec]; exact hs₁.received_eq,
                  by rw [hrec, hw]; exact hall⟩
            | none =>
                obtain ⟨s₂, v₂, hloop, hsteps, hs₂, htrim₂, hnone₂, hroom₂, hsc, hr, hw⟩ :=
                  enterLoop_spec hs₁ htrim₁ hk
                have hscan₂ : smsPrompt ∉ s₂.scanned := by
                  rw [hsc, hscan₁]
                  exact (nextEol_eq_none.mp hk).1
                simp only [hloop]
                obtain ⟨v', hrun, hends, hrec, hwhole⟩ :=
                  ih hs₂ htrim₂ hnone₂ hroom₂ (hw ▸ hwire₁) hscan₂
                refine ⟨v', (ReflTransGen.single hstep).trans (hsteps.trans hrun), hends, hrec, ?_⟩
                rw [hwhole, hr, hw, hall]

theorem readLine_of_prepare_none {s s' : Session} {v : View}
    (hprep : s.prepare = some (none, s')) (hs' : Shows s' v) (htrim : Trimmed v)
    (hnone : nextEol v.pending = none) (hwire : (0 : UInt8) ∉ s.wire)
    (hscan : smsPrompt ∉ s'.scanned) (hr : s'.received = s.received)
    (hw : s'.wire = s.wire) : Runs s v s.readLine := by
  obtain ⟨s₂, v₂, henter, hsteps, hs₂, htrim₂, hnone₂, hroom₂, hsc, hr₂, hw₂⟩ :=
    enterLoop_spec hs' htrim hnone
  obtain ⟨v', hrun, hends, hrec, hwhole⟩ := readLoop_spec s₂.events hs₂ htrim₂ hnone₂ hroom₂
    (by rw [hw₂, hw]; exact hwire) (by rw [hsc]; exact hscan)
  have heq : s.readLine = s₂.readLoop Session.finish s₂.events := by
    simp only [Session.readLine, Session.readLineTo, hprep, henter]
  rw [heq]
  exact ⟨v', hsteps.trans hrun, hends, hrec, by rw [hwhole, hr₂, hw₂, hr, hw]⟩

/-- One call, from a buffer that holds `data` and has not met a prompt yet. -/
theorem readLine_spec {s : Session} {data : List UInt8} (hs : Holds s.buffer data)
    (hwire : (0 : UInt8) ∉ s.wire) (hscan : smsPrompt ∉ s.scanned) :
    Runs s ⟨s.received, data.dropWhile isEol, 0⟩ s.readLine := by
  have htrim := trimmed_dropWhile s.received data 0
  obtain ⟨tail, htail⟩ := hs.unread_eq
  cases data with
  | nil =>
      obtain ⟨b', hreset, hb', hcur⟩ := Holds.reset s.buffer
      have hprep : s.prepare = some (none, { s with buffer := b' }) := by
        simp [Session.prepare, htail, hreset]
      exact readLine_of_prepare_none hprep ⟨hb', rfl, hcur⟩ htrim rfl hwire hscan rfl rfl
  | cons c data =>
      have hc : c ≠ 0 := fun h => hs.nul_free (by simp [h])
      obtain ⟨b', hskip, hb', -⟩ := hs.skipNewlines
      have hfind := findEOL_spec s hb'
      cases hk : nextEol ((c :: data).dropWhile isEol) with
      | some k =>
          have hprep : s.prepare = some (some k, { s with buffer := b', scanned :=
              s.scanned ++ [(c :: data).dropWhile isEol] }) := by
            simp [Session.prepare, htail, hc, hskip, hfind, hk]
          obtain ⟨hends, hrec, hw⟩ := finish_spec (s := { s with buffer := b', scanned :=
              s.scanned ++ [(c :: data).dropWhile isEol] }) hb' htrim hk
            (smsPrompt_mem_append hscan _)
          have heq : s.readLine = ({ s with buffer := b', scanned :=
              s.scanned ++ [(c :: data).dropWhile isEol] } : Session).finish k := by
            simp only [Session.readLine, Session.readLineTo, hprep]
          rw [heq]
          exact ⟨_, .refl, hends, hrec, by rw [hrec, hw]⟩
      | none =>
          obtain ⟨b₂, hmove, hb₂, hcur⟩ := hb'.moveUp
          have hprep : s.prepare = some (none, { s with buffer := b₂, scanned :=
              s.scanned ++ [(c :: data).dropWhile isEol] }) := by
            simp [Session.prepare, htail, hc, hskip, hfind, hk, hmove]
          refine readLine_of_prepare_none hprep ⟨hb₂, rfl, hcur⟩ htrim hk hwire ?_ rfl rfl
          exact fun hmem => (nextEol_eq_none.mp hk).1 ((smsPrompt_mem_append hscan _).mp hmem)

end Mobile.Channel.Proofs.ReadLineSpec
