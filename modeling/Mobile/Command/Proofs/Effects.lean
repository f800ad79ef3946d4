import Mobile.Command.Operations

/-!
# The effects of the operations' parts

What each part of an operation does to the trace, so that the operations
themselves are evaluated from these equations and never unfolded to the bottom.
-/

namespace Mobile.Command.Proofs.Effects

open Mobile.Token.Scan Mobile.Token.Tokenizer Mobile.Channel.Types Mobile.Channel.SendCommand
open Mobile.Command.Callbacks Mobile.Command.Operations

section Monad

variable {α β : Type} {x : Op α} {f : α → Op β} {w w' : World}

theorem bind_ok {a : α} (h : x.run w = (.ok a, w')) : (x >>= f).run w = (f a).run w' := by
  simp only [bind, h]

theorem bind_error {c : Crash} (h : x.run w = (.error c, w')) :
    (x >>= f).run w = (.error c, w') := by
  simp only [bind, h]

theorem pure_run (a : α) : (pure a : Op α).run w = (.ok a, w) := rfl

theorem log_run (ev : OpEvent) : (Op.log ev).run w = (.ok (), w.log ev) := rfl

end Monad

def logs (w : World) (evs : List OpEvent) : World := { w with trace := w.trace ++ evs }

def sends (w : World) (evs : List OpEvent) : World :=
  { w with sent := w.sent + 1, trace := w.trace ++ evs }

@[simp] theorem logs_logs (w : World) (xs ys : List OpEvent) :
    logs (logs w xs) ys = logs w (xs ++ ys) := by
  simp [logs]

@[simp] theorem logs_sends (w : World) (xs ys : List OpEvent) :
    logs (sends w xs) ys = sends w (xs ++ ys) := by
  simp [logs, sends]

@[simp] theorem logs_trace (w : World) (evs : List OpEvent) :
    (logs w evs).trace = w.trace ++ evs := rfl

@[simp] theorem sends_trace (w : World) (evs : List OpEvent) :
    (sends w evs).trace = w.trace ++ evs := rfl

section Parts

variable {w : World} {call : Call} {p : Ptr} {r : ATResponse} {id : Nat}

theorem send_resp (h : (w.replies w.sent).out = .resp r) :
    (send call p).run w = (.ok ((w.replies w.sent).ret, .resp w.sent r),
      sends w [.sent call (w.replies w.sent), .handOut w.sent]) := by
  simp [send, h, World.log, sends]

theorem send_null (h : (w.replies w.sent).out = .null) :
    (send call p).run w = (.ok ((w.replies w.sent).ret, .null),
      sends w [.sent call (w.replies w.sent)]) := by
  simp [send, h, World.log, sends]

theorem send_unassigned (h : (w.replies w.sent).out = .unassigned) :
    (send call p).run w = (.ok ((w.replies w.sent).ret, p),
      sends w [.sent call (w.replies w.sent)]) := by
  simp [send, h, World.log, sends]

theorem send_missing (h : ∀ r, (w.replies w.sent).out ≠ .resp r) :
    (send call .null).run w = (.ok ((w.replies w.sent).ret, .null),
      sends w [.sent call (w.replies w.sent)]) := by
  cases hout : (w.replies w.sent).out with
  | resp r => exact absurd hout (h r)
  | null => exact send_null hout
  | unassigned => exact send_unassigned hout

theorem deref_resp (h : .free id ∉ w.trace) :
    (deref (.resp id r)).run w = (.ok r, logs w [.use id]) := by
  simp [deref, h, World.log, logs]

theorem freeResp_resp : (freeResp (.resp id r)).run w = (.ok (), logs w [.free id]) := rfl

theorem failedReply_resp {ret : Int} (hret : 0 ≤ ret) (h : .free id ∉ w.trace) :
    (failedReply ret (.resp id r)).run w = (.ok (r.success == 0),
      logs w [.use id, .tested ret (r.success == 0)]) := by
  have hneg : ¬ ret < 0 := by omega
  unfold failedReply
  rw [if_neg hneg, bind_ok (deref_resp h), bind_ok (pure_run _), bind_ok (log_run _), pure_run]
  simp [World.log, logs]

theorem failedReply_crash {ret : Int} (hret : 0 ≤ ret) {c : Crash} {w' : World}
    (h : (deref p).run w = (.error c, w')) : (failedReply ret p).run w = (.error c, w') := by
  have hneg : ¬ ret < 0 := by omega
  unfold failedReply
  rw [if_neg hneg, bind_error h]

theorem failedQuery_nonzero {ret : Int} (hret : ret ≠ 0) :
    (failedQuery ret p).run w = (.ok true, logs w [.tested ret true]) := by
  unfold failedQuery
  rw [if_pos hret, bind_ok (pure_run _), bind_ok (log_run _), pure_run]
  rfl

theorem failedQuery_resp (h : .free id ∉ w.trace) :
    (failedQuery 0 (.resp id r)).run w = (.ok (r.success == 0),
      logs w [.use id, .tested 0 (r.success == 0)]) := by
  unfold failedQuery
  rw [if_neg (by simp), bind_ok (deref_resp h), bind_ok (pure_run _), bind_ok (log_run _), pure_run]
  simp [World.log, logs]

theorem failedQuery_crash {c : Crash} {w' : World} (h : (deref p).run w = (.error c, w')) :
    (failedQuery 0 p).run w = (.error c, w') := by
  unfold failedQuery
  rw [if_neg (by simp), bind_error h]

theorem cmeError_some {cme : Int} (hcme : getCmeError r = some cme) (h : .free id ∉ w.trace) :
    (Calls.cmeError (.resp id r)).run w = (.ok cme, logs w [.use id]) := by
  simp only [Calls.cmeError]
  rw [bind_ok (deref_resp h), hcme]
  rfl

theorem cmeError_none (hcme : getCmeError r = none) (h : .free id ∉ w.trace) :
    (Calls.cmeError (.resp id r)).run w = (.error .nullCursor, logs w [.use id]) := by
  simp only [Calls.cmeError]
  rw [bind_ok (deref_resp h), hcme]
  rfl

theorem firstLine_cons {line : Line} {lines : List Line} (hr : r.intermediates = line :: lines)
    (h : .free id ∉ w.trace) :
    (firstLine (.resp id r)).run w = (.ok line, logs w [.use id]) := by
  rw [firstLine, bind_ok (deref_resp h), hr, pure_run]

theorem firstLine_nil (hr : r.intermediates = []) (h : .free id ∉ w.trace) :
    (firstLine (.resp id r)).run w = (.error .nullIntermediates, logs w [.use id]) := by
  rw [firstLine, bind_ok (deref_resp h), hr]
  rfl

end Parts

/-! ### The trace only grows -/

def Grows {α : Type} (x : Op α) : Prop := ∀ w, w.trace <+: (x.run w).2.trace

section Grows

variable {α β : Type}

theorem grows_pure (a : α) : Grows (pure a : Op α) := fun _ => List.prefix_rfl

theorem Grows.bind {x : Op α} {f : α → Op β} (hx : Grows x) (hf : ∀ a, Grows (f a)) :
    Grows (x >>= f) := by
  intro w
  cases hrun : x.run w with
  | mk res w' =>
      have hgrow := hx w
      rw [hrun] at hgrow
      cases res with
      | ok a =>
          rw [bind_ok hrun]
          exact hgrow.trans (hf a w')
      | error c =>
          rw [bind_error hrun]
          exact hgrow

theorem Grows.ite {c : Prop} [Decidable c] {x y : Op α} (hx : Grows x) (hy : Grows y) :
    Grows (if c then x else y) := by
  split
  · exact hx
  · exact hy

theorem grows_log (ev : OpEvent) : Grows (Op.log ev) := fun _ => List.prefix_append _ _

theorem grows_crash (c : Crash) : Grows (Op.crash c : Op α) := fun _ => List.prefix_rfl

theorem grows_tok (x : Option α) : Grows (tok x) := by
  cases x with
  | none => exact grows_crash _
  | some a => exact grows_pure a

theorem grows_send (call : Call) (p : Ptr) : Grows (send call p) := by
  intro w
  cases hout : (w.replies w.sent).out with
  | unassigned => rw [send_unassigned hout]; exact List.prefix_append _ _
  | null => rw [send_null hout]; exact List.prefix_append _ _
  | resp r => rw [send_resp hout]; exact List.prefix_append _ _

theorem grows_sendAll (cmds : List String) : Grows (sendAll cmds) := by
  induction cmds with
  | nil => exact grows_pure ()
  | cons cmd cmds ih => exact Grows.bind (fun _ => List.prefix_append _ _) fun _ => ih

theorem grows_deref (p : Ptr) : Grows (deref p) := by
  cases p with
  | unassigned => exact grows_crash _
  | null => exact grows_crash _
  | resp id r =>
      intro w
      unfold deref
      dsimp only
      split <;> exact List.prefix_append _ _

theorem grows_freeResp (p : Ptr) : Grows (freeResp p) := by
  cases p with
  | unassigned => exact grows_crash _
  | null => exact grows_pure ()
  | resp id r => exact grows_log _

theorem grows_failedReply (ret : Int) (p : Ptr) : Grows (failedReply ret p) :=
  Grows.ite ((grows_pure true).bind fun _ => (grows_log _).bind fun _ => grows_pure _)
    ((grows_deref p).bind fun _ => (grows_pure _).bind fun _ =>
      (grows_log _).bind fun _ => grows_pure _)

theorem grows_failedQuery (ret : Int) (p : Ptr) : Grows (failedQuery ret p) :=
  Grows.ite ((grows_pure true).bind fun _ => (grows_log _).bind fun _ => grows_pure _)
    ((grows_deref p).bind fun _ => (grows_pure _).bind fun _ =>
      (grows_log _).bind fun _ => grows_pure _)

theorem grows_cmeError (p : Ptr) : Grows (Calls.cmeError p : Op Int) :=
  (grows_deref p).bind fun _ => grows_tok _

theorem grows_firstLine (p : Ptr) : Grows (firstLine p) := by
  refine (grows_deref p).bind fun r => ?_
  split
  · exact grows_pure _
  · exact grows_crash _

/-- The first command of an operation is in its trace. -/
theorem sent_mem {call : Call} {p : Ptr} {f : Int × Ptr → Op α} (hf : ∀ a, Grows (f a))
    (w : World) :
    .sent call (w.replies w.sent) ∈ ((send call p >>= f).run w).2.trace := by
  have hmem : ∀ a evs, .sent call (w.replies w.sent) ∈
      ((f a).run (sends w (.sent call (w.replies w.sent) :: evs))).2.trace :=
    fun a evs => (hf a _).subset (by simp)
  cases hout : (w.replies w.sent).out with
  | unassigned => rw [bind_ok (send_unassigned hout)]; exact hmem _ []
  | null => rw [bind_ok (send_null hout)]; exact hmem _ []
  | resp r => rw [bind_ok (send_resp hout)]; exact hmem _ _

end Grows

/-! ### The query of a line -/

section Query

variable {α : Type} {w : World} {store : Int → Int} {cmd pre : Line} {p : Ptr} {failure : α}
  {read : Ptr → Line → Op α} {r : ATResponse}

def asked (w : World) (store : Int → Int) (cmd pre : Line) (failed : Bool) : List OpEvent :=
  [.sent (.singleLine cmd pre) (w.replies w.sent), .handOut w.sent, .use w.sent,
    .tested (store (w.replies w.sent).ret) failed]

theorem query_failed (hstore : 0 ≤ store (w.replies w.sent).ret)
    (hfresh : .free w.sent ∉ w.trace) (hout : (w.replies w.sent).out = .resp r)
    (hr : r.success = 0) :
    (query store cmd pre p failure read).run w = (.ok failure,
      sends w (asked w store cmd pre true ++ [.free w.sent])) := by
  unfold query
  simp only [Calls.send, Calls.lift, Calls.freeResp]
  rw [bind_ok (send_resp hout), bind_ok (failedReply_resp hstore (by simpa using hfresh))]
  simp only [hr, beq_self_eq_true, if_true]
  rw [bind_ok freeResp_resp, pure_run]
  simp [asked]

theorem query_line {line : Line} {lines : List Line}
    (hstore : 0 ≤ store (w.replies w.sent).ret) (hfresh : .free w.sent ∉ w.trace)
    (hout : (w.replies w.sent).out = .resp r) (hr : r.success ≠ 0)
    (hlines : r.intermediates = line :: lines) :
    (query store cmd pre p failure read).run w = (read (.resp w.sent r) line).run
      (sends w (asked w store cmd pre false ++ [.use w.sent])) := by
  have hflag : (r.success == 0) = false := by simpa using hr
  unfold query
  simp only [Calls.send, Calls.lift, Calls.freeResp]
  rw [bind_ok (send_resp hout), bind_ok (failedReply_resp hstore (by simpa using hfresh))]
  simp only [hflag, Bool.false_eq_true, if_false, logs_sends]
  rw [bind_ok (firstLine_cons hlines (by simpa using hfresh))]
  simp [asked]

theorem query_empty (hstore : 0 ≤ store (w.replies w.sent).ret)
    (hfresh : .free w.sent ∉ w.trace) (hout : (w.replies w.sent).out = .resp r)
    (hr : r.success ≠ 0) (hlines : r.intermediates = []) :
    (query store cmd pre p failure read).run w = (.error .nullIntermediates,
      sends w (asked w store cmd pre false ++ [.use w.sent])) := by
  have hflag : (r.success == 0) = false := by simpa using hr
  unfold query
  simp only [Calls.send, Calls.lift, Calls.freeResp]
  rw [bind_ok (send_resp hout), bind_ok (failedReply_resp hstore (by simpa using hfresh))]
  simp only [hflag, Bool.false_eq_true, if_false, logs_sends]
  rw [bind_error (firstLine_nil hlines (by simpa using hfresh))]
  simp [asked]

theorem query_null (hstore : 0 ≤ store (w.replies w.sent).ret)
    (hout : ∀ r, (w.replies w.sent).out ≠ .resp r) :
    (query store cmd pre .null failure read).run w = (.error .nullResponse,
      sends w [.sent (.singleLine cmd pre) (w.replies w.sent)]) := by
  unfold query
  simp only [Calls.send, Calls.lift, Calls.freeResp]
  rw [bind_ok (send_missing hout), bind_error (failedReply_crash hstore rfl)]

theorem query_missing (hstore : 0 ≤ store (w.replies w.sent).ret)
    (hp : p = .null ∨ p = .unassigned) (hout : ∀ r, (w.replies w.sent).out ≠ .resp r) :
    ∃ c, (c = .nullResponse ∨ c = .unassignedResponse) ∧
      (query store cmd pre p failure read).run w = (.error c,
        sends w [.sent (.singleLine cmd pre) (w.replies w.sent)]) := by
  rcases hp with rfl | rfl
  · exact ⟨.nullResponse, .inl rfl, query_null hstore hout⟩
  · unfold query
    simp only [Calls.send, Calls.lift, Calls.freeResp]
    cases ho : (w.replies w.sent).out with
    | resp r => exact absurd ho (hout r)
    | null =>
        rw [bind_ok (send_null ho)]
        exact ⟨.nullResponse, .inl rfl, bind_error (failedReply_crash hstore rfl)⟩
    | unassigned =>
        rw [bind_ok (send_unassigned ho)]
        exact ⟨.unassignedResponse, .inr rfl, bind_error (failedReply_crash hstore rfl)⟩

end Query

/-! ### Reading the line -/

theorem atTokStart_cases (cur : Cursor) :
    atTokStart cur = (-1, none) ∨ ∃ s, atTokStart cur = (0, some s) := by
  cases cur with
  | none => exact .inl rfl
  | some s =>
      cases h : s.dropWhile (· ≠ 0x3a) with
      | nil => exact .inl (by rw [atTokStart, h])
      | cons c rest => exact .inr ⟨rest, by rw [atTokStart, h]⟩

/-- The tokenizer gets through the string behind the colon, or there is no colon. -/
def strReadable (line : Line) : Bool :=
  (atTokStart (some line)).2.all fun s => (atTokNextStr (some s)).isSome

/-- The tokenizer gets through the number behind the colon, or there is no colon. -/
def intReadable (line : Line) : Bool :=
  (atTokStart (some line)).2.all fun s => (atTokNextInt (some s)).isSome

/-- The tokenizer gets through the lines up to the first that lacks a field. -/
def apnReadable : List Line → Bool
  | [] => true
  | line :: lines =>
    match apnFields line with
    | none => false
    | some false => true
    | some true => apnReadable lines

/-- The part of an operation behind its query: it frees the response as its last
action, unless it reads through the null cursor. -/
def Finishes {α : Type} (x : Op α) (id : Nat) (readable : Bool) : Prop :=
  ∀ w, if readable
    then ∃ a, ∃ names : List Line,
      x.run w = (.ok a, logs w (names.map .modemMatch ++ [.free id]))
    else x.run w = (.error .nullCursor, w)

section Finishes

variable {id : Nat} {r : ATResponse}

theorem freed_run {α : Type} {w : World} (a : α) :
    (do freeResp (.resp id r); return a : Op α).run w = (.ok a, logs w [.free id]) := by
  rw [bind_ok freeResp_resp, pure_run]

theorem tok_bind_some {α β : Type} {a : α} {f : α → Op β} {x : Option α} {w : World}
    (h : x = some a) : (tok x >>= f).run w = (f a).run w := by
  rw [h]
  exact bind_ok (pure_run a)

theorem tok_bind_none {α β : Type} {f : α → Op β} {x : Option α} {w : World}
    (h : x = none) : (tok x >>= f).run w = (.error .nullCursor, w) := by
  rw [h]
  exact bind_error rfl

theorem atTokNextStr_ret {cur : Cursor} {ret : Int} {out : Line} {rest : Cursor}
    (h : atTokNextStr cur = some (ret, out, rest)) : ret = 0 := by
  simp only [atTokNextStr, Option.bind_eq_bind, Option.bind_eq_some_iff] at h
  obtain ⟨_, -, h⟩ := h
  cases h
  rfl

theorem atTokNextBool_isSome (cur : Cursor) :
    (atTokNextBool cur).isSome = (atTokNextInt cur).isSome := by
  unfold atTokNextBool
  cases h : atTokNextInt cur with
  | none => rfl
  | some t =>
      obtain ⟨ret, result, rest⟩ := t
      simp only [Option.bind_eq_bind, Option.bind_some, Option.isSome_some]
      split_ifs <;> rfl

theorem readModel_finishes (line : Line) :
    Finishes (readModel (.resp id r) line) id (strReadable line) := by
  intro w
  unfold readModel strReadable
  simp only [Calls.lift, Calls.freeResp]
  rcases atTokStart_cases (some line) with h | ⟨s, h⟩
  · rw [h]
    exact ⟨false, [], freed_run false⟩
  rw [h]
  cases htok : atTokNextStr (some s) with
  | none => simpa [htok] using tok_bind_none rfl
  | some t =>
      obtain ⟨ret, out, rest⟩ := t
      obtain rfl := atTokNextStr_ret htok
      simp only [Option.all_some, htok, Option.isSome_some, if_true]
      refine ⟨true, [out], ?_⟩
      rw [if_neg (Int.lt_irrefl 0), tok_bind_some rfl, if_neg (Int.lt_irrefl 0), bind_ok (log_run _), freed_run]
      simp [World.log, logs]

theorem readCpin_finishes (line : Line) :
    Finishes (readCpin (.resp id r) line) id (strReadable line) := by
  intro w
  unfold readCpin strReadable
  simp only [Calls.lift, Calls.freeResp]
  rcases atTokStart_cases (some line) with h | ⟨s, h⟩
  · rw [h]
    exact ⟨.notReady, [], freed_run SIMStatus.notReady⟩
  rw [h]
  cases htok : atTokNextStr (some s) with
  | none => simpa [htok] using tok_bind_none rfl
  | some t =>
      obtain ⟨ret, out, rest⟩ := t
      obtain rfl := atTokNextStr_ret htok
      simp only [Option.all_some, htok, Option.isSome_some, if_true]
      refine ⟨cpinStatus out, [], ?_⟩
      rw [if_neg (Int.lt_irrefl 0), tok_bind_some rfl, if_neg (Int.lt_irrefl 0), freed_run]
      rfl

theorem readNet3GPP_finishes (line : Line) :
    Finishes (readNet3GPP (.resp id r) line) id (intReadable line) := by
  intro w
  unfold readNet3GPP intReadable
  simp only [Calls.lift, Calls.freeResp]
  rcases atTokStart_cases (some line) with h | ⟨s, h⟩
  · rw [h]
    exact ⟨-1, [], freed_run (-1)⟩
  rw [h]
  cases htok : atTokNextInt (some s) with
  | none => simpa [htok] using tok_bind_none rfl
  | some t =>
      obtain ⟨ret, out, rest⟩ := t
      simp only [Option.all_some, htok, Option.isSome_some, if_true]
      rw [if_neg (Int.lt_irrefl 0), tok_bind_some rfl]
      by_cases hret : ret < 0
      · rw [if_pos hret]
        exact ⟨-1, [], freed_run (-1)⟩
      · rw [if_neg hret]
        exact ⟨0, [], freed_run 0⟩

theorem toChar_nonneg (n : Int) : ¬ toChar n < 0 := by
  unfold toChar
  omega

theorem readRadio_finishes (line : Line) :
    Finishes (readRadio (.resp id r) line) id (intReadable line) := by
  intro w
  unfold readRadio intReadable
  simp only [Calls.lift, Calls.freeResp]
  simp only [toChar_nonneg, if_false]
  have hsome : (atTokNextBool (atTokStart (some line)).2).isSome =
      (atTokStart (some line)).2.all fun s => (atTokNextInt (some s)).isSome := by
    rw [atTokNextBool_isSome]
    rcases atTokStart_cases (some line) with h | ⟨s, h⟩ <;> simp [h, atTokNextInt]
  rw [← hsome]
  cases htok : atTokNextBool (atTokStart (some line)).2 with
  | none => simpa [htok] using tok_bind_none rfl
  | some t =>
      simp only [Option.isSome_some, if_true]
      rw [tok_bind_some rfl]
      exact ⟨_, [], freed_run _⟩

theorem apnLines_finishes (lines : List Line) :
    Finishes (apnLines (.resp id r) lines) id (apnReadable lines) := by
  intro w
  induction lines with
  | nil => exact ⟨true, [], freed_run true⟩
  | cons line lines ih =>
      unfold apnLines apnReadable
      simp only [Calls.lift, Calls.freeResp]
      cases hline : apnFields line with
      | none => simpa [hline] using tok_bind_none rfl
      | some b =>
          rw [tok_bind_some rfl]
          cases b with
          | false => exact ⟨false, [], freed_run false⟩
          | true => exact ih

end Finishes

end Mobile.Command.Proofs.Effects
