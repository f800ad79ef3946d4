import Mobile.Device.DialPPP
import Mobile.Device.Network
import Mobile.ProofSupport.Decimal

/-!
# What is dialled, and when

The argument vector of the child is a list of words behind which the null pointer stands.
Whether there is anything to dial depends on the operator and the mode alone, and the
answers from which `MatchNetMode` reads the mode leave a pair that can be dialled, unless
it is `NONE` or `GPRS`; only the branch for Huawei modems pairs them freely.
-/

namespace Mobile.Device.Proofs.Dialling

open Mobile.ProofSupport.Decimal
open Mobile.Token.Scan Mobile.Channel.Types Mobile.Device.Types
open Mobile.Device.Init Mobile.Device.Network Mobile.Device.DialPPP
open Mobile.Command.Manager (snprintf)

/-! ## The argument vector -/

theorem putAll_eq {argv : Argv} {args : List Line} (h : argv.length + args.length ≤ 56) :
    putAll argv args = some (argv ++ args.map some) := by
  unfold putAll
  induction args generalizing argv with
  | nil => simp
  | cons arg args ih =>
      rw [List.length_cons] at h
      have hput : put argv (some arg) = some (argv ++ [some arg]) := if_pos (by omega)
      rw [List.foldlM_cons, hput, Option.bind_eq_bind, Option.bind_some,
        ih (by simp only [List.length_append, List.length_singleton]; omega)]
      simp

def programWords : List Line := [kPPPd, kModem, kCrtscts, kDebug, kNoDetach]

def optionWords (a : AuthType) (p : LocalDialParam) : List Line :=
  [kBaudrate, kConnect, chatConnScript p, kNoIpDefault, kAsyncmap, kLcpMaxKey, kLcpMaxVal,
    kDefaultRoute, kHidePassWord, kNoDeflate, kNopcomp, kNovj, kNovjCcomp, kMtuKey, kMtuVal] ++
  authArgs a ++ [kUser, p.user, kPassWord, p.pass] ++
  [kUsePeerDns, kLcpEchoIntervalKey, kLcpEchoIntervalVal, kLcpEchoFailureKey,
    kLcpEchoFailureVal, kMaxFailKey, kMaxFailVal, kDisconnect, chatDisconScript]

def words (d : Dial) (p : LocalDialParam) : List Line :=
  programWords ++ portStr d.modem :: optionWords d.authType p

theorem authArgs_length (a : AuthType) : (authArgs a).length ≤ 4 := by
  cases a <;> decide

theorem words_length (d : Dial) (p : LocalDialParam) : (words d p).length ≤ 38 := by
  have hauth := authArgs_length d.authType
  simp only [words, programWords, optionWords, List.length_append, List.length_cons,
    List.length_nil]
  omega

theorem putAll_bind {argv : Argv} {args : List Line} (f : Argv → Option Argv)
    (h : argv.length + args.length ≤ 56) :
    (putAll argv args >>= f) = f (argv ++ args.map some) := by
  rw [putAll_eq h, Option.bind_eq_bind, Option.bind_some]

theorem pppArgv_eq (d : Dial) (p : LocalDialParam) :
    pppArgv d p = some ((words d p).map some ++ [none]) := by
  have hauth := authArgs_length d.authType
  have hwords := words_length d p
  unfold pppArgv
  iterate 7
    rw [putAll_bind _ (by
      simp only [List.length_append, List.length_map, List.length_cons, List.length_nil]
      omega)]
  have hargv : put ((words d p).map some) none = some ((words d p).map some ++ [none]) :=
    if_pos (by rw [List.length_map]; omega)
  rw [← hargv]
  simp only [words, programWords, optionWords, List.map_append, List.map_cons, List.map_nil,
    List.nil_append, List.cons_append, List.append_assoc]

theorem ttyUsb_eq (port : UInt8) :
    ttyUsb port = text "/dev/ttyUSB" ++ text (toString port.toNat) :=
  text_append _ _

theorem ttyUsb_spec (port : UInt8) :
    (ttyUsb port).length ≤ 30 ∧ (ttyUsb port).head? = some 0x2f ∧ 0 ∉ ttyUsb port := by
  have hlen : (text (toString port.toNat)).length ≤ 3 := by
    rw [text, List.length_map]
    exact length_toString_nat_le (by decide) (Nat.lt_trans port.toNat_lt (by decide))
  rw [ttyUsb_eq]
  refine ⟨?_, rfl, ?_⟩
  · rw [List.length_append, show (text "/dev/ttyUSB").length = 11 from rfl]
    omega
  · intro hnul
    rcases List.mem_append.1 hnul with hprefix | hdigit
    · exact absurd hprefix (by decide)
    · obtain ⟨c, hc, hzero⟩ := List.mem_map.1 hdigit
      have hlow := (digitByte_of_mem_nat hc).1
      rw [hzero] at hlow
      exact absurd hlow (by decide)

theorem portStr_eq (m : Modem) : portStr m = ttyUsb m.modem.dialPort := by
  rw [portStr, snprintf, List.take_of_length_le (ttyUsb_spec _).1]

theorem chatConnScript_eq : ∀ p ∈ kDefaultDialParam,
    chatConnScript p = text "chat -v  TIMEOUT 15 ABORT BUSY  ABORT 'NO ANSWER' '' ATH0 OK AT " ++
      text "'OK-+++\\c-OK' ATDT" ++ p.number ++ text " CONNECT " := by
  decide +kernel

/-- A command line of `pppd` for the modem, the authentication and the row. -/
structure CommandLine (d : Dial) (p : LocalDialParam) (ws : List Line) : Prop where
  program : ws.head? = some kPPPd
  port : ttyUsb d.modem.modem.dialPort ∈ ws
  script : [kConnect, text "chat -v  TIMEOUT 15 ABORT BUSY  ABORT 'NO ANSWER' '' ATH0 OK AT " ++
    text "'OK-+++\\c-OK' ATDT" ++ p.number ++ text " CONNECT "] <:+: ws
  login : [kUser, p.user, kPassWord, p.pass] <:+: ws
  /-- A word is read up to its first NUL. -/
  plain : ∀ w ∈ ws, w ≠ [] ∧ 0 ∉ w
  /-- `pap` is refused also where it is required, and `chap` nowhere. -/
  refusesPap : text "refuse-pap" ∈ ws ↔ d.authType = .pap ∨ d.authType = .chap
  refusesChap : text "refuse-chap" ∉ ws
  requiresPap : text "require-pap" ∈ ws ↔ d.authType = .pap
  requiresChap : text "require-chap" ∈ ws ↔ d.authType = .chap

theorem mem_words {w : Line} (d : Dial) (p : LocalDialParam) (hw : w.head? ≠ some 0x2f) :
    w ∈ words d p ↔ w ∈ programWords ++ optionWords d.authType p := by
  have hport : w ≠ portStr d.modem := by
    rintro rfl
    exact hw (by rw [portStr_eq, (ttyUsb_spec _).2.1])
  simp [words, hport]

theorem tableWords_auth : ∀ p ∈ kDefaultDialParam,
    ∀ a ∈ [AuthType.none, .pap, .chap, .papChap],
      (text "refuse-pap" ∈ programWords ++ optionWords a p ↔ a = .pap ∨ a = .chap) ∧
      text "refuse-chap" ∉ programWords ++ optionWords a p ∧
      (text "require-pap" ∈ programWords ++ optionWords a p ↔ a = .pap) ∧
      (text "require-chap" ∈ programWords ++ optionWords a p ↔ a = .chap) := by
  decide +kernel

theorem tableWords_plain : ∀ p ∈ kDefaultDialParam,
    ∀ a ∈ [AuthType.none, .pap, .chap, .papChap],
      ∀ w ∈ programWords ++ optionWords a p, w ≠ [] ∧ 0 ∉ w := by
  decide +kernel

theorem commandLine_words (d : Dial) {p : LocalDialParam} (hp : p ∈ kDefaultDialParam) :
    CommandLine d p (words d p) := by
  have ha : d.authType ∈ [AuthType.none, .pap, .chap, .papChap] := by
    cases d.authType <;> decide
  obtain ⟨hrefuse, hchap, hpap, hrequire⟩ := tableWords_auth p hp d.authType ha
  constructor
  case program => rfl
  case port => simp [words, portStr_eq]
  case script =>
    rw [← chatConnScript_eq p hp]
    exact ⟨programWords ++ [portStr d.modem, kBaudrate], _, by simp [words, optionWords]; rfl⟩
  case login =>
    refine List.IsInfix.trans ?_ (List.suffix_append _ _).isInfix
    refine List.IsInfix.trans ?_ (List.suffix_cons _ _).isInfix
    exact List.infix_append_of_infix_left (List.suffix_append _ _).isInfix
  case plain =>
    intro w hw
    rcases List.mem_append.1 hw with hprogram | hport
    · exact tableWords_plain p hp d.authType ha w (List.mem_append_left _ hprogram)
    · rcases List.mem_cons.1 hport with rfl | hoption
      · obtain ⟨-, hhead, hnul⟩ := ttyUsb_spec d.modem.modem.dialPort
        rw [portStr_eq]
        refine ⟨?_, hnul⟩
        intro hnil
        simp [hnil] at hhead
      · exact tableWords_plain p hp d.authType ha w (List.mem_append_right _ hoption)
  case refusesPap => rwa [mem_words d p (by decide)]
  case refusesChap => rwa [mem_words d p (by decide)]
  case requiresPap => rwa [mem_words d p (by decide)]
  case requiresChap => rwa [mem_words d p (by decide)]

theorem dialPPP_none {d : Dial} (hrow : dialParam d.modem = none) (vfork : Int) :
    dialPPP d vfork = some ⟨.returned false, { d with pppid := -1 }, [-1]⟩ := by
  simp [dialPPP, hrow]

theorem dialPPP_some {d : Dial} {p : LocalDialParam} (hrow : dialParam d.modem = some p)
    (vfork : Int) :
    dialPPP d vfork = some ⟨if vfork = 0 then .execvp kPPPd ((words d p).map some ++ [none])
      else .returned (decide (0 < vfork)), { d with pppid := vfork }, []⟩ := by
  have hrun : dialPPP d vfork =
      if vfork < 0 then some ⟨.returned false, { d with pppid := vfork }, []⟩
      else if vfork = 0 then
        some ⟨.execvp kPPPd ((words d p).map some ++ [none]), { d with pppid := vfork }, []⟩
      else some ⟨.returned (vfork != 0), { d with pppid := vfork }, []⟩ := by
    simp only [dialPPP, hrow, pppArgv_eq]
    rfl
  rw [hrun]
  rcases Int.lt_trichotomy vfork 0 with hfailed | rfl | hparent
  · simp [hfailed, Int.ne_of_lt hfailed, Int.not_lt.2 (Int.le_of_lt hfailed)]
  · rfl
  · simp [hparent, Int.ne_of_gt hparent, Int.not_lt.2 (Int.le_of_lt hparent)]

/-- Where there is nothing to dial, the callback gets -1 and no process is made.  Else
`vfork` decides: a child runs `pppd` with a command line for the first row that fits, within
the array and closed by the null pointer. -/
theorem dialPPP_runs (d : Dial) (vfork : Int) :
    ∃ r, dialPPP d vfork = some r ∧
      match dialParam d.modem with
      | none => r = ⟨.returned false, { d with pppid := -1 }, [-1]⟩
      | some p => ∃ ws, CommandLine d p ws ∧ ws.length < 56 ∧
          r.calls = [] ∧ r.dial.pppid = vfork ∧ r.ending =
            if vfork = 0 then .execvp kPPPd (ws.map some ++ [none])
            else .returned (decide (0 < vfork)) := by
  cases hrow : dialParam d.modem with
  | none => exact ⟨_, dialPPP_none hrow vfork, rfl⟩
  | some p =>
      have hwords := words_length d p
      have hline := commandLine_words d (List.mem_of_find?_eq_some hrow)
      exact ⟨_, dialPPP_some hrow vfork, words d p, hline, by omega, rfl, rfl, rfl⟩

/-! ## The mode -/

def Carries (oper : Operator) (mode : NetMode) : Prop :=
  (oper, mode) ∈ [(.telcom, .evdo), (.unicom, .wcdma), (.mobile, .tdscdma), (.mobile, .tdlte),
    (.telcom, .fddlte), (.unicom, .fddlte)]

theorem dialParam_isSome (m : Modem) :
    (dialParam m).isSome = true ↔ Carries m.modem.simOperator m.netMode := by
  have hall : ∀ (oper : Operator) (mode : NetMode),
      (kDefaultDialParam.find? fun p => oper = p.oper ∧ mode = p.mode).isSome = true ↔
        Carries oper mode := by
    intro oper mode
    unfold Carries
    cases oper <;> cases mode <;> decide
  exact hall _ _

/-- The mode has data service, or is one of the two without. -/
def Settled (m : Modem) : Prop :=
  Carries m.modem.simOperator m.netMode ∨ m.netMode = .none ∨ m.netMode = .gprs

theorem modeLoop_cases (response : Line) (table : List NetModeItem) (m : Modem)
    (hne : table ≠ []) :
    ∃ mode, modeLoop response table m = { m with netMode := mode } ∧
      (mode = .none ∨ ∃ item ∈ table, item.oper = m.modem.simOperator ∧ item.mode = mode) := by
  induction table generalizing m with
  | nil => exact absurd rfl hne
  | cons item rest ih =>
      rw [modeLoop]
      split
      case isTrue hfound =>
        exact ⟨item.mode, rfl, .inr ⟨item, by simp, hfound.2.symm, rfl⟩⟩
      case isFalse =>
        by_cases hrest : rest = []
        · subst hrest
          exact ⟨.none, rfl, .inl rfl⟩
        · obtain ⟨mode, heq, hmode⟩ := ih { m with netMode := .none } hrest
          refine ⟨mode, heq, hmode.imp_right ?_⟩
          rintro ⟨item', hmem, hitem⟩
          exact ⟨item', by simp [hmem], hitem⟩

theorem modes_settled : ∀ item ∈ kModeMath,
    Carries item.oper item.mode ∨ item.mode = .none ∨ item.mode = .gprs := by
  unfold Carries
  decide

theorem modeLoop_settled (response : Line) (m : Modem) :
    Settled (modeLoop response kModeMath m) ∧
      (modeLoop response kModeMath m).modem = m.modem := by
  obtain ⟨mode, heq, rfl | ⟨item, hmem, hoper, rfl⟩⟩ :=
    modeLoop_cases response kModeMath m (by decide)
  · rw [heq]
    exact ⟨.inr (.inl rfl), rfl⟩
  · rw [heq]
    have hmode := modes_settled item hmem
    rw [hoper] at hmode
    exact ⟨hmode, rfl⟩

/-- An answer that is not for a Huawei modem leaves the mode alone or settles it. -/
theorem matchNetMode_settled {answer : Line} {stack : Locals} {m m' : Modem}
    (hm : m.modem.modemType ≠ .huawei) (hsettled : Settled m)
    (h : matchNetMode answer stack m = some m') : Settled m' ∧ m'.modem = m.modem := by
  have hsame : some m = some m' → Settled m' ∧ m'.modem = m.modem := by
    rintro ⟨⟩
    exact ⟨hsettled, rfl⟩
  unfold matchNetMode at h
  split at h
  case h_1 htype => exact absurd htype hm
  case h_2 | h_3 | h_4 | h_5 =>
    simp only at h
    split at h
    case isTrue => exact hsame h
    case isFalse =>
      obtain ⟨⟨ret, response, cur⟩, -, hread⟩ := Option.bind_eq_some_iff.1 h
      simp only at hread
      split at hread
      case isTrue => exact hsame hread
      case isFalse =>
        cases hread
        exact modeLoop_settled response m
  case h_6 => exact hsame h

theorem answers_settled {answers : List (Line × Locals)} {m m' : Modem}
    (hm : m.modem.modemType ≠ .huawei) (hsettled : Settled m)
    (h : answers.foldlM (fun m a => matchNetMode a.1 a.2 m) m = some m') : Settled m' := by
  induction answers generalizing m with
  | nil =>
      cases h
      exact hsettled
  | cons a answers ih =>
      rw [List.foldlM_cons] at h
      obtain ⟨m₁, hfirst, hrest⟩ := Option.bind_eq_some_iff.1 h
      obtain ⟨hsettled₁, hmodem⟩ := matchNetMode_settled hm hsettled hfirst
      exact ih (hmodem ▸ hm) hsettled₁ hrest

theorem not_carries_iff {m : Modem} (h : Settled m) :
    ¬ Carries m.modem.simOperator m.netMode ↔ m.netMode = .none ∨ m.netMode = .gprs := by
  have hneither : ∀ oper, ¬ Carries oper .none ∧ ¬ Carries oper .gprs := by
    intro oper
    unfold Carries
    cases oper <;> decide
  refine ⟨h.resolve_left, ?_⟩
  rintro (hmode | hmode) <;> rw [hmode]
  · exact (hneither _).1
  · exact (hneither _).2

/-- A modem that is not a Huawei gives up dialling, after any answers, only where the last
mode read is `NONE` or `GPRS`. -/
theorem gives_up_iff (answers : List (Line × Locals)) (m m' : Modem)
    (hm : m.modem.modemType ≠ .huawei) (hsettled : Settled m)
    (hrun : answers.foldlM (fun m a => matchNetMode a.1 a.2 m) m = some m')
    (auth : AuthType) (pppid vfork : Int) :
    ∃ r, dialPPP ⟨m', auth, pppid⟩ vfork = some r ∧
      (r.calls = [-1] ↔ m'.netMode = .none ∨ m'.netMode = .gprs) := by
  rw [← not_carries_iff (answers_settled hm hsettled hrun), ← dialParam_isSome]
  cases hrow : dialParam m' with
  | none => exact ⟨_, dialPPP_none hrow vfork, by simp⟩
  | some p => exact ⟨_, dialPPP_some hrow vfork, by simp⟩

/-- A Longsung modem of Unicom that fell back from UMTS to EDGE. -/
theorem gives_up_iff_edge :
    ∃ r, dialPPP ⟨⟨.success, ⟨idVendorLongcheer, idProductU8300, text "U8300", .longsung, 1, 3, 2,
        2, .unicom⟩, .gprs⟩, .papChap, -1⟩ 7 = some r ∧ r.calls = [-1] := by
  obtain ⟨r, hdial, hcalls⟩ := gives_up_iff
    [(text "+PSRAT:UMTS", ⟨fun _ => 0, fun _ => 0⟩), (text "+PSRAT:EDGE", ⟨fun _ => 0, fun _ => 0⟩)]
    ⟨.success, ⟨idVendorLongcheer, idProductU8300, text "U8300", .longsung, 1, 3, 2, 2, .unicom⟩,
      .none⟩
    ⟨.success, ⟨idVendorLongcheer, idProductU8300, text "U8300", .longsung, 1, 3, 2, 2, .unicom⟩,
      .gprs⟩
    (by decide) (.inr (.inl rfl)) (by decide +kernel) .papChap (-1) 7
  exact ⟨r, hdial, hcalls.2 (.inr rfl)⟩

end Mobile.Device.Proofs.Dialling
