import Mobile.Device.Network
import Mobile.Token.Proofs.Numerals

/-!
# The network mode of a `^SYSINFOEX` reply

`MatchNetMode` decides by the fifth number of the reply, whether the scan has stored it or
not.  Two runs that differ in the contents of the local arrays agree when the reply has
the number, and the text behind it fits its array.
-/

namespace Mobile.Device.Proofs.SystemInfo

open Mobile.Token.Scan Mobile.Channel.Types Mobile.Device.Types Mobile.Device.Scanf
open Mobile.Device.Network Mobile.ProofSupport.Search
open Mobile.Token.Tokenizer (isSpace toInt clampLong)
open Mobile.Token.Proofs.Numerals (Sign digitValue_space)

variable {s rest : Line} {c : UInt8} {ds : List Directive}

structure Number where
  blanks : Line
  sign : Sign
  digits : Line
  blank : blanks.all isSpace = true
  decimal : digits.all (isDigit 10) = true
  nonempty : digits ≠ []

def Number.text (n : Number) : Line := n.blanks ++ n.sign.text ++ n.digits

def Ends (rest : Line) : Prop := rest.head?.all (!isDigit 10 ·) = true

/-- From its first colon on the reply is `:n,n,n,n,,n` and the rest. -/
def FifthNumber (reply rest : Line) : Prop :=
  ∃ (before : Line) (n₀ n₁ n₂ n₃ n₄ : Number), 0x3a ∉ before ∧ Ends rest ∧
    reply = before ++ 0x3a :: (n₀.text ++ 0x2c :: (n₁.text ++ 0x2c :: (n₂.text ++ 0x2c ::
      (n₃.text ++ 0x2c :: 0x2c :: (n₄.text ++ rest)))))

def scannedText (t : Line) : Line := (t.dropWhile isSpace).takeWhile (!isSpace ·)

/-- A text that stands behind a comma and a quote has less than 32 bytes. -/
def ShortText (rest : Line) : Prop :=
  ∀ t, rest = 0x2c :: 0x22 :: t → (scannedText t).length < 32

/-- The mode after the call is a function of the reply, and stays where the reply has no
fifth number. -/
def ModeDetermined (reply : Line) (m : Modem) : Prop :=
  (∃ mode, ∀ stack, matchNetMode reply stack m = some { m with netMode := mode }) ∧
    ((¬ ∃ rest, FifthNumber reply rest) → ∀ stack, matchNetMode reply stack m = some m)

/-! ## Numbers -/

theorem digit_not_blank (hc : isDigit 10 c = true) :
    isSpace c = false ∧ c ≠ 0x2d ∧ c ≠ 0x2b := by
  refine ⟨?_, ?_, ?_⟩
  · by_contra hspace
    simp [isDigit, digitValue_space (Bool.eq_true_of_not_eq_false hspace)] at hc
  · rintro rfl
    exact absurd hc (by decide)
  · rintro rfl
    exact absurd hc (by decide)

theorem sign_not_blank : isSpace 0x2d = false ∧ isSpace 0x2b = false := by
  decide

theorem scanSign_digits {digits : Line} (rest : Line) (hne : digits ≠ [])
    (hdigits : digits.all (isDigit 10) = true) :
    scanSign (digits ++ rest) = (false, digits ++ rest) ∧
      (digits ++ rest).dropWhile isSpace = digits ++ rest := by
  obtain ⟨d, ds, rfl⟩ := List.exists_cons_of_ne_nil hne
  obtain ⟨hspace, hminus, hplus⟩ :=
    digit_not_blank (List.all_eq_true.1 hdigits d (by simp))
  constructor
  · unfold scanSign
    split
    · rename_i h
      simp_all
    · rename_i h
      simp_all
    · rfl
  · rw [List.cons_append, List.dropWhile_cons_of_neg (by simp [hspace])]

theorem takeWhile_digits {digits : Line} (hdigits : digits.all (isDigit 10) = true)
    (hends : Ends rest) : (digits ++ rest).takeWhile (isDigit 10) = digits ∧
      (digits ++ rest).dropWhile (isDigit 10) = rest := by
  have hall : ∀ c ∈ digits, isDigit 10 c = true := List.all_eq_true.1 hdigits
  rw [List.takeWhile_append_of_pos hall, List.dropWhile_append_of_pos hall]
  cases rest with
  | nil => simp
  | cons c rest =>
      have hc : isDigit 10 c = false := by simpa [Ends] using hends
      simp [hc]

theorem scanInt_text (n : Number) (hends : Ends rest) :
    ∃ v, scanInt (n.text ++ rest) = some (v, rest) := by
  obtain ⟨blanks, sign, digits, hblank, hdecimal, hne⟩ := n
  have hblanks : ∀ c ∈ blanks, isSpace c = true := List.all_eq_true.1 hblank
  obtain ⟨hsign, hdrop⟩ := scanSign_digits rest hne hdecimal
  obtain ⟨htake, hrest⟩ := takeWhile_digits hdecimal hends
  simp only [Number.text, List.append_assoc, scanInt]
  rw [List.dropWhile_append_of_pos hblanks]
  cases sign with
  | none => simp [Sign.text, hdrop, hsign, htake, hrest, hne]
  | minus =>
      simp [Sign.text, sign_not_blank, scanSign, htake, hrest, hne]
  | plus =>
      simp [Sign.text, sign_not_blank, scanSign, htake, hrest, hne]

theorem scanSign_text (s : Line) : ∃ sign : Sign, s = sign.text ++ (scanSign s).2 := by
  unfold scanSign
  split
  · exact ⟨.minus, rfl⟩
  · exact ⟨.plus, rfl⟩
  · exact ⟨.none, rfl⟩

theorem scanInt_eq_some {v : Int} (h : scanInt s = some (v, rest)) :
    ∃ n : Number, s = n.text ++ rest ∧ Ends rest := by
  have hblank : (s.takeWhile isSpace).all isSpace = true := by simp
  have hsplit : s = s.takeWhile isSpace ++ s.dropWhile isSpace :=
    (List.takeWhile_append_dropWhile).symm
  obtain ⟨sign, hsign⟩ := scanSign_text (s.dropWhile isSpace)
  unfold scanInt at h
  generalize scanSign (s.dropWhile isSpace) = r at h hsign
  obtain ⟨neg, t⟩ := r
  simp only [ite_eq_iff, reduceCtorEq, and_false, false_or, Option.some.injEq,
    Prod.mk.injEq] at h
  obtain ⟨hne, -, rfl⟩ := h
  refine ⟨⟨s.takeWhile isSpace, sign, t.takeWhile (isDigit 10), hblank, by simp, hne⟩, ?_, ?_⟩
  · simp only [Number.text, List.append_assoc, List.takeWhile_append_dropWhile]
    rw [← hsign]
    exact hsplit
  · cases hrest : t.dropWhile (isDigit 10) with
    | nil => rfl
    | cons c t' =>
        have hc := List.head_dropWhile_not (isDigit 10) (l := t) (by simp [hrest])
        simpa [Ends, hrest] using hc

/-! ## The scan -/

theorem sscanf_number (n : Number) (hc : isDigit 10 c = false) (rest : Line)
    (ds : List Directive) :
    ∃ v, sscanf (n.text ++ c :: rest) (.int :: .char c :: ds) = .int v :: sscanf rest ds := by
  have hends : Ends (c :: rest) := by simp [Ends, hc]
  obtain ⟨v, hv⟩ := scanInt_text n hends
  exact ⟨v, by simp [sscanf, hv]⟩

/-- A scan that assigns more than one number has met a number and the character. -/
theorem number_of_sscanf {k : Nat}
    (h : k + 1 < (sscanf s (.int :: .char c :: ds)).length) :
    ∃ (n : Number) (rest : Line), s = n.text ++ c :: rest ∧ k < (sscanf rest ds).length := by
  rw [sscanf] at h
  cases hint : scanInt s with
  | none => simp [hint] at h
  | some r =>
      obtain ⟨v, t⟩ := r
      obtain ⟨n, hs, -⟩ := scanInt_eq_some hint
      simp only [hint, sscanf, List.length_cons] at h
      by_cases hhead : t.head? = some c
      · obtain ⟨t', rfl⟩ := List.head?_eq_some_iff.1 hhead
        simp only [hhead, if_true, List.tail_cons] at h
        exact ⟨n, t', hs, by omega⟩
      · simp only [hhead, if_false, List.length_nil] at h
        omega

theorem number_of_empty_field (h : 0 < (sscanf s (.char c :: .int :: ds)).length) :
    ∃ (n : Number) (rest : Line), Ends rest ∧ s = c :: (n.text ++ rest) := by
  rw [sscanf] at h
  by_cases hhead : s.head? = some c
  · obtain ⟨t, rfl⟩ := List.head?_eq_some_iff.1 hhead
    cases hint : scanInt t with
    | none => simp [sscanf, hint] at h
    | some r =>
        obtain ⟨n, ht, hends⟩ := scanInt_eq_some hint
        exact ⟨n, r.2, hends, by rw [ht]⟩
  · simp [hhead] at h

def textFormat : List Directive := [.char 0x2c, .char 0x22, .string, .char 0x22]

theorem sscanf_fifth {reply : Line} (h : FifthNumber reply rest) :
    ∃ p v₀ v₁ v₂ v₃ v₄, search reply [0x3a] = some p ∧ sscanf p sysinfoFormat =
      .int v₀ :: .int v₁ :: .int v₂ :: .int v₃ :: .int v₄ :: sscanf rest textFormat := by
  obtain ⟨before, n₀, n₁, n₂, n₃, n₄, hbefore, hends, rfl⟩ := h
  have hcomma : isDigit 10 0x2c = false := by decide
  obtain ⟨v₄, h₄⟩ := scanInt_text n₄ hends
  obtain ⟨v₃, h₃⟩ := sscanf_number n₃ hcomma (0x2c :: (n₄.text ++ rest))
    (.char 0x2c :: .int :: textFormat)
  obtain ⟨v₂, h₂⟩ := sscanf_number n₂ hcomma (n₃.text ++ 0x2c :: 0x2c :: (n₄.text ++ rest))
    (sysinfoFormat.drop 7)
  obtain ⟨v₁, h₁⟩ := sscanf_number n₁ hcomma (n₂.text ++ 0x2c ::
    (n₃.text ++ 0x2c :: 0x2c :: (n₄.text ++ rest))) (sysinfoFormat.drop 5)
  obtain ⟨v₀, h₀⟩ := sscanf_number n₀ hcomma (n₁.text ++ 0x2c :: (n₂.text ++ 0x2c ::
    (n₃.text ++ 0x2c :: 0x2c :: (n₄.text ++ rest)))) (sysinfoFormat.drop 3)
  have hfifth : sscanf (0x2c :: (n₄.text ++ rest)) (.char 0x2c :: .int :: textFormat) =
      .int v₄ :: sscanf rest textFormat := by
    simp [sscanf, h₄]
  refine ⟨_, v₀, v₁, v₂, v₃, v₄, 
    search_singleton_eq_some_iff.2 ⟨_, _, hbefore, rfl, rfl⟩, h₀.trans (congrArg _ ?_)⟩
  refine h₁.trans (congrArg _ (h₂.trans (congrArg _ (h₃.trans (congrArg _ hfifth)))))

theorem fifth_of_length {reply p : Line} (hp : search reply [0x3a] = some p)
    (h : 4 < (sscanf p sysinfoFormat).length) : ∃ rest, FifthNumber reply rest := by
  obtain ⟨before, s₀, hbefore, rfl, rfl⟩ := search_singleton_eq_some_iff.1 hp
  replace h : 3 + 1 < (sscanf s₀ (sysinfoFormat.drop 1)).length := h
  obtain ⟨n₀, s₁, rfl, h₁⟩ := number_of_sscanf h
  obtain ⟨n₁, s₂, rfl, h₂⟩ := number_of_sscanf h₁
  obtain ⟨n₂, s₃, rfl, h₃⟩ := number_of_sscanf h₂
  obtain ⟨n₃, s₄, rfl, h₄⟩ := number_of_sscanf h₃
  obtain ⟨n₄, rest, hends, rfl⟩ := number_of_empty_field h₄
  exact ⟨rest, before, n₀, n₁, n₂, n₃, n₄, hbefore, hends, rfl⟩

/-! ## The arrays and the switch -/

theorem store_unread {vs : List Value} {i : Fin 7} {l l' : Locals}
    (h : store vs i l = some l') (hlen : i.val + vs.length ≤ 4) : l'.tmp 4 = l.tmp 4 := by
  induction vs generalizing i l with
  | nil =>
      cases h
      rfl
  | cons v vs ih =>
      rw [List.length_cons] at hlen
      cases v with
      | int n =>
          have hnext : (i + 1).val = i.val + 1 := by
            rw [Fin.val_add]
            exact Nat.mod_eq_of_lt (by show i.val + 1 < 7; omega)
          have hother : (4 : Fin 7) ≠ i := by
            rintro rfl
            exact absurd hlen (by simp)
          rw [store] at h
          exact (ih h (by omega)).trans (Function.update_of_ne hother n l.tmp)
      | hex n =>
          cases h
          rfl
      | string s =>
          rw [store] at h
          split at h
          · have hsame := ih h (Nat.le_of_succ_le hlen)
            exact hsame
          · cases h

theorem sscanf_textFormat (t : Line) :
    sscanf (0x2c :: 0x22 :: t) textFormat =
      if t.dropWhile isSpace = [] then [] else [.string (scannedText t)] := by
  have hscan : sscanf (0x2c :: 0x22 :: t) textFormat = sscanf t [.string, .char 0x22] := rfl
  rw [hscan, sscanf, scanString]
  by_cases hblank : t.dropWhile isSpace = []
  · simp [hblank]
  · simp [hblank, sscanf, scannedText]

theorem sscanf_textFormat_eq_nil (h : ∀ t, rest ≠ 0x2c :: 0x22 :: t) :
    sscanf rest textFormat = [] := by
  rw [textFormat, sscanf]
  split
  · rename_i hcomma
    obtain ⟨s, rfl⟩ := List.head?_eq_some_iff.1 hcomma
    rw [List.tail_cons, sscanf, if_neg]
    intro hquote
    obtain ⟨t, rfl⟩ := List.head?_eq_some_iff.1 hquote
    exact h t rfl
  · rfl

/-- The fifth value is what the switch reads, as long as the text behind it fits. -/
theorem store_fifth (v₀ v₁ v₂ v₃ v₄ : Int) (l : Locals) (hshort : ShortText rest) :
    ∃ l', store (.int v₀ :: .int v₁ :: .int v₂ :: .int v₃ :: .int v₄ ::
      sscanf rest textFormat) 0 l = some l' ∧ l'.tmp 4 = v₄ := by
  by_cases htext : ∃ t, rest = 0x2c :: 0x22 :: t
  · obtain ⟨t, rfl⟩ := htext
    rw [sscanf_textFormat]
    by_cases hblank : t.dropWhile isSpace = []
    · rw [if_pos hblank]
      exact ⟨_, rfl, rfl⟩
    · rw [if_neg hblank]
      simp only [store, if_pos (hshort t rfl)]
      exact ⟨_, rfl, rfl⟩
  · rw [sscanf_textFormat_eq_nil fun t ht => htext ⟨t, ht⟩]
    exact ⟨_, rfl, rfl⟩

theorem store_long_text {t : Line} (v₀ v₁ v₂ v₃ v₄ : Int) (l : Locals)
    (hlong : ¬ (scannedText t).length < 32) :
    store (.int v₀ :: .int v₁ :: .int v₂ :: .int v₃ :: .int v₄ ::
      sscanf (0x2c :: 0x22 :: t) textFormat) 0 l = none := by
  have hne : t.dropWhile isSpace ≠ [] := by
    intro hblank
    simp [scannedText, hblank] at hlong
  rw [sscanf_textFormat, if_neg hne]
  simp only [store, if_neg hlong]

theorem switchMode_eq (n : Int) (m : Modem) :
    switchMode n m = { m with netMode := (switchMode n m).netMode } := by
  unfold switchMode
  split <;> rfl

theorem matchNetMode_huawei {reply p : Line} {m : Modem} (stack : Locals)
    (hm : m.modem.modemType = .huawei) (hp : search reply [0x3a] = some p) :
    matchNetMode reply stack m =
      (store (sscanf p sysinfoFormat) 0 { stack with currMode := fun _ => 0 }).map
        fun locals => switchMode (locals.tmp 4) m := by
  simp [matchNetMode, hm, hp, Option.map_eq_bind]

theorem matchNetMode_no_colon {reply : Line} {m : Modem} (stack : Locals)
    (hm : m.modem.modemType = .huawei) (hcolon : 0x3a ∉ reply) :
    matchNetMode reply stack m = some m := by
  simp [matchNetMode, hm, search_singleton_eq_none_iff.2 hcolon]

theorem stack_decides {reply p : Line} {m : Modem} {mode : NetMode}
    (hm : m.modem.modemType = .huawei) (hp : search reply [0x3a] = some p)
    (hlen : (sscanf p sysinfoFormat).length ≤ 4) :
    ¬ ∀ stack, matchNetMode reply stack m = some { m with netMode := mode } := by
  intro h
  have hcell : ∀ n, switchMode n m = { m with netMode := mode } := by
    intro n
    have hrun := h ⟨fun _ => n, fun _ => 0⟩
    rw [matchNetMode_huawei _ hm hp, Option.map_eq_some_iff] at hrun
    obtain ⟨l, hstore, hswitch⟩ := hrun
    rwa [store_unread hstore (by simpa using hlen)] at hswitch
  have hgprs : NetMode.gprs = mode := congrArg Modem.netMode (hcell 1)
  have hwcdma : NetMode.wcdma = mode := congrArg Modem.netMode (hcell 3)
  rw [← hgprs] at hwcdma
  cases hwcdma

/-- The mode is determined exactly by replies without a colon and by replies with a
fifth number, unless its text overruns the array. -/
theorem modeDetermined_iff (reply : Line) (m : Modem) (hm : m.modem.modemType = .huawei) :
    ModeDetermined reply m ↔
      0x3a ∉ reply ∨ ∃ rest, FifthNumber reply rest ∧ ShortText rest := by
  constructor
  · rintro ⟨⟨mode, hmode⟩, -⟩
    by_cases hcolon : 0x3a ∈ reply
    · right
      obtain ⟨p, hp⟩ := Option.ne_none_iff_exists'.1
        (mt search_singleton_eq_none_iff.1 (not_not_intro hcolon))
      by_cases hlen : (sscanf p sysinfoFormat).length ≤ 4
      · exact absurd hmode (stack_decides hm hp hlen)
      · obtain ⟨rest, hfifth⟩ := fifth_of_length hp (Nat.lt_of_not_le hlen)
        refine ⟨rest, hfifth, ?_⟩
        rintro t rfl
        by_contra hlong
        obtain ⟨p', v₀, v₁, v₂, v₃, v₄, hp', hscan⟩ := sscanf_fifth hfifth
        have hrun := hmode ⟨fun _ => 0, fun _ => 0⟩
        rw [matchNetMode_huawei _ hm hp', hscan, store_long_text _ _ _ _ _ _ hlong] at hrun
        cases hrun
    · exact .inl hcolon
  · rintro (hcolon | ⟨rest, hfifth, hshort⟩)
    · have hsame := fun stack => matchNetMode_no_colon stack hm hcolon
      exact ⟨⟨m.netMode, hsame⟩, fun _ => hsame⟩
    · obtain ⟨p, v₀, v₁, v₂, v₃, v₄, hp, hscan⟩ := sscanf_fifth hfifth
      refine ⟨⟨(switchMode v₄ m).netMode, fun stack => ?_⟩, fun h => absurd ⟨rest, hfifth⟩ h⟩
      obtain ⟨l, hstore, hcell⟩ := store_fifth v₀ v₁ v₂ v₃ v₄
        { stack with currMode := fun _ => 0 } hshort
      rw [matchNetMode_huawei _ hm hp, hscan, hstore, Option.map_some, hcell]
      exact congrArg some (switchMode_eq v₄ m)

def oneDigit (c : UInt8) (decimal : [c].all (isDigit 10) = true) : Number :=
  ⟨[], .none, [c], rfl, decimal, by simp⟩

/-- `^SYSINFOEX:2,3,0,1,,6,"LTE"` has the fifth number. -/
theorem modeDetermined_lte :
    (⟨0x12d1, 0x1573, [], .huawei, 4, 2, 1, 0, .mobile⟩ : ModemInfo).modemType = .huawei ∧
      ModeDetermined (text "^SYSINFOEX:2,3,0,1,,6,\"LTE\"")
        ⟨.success, ⟨0x12d1, 0x1573, [], .huawei, 4, 2, 1, 0, .mobile⟩, .none⟩ := by
  have hfifth : FifthNumber (text "^SYSINFOEX:2,3,0,1,,6,\"LTE\"") (text ",\"LTE\"") :=
    ⟨text "^SYSINFOEX", oneDigit 0x32 (by decide), oneDigit 0x33 (by decide),
      oneDigit 0x30 (by decide), oneDigit 0x31 (by decide), oneDigit 0x36 (by decide),
      by decide, by unfold Ends; decide, by decide⟩
  refine ⟨rfl, (modeDetermined_iff _ _ rfl).2 (.inr ⟨_, hfifth, fun t ht => ?_⟩)⟩
  have htext : t = text "LTE\"" := by
    injection ht with _ ht
    injection ht with _ ht
    exact ht.symm
  subst htext
  decide

/-- `^SYSINFOEX:2,3,0,1` ends before the fifth number. -/
theorem truncated_reply_reads_stack :
    ¬ ∀ (reply : Line) (m : Modem), m.modem.modemType = .huawei → ModeDetermined reply m := by
  intro h
  obtain ⟨⟨mode, hmode⟩, -⟩ := h (text "^SYSINFOEX:2,3,0,1")
    ⟨.success, ⟨0x12d1, 0x1573, [], .huawei, 4, 2, 1, 0, .mobile⟩, .none⟩ rfl
  have hp : search (text "^SYSINFOEX:2,3,0,1") [0x3a] = some (text ":2,3,0,1") := by decide
  exact stack_decides rfl hp (by decide +kernel) hmode

end Mobile.Device.Proofs.SystemInfo
