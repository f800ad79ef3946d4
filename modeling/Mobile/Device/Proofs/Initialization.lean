import Mathlib.Data.List.TakeWhile
import Mobile.Device.Init
import Mobile.Device.Proofs.Detection

/-!
# How the bring-up ends

`fgets` cuts the list of the kernel modules into pieces, at its line feeds and wherever
the buffer is full.  The drivers count as installed when two pieces name one, or when the
list does not open; behind that the ids are never matched, so the bring-up fails on every
system.
-/

namespace Mobile.Device.Proofs.Initialization

open Mobile.ProofSupport.Search
open Mobile.Token.Scan Mobile.Channel.Types Mobile.Device.Types Mobile.Device.Detect
open Mobile.Device.Init
open Mobile.Device.Proofs.Detection (takeLine_append checkUsbDriver_eq)

/-! ## The pieces of a stream -/

theorem takeLine_ne_nil {s : List UInt8} (n : Nat) (hs : s ≠ []) :
    (takeLine (n + 1) s).1 ≠ [] := by
  obtain ⟨c, s, rfl⟩ := List.exists_cons_of_ne_nil hs
  by_cases hc : c = lf <;> simp [takeLine, hc]

theorem takeLine_rest_lt {s : List UInt8} (n : Nat) (hs : s ≠ []) :
    (takeLine (n + 1) s).2.1.length < s.length := by
  have happend := congrArg List.length (takeLine_append (n + 1) s)
  have hpos := List.length_pos_iff.2 (takeLine_ne_nil n hs)
  rw [List.length_append] at happend
  omega

/-- What `fgets` with room for `n + 1` bytes reads from a stream, one call after another. -/
def pieces (n : Nat) (s : List UInt8) : List Line :=
  if hs : s = [] then [] else
    (takeLine (n + 1) s).1 :: pieces n (takeLine (n + 1) s).2.1
termination_by s.length
decreasing_by exact takeLine_rest_lt n hs

theorem pieces_nil (n : Nat) : pieces n [] = [] := by
  rw [pieces, dif_pos rfl]

theorem pieces_of_ne_nil {n : Nat} {s : List UInt8} (hs : s ≠ []) :
    pieces n s = (takeLine (n + 1) s).1 :: pieces n (takeLine (n + 1) s).2.1 := by
  rw [pieces, dif_neg hs]

theorem takeLine_line {n : Nat} {l : Line} (rest : List UInt8) (hlf : lf ∉ l)
    (hfit : l.length < n) : takeLine n (l ++ lf :: rest) = (l ++ [lf], rest, true) := by
  induction l generalizing n with
  | nil =>
      obtain ⟨n, rfl⟩ := Nat.exists_eq_succ_of_ne_zero (Nat.ne_of_gt hfit)
      simp [takeLine]
  | cons c l ih =>
      obtain ⟨n, rfl⟩ := Nat.exists_eq_succ_of_ne_zero (Nat.ne_of_gt (Nat.zero_lt_of_lt hfit))
      have hc : c ≠ lf := fun h => hlf (by simp [h])
      have hl : lf ∉ l := fun h => hlf (by simp [h])
      simp [takeLine, hc, ih hl (by simpa using hfit)]

theorem pieces_lines {n : Nat} {ls : List Line} (hls : ∀ l ∈ ls, lf ∉ l ∧ l.length ≤ n) :
    pieces n (ls.flatMap (· ++ [lf])) = ls.map (· ++ [lf]) := by
  induction ls with
  | nil => exact pieces_nil n
  | cons l ls ih =>
      obtain ⟨hlf, hfit⟩ := hls l (by simp)
      have hline := takeLine_line (ls.flatMap (· ++ [lf])) hlf (Nat.lt_succ_of_le hfit)
      have heq : (l :: ls).flatMap (· ++ [lf]) = l ++ lf :: ls.flatMap (· ++ [lf]) := by simp
      rw [heq, pieces_of_ne_nil (by simp), hline, ih fun l' hl' => hls l' (by simp [hl'])]
      rfl

/-! ## The count of the drivers -/

theorem fgets_eof {size : Nat} {s : List UInt8} {line : Option Line} {fp : Stream}
    (h : fgets size ⟨s, false⟩ = (line, fp)) (heof : fp.eof = true) : fp.rest = [] := by
  have hend : ∀ (n : Nat) (s : List UInt8), (takeLine n s).2.2 = false →
      (takeLine n s).1.length < n → (takeLine n s).2.1 = [] := by
    intro n
    induction n with
    | zero => intro s _ hlt; exact absurd hlt (Nat.not_lt_zero _)
    | succ n ih =>
        intro s hclosed hlt
        cases s with
        | nil => rfl
        | cons c s =>
            by_cases hc : c = lf
            · simp [takeLine, hc] at hclosed
            · simp only [takeLine, hc, if_false] at hclosed hlt ⊢
              exact ih s hclosed (by simpa using hlt)
  cases h
  simp only [Bool.false_or, Bool.and_eq_true, Bool.not_eq_true', decide_eq_true_eq] at heof
  exact hend _ _ heof.1 heof.2

theorem fgets_piece {s : List UInt8} (n : Nat) (hs : s ≠ []) :
    ∃ eof, fgets (n + 2) ⟨s, false⟩ =
      (some (takeLine (n + 1) s).1, ⟨(takeLine (n + 1) s).2.1, eof⟩) := by
  have hread := takeLine_ne_nil n hs
  rw [fgets, Nat.add_succ_sub_one]
  simp only [hread, if_false]
  exact ⟨_, rfl⟩

theorem serialModLoop_eof {fuel : Nat} {s : List UInt8} (drivers : UInt32) (m : Modem) :
    serialModLoop (fuel + 1) ⟨s, true⟩ drivers m =
      some (false, { m with errno := .driverNotInstalled }) := rfl

/-- The loop ends, and finds the drivers where the pieces bring their number to two. -/
theorem serialModLoop_eq {fuel : Nat} {s : List UInt8} (drivers : Nat) (m : Modem)
    (hfuel : s.length < fuel) (hdrivers : drivers < 2) :
    serialModLoop fuel ⟨s, false⟩ (UInt32.ofNat drivers) m =
      some (if 2 ≤ drivers + (pieces 126 s).countP namesDriver then (true, m)
        else (false, { m with errno := .driverNotInstalled })) := by
  induction fuel generalizing s drivers with
  | zero => omega
  | succ fuel ih =>
      by_cases hs : s = []
      · subst hs
        simp [serialModLoop, fgets, takeLine, pieces_nil, Nat.not_le.2 hdrivers]
      obtain ⟨eof, hread⟩ := fgets_piece 126 hs
      have hlt : (takeLine 127 s).2.1.length < s.length := takeLine_rest_lt 126 hs
      -- behind the mark no piece is left
      have hnext : ∀ drivers : Nat, drivers < 2 →
          serialModLoop fuel ⟨(takeLine 127 s).2.1, eof⟩ (UInt32.ofNat drivers) m =
            some (if 2 ≤ drivers + (pieces 126 (takeLine 127 s).2.1).countP namesDriver
              then (true, m) else (false, { m with errno := .driverNotInstalled })) := by
        intro drivers hdrivers
        cases heof : eof with
        | false => exact ih drivers (by omega) hdrivers
        | true =>
            have hrest : (takeLine 127 s).2.1 = [] := fgets_eof hread heof
            obtain ⟨fuel', rfl⟩ : ∃ fuel', fuel = fuel' + 1 :=
              Nat.exists_eq_succ_of_ne_zero (by omega)
            rw [serialModLoop_eof, hrest, pieces_nil, List.countP_nil, Nat.add_zero,
              if_neg (Nat.not_le.2 hdrivers)]
      rw [serialModLoop, pieces_of_ne_nil hs, List.countP_cons]
      simp only [hread, if_neg Bool.false_ne_true]
      by_cases hnames : namesDriver (takeLine 127 s).1 = true
      · simp only [hnames, if_true]
        obtain rfl | rfl : drivers = 0 ∨ drivers = 1 := by omega
        · rw [if_neg (by decide)]
          have hone := hnext 1 (by omega)
          simpa [Nat.add_comm] using hone
        · rw [if_pos (by decide), if_pos (by omega)]
      · simp only [hnames]
        simpa using hnext drivers hdrivers

/-! ## The lines of the list -/

theorem infix_line_iff {key l : Line} (hkey : key ≠ []) (hlf : lf ∉ key) :
    key <:+: l ++ [lf] ↔ key <:+: l := by
  rw [List.infix_concat_iff]
  refine ⟨fun h => h.resolve_left fun hsuffix => hlf ?_, Or.inr⟩
  obtain ⟨before, heq⟩ := hsuffix
  have hlast := congrArg List.getLast? heq
  rw [List.getLast?_append_of_ne_nil _ hkey, List.getLast?_concat] at hlast
  exact List.mem_of_getLast? hlast

def Names (l : Line) : Prop :=
  text "option" <:+: l ∨ text "usb_wwan" <:+: l ∨ text "usbserial" <:+: l

instance : DecidablePred Names := fun _ => inferInstanceAs (Decidable (_ ∨ _ ∨ _))

theorem namesDriver_line {l : Line} (hnul : 0 ∉ l) : namesDriver (l ++ [lf]) = true ↔ Names l := by
  have hplain : (l ++ [lf]).takeWhile (· ≠ 0) = l ++ [lf] := by
    rw [List.takeWhile_eq_self_iff]
    intro c hc
    rcases List.mem_append.1 hc with hl | hend
    · simpa using fun h : c = 0 => hnul (h ▸ hl)
    · rw [List.mem_singleton.1 hend]
      rfl
  simp only [namesDriver, hplain, Bool.or_eq_true, search_isSome_iff, Names, or_assoc]
  rw [infix_line_iff (by decide) (by decide), infix_line_iff (by decide) (by decide),
    infix_line_iff (by decide) (by decide)]

/-! ## The bring-up -/

def Installed (sys : System) : Prop :=
  sys.isFileExist usbDriverPath = true ∧
    ∀ modules, sys.fopen usbDriverPath = some modules →
      2 ≤ (pieces 126 modules).countP namesDriver

instance (sys : System) : Decidable (Installed sys) :=
  match h : sys.fopen usbDriverPath with
  | none => decidable_of_iff (sys.isFileExist usbDriverPath = true) (by simp [Installed, h])
  | some modules =>
      decidable_of_iff (sys.isFileExist usbDriverPath = true ∧
        2 ≤ (pieces 126 modules).countP namesDriver) (by simp [Installed, h])

theorem checkSerialMod_eq (sys : System) (m : Modem) :
    ∃ errno, checkSerialMod sys m = some (decide (Installed sys), { m with errno := errno }) ∧
      (¬ Installed sys → errno = .driverNotInstalled) := by
  unfold checkSerialMod
  by_cases hexist : sys.isFileExist usbDriverPath = true
  · simp only [hexist, Bool.not_true, if_neg Bool.false_ne_true]
    cases hopen : sys.fopen usbDriverPath with
    | none =>
        have hinstalled : Installed sys := ⟨hexist, by simp [hopen]⟩
        exact ⟨.driverNotInstalled, by simp [hinstalled], fun _ => rfl⟩
    | some modules =>
        have hiff : Installed sys ↔ 2 ≤ (pieces 126 modules).countP namesDriver := by
          simp [Installed, hexist, hopen]
        have hloop := serialModLoop_eq (s := modules) 0 m (Nat.lt_succ_self _) (by omega)
        rw [Nat.zero_add] at hloop
        by_cases hcount : 2 ≤ (pieces 126 modules).countP namesDriver
        · rw [if_pos hcount] at hloop
          exact ⟨m.errno, by simpa [hiff, hcount] using hloop,
            fun h => absurd (hiff.2 hcount) h⟩
        · rw [if_neg hcount] at hloop
          exact ⟨.driverNotInstalled, by simpa [hiff, hcount] using hloop, fun _ => rfl⟩
  · have hnot : ¬ Installed sys := fun h => hexist h.1
    exact ⟨.driverNotInstalled, by simp [hexist, hnot], fun _ => rfl⟩

/-- Of a list with lines shorter than the buffer, the check says whether two of them name a
driver. -/
theorem checkSerialMod_lines (sys : System) (m : Modem) (ls : List Line)
    (hexist : sys.isFileExist usbDriverPath = true)
    (hopen : sys.fopen usbDriverPath = some (ls.flatMap (· ++ [lf])))
    (hls : ∀ l ∈ ls, lf ∉ l ∧ 0 ∉ l ∧ l.length ≤ 126) :
    ∃ found m', checkSerialMod sys m = some (found, m') ∧
      (found = true ↔ 2 ≤ ls.countP (Names ·)) := by
  obtain ⟨errno, hmod, -⟩ := checkSerialMod_eq sys m
  refine ⟨_, _, hmod, ?_⟩
  have hpieces := pieces_lines fun l hl => ⟨(hls l hl).1, (hls l hl).2.2⟩
  have hcount : (ls.map (· ++ [lf])).countP namesDriver = ls.countP (Names ·) := by
    rw [List.countP_map]
    refine List.countP_congr fun l hl => ?_
    simpa using namesDriver_line (hls l hl).2.1
  simp [Installed, hexist, hopen, hpieces, hcount]

def loadedModules : List Line :=
  [text "option 45056 0 - Live 0x0", text "ext4 737280 1 - Live 0x0",
    text "usb_wwan 20480 1 option, Live 0x0"]

theorem checkSerialMod_lines_loaded :
    ∃ m', checkSerialMod ⟨fun _ => true, fun _ => some (loadedModules.flatMap (· ++ [lf])), none⟩
      ⟨.success, kUSBModems.head (by decide), .none⟩ = some (true, m') := by
  obtain ⟨found, m', hmod, hfound⟩ := checkSerialMod_lines
    ⟨fun _ => true, fun _ => some (loadedModules.flatMap (· ++ [lf])), none⟩
    ⟨.success, kUSBModems.head (by decide), .none⟩ loadedModules rfl rfl (by decide)
  obtain rfl := hfound.2 (by decide)
  exact ⟨m', hmod⟩

/-- On no system does the bring-up reach the set-up of the channel.  The error code says
whether the drivers or the ids stopped it, and the record of the modem is the old one. -/
theorem init_never_succeeds (sys : System) (m : Modem) :
    init sys m = some (false, { m with
      errno := if Installed sys then .driverIdNotSupport else .driverNotInstalled }) := by
  obtain ⟨errno, hmod, hfailed⟩ := checkSerialMod_eq sys m
  rw [init, hmod]
  by_cases hinstalled : Installed sys
  · simp [hinstalled, checkUsbDriver_eq]
  · simp [hinstalled, hfailed hinstalled]

end Mobile.Device.Proofs.Initialization
