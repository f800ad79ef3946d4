import Mobile.Device.Detect

/-!
# Modems in the output of `lsusb`

A line of the output either has no `ID` or carries a vendor and a product number behind
its first `ID`.  The lookup gets the vendor id for both, and no entry of the table has equal
ids: the detection fails on every output.
-/

namespace Mobile.Device.Proofs.Detection

open Mobile.Token.Scan Mobile.Channel.Types Mobile.Device.Types Mobile.Device.Scanf
open Mobile.Device.Detect

structure HexNumber where
  text : Line
  nonempty : text ≠ []
  digits : text.all (isDigit 16) = true

def HexNumber.value (n : HexNumber) : Nat := magnitude 16 n.text

/-- Behind the first `ID` of a line stand two numbers, and the second one ends there. -/
structure DeviceLine where
  before : Line
  vendor : HexNumber
  product : HexNumber
  after : Line
  first : ¬ text "ID" <:+: before ++ text "I"
  ends : after.head?.all (!isDigit 16 ·) = true

def DeviceLine.text (l : DeviceLine) : Line :=
  l.before ++ Channel.Types.text "ID " ++ l.vendor.text ++ Channel.Types.text ":" ++
    l.product.text ++ l.after

inductive UsbLine
  | device (l : DeviceLine) (plain : lf ∉ l.text ∧ 0 ∉ l.text)
  | other (s : Line) (none : ¬ text "ID" <:+: s) (plain : lf ∉ s ∧ 0 ∉ s)

namespace UsbLine

def text : UsbLine → Line
  | device l _ => l.text
  | other s _ _ => s

def entry : UsbLine → Option ModemInfo
  | device l _ => kUSBModems.find? fun info =>
      info.vendorId.toNat = l.vendor.value ∧ info.productId.toNat = l.product.value
  | other _ _ _ => none

end UsbLine

def output (ls : List UsbLine) : List UInt8 := ls.flatMap fun l => l.text ++ [lf]

/-- The detection finds the first line with an entry, and that entry. -/
def Detects (ls : List UsbLine) (m : Modem) : Prop :=
  ∃ found m', checkUsbDriver (some (output ls)) m = some (found, m') ∧
    (found = true ↔ ∃ l ∈ ls, l.entry.isSome = true) ∧
    (found = true → ls.findSome? UsbLine.entry = some m'.modem ∧
      m'.errno ≠ .driverIdNotSupport) ∧
    (found = false → m'.modem = m.modem ∧ m'.errno = .driverIdNotSupport)

/-! ## The lookup -/

theorem checkIdLoop_miss {vendorId productId : UInt32} {table : List ModemInfo} (m : Modem)
    (hne : table ≠ [])
    (hmiss : ∀ info ∈ table, ¬ (productId = info.productId ∧ vendorId = info.vendorId)) :
    checkIdLoop vendorId productId table m =
      (false, { m with errno := .driverIdNotSupport }) := by
  induction table generalizing m with
  | nil => exact absurd rfl hne
  | cons info rest ih =>
      rw [checkIdLoop, if_neg (hmiss info (by simp))]
      by_cases hrest : rest = []
      · rw [if_pos hrest]
      · rw [if_neg hrest, ih _ hrest fun info' h => hmiss info' (by simp [h])]

theorem ids_distinct : ∀ info ∈ kUSBModems, info.productId ≠ info.vendorId := by
  decide

theorem checkIdSupport_same (id : UInt32) (m : Modem) :
    checkIdSupport id id m = (false, { m with errno := .driverIdNotSupport }) :=
  checkIdLoop_miss m (by decide) fun info hmem h => ids_distinct info hmem (h.1.symm.trans h.2)

/-! ## The loop over the lines -/

theorem takeLine_append (n : Nat) (s : List UInt8) :
    (takeLine n s).1 ++ (takeLine n s).2.1 = s := by
  induction n generalizing s with
  | zero => cases s <;> rfl
  | succ n ih =>
      cases s with
      | nil => rfl
      | cons c s =>
          by_cases hc : c = lf
          · simp [takeLine, hc]
          · simpa [takeLine, hc] using ih s

theorem fgets_rest_lt {size : Nat} {fp fp' : Stream} {line : Line}
    (h : fgets size fp = (some line, fp')) : fp'.rest.length < fp.rest.length := by
  have happend := takeLine_append (size - 1) fp.rest
  unfold fgets at h
  generalize takeLine (size - 1) fp.rest = r at h happend
  obtain ⟨read, rest, closed⟩ := r
  simp only [Prod.mk.injEq, ite_eq_iff, reduceCtorEq, and_false, false_or,
    Option.some.injEq] at h
  obtain ⟨⟨hne, -⟩, rfl⟩ := h
  have hlen : read.length + rest.length = fp.rest.length := by
    simpa using congrArg List.length happend
  have hpos := List.length_pos_iff.2 hne
  show rest.length < fp.rest.length
  omega

theorem usbLoop_eq {fuel : Nat} {fp : Stream} (vendorId productId : UInt32) (m : Modem)
    (hfuel : fp.rest.length < fuel) :
    usbLoop fuel fp vendorId productId m =
      some (false, { m with errno := .driverIdNotSupport }) := by
  induction fuel generalizing fp vendorId productId m with
  | zero => omega
  | succ fuel ih =>
      rw [usbLoop]
      by_cases heof : fp.eof = true
      · rw [if_pos heof]
      rw [if_neg heof]
      rcases hread : fgets 256 fp with ⟨_ | line, fp'⟩
      · rfl
      have hlt := fgets_rest_lt hread
      simp only
      split
      · exact ih _ _ m (by omega)
      · rw [checkIdSupport_same]
        exact ih _ _ _ (by omega)

theorem checkUsbDriver_eq (lsusb : Option (List UInt8)) (m : Modem) :
    checkUsbDriver lsusb m = some (false, { m with errno := .driverIdNotSupport }) := by
  cases lsusb with
  | none => rfl
  | some output => exact usbLoop_eq 0 0 m (by simp)

/-- The detection is right exactly where there is nothing to find. -/
theorem detects_iff (ls : List UsbLine) (m : Modem) :
    Detects ls m ↔ ∀ l ∈ ls, l.entry = none := by
  have hrun := checkUsbDriver_eq (some (output ls)) m
  constructor
  · rintro ⟨found, m', heq, hfound, -, -⟩ l hl
    rw [hrun] at heq
    cases heq
    by_contra hentry
    exact Bool.noConfusion (hfound.2 ⟨l, hl, Option.isSome_iff_ne_none.2 hentry⟩)
  · intro hnone
    refine ⟨false, _, hrun, ⟨nofun, ?_⟩, nofun, fun _ => ⟨rfl, rfl⟩⟩
    rintro ⟨l, hl, hentry⟩
    rw [hnone l hl] at hentry
    cases hentry

/-- `Bus 001 Device 002: ID 1c9e:9b05`, a U8300. -/
def u8300Line : UsbLine :=
  .device ⟨text "Bus 001 Device 002: ", ⟨text "1c9e", by decide, by decide⟩,
    ⟨text "9b05", by decide, by decide⟩, [], by decide, by decide⟩ (by decide)

theorem supported_modem_not_detected :
    ¬ ∀ (ls : List UsbLine) (m : Modem), Detects ls m := by
  intro h
  obtain ⟨found, m', heq, hfound, -, -⟩ := h [u8300Line]
    ⟨.success, ⟨0, 0, [], .unkown, 0, 0, 0, 0, .mobile⟩, .none⟩
  rw [checkUsbDriver_eq] at heq
  cases heq
  exact Bool.noConfusion (hfound.2 ⟨u8300Line, by simp, by decide⟩)

end Mobile.Device.Proofs.Detection
