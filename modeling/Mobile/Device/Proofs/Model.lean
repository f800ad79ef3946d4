import Mobile.Device.Detect

/-!
# Selecting the model

`MatchModem` takes the first entry with the ids of the modem whose name occurs in the
string.  `U8300` stands before `U8300W` and `U8300C`, has their ids and occurs in both names:
these two are never selected.
-/

namespace Mobile.Device.Proofs.Model

open Mobile.Token.Scan Mobile.Channel.Types Mobile.Device.Types Mobile.Device.Detect
open Mobile.ProofSupport.Search

variable {modemStr : Line} {m : Modem} {info : ModemInfo}

/-- An entry with the ids of the modem that the string names. -/
def Named (modemStr : Line) (m : Modem) (info : ModemInfo) : Prop :=
  info ∈ kUSBModems ∧ info.modemName <:+: modemStr ∧
    m.modem.productId = info.productId ∧ m.modem.vendorId = info.vendorId

def SelectsModel (modemStr : Line) (m : Modem) : Prop :=
  ((∃ info, Named modemStr m info) →
    Named modemStr m (matchModem modemStr m).modem ∧
    (∀ info, Named modemStr m info →
      info.modemName.length ≤ (matchModem modemStr m).modem.modemName.length) ∧
    (matchModem modemStr m).errno = .ttyUsbAvailable) ∧
  ((¬ ∃ info, Named modemStr m info) →
    (matchModem modemStr m).modem = m.modem ∧
    (matchModem modemStr m).errno = .ttyUsbUnavailable)

def matching (modemStr : Line) (m : Modem) (info : ModemInfo) : Bool :=
  (search modemStr info.modemName).isSome ∧ m.modem.productId = info.productId ∧
    m.modem.vendorId = info.vendorId

theorem named_iff :
    Named modemStr m info ↔ info ∈ kUSBModems ∧ matching modemStr m info = true := by
  simp [Named, matching, search_isSome_iff]

/-- The error code is the one of the last round. -/
theorem matchModemLoop_eq {table : List ModemInfo} (hne : table ≠ []) :
    matchModemLoop modemStr table m =
      match table.find? (matching modemStr m) with
      | some info => { m with modem := info, errno := .ttyUsbAvailable }
      | none => { m with errno := .ttyUsbUnavailable } := by
  induction table generalizing m with
  | nil => exact absurd rfl hne
  | cons info rest ih =>
      rw [matchModemLoop]
      by_cases hmatch : matching modemStr m info = true
      · rw [List.find?_cons_of_pos hmatch, if_pos (by simpa [matching] using hmatch)]
      · rw [List.find?_cons_of_neg hmatch, if_neg (by simpa [matching] using hmatch)]
        by_cases hrest : rest = []
        · subst hrest
          rfl
        · exact ih hrest

theorem matchModem_some (h : kUSBModems.find? (matching modemStr m) = some info) :
    matchModem modemStr m = { m with modem := info, errno := .ttyUsbAvailable } := by
  rw [matchModem, matchModemLoop_eq (by decide), h]

theorem matchModem_none (h : kUSBModems.find? (matching modemStr m) = none) :
    matchModem modemStr m = { m with errno := .ttyUsbUnavailable } := by
  rw [matchModem, matchModemLoop_eq (by decide), h]

/-- Only `U8300W` and `U8300C` have a longer name than another entry with their ids. -/
theorem longer_name : ∀ a ∈ kUSBModems, ∀ b ∈ kUSBModems, a.productId = b.productId →
    a.vendorId = b.vendorId → a.modemName.length < b.modemName.length →
    (b.productId = idProductU8300 ∧ b.vendorId = idVendorLongcheer) ∧
      (b.modemName = text "U8300W" ∨ b.modemName = text "U8300C") := by
  decide

theorem short_name (h : text "U8300W" <:+: modemStr ∨ text "U8300C" <:+: modemStr) :
    text "U8300" <:+: modemStr := by
  rcases h with hw | hc
  · exact List.IsInfix.trans (by decide) hw
  · exact List.IsInfix.trans (by decide) hc

theorem find_short (hproduct : m.modem.productId = idProductU8300)
    (hvendor : m.modem.vendorId = idVendorLongcheer)
    (h : text "U8300W" <:+: modemStr ∨ text "U8300C" <:+: modemStr) :
    kUSBModems.find? (matching modemStr m) = some kUSBModems[0] :=
  List.find?_cons_of_pos (named_iff.1 ⟨by decide, short_name h, hproduct, hvendor⟩).2

theorem exists_first (h : Named modemStr m info) :
    ∃ first, kUSBModems.find? (matching modemStr m) = some first ∧ Named modemStr m first := by
  have hsome : (kUSBModems.find? (matching modemStr m)).isSome = true :=
    List.find?_isSome.2 ⟨info, named_iff.1 h⟩
  obtain ⟨first, hfirst⟩ := Option.isSome_iff_exists.1 hsome
  have hnamed := named_iff.2 ⟨List.mem_of_find?_eq_some hfirst, List.find?_some hfirst⟩
  exact ⟨first, hfirst, hnamed⟩

theorem long_named {a b : ModemInfo} (ha : Named modemStr m a) (hb : Named modemStr m b)
    (hlt : a.modemName.length < b.modemName.length) :
    (m.modem.productId = idProductU8300 ∧ m.modem.vendorId = idVendorLongcheer) ∧
      (text "U8300W" <:+: modemStr ∨ text "U8300C" <:+: modemStr) := by
  obtain ⟨hmem, -, hproduct, hvendor⟩ := ha
  obtain ⟨hmem', hocc, hproduct', hvendor'⟩ := hb
  obtain ⟨⟨hp, hv⟩, hname⟩ := longer_name a hmem b hmem' (hproduct.symm.trans hproduct')
    (hvendor.symm.trans hvendor') hlt
  refine ⟨⟨hproduct'.trans hp, hvendor'.trans hv⟩, ?_⟩
  rcases hname with hw | hc
  · exact .inl (hw ▸ hocc)
  · exact .inr (hc ▸ hocc)

theorem selectsModel_iff (modemStr : Line) (m : Modem) :
    SelectsModel modemStr m ↔
      ¬ ((m.modem.productId = idProductU8300 ∧ m.modem.vendorId = idVendorLongcheer) ∧
        (text "U8300W" <:+: modemStr ∨ text "U8300C" <:+: modemStr)) := by
  constructor
  · rintro ⟨hnamed, -⟩ ⟨⟨hproduct, hvendor⟩, hlong⟩
    have hfirst := find_short hproduct hvendor hlong
    obtain ⟨long, hlong, hlen⟩ :
        ∃ info, Named modemStr m info ∧ 5 < info.modemName.length := by
      rcases hlong with hw | hc
      · exact ⟨kUSBModems[1], ⟨by decide, hw, hproduct, hvendor⟩, by decide⟩
      · exact ⟨kUSBModems[2], ⟨by decide, hc, hproduct, hvendor⟩, by decide⟩
    have hle := (hnamed ⟨long, hlong⟩).2.1 long hlong
    rw [matchModem_some hfirst] at hle
    have hfive : kUSBModems[0].modemName.length = 5 := by decide
    simp only at hle
    omega
  · intro hids
    refine ⟨fun ⟨info, hinfo⟩ => ?_, fun hnone => ?_⟩
    · obtain ⟨first, hfirst, hnamed⟩ := exists_first hinfo
      rw [matchModem_some hfirst]
      refine ⟨hnamed, fun other hother => ?_, rfl⟩
      by_contra hlt
      exact hids (long_named hnamed hother (Nat.lt_of_not_le hlt))
    · have hmiss : kUSBModems.find? (matching modemStr m) = none :=
        List.find?_eq_none.2 fun info hmem hmatch =>
          hnone ⟨info, named_iff.2 ⟨hmem, hmatch⟩⟩
      rw [matchModem_none hmiss]
      exact ⟨rfl, rfl⟩

/-- A `U8300C` is taken for a `U8300`, with other ports. -/
theorem long_name_not_selected :
    ¬ ∀ (modemStr : Line) (m : Modem), SelectsModel modemStr m := by
  intro h
  let m : Modem := ⟨.success, kUSBModems[0], .none⟩
  have hnamed : Named (text "U8300C") m kUSBModems[2] := by
    unfold Named
    decide
  have hlen := ((h (text "U8300C") m).1 ⟨_, hnamed⟩).2.1 _ hnamed
  exact absurd hlen (by decide)

end Mobile.Device.Proofs.Model
