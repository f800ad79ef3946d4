import Mobile.Sms.Layout
import Mobile.Sms.Proofs.Positions

/-!
# The decoder

`DecodePdu` takes its octets from `String2Byte`, which reads bytes and writes
printable characters.  The length of the service centre number is then the
character `3`, and 100 characters go to the 16 bytes of `sca_`.
-/

namespace Mobile.Sms.Proofs.Decoding

open Mobile.ProofSupport.Image Mobile.ProofSupport.Image.Writes
open Mobile.Sms.Helpers Mobile.Sms.Unicode Mobile.Sms.Pdu Mobile.Sms.Layout
open Mobile.Sms.Proofs.Positions

/-- The decoder recovers the message and returns the length of its text. -/
def Decodes {table : Table} (msg : Deliver table) (src members buf : Bytes) (tmp : UInt8) :
    Prop :=
  ∃ s : Decode, decodePdu table src members buf tmp = some (msg.ud.text.length, s) ∧
    msg.In s.members

/-! ### The members before `tpa_` -/

def KeepsSca (s s' : Decode) : Prop := ∀ i, i < tpa → s'.members i = s.members i

theorem KeepsSca.refl (s : Decode) : KeepsSca s s := fun _ _ => rfl

theorem KeepsSca.trans {s s' s'' : Decode} (h : KeepsSca s s') (h' : KeepsSca s' s'') :
    KeepsSca s s'' :=
  fun i hi => (h' i hi).trans (h i hi)

theorem setMember_keepsSca {s : Decode} {member : Int} {ws : Writes} (hmember : tpa ≤ member)
    (hws : Forward ws) : KeepsSca s (s.setMember member ws) := by
  intro i hi
  exact hws.apply_shift (by omega) s.members

theorem readNumber_keepsSca {s : Decode} {member : Int} {srcLen : Nat} (hmember : tpa ≤ member)
    (hlen : 0 < srcLen) : KeepsSca s (s.readNumber member srcLen) :=
  setMember_keepsSca hmember (serializeNumbers_forward _ _ hlen)

theorem readTmp_tmp (s : Decode) : s.readTmp.tmp = tab (s.src 0 >>> 4) := rfl

theorem tab_range {n : UInt8} (hn : n.toNat < 16) :
    0x30 ≤ (tab n).toNat ∧ (tab n).toNat ≤ 0x46 := by
  unfold tab
  by_cases hdigit : n < 10
  · have hlt : n.toNat < 10 := UInt8.lt_iff_toNat_lt.1 hdigit
    rw [if_pos hdigit, UInt8.toNat_add]
    simp only [UInt8.reduceToNat]
    omega
  · have hge : 10 ≤ n.toNat := Nat.not_lt.1 fun h => hdigit (UInt8.lt_iff_toNat_lt.2 h)
    have hle : (10 : UInt8) ≤ n := UInt8.le_iff_toNat_le.2 hge
    rw [if_neg hdigit, UInt8.toNat_add, UInt8.toNat_sub_of_le _ _ hle]
    simp only [UInt8.reduceToNat]
    omega

theorem readTmp_range (s : Decode) :
    0x30 ≤ s.readTmp.tmp.toNat ∧ s.readTmp.tmp.toNat ≤ 0x46 := by
  have hnibble : (s.src 0 >>> 4).toNat < 16 := by
    have := (s.src 0).toNat_lt
    rw [UInt8.toNat_shiftRight]
    simp only [UInt8.reduceToNat, Nat.reduceMod, Nat.shiftRight_eq_div_pow]
    omega
  rw [readTmp_tmp]
  exact tab_range hnibble

theorem readTpa_keepsSca (s : Decode) : KeepsSca s s.readTpa.2 := by
  have hrange := readTmp_range (s.readTmp.advance 2)
  unfold Decode.readTpa
  dsimp only
  by_cases hodd : (s.readTmp.advance 2).readTmp.tmp &&& 1 ≠ 0
  · rw [if_pos hodd]
    have hpos : 0 < ((s.readTmp.advance 2).readTmp.tmp + 1).toNat := by
      rw [UInt8.toNat_add]
      simp only [UInt8.reduceToNat]
      omega
    exact readNumber_keepsSca le_rfl hpos
  · rw [if_neg hodd]
    have hpos : 0 < (s.readTmp.advance 2).readTmp.tmp.toNat := by omega
    exact readNumber_keepsSca le_rfl hpos

theorem readParameters_keepsSca (s : Decode) : KeepsSca s s.readParameters := by
  have hpid : ∀ s : Decode, KeepsSca s ((s.setMember tpPid (string2Byte s.src 2).writes).advance 2) :=
    fun s => setMember_keepsSca (by decide) (string2Byte_forward _ _)
  have hdcs : ∀ s : Decode, KeepsSca s ((s.setMember tpDcs (string2Byte s.src 2).writes).advance 2) :=
    fun s => setMember_keepsSca (by decide) (string2Byte_forward _ _)
  have hscts : ∀ s : Decode, KeepsSca s ((s.readNumber tpScts 14).advance 14) :=
    fun s => readNumber_keepsSca (by decide) (by decide)
  exact ((hpid s).trans (hdcs _)).trans (hscts _)

theorem skipHeader_keepsSca (s : Decode) (tpMtiMmsRp : UInt8) :
    KeepsSca s (s.skipHeader tpMtiMmsRp) := by
  unfold Decode.skipHeader
  split
  · exact KeepsSca.refl _
  · exact KeepsSca.refl _

theorem readUserData_keepsSca {table : Table} {s s' : Decode} {n : Nat}
    (h : s.readUserData table = some (n, s')) : KeepsSca s s' := by
  have hud : tpa ≤ tpUd := by decide
  by_cases h7 : s.members tpDcs = gsm7Bit
  · simp only [Decode.readUserData, if_pos h7] at h
    cases h
    exact setMember_keepsSca hud (decode7Bit_forward _ _)
  by_cases hu : s.members tpDcs = gsmUcs2
  · simp only [Decode.readUserData, if_neg h7, if_pos hu, Option.bind_eq_bind,
      Option.bind_eq_some_iff] at h
    obtain ⟨out, hout, h⟩ := h
    cases h
    have hforward : Forward out.writes :=
      strUnicode2GBLoop_forward (Int.le_refl 0) (by simp [Forward]) hout
    exact setMember_keepsSca hud hforward
  · simp only [Decode.readUserData, if_neg h7, if_neg hu] at h
    cases h
    exact setMember_keepsSca hud (decode8Bit_forward _ _)

/-- Behind the service centre nothing reaches `sca_`. -/
theorem decodePdu_sca {table : Table} {src members buf : Bytes} {tmp : UInt8} {n : Nat}
    {s : Decode} (h : decodePdu table src members buf tmp = some (n, s)) :
    KeepsSca (Decode.readSca ⟨src, tmp, 0, buf, members, []⟩) s := by
  have htpa := readTpa_keepsSca (Decode.readSca ⟨src, tmp, 0, buf, members, []⟩)
  have hparam := readParameters_keepsSca
    (Decode.readSca ⟨src, tmp, 0, buf, members, []⟩).readTpa.2
  exact ((htpa.trans hparam).trans (skipHeader_keepsSca _ _)).trans (readUserData_keepsSca h)

/-! ### The service centre -/

/-- The hex digit of a length octet below 16 makes the length 100. -/
theorem readSca_tmp {s : Decode} (h : s.src 0 = 0x30) :
    (s.readTmp.tmp - 1) * 2 = 100 := by
  rw [readTmp_tmp, h]
  decide

/-- A hundred characters are swapped into the 16 bytes of `sca_` and beyond. -/
theorem readSca_members {s : Decode} (h : s.src 0 = 0x30) :
    s.readSca.members = s.members.apply
      (Writes.shift (serializeNumbers (s.src.shift 4) (s.members.shift sca) 100).writes sca) := by
  have htmp := readSca_tmp h
  unfold Decode.readSca
  dsimp only
  rw [htmp]
  rfl

theorem serializeNumbers_hundred (src dst : Bytes) : ∃ last : Int, 99 ≤ last ∧
    (serializeNumbers src dst 100).writes = swapPairs src 50 ++ [(last, 0)] := by
  unfold serializeNumbers
  dsimp only
  split
  · exact ⟨99, le_rfl, rfl⟩
  · exact ⟨100, by decide, rfl⟩

theorem serializeNumbers_ne_zero {src : Bytes} (hsrc : ∀ j : Nat, j < 16 → src j ≠ 0) {i : Nat}
    (hi : i < 16) (dst p : Bytes) : p.apply (serializeNumbers src dst 100).writes i ≠ 0 := by
  obtain ⟨last, hlast, hwrites⟩ := serializeNumbers_hundred src dst
  rw [hwrites, Bytes.apply_append, Bytes.apply_cons, Bytes.apply_nil,
    Function.update_of_ne (by omega), apply_swapPairs p (by omega)]
  split
  · exact hsrc (i + 1) (by omega)
  · exact hsrc (i - 1) (by omega)

theorem readSca_ne_zero {s : Decode} {pdu : List UInt8} (hsrc : s.src.Holds pdu)
    (hfirst : s.src 0 = 0x30) (hlen : 20 ≤ pdu.length) {i : Nat} (hi : i < 16) :
    s.readSca.members i ≠ 0 := by
  rw [readSca_members hfirst]
  have hshift : ∀ ws : Writes, Writes.shift ws sca = ws := fun ws => by
    simp [Writes.shift, sca]
  rw [hshift]
  refine serializeNumbers_ne_zero (fun j hj => ?_) hi _ _
  have hne := hsrc.ne_zero (i := 4 + j) (by omega)
  simpa using hne

theorem deliver_length {table : Table} (msg : Deliver table) : 20 ≤ msg.pdu.length := by
  have hscts := msg.sctsLength
  simp only [Deliver.pdu, List.length_append, hexText_length, semiOctets_length,
    List.length_cons, List.length_nil, hscts]
  omega

theorem deliver_first {table : Table} {msg : Deliver table} {src : Bytes}
    (h : src.Holds msg.pdu) : src 0 = 0x30 := by
  have hlen := deliver_length msg
  have h0 := h.2.1 0 (by omega)
  have hhead : msg.pdu[0] = 0x30 := by simp [Deliver.pdu, hexText, hex, smscLength_hex]
  rw [hhead] at h0
  exact h0

/-- No byte of `sca_` is a terminator behind a PDU. -/
theorem decodePdu_sca_ne_zero {table : Table} {msg : Deliver table} {src members buf : Bytes}
    {tmp : UInt8} {n : Nat} {s : Decode} (h : src.Holds msg.pdu)
    (hrun : decodePdu table src members buf tmp = some (n, s)) {i : Nat} (hi : i < 16) :
    s.members i ≠ 0 := by
  have hkept := decodePdu_sca hrun i (by show (i : Int) < 16; omega)
  rw [hkept]
  exact readSca_ne_zero h (deliver_first h) (deliver_length msg) hi

/-- For no message does the decoder recover the fields. -/
theorem deliver_never_decoded {table : Table} (msg : Deliver table) (src members buf : Bytes)
    (tmp : UInt8) (h : src.Holds msg.pdu) : ¬ Decodes msg src members buf tmp := by
  rintro ⟨s, hrun, hin⟩
  have hend : s.members (sca + msg.sca.digits.length) = 0 := hin.sca.2.2
  have hne := decodePdu_sca_ne_zero h hrun msg.sca.fits
  simp only [sca, Int.zero_add] at hend
  exact hne hend

def received : Deliver #[] where
  sca := ⟨[0x38, 0x36, 0x31, 0x33, 0x38, 0x30, 0x30, 0x32, 0x35, 0x30, 0x35, 0x30, 0x30],
    by simp, by decide⟩
  first := 0x04
  isDeliver := by decide
  tpa := ⟨[0x38, 0x36, 0x31, 0x33, 0x38, 0x30, 0x30, 0x31, 0x33, 0x38, 0x30, 0x30, 0x30],
    by simp, by decide⟩
  pid := 0
  scts := [0x31, 0x37, 0x30, 0x36, 0x31, 0x35, 0x31, 0x32, 0x33, 0x30, 0x30, 0x30, 0x32, 0x33]
  sctsDigit := by simp
  sctsLength := rfl
  ud := ⟨[0x48, 0x69], .sevenBit, [0xc8, 0x34], by decide, rfl, by decide⟩

def receivedSrc : Bytes := fun i => received.pdu.getD i.toNat 0

theorem receivedSrc_holds : receivedSrc.Holds received.pdu := by
  unfold Bytes.Holds
  decide

theorem received_never_decoded : receivedSrc.Holds received.pdu ∧
    ¬ Decodes received receivedSrc (fun _ => 0) (fun _ => 0) 0 :=
  ⟨receivedSrc_holds, deliver_never_decoded received receivedSrc _ _ 0 receivedSrc_holds⟩

/-- The number of 13 digits has no terminator. -/
theorem received_not_decoded :
    ¬ ∀ (table : Table) (msg : Deliver table) (src members buf : Bytes) (tmp : UInt8),
      src.Holds msg.pdu → Decodes msg src members buf tmp := by
  intro hall
  obtain ⟨s, hrun, hin⟩ := hall #[] received receivedSrc (fun _ => 0) (fun _ => 0) 0
    receivedSrc_holds
  have hend : s.members (sca + 13) = 0 := hin.sca.2.2
  exact decodePdu_sca_ne_zero receivedSrc_holds hrun (show 13 < 16 by decide) hend

end Mobile.Sms.Proofs.Decoding
