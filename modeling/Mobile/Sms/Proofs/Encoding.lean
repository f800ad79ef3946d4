import Mobile.Sms.Layout
import Mobile.Sms.Proofs.Characters
import Mobile.Sms.Proofs.Positions

/-!
# The encoder

`EncodePdu` hands its octets to `Byte2String`, which reads printable characters
and writes bytes, where the PDU needs `String2Byte`.
-/

namespace Mobile.Sms.Proofs.Encoding

open Mobile.ProofSupport.Image Mobile.Sms.Helpers Mobile.Sms.Unicode Mobile.Sms.Pdu
open Mobile.Sms.Layout Mobile.Sms.Proofs.Positions Mobile.Sms.Proofs.Characters

/-- The encoder leaves the PDU in `dst` and returns its length. -/
def Encodes (table : Table) (m buf dst : Bytes) (pdu : List UInt8) : Prop :=
  ∃ out, encodePdu table m buf = some out ∧ out.ret = pdu.length ∧
    ∀ i (h : i < pdu.length), dst.apply out.writes i = pdu[i]

/-- The five segments of the output; both numbers go by the length of `sca_`. -/
theorem encodePdu_segments {table : Table} {m buf : Bytes} {out : Out}
    (h : encodePdu table m buf = some out) :
    ∃ nLength udLength segLength : Nat, ∃ buf₁ buf₂ buf₃ : Bytes,
      memberLen m sca = some nLength ∧ memberLen m tpUd = some udLength ∧
      encodeUserData table m buf₂ udLength = some (buf₃, segLength) ∧
      buf₁ = setBuf buf
        [UInt8.ofNat (if nLength % 2 = 0 then nLength else nLength + 1) / 2 + 1, 0x91] ∧
      buf₂ = setBuf buf₁ [0x11, 0, UInt8.ofNat nLength, 0x91] ∧
      out.writes = (byte2String buf₁ 2).writes ++
        Writes.shift (invetNumbers (m.shift sca) nLength).writes (1 : Nat) ++
        Writes.shift (byte2String buf₂ 4).writes
          (1 + (invetNumbers (m.shift sca) nLength).ret : Nat) ++
        Writes.shift (invetNumbers (m.shift tpa) nLength).writes
          (1 + (invetNumbers (m.shift sca) nLength).ret + 2 : Nat) ++
        Writes.shift (byte2String buf₃ segLength).writes
          (1 + (invetNumbers (m.shift sca) nLength).ret + 2 +
            (invetNumbers (m.shift tpa) nLength).ret : Nat) ∧
      out.ret = 1 + (invetNumbers (m.shift sca) nLength).ret + 2 +
        (invetNumbers (m.shift tpa) nLength).ret + segLength / 2 := by
  simp only [encodePdu, Option.bind_eq_bind, Option.bind_eq_some_iff] at h
  obtain ⟨nLength, hsca, udLength, hud, ⟨buf₃, segLength⟩, henc, hout⟩ := h
  cases hout
  exact ⟨nLength, udLength, segLength, _, _, buf₃, hsca, hud, henc, rfl, rfl, rfl, rfl⟩

/-! ### The first character -/

theorem encodePdu_first {table : Table} {m buf : Bytes} {out : Out}
    (h : encodePdu table m buf = some out) (dst : Bytes) :
    ∃ nibble : UInt8, dst.apply out.writes 0 = nibble <<< 4 ||| charNibble 0x91 := by
  obtain ⟨nLength, udLength, segLength, buf₁, buf₂, buf₃, -, -, -, hbuf, -, hwrites, -⟩ :=
    encodePdu_segments h
  have hfirst : ∀ dst : Bytes, dst.apply (byte2String buf₁ 2).writes 0 =
      charNibble (buf₁ 0) <<< 4 ||| charNibble 0x91 := by
    intro dst
    have hone : buf₁ 1 = 0x91 := by
      rw [hbuf]
      rfl
    rw [← hone]
    exact Function.update_self (0 : Int) _ dst
  refine ⟨charNibble (buf₁ 0), ?_⟩
  rw [hwrites]
  simp only [Bytes.apply_append]
  rw [(byte2String_forward _ _).apply_shift (by omega),
    (invetNumbers_forward _ _).apply_shift (by omega),
    (byte2String_forward _ _).apply_shift (by omega),
    (invetNumbers_forward _ _).apply_shift (by omega), hfirst]

/-- That byte has the second bit set, which `0` has not. -/
theorem first_ne_zero_digit (nibble : UInt8) : nibble <<< 4 ||| charNibble 0x91 ≠ 0x30 := by
  intro heq
  have hbit := congrArg (fun b : UInt8 => b.toBitVec.getLsbD 1) heq
  simp [charNibble] at hbit

/-! ### The returned length -/

theorem encode7Bit_ret (src : Bytes) (srcLen : Nat) :
    (encode7Bit src srcLen).ret = srcLen - (srcLen + 7) / 8 := by
  show (encoded src srcLen).uDstCnt = _
  induction srcLen with
  | zero => rfl
  | succ n ih =>
      rw [encoded_succ, encode7BitStep]
      by_cases hgroup : n % 8 = 0
      · rw [if_pos hgroup, ih]
        omega
      · rw [if_neg hgroup]
        show _ + 1 = _
        rw [ih]
        omega

theorem invetNumbers_ret (src : Bytes) (srcLen : Nat) :
    (invetNumbers src srcLen).ret = 2 * ((srcLen + 1) / 2) := by
  unfold invetNumbers
  by_cases hodd : srcLen % 2 = 1
  · simp only [hodd, if_true]
    omega
  · simp only [hodd, if_false]
    omega

theorem strGB2UnicodeLoop_ret {table : Table} {s octets : List UInt8}
    (h : ucs2Octets table s = some octets) (j : Nat) (ws : Writes) :
    (strGB2UnicodeLoop table s j ws).ret ≤ j + octets.length := by
  fun_induction ucs2Octets table s generalizing octets j ws with
  | case1 =>
      cases h
      exact le_rfl
  | case2 c hc =>
      cases h
      simp [strGB2UnicodeLoop, hc]
  | case3 c hc => cases h
  | case4 c d rest hc ih =>
      obtain ⟨tail, htail, rfl⟩ := Option.map_eq_some_iff.1 h
      have := ih htail (j + 2) (ws ++ narrow j c)
      rw [strGB2UnicodeLoop, if_pos hc]
      simp only [List.cons_append, List.nil_append, List.length_cons]
      omega
  | case5 c d rest hc ih =>
      simp only [Option.bind_eq_bind, Option.bind_eq_some_iff] at h
      obtain ⟨row, -, tail, htail, htext⟩ := h
      cases htext
      rw [strGB2UnicodeLoop, if_neg hc]
      cases findGB table c d with
      | none => exact Nat.zero_le _
      | some unicode =>
          have := ih htail (j + 2) (ws ++ wide j unicode)
          simp only [List.length_cons]
          omega

/-- The three codings.  Two of them store the length in a `char` and take it from there. -/
theorem encodeUserData_cases {table : Table} {m buf buf' : Bytes} {n seg : Nat}
    (h : encodeUserData table m buf n = some (buf', seg)) :
    (m tpDcs = gsm7Bit ∧
      buf' = ((setBuf buf [m tpPid, m tpDcs, 0]).apply [(3, UInt8.ofNat n)]).apply
        (Writes.shift (encode7Bit (m.shift tpUd) (n + 1)).writes 4) ∧
      seg = (encode7Bit (m.shift tpUd) (n + 1)).ret + 4) ∨
    (m tpDcs ≠ gsm7Bit ∧ ∃ out,
      ((m tpDcs = gsmUcs2 ∧
          strGB2Unicode table (m.shift tpUd) (membersSize - tpUd.toNat) = some out) ∨
        (m tpDcs ≠ gsmUcs2 ∧ out = encode8Bit (m.shift tpUd) n)) ∧
      buf' = ((setBuf buf [m tpPid, m tpDcs, 0]).apply (Writes.shift out.writes 4)).apply
        [(3, UInt8.ofNat out.ret)] ∧
      seg = (UInt8.ofNat out.ret).toNat + 4) := by
  unfold encodeUserData at h
  dsimp only at h
  by_cases h7 : m tpDcs = gsm7Bit
  · rw [if_pos h7] at h
    cases h
    exact .inl ⟨h7, rfl, rfl⟩
  rw [if_neg h7] at h
  by_cases hu : m tpDcs = gsmUcs2
  · rw [if_pos hu] at h
    simp only [Option.bind_eq_bind, Option.bind_eq_some_iff] at h
    obtain ⟨out, hout, h⟩ := h
    cases h
    exact .inr ⟨h7, out, .inl ⟨hu, hout⟩, rfl, by simp⟩
  · rw [if_neg hu] at h
    cases h
    exact .inr ⟨h7, _, .inr ⟨hu, rfl⟩, rfl, by simp⟩

theorem toNat_ofNat_le (n : Nat) : (UInt8.ofNat n).toNat ≤ n := by
  rw [UInt8.toNat_ofNat']
  exact Nat.mod_le _ _

theorem encodeUserData_length {table : Table} {msg : Submit table} {m buf buf' : Bytes}
    {udLength segLength : Nat} (h : msg.In m) (hlen : memberLen m tpUd = some udLength)
    (henc : encodeUserData table m buf udLength = some (buf', segLength)) :
    segLength ≤ msg.ud.octets.length + 4 := by
  have hud : udLength = msg.ud.text.length := h.ud.strlen hlen
  have hencodes := msg.ud.encodes
  have hdcs := h.dcs
  rcases encodeUserData_cases henc with ⟨h7, -, rfl⟩ | ⟨h7, out, hout, -, rfl⟩
  · have hcoding : msg.ud.coding = .sevenBit := by
      rw [hdcs] at h7
      cases hcoding : msg.ud.coding <;> simp [hcoding, Coding.dcs, gsm7Bit] at h7 ⊢
    rw [hcoding, Coding.encode] at hencodes
    split at hencodes
    · have hoctets : msg.ud.octets.length = (7 * msg.ud.text.length + 7) / 8 := by
        rw [← Option.some.inj hencodes, packSeptets, List.length_map, List.length_range]
      rw [encode7Bit_ret, hud]
      omega
    · cases hencodes
  refine Nat.add_le_add_right (Nat.le_trans (toNat_ofNat_le _) ?_) 4
  rcases hout with ⟨hu, hout⟩ | ⟨hu, rfl⟩
  · have hcoding : msg.ud.coding = .ucs2 := by
      rw [hdcs] at hu
      cases hcoding : msg.ud.coding <;> simp [hcoding, Coding.dcs, gsmUcs2] at hu ⊢
    rw [hcoding] at hencodes
    have hint : udLength < membersSize - tpUd.toNat := Bytes.strlen_lt hlen
    have hsize : membersSize ≤ 0x7fffffff := by decide
    obtain rfl := strGB2Unicode_some h.ud (by omega) hout
    have hbound := strGB2UnicodeLoop_ret hencodes 0 []
    omega
  · have hcoding : msg.ud.coding = .eightBit := by
      rw [hdcs] at h7 hu
      cases hcoding : msg.ud.coding <;> simp [hcoding, Coding.dcs, gsm7Bit, gsmUcs2] at h7 hu ⊢
    rw [hcoding] at hencodes
    have hoctets : msg.ud.octets = msg.ud.text := (Option.some.inj hencodes).symm
    rw [hoctets, ← hud]
    exact Nat.le_refl _

/-- The encoder's result for a message in the members is too small. -/
theorem encodePdu_ret_lt {table : Table} {msg : Submit table} {m buf : Bytes} {out : Out}
    (htpa : msg.tpa.digits ≠ []) (h : msg.In m) (hrun : encodePdu table m buf = some out) :
    out.ret < msg.pdu.length := by
  obtain ⟨nLength, udLength, segLength, buf₁, buf₂, buf₃, hsca, hud, henc, -, -, -, hret⟩ :=
    encodePdu_segments hrun
  have hn : nLength = msg.sca.digits.length := h.sca.strlen hsca
  have hseg := encodeUserData_length h hud henc
  have hfits := msg.sca.fits
  have hpos := List.length_pos_of_ne_nil htpa
  have hpdu : msg.pdu.length = 2 * 2 + 2 * ((msg.sca.digits.length + 1) / 2) + 2 * 4 +
      2 * ((msg.tpa.digits.length + 1) / 2) + 2 * (4 + msg.ud.octets.length) := by
    simp only [Submit.pdu, List.length_append, hexText_length, semiOctets_length,
      List.length_cons, List.length_nil]
  rw [hret, invetNumbers_ret, invetNumbers_ret, hn, hpdu]
  omega

/-- For no message in the members is the PDU what the encoder leaves in `dst`, and
for none is the result its length. -/
theorem submit_never_encoded {table : Table} (msg : Submit table) (m buf dst : Bytes)
    (htpa : msg.tpa.digits ≠ []) (h : msg.In m) :
    ¬ Encodes table m buf dst msg.pdu ∧
      ∀ out, encodePdu table m buf = some out → out.ret ≠ msg.pdu.length := by
  refine ⟨?_, fun out hrun => Nat.ne_of_lt (encodePdu_ret_lt htpa h hrun)⟩
  rintro ⟨out, hrun, -, htext⟩
  obtain ⟨nibble, hfirst⟩ := encodePdu_first hrun dst
  have hpos : 0 < msg.pdu.length := by simp [Submit.pdu, hexText, hex]
  have hhead : msg.pdu[0] = 0x30 := by simp [Submit.pdu, hexText, hex, smscLength_hex]
  have h0 := htext 0 hpos
  rw [hhead] at h0
  exact first_ne_zero_digit nibble (hfirst.symm.trans h0)

def greeting : Submit #[] where
  sca := ⟨[0x38, 0x36, 0x31, 0x33, 0x30, 0x31, 0x30, 0x31, 0x31, 0x32, 0x35, 0x30, 0x30],
    by simp, by decide⟩
  tpa := ⟨[0x38, 0x36, 0x31, 0x35, 0x39, 0x31, 0x32, 0x33, 0x34, 0x35, 0x36, 0x37, 0x38],
    by simp, by decide⟩
  pid := 0
  ud := ⟨[0x47, 0x6f], .sevenBit, [0xc7, 0x37], by decide, rfl, by decide⟩

def greetingMembers : Bytes := fun i =>
  (greeting.sca.digits ++ [0, 0, 0] ++ greeting.tpa.digits ++ [0, 0, 0] ++ [0, 0] ++
    List.replicate 16 0 ++ greeting.ud.text).getD i.toNat 0

theorem greeting_in : greeting.In greetingMembers where
  sca := by unfold Bytes.Holds; decide
  tpa := by unfold Bytes.Holds; decide
  pid := by decide
  dcs := by decide
  ud := by unfold Bytes.Holds; decide

theorem greeting_never_encoded : greeting.In greetingMembers ∧
    ¬ Encodes #[] greetingMembers (fun _ => 0) (fun _ => 0) greeting.pdu :=
  ⟨greeting_in, (submit_never_encoded greeting greetingMembers _ _ (by decide) greeting_in).1⟩

/-- The greeting takes 52 characters and the encoder returns 34. -/
theorem greeting_not_encoded :
    ¬ ∀ (table : Table) (msg : Submit table) (m buf dst : Bytes), msg.sca.digits ≠ [] →
      msg.tpa.digits ≠ [] → msg.In m → Encodes table m buf dst msg.pdu := by
  intro hall
  obtain ⟨out, hrun, hret, -⟩ := hall #[] greeting greetingMembers (fun _ => 0) (fun _ => 0)
    (by decide) (by decide) greeting_in
  have hout : (encodePdu #[] greetingMembers fun _ => 0).map (·.ret) = some 34 := by decide
  have hpdu : greeting.pdu.length = 52 := by decide
  rw [hrun, Option.map_some, hret, hpdu] at hout
  exact absurd hout (by decide)

end Mobile.Sms.Proofs.Encoding
