import Mobile.Sms.SendMessage
import Mobile.Sms.Proofs.Characters
import Mobile.Sms.Proofs.Encoding

/-!
# The buffers of an outgoing message

Which positions `SendSMSMsg` and `EncodePdu` write.  In PDU mode the length goes through
`String2Byte`, which makes five bytes of two octets for an `int` of four.  In text mode the
command takes the whole phone string and the message two bytes a character.  `EncodePdu`
leaves its `buf` with long texts in UCS2 only.
-/

namespace Mobile.Sms.Proofs.Outgoing

open Mobile.ProofSupport.Image Mobile.ProofSupport.Image.Writes
open Mobile.Token.Scan Mobile.Channel.Types
open Mobile.Sms.Helpers Mobile.Sms.Unicode Mobile.Sms.Pdu Mobile.Sms.SendMessage
open Mobile.Sms.Proofs.Characters Mobile.Sms.Proofs.Positions Mobile.Sms.Proofs.Encoding
open Mobile.Token.Tokenizer (toInt)

variable {table : Table}

structure Members where
  bytes : Bytes
  sca : Line
  tpa : Line
  ud : Line
  sca_in : (bytes.shift Pdu.sca).Holds sca
  tpa_in : (bytes.shift Pdu.tpa).Holds tpa
  ud_in : (bytes.shift tpUd).Holds ud
  sca_fits : sca.length < 16
  tpa_fits : tpa.length < 16
  ud_fits : ud.length < 161

/-- `SendSMSMsg` writes inside its objects. -/
def SendsInside (table : Table) (format : SMSMode) (phone msg : Line) (m buf garbage : Bytes) :
    Prop :=
  ∃ sent, sendSMSMsg table format phone msg m buf garbage = some sent ∧
    ∀ p ∈ sent.positions, Inside p

/-- `EncodePdu` writes inside its objects, and `buf[3]` is the length of the user data. -/
def EncodesInside (table : Table) (m buf : Bytes) : Prop :=
  ∃ inBuf length out, bufWrites table m = some (inBuf, length) ∧
    encodePdu table m buf = some out ∧
    (∀ p ∈ positions .buf inBuf ++ positions .pdu out.writes, Inside p) ∧
    (buf.apply inBuf 3).toNat = length

/-! ## The record of `buf` -/

theorem setBuf_eq (buf : Bytes) (bs : List UInt8) : setBuf buf bs = buf.apply (stores bs) := rfl

theorem octet_le (b : UInt8) (n : Nat) : b.toNat ≤ n + 255 :=
  Nat.le_add_left_of_le (Nat.le_of_lt_succ b.toNat_lt)

theorem encodeUserData_eq {m buf buf' : Bytes} {n seg : Nat}
    (h : encodeUserData table m buf n = some (buf', seg)) :
    (∃ ws length, userDataWrites table m n = some (ws, length) ∧ buf' = buf.apply ws) ∧
      seg ≤ n + 259 := by
  unfold userDataWrites
  rcases encodeUserData_cases h with ⟨h7, rfl, rfl⟩ | ⟨h7, out, hout, rfl, rfl⟩
  · refine ⟨⟨_, _, if_pos h7, by simp [setBuf_eq]⟩, ?_⟩
    rw [encode7Bit_ret]
    omega
  refine ⟨?_, Nat.add_le_add_right (octet_le _ _) 4⟩
  rw [if_neg h7]
  rcases hout with ⟨hu, hout⟩ | ⟨hu, rfl⟩
  · rw [if_pos hu, hout]
    exact ⟨_, _, rfl, by simp [setBuf_eq]⟩
  · exact ⟨_, _, if_neg hu, by simp [setBuf_eq]⟩

/-- The last segment of the PDU is made of `buf` with all the recorded writes. -/
theorem encodePdu_buf {m buf : Bytes} {out : Out} (h : encodePdu table m buf = some out) :
    ∃ ws length before seg pos, bufWrites table m = some (ws, length) ∧
      out.writes = before ++ Writes.shift (byte2String (buf.apply ws) seg).writes pos := by
  obtain ⟨nLength, udLength, seg, buf₁, buf₂, buf₃, hsca, hud, henc, hbuf₁, hbuf₂, hwrites, -⟩ :=
    encodePdu_segments h
  obtain ⟨⟨ws, length, hws, rfl⟩, -⟩ := encodeUserData_eq henc
  have hrecord : bufWrites table m = some (stores [UInt8.ofNat
        (if nLength % 2 = 0 then nLength else nLength + 1) / 2 + 1, 0x91] ++
      stores [0x11, 0, UInt8.ofNat nLength, 0x91] ++ ws, length) := by
    simp [bufWrites, hsca, hud, hws]
  rw [hbuf₂, hbuf₁, setBuf_eq, setBuf_eq, ← Bytes.apply_append, ← Bytes.apply_append] at hwrites
  exact ⟨_, length, _, seg, _, hrecord, hwrites⟩

/-! ## Positions -/

theorem inside_positions {l : Local} {ws : Writes} :
    (∀ p ∈ positions l ws, Inside p) ↔ Within ws l.size := by
  rw [positions, List.forall_mem_map]
  rfl

theorem within_sprintf {s : Line} {size : Nat} :
    Within (sprintf s) size ↔ s.length < size := by
  have h : Within (sprintf s) size ↔ 0 + (s ++ [0]).length ≤ size :=
    within_run (Nat.zero_le size)
  rw [h, List.length_append, List.length_singleton]
  omega

/-! ## SendSMSMsg -/

theorem length_text (s : String) : (text s).length = s.length := by
  rw [text, List.length_map, String.length_toList]

theorem length_toString {n : Int} {k : Nat} (hk : 0 < k) (h : n.natAbs < 10 ^ k) :
    (toString n).length ≤ k + 1 := by
  cases n with
  | ofNat n =>
      have hlen : (Nat.repr n).length ≤ k := (Nat.length_repr_le_iff hk).2 h
      exact Nat.le_succ_of_le hlen
  | negSucc n =>
      have hlen : (Nat.repr (n + 1)).length ≤ k := (Nat.length_repr_le_iff hk).2 h
      have happend : ("-" ++ Nat.repr (n + 1)).length = 1 + (Nat.repr (n + 1)).length :=
        String.length_append _ _
      show ("-" ++ Nat.repr (n + 1)).length ≤ k + 1
      omega

theorem length_debug (n : Int) (len : Nat) :
    (text s!"{toInt n}, {len % 0x10000000000000000}").length < 256 := by
  have hn : (toString (toInt n)).length ≤ 10 + 1 := by
    refine length_toString (by decide) ?_
    unfold toInt
    omega
  have hlen : (toString (len % 0x10000000000000000)).length ≤ 20 :=
    (Nat.length_repr_le_iff (by decide)).2 (by omega)
  rw [length_text]
  simp only [String.length_append]
  have hcomma : (toString ", ").length = 2 := rfl
  omega

theorem sendText_inside_iff (phone msg : Line) :
    (∀ p ∈ (sendText table phone msg).positions, Inside p) ↔
      phone.length ≤ 20 ∧ needed (characters table (scannedBytes msg)) ≤ 512 := by
  obtain ⟨bytes, hlen, hwrites, -⟩ :=
    strGB2UnicodeLoop_converts table (scannedBytes msg) 0 []
  have hpdu : Within (convertMessage table msg).writes 512 ↔ bytes.length ≤ 512 := by
    rw [convertMessage, hwrites, List.nil_append, within_run (Nat.zero_le 512), Nat.zero_add]
  have hdebug := length_debug (convertMessage table msg).ret msg.length
  have hcommand : (text "AT^HCMGS=\"" ++ phone ++ text "\"").length = phone.length + 11 := by
    simp only [List.length_append, length_text]
    show 10 + phone.length + 1 = _
    omega
  simp only [sendText, List.forall_mem_append, inside_positions, within_sprintf, Local.size,
    hpdu, hdebug, hcommand, hlen, and_true]
  omega

theorem sendPdu_outside {m buf garbage : Bytes} {sent : Sent}
    (h : sendPdu table m buf garbage = some sent) : ∃ p ∈ sent.positions, ¬ Inside p := by
  simp only [sendPdu, Option.bind_eq_bind, Option.bind_eq_some_iff] at h
  obtain ⟨⟨inBuf, length⟩, -, out, -, hsent⟩ := h
  cases hsent
  refine ⟨(.nSmscLength, 4), ?_, by simp [Inside, Local.size]⟩
  simp [positions, string2Byte]

/-! ## EncodePdu -/

section Encoder

variable (m : Members)

theorem Members.scaLen : memberLen m.bytes Pdu.sca = some m.sca.length :=
  m.sca_in.strlen_eq (Nat.lt_of_lt_of_le m.sca_fits (by decide))

theorem Members.udLen : memberLen m.bytes tpUd = some m.ud.length :=
  m.ud_in.strlen_eq (Nat.lt_of_lt_of_le m.ud_fits (by decide))

theorem Members.strGB2Unicode_ud :
    strGB2Unicode table (m.bytes.shift tpUd) (membersSize - tpUd.toNat) =
      some (strGB2UnicodeLoop table m.ud 0 []) := by
  have hfits := m.ud_fits
  have hknown := known_le_length table m.ud
  have hlimit : m.ud.length < membersSize - tpUd.toNat := Nat.lt_of_lt_of_le hfits (by decide)
  rw [strGB2Unicode_eq m.ud_in hlimit (by omega), if_pos (by omega)]

theorem encodeUserData_returns (table : Table) (buf : Bytes) :
    ∃ r, encodeUserData table m.bytes buf m.ud.length = some r := by
  rw [encodeUserData]
  by_cases h7 : m.bytes tpDcs = gsm7Bit
  · exact ⟨_, if_pos h7⟩
  rw [if_neg h7]
  by_cases hu : m.bytes tpDcs = gsmUcs2
  · rw [if_pos hu, m.strGB2Unicode_ud]
    exact ⟨_, rfl⟩
  · exact ⟨_, if_neg hu⟩

theorem encodePdu_within {buf : Bytes} {out : Out}
    (h : encodePdu table m.bytes buf = some out) : Within out.writes 512 := by
  obtain ⟨nLength, udLength, seg, buf₁, buf₂, buf₃, hsca, hud, henc, -, -, hwrites, -⟩ :=
    encodePdu_segments h
  have hn : nLength < 16 := by
    rw [m.scaLen] at hsca
    cases hsca
    exact m.sca_fits
  have hseg : seg ≤ 419 := by
    rw [m.udLen] at hud
    cases hud
    have hle := (encodeUserData_eq henc).2
    have hfits := m.ud_fits
    omega
  have hret : ∀ src, (invetNumbers src nLength).ret ≤ 16 := by
    intro src
    rw [invetNumbers_ret]
    omega
  have hsca := hret (m.bytes.shift sca)
  have htpa := hret (m.bytes.shift tpa)
  rw [hwrites]
  simp only [within_append]
  refine ⟨⟨⟨⟨?_, ?_⟩, ?_⟩, ?_⟩, ?_⟩
  · exact (byte2String_within _ _).mono (by omega)
  · exact ((invetNumbers_within _ _).shift 1).mono (by omega)
  · exact ((byte2String_within _ _).shift _).mono (by omega)
  · exact ((invetNumbers_within _ _).shift _).mono (by omega)
  · exact ((byte2String_within _ _).shift _).mono (by omega)

theorem stores_within {bs : List UInt8} {size : Nat} (h : bs.length ≤ size) :
    Within (stores bs) size := by
  intro w hw
  obtain ⟨i, hi, rfl⟩ := List.mem_mapIdx.1 hw
  exact ⟨Int.natCast_nonneg i, Int.ofNat_lt.2 (Nat.lt_of_lt_of_le hi h)⟩

theorem within_singleton {i : Int} {b : UInt8} {size : Nat} (hi : 0 ≤ i ∧ i < size) :
    Within [(i, b)] size := by
  simpa [Within] using hi

theorem last_octet (buf : Bytes) (ws : Writes) {n : Nat} (h : n < 256) :
    (buf.apply (ws ++ [(3, UInt8.ofNat n)]) 3).toNat = n := by
  rw [Bytes.apply_append, Bytes.apply_cons, Bytes.apply_nil, Function.update_self,
    UInt8.toNat_ofNat_of_lt' h]

theorem sevenBit_inside (buf : Bytes) {ws : Writes} {length : Nat}
    (h7 : m.bytes tpDcs = gsm7Bit)
    (h : userDataWrites table m.bytes m.ud.length = some (ws, length)) :
    Within ws 256 ∧ (buf.apply ws 3).toNat = length := by
  have hfits := m.ud_fits
  have hpacked : Within (encode7Bit (m.bytes.shift tpUd) (m.ud.length + 1)).writes 1 := by
    intro w hw
    rw [encode7Bit_position _ _ w hw]
    decide
  rw [userDataWrites, if_pos h7] at h
  cases h
  refine ⟨within_append.2 ⟨within_append.2 ⟨?_, ?_⟩, ?_⟩, ?_⟩
  · exact stores_within (Nat.le_add_left 3 253)
  · exact within_singleton (by decide)
  · exact (hpacked.shift 4).mono (by decide)
  · have hforward : Forward (encode7Bit (m.bytes.shift tpUd) (m.ud.length + 1)).writes :=
      fun w hw => (hpacked w hw).1
    rw [Bytes.apply_append, hforward.apply_shift (by decide)]
    exact last_octet buf _ (by omega)

theorem eightBit_inside (buf : Bytes) {ws : Writes} {length : Nat}
    (h7 : m.bytes tpDcs ≠ gsm7Bit) (hu : m.bytes tpDcs ≠ gsmUcs2)
    (h : userDataWrites table m.bytes m.ud.length = some (ws, length)) :
    Within ws 256 ∧ (buf.apply ws 3).toNat = length := by
  have hfits := m.ud_fits
  rw [userDataWrites, if_neg h7, if_neg hu] at h
  cases h
  refine ⟨within_append.2 ⟨within_append.2 ⟨?_, ?_⟩, ?_⟩, ?_⟩
  · exact stores_within (Nat.le_add_left 3 253)
  · exact ((memcpy_within _ _).shift 4).mono (by omega)
  · exact within_singleton (by decide)
  · refine last_octet buf _ ?_
    show m.ud.length < 256
    omega

theorem ucs2_inside_iff (buf : Bytes) {ws : Writes} {length : Nat}
    (hu : m.bytes tpDcs = gsmUcs2)
    (h : userDataWrites table m.bytes m.ud.length = some (ws, length)) :
    Within ws 256 ∧ (buf.apply ws 3).toNat = length ↔
      needed (characters table m.ud) ≤ 252 := by
  have h7 : m.bytes tpDcs ≠ gsm7Bit := by
    rw [hu]
    decide
  obtain ⟨bytes, hlen, hwrites, hret⟩ :=
    strGB2UnicodeLoop_converts table m.ud 0 []
  rw [userDataWrites, if_neg h7, if_pos hu, m.strGB2Unicode_ud] at h
  cases h
  have hrun : Writes.shift (strGB2UnicodeLoop table m.ud 0 []).writes 4 = run (4 : Nat) bytes := by
    rw [hwrites, List.nil_append, shift_run]
    rfl
  rw [hrun]
  simp only [within_append, within_run (show 4 ≤ 256 by decide), hlen]
  constructor
  · rintro ⟨⟨⟨-, hfits⟩, -⟩, -⟩
    omega
  · intro hfits
    refine ⟨⟨⟨stores_within (Nat.le_add_left 3 253), by omega⟩, within_singleton (by decide)⟩, ?_⟩
    refine last_octet buf _ ?_
    rw [hret]
    unfold needed at hfits
    split
    · omega
    · decide

/-- Only the conversion to UCS2 can leave `buf`, and it has left it before the length is
too large for its octet. -/
theorem userData_inside_iff (buf : Bytes) {ws : Writes} {length : Nat}
    (h : userDataWrites table m.bytes m.ud.length = some (ws, length)) :
    Within ws 256 ∧ (buf.apply ws 3).toNat = length ↔
      (m.bytes tpDcs = gsmUcs2 → needed (characters table m.ud) ≤ 252) := by
  by_cases h7 : m.bytes tpDcs = gsm7Bit
  · have hne : m.bytes tpDcs ≠ gsmUcs2 := by
      rw [h7]
      decide
    exact iff_of_true (sevenBit_inside m buf h7 h) fun hu => absurd hu hne
  by_cases hu : m.bytes tpDcs = gsmUcs2
  · rw [ucs2_inside_iff m buf hu h]
    exact ⟨fun hfits _ => hfits, fun hfits => hfits hu⟩
  · exact iff_of_true (eightBit_inside m buf h7 hu h) fun heq => absurd heq hu

theorem encodePdu_returns (table : Table) (buf : Bytes) :
    ∃ out, encodePdu table m.bytes buf = some out := by
  rw [encodePdu, m.scaLen]
  simp only [Option.bind_eq_bind, Option.bind_some, m.udLen]
  obtain ⟨r, hr⟩ := encodeUserData_returns m table (setBuf (setBuf buf
    [UInt8.ofNat (if m.sca.length % 2 = 0 then m.sca.length else m.sca.length + 1) / 2 + 1, 0x91])
    [0x11, 0, UInt8.ofNat m.sca.length, 0x91])
  rw [hr]
  exact ⟨_, rfl⟩

/-- The record begins with the two headers, which lie in `buf`. -/
theorem bufWrites_eq {inBuf : Writes} {length : Nat}
    (h : bufWrites table m.bytes = some (inBuf, length)) :
    ∃ head ws, userDataWrites table m.bytes m.ud.length = some (ws, length) ∧
      inBuf = head ++ ws ∧ Within head 256 := by
  rw [bufWrites, m.scaLen] at h
  simp only [Option.bind_eq_bind, Option.bind_some, m.udLen, Option.bind_eq_some_iff] at h
  obtain ⟨⟨ws, length'⟩, hws, heq⟩ := h
  cases heq
  refine ⟨_, ws, hws, rfl, within_append.2 ⟨?_, ?_⟩⟩
  · exact stores_within (Nat.le_add_left 2 254)
  · exact stores_within (Nat.le_add_left 4 252)

theorem encodesInside_iff (buf : Bytes) :
    EncodesInside table m.bytes buf ↔
      (m.bytes tpDcs = gsmUcs2 → needed (characters table m.ud) ≤ 252) := by
  constructor
  · rintro ⟨inBuf, length, out, hbuf, -, hinside, hoctet⟩
    obtain ⟨head, ws, hws, rfl, -⟩ := bufWrites_eq m hbuf
    rw [Bytes.apply_append] at hoctet
    refine (userData_inside_iff m (buf.apply head) hws).1 ⟨?_, hoctet⟩
    have hall := inside_positions.1 (List.forall_mem_append.1 hinside).1
    exact (within_append.1 hall).2
  · intro hfits
    obtain ⟨out, hout⟩ := encodePdu_returns m table buf
    obtain ⟨inBuf, length, -, -, -, hbuf, -⟩ := encodePdu_buf hout
    obtain ⟨head, ws, hws, rfl, hhead⟩ := bufWrites_eq m hbuf
    obtain ⟨hwithin, hoctet⟩ := (userData_inside_iff m (buf.apply head) hws).2 hfits
    refine ⟨_, length, out, hbuf, hout, List.forall_mem_append.2 ⟨?_, ?_⟩, ?_⟩
    · exact inside_positions.2 (within_append.2 ⟨hhead, hwithin⟩)
    · exact inside_positions.2 (encodePdu_within m hout)
    · rw [Bytes.apply_append]
      exact hoctet

end Encoder

/-- Which messages are sent and encoded without leaving an object, and with the length of
the user data in its octet. -/
theorem outgoing_inside_iff (table : Table) (format : SMSMode) (phone msg : Line)
    (m : Members) (buf garbage : Bytes) :
    (SendsInside table format phone msg m.bytes buf garbage ↔
      format = .text ∧ phone.length ≤ 20 ∧
        needed (characters table (scannedBytes msg)) ≤ 512) ∧
    (EncodesInside table m.bytes buf ↔
      (m.bytes tpDcs = gsmUcs2 → needed (characters table m.ud) ≤ 252)) := by
  refine ⟨?_, encodesInside_iff m buf⟩
  cases format with
  | pdu =>
      refine iff_of_false ?_ nofun
      rintro ⟨sent, hsent, hinside⟩
      obtain ⟨p, hp, hout⟩ := sendPdu_outside hsent
      exact hout (hinside p hp)
  | text =>
      rw [← sendText_inside_iff]
      constructor
      · rintro ⟨sent, hsent, hinside⟩
        obtain rfl : sendText table phone msg = sent := Option.some.inj hsent
        exact ⟨rfl, hinside⟩
      · rintro ⟨-, hinside⟩
        exact ⟨_, rfl, hinside⟩

def noMembers : Members where
  bytes := fun _ => 0
  sca := []
  tpa := []
  ud := []
  sca_in := by simp [Bytes.Holds]
  tpa_in := by simp [Bytes.Holds]
  ud_in := by simp [Bytes.Holds]
  sca_fits := by decide
  tpa_fits := by decide
  ud_fits := by decide

/-- In PDU mode the fifth byte of `nSmscLength` is written for every message. -/
theorem pdu_length_overrun :
    ¬ ∀ (table : Table) (format : SMSMode) (phone msg : Line) (m : Members)
      (buf garbage : Bytes), SendsInside table format phone msg m.bytes buf garbage ∧
        EncodesInside table m.bytes buf := by
  intro h
  obtain ⟨⟨sent, hsent, hinside⟩, -⟩ := h #[] .pdu [] [] noMembers (fun _ => 0) (fun _ => 0)
  obtain ⟨p, hp, hout⟩ := sendPdu_outside hsent
  exact hout (hinside p hp)

end Mobile.Sms.Proofs.Outgoing
