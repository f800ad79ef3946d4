import Mobile.Sms.Accesses
import Mobile.Sms.Proofs.Decoding

/-!
# The bounds of the decoder

The record of accesses is that of `DecodePdu`: it goes along the same states and
has the same writes.  It leaves the objects for every `src`: `String2Byte` makes
two characters of an octet and ends them with a terminator, five bytes for a
variable of one, and the lengths read in that way are printable characters.
-/

namespace Mobile.Sms.Proofs.Bounds

open Mobile.ProofSupport.Image Mobile.ProofSupport.Image.Writes
open Mobile.Sms.Helpers Mobile.Sms.Unicode Mobile.Sms.Pdu Mobile.Sms.Accesses
open Mobile.Sms.Proofs.Decoding Mobile.Sms.Proofs.Positions

/-! ### The record is that of the decoder -/

section State

variable (t : Traced)

@[simp] theorem readTmp_state : t.readTmp.state = t.state.readTmp := rfl

@[simp] theorem readUdhl_state : t.readUdhl.state = t.state.readUdhl := rfl

@[simp] theorem setTmp_state (tmp : UInt8) : (t.setTmp tmp).state = { t.state with tmp } := rfl

@[simp] theorem setMember_state (reads : Nat) (m : Member) (ws : Writes) :
    (t.setMember reads m ws).state = t.state.setMember m.offset ws := rfl

@[simp] theorem readOctet_state (m : Member) :
    (t.readOctet m).state = t.state.setMember m.offset (string2Byte t.state.src 2).writes := rfl

@[simp] theorem readNumber_state (m : Member) (srcLen : Nat) :
    (t.readNumber m srcLen).state = t.state.readNumber m.offset srcLen := rfl

@[simp] theorem readBuf_state (srcLen : Nat) :
    (t.readBuf srcLen).2.state = (t.state.readBuf srcLen).2 := rfl

@[simp] theorem readBuf_ret (srcLen : Nat) :
    (t.readBuf srcLen).1 = (t.state.readBuf srcLen).1 := rfl

@[simp] theorem advance_state (k : Nat) : (t.advance k).state = t.state.advance k := rfl

theorem readSca_state : t.readSca.state = t.state.readSca := by
  simp only [Traced.readSca, Decode.readSca, readTmp_state, setTmp_state, advance_state,
    readNumber_state, Member.offset]

theorem readTpa_state : t.readTpa.2.state = t.state.readTpa.2 := by
  by_cases hodd : (t.readTmp.advance 2).readTmp.state.tmp &&& 1 ≠ 0
  · have hodd' : (t.state.readTmp.advance 2).readTmp.tmp &&& 1 ≠ 0 := hodd
    simp only [Traced.readTpa, Decode.readTpa, if_pos hodd, if_pos hodd']
    rfl
  · have hodd' : ¬ (t.state.readTmp.advance 2).readTmp.tmp &&& 1 ≠ 0 := hodd
    simp only [Traced.readTpa, Decode.readTpa, if_neg hodd, if_neg hodd']
    rfl

theorem readTpa_first : t.readTpa.1 = t.state.readTpa.1 := rfl

theorem readParameters_state : t.readParameters.state = t.state.readParameters := by
  simp only [Traced.readParameters, Decode.readParameters, readOctet_state, advance_state,
    readNumber_state, readTmp_state, Member.offset]

theorem skipHeader_state (tpMtiMmsRp : UInt8) :
    (t.skipHeader tpMtiMmsRp).state = t.state.skipHeader tpMtiMmsRp := by
  simp only [Traced.skipHeader, Decode.skipHeader, apply_ite Traced.state, setTmp_state,
    advance_state, readUdhl_state]

theorem readUserData_state (table : Table) :
    (t.readUserData table).map (fun r => (r.1, r.2.state)) = t.state.readUserData table := by
  simp only [Traced.readUserData, Decode.readUserData]
  by_cases h7 : t.state.members tpDcs = gsm7Bit
  · simp only [if_pos h7, Option.map_some, setMember_state, readBuf_state, readBuf_ret,
      Member.offset]
  · rw [if_neg h7, if_neg h7]
    by_cases hu : t.state.members tpDcs = gsmUcs2
    · simp only [if_pos hu, readBuf_state, readBuf_ret, Option.bind_eq_bind, Option.map_bind]
      rfl
    · simp only [if_neg hu, Option.map_some, setMember_state, readBuf_state, readBuf_ret,
        Member.offset]

end State

/-- The recorded run is the run of `DecodePdu`. -/
theorem tracedDecodePdu_state (table : Table) (src members buf : Bytes) (tmp : UInt8) :
    (tracedDecodePdu table src members buf tmp).map (fun r => (r.1, r.2.state)) =
      Pdu.decodePdu table src members buf tmp := by
  simp only [tracedDecodePdu, Pdu.decodePdu, readUserData_state, skipHeader_state,
    readParameters_state, readTpa_state, readTpa_first, readSca_state]

def Recorded (t : Traced) : Prop := t.state.written = t.log.filterMap Access.written

theorem recorded_access {t : Traced} (h : Recorded t) (reads : Nat) (field : Field)
    (ws : Writes) {state : Decode} (target : Target) (shift : Int)
    (hfield : ∀ pos, (Access.write field pos).written = some (target, shift + pos))
    (hstate : state.written = t.state.written ++ ws.map fun w => (target, shift + w.1)) :
    Recorded { t.access reads field ws with state } := by
  have hreads : ((List.range reads).map fun k : Nat => Access.read (t.pos + k)).filterMap
      Access.written = [] := by
    simp [Access.written]
  have hwrites : (ws.map fun w => Access.write field w.1).filterMap Access.written =
      ws.map fun w => (target, shift + w.1) := by
    rw [List.filterMap_map]
    have hsome : Access.written ∘ (fun w : Int × UInt8 => Access.write field w.1) =
        some ∘ fun w => (target, shift + w.1) := funext fun w => hfield w.1
    rw [hsome, List.filterMap_eq_map]
  unfold Recorded at h ⊢
  simp only [Traced.access, List.filterMap_append, hreads, hwrites, List.append_nil]
  rw [hstate, h]

structure Extends (t t' : Traced) : Prop where
  log : t.log <+: t'.log
  recorded : Recorded t → Recorded t'

theorem Extends.refl (t : Traced) : Extends t t := ⟨List.prefix_refl _, id⟩

theorem Extends.trans {t t' t'' : Traced} (h : Extends t t') (h' : Extends t' t'') :
    Extends t t'' :=
  ⟨h.log.trans h'.log, fun ht => h'.recorded (h.recorded ht)⟩

theorem log_prefix_access (t : Traced) (reads : Nat) (field : Field) (ws : Writes) :
    t.log <+: (t.access reads field ws).log := by
  simp only [Traced.access, List.append_assoc]
  exact List.prefix_append _ _

section Steps

variable (t : Traced)

theorem extends_readTmp : Extends t t.readTmp :=
  ⟨log_prefix_access t _ _ _, fun h => recorded_access h _ _ _ .tmp 0 (by simp [Access.written])
    (by simp [Decode.readTmp, Decode.note])⟩

theorem extends_readUdhl : Extends t t.readUdhl :=
  ⟨log_prefix_access t _ _ _, fun h => recorded_access h _ _ _ .udhl 0 (by simp [Access.written])
    (by simp [Decode.readUdhl, Decode.note])⟩

theorem extends_setMember (reads : Nat) (m : Member) (ws : Writes) :
    Extends t (t.setMember reads m ws) :=
  ⟨log_prefix_access t _ _ _, fun h => recorded_access h _ _ _ .members m.offset
    (by simp [Access.written]) (by simp [Decode.setMember, Decode.note, Writes.shift])⟩

theorem extends_readBuf (srcLen : Nat) : Extends t (t.readBuf srcLen).2 :=
  ⟨log_prefix_access t _ _ _, fun h => recorded_access h _ _ _ .buf 0 (by simp [Access.written])
    (by simp [Decode.readBuf, Decode.note])⟩

theorem extends_setTmp (tmp : UInt8) : Extends t (t.setTmp tmp) := ⟨List.prefix_refl _, id⟩

theorem extends_advance (k : Nat) : Extends t (t.advance k) := ⟨List.prefix_refl _, id⟩

theorem extends_number (m : Member) (k : Nat) :
    Extends t (((t.advance k).readNumber m (t.advance k).state.tmp.toNat).advance
      ((t.advance k).readNumber m (t.advance k).state.tmp.toNat).state.tmp.toNat) :=
  ((extends_advance t k).trans (extends_setMember _ _ _ _)).trans (extends_advance _ _)

theorem extends_readSca : Extends t t.readSca :=
  ((extends_readTmp t).trans (extends_setTmp _ _)).trans (extends_number _ .sca 4)

theorem extends_readTpa : Extends t t.readTpa.2 := by
  have hread := ((extends_readTmp t).trans (extends_advance _ 2)).trans (extends_readTmp _)
  simp only [Traced.readTpa]
  split
  · exact (hread.trans (extends_setTmp _ _)).trans (extends_number _ .tpa 4)
  · exact hread.trans (extends_number _ .tpa 4)

theorem extends_readOctet (m : Member) : Extends t ((t.readOctet m).advance 2) :=
  (extends_setMember t 2 m _).trans (extends_advance _ 2)

theorem extends_readParameters : Extends t t.readParameters :=
  (((extends_readOctet t .tpPid).trans (extends_readOctet _ .tpDcs)).trans
    ((extends_setMember _ _ .tpScts _).trans (extends_advance _ 14))).trans
    ((extends_readTmp _).trans (extends_advance _ 2))

theorem extends_skipHeader (tpMtiMmsRp : UInt8) : Extends t (t.skipHeader tpMtiMmsRp) := by
  unfold Traced.skipHeader
  split
  · exact (((extends_readUdhl t).trans (extends_advance _ 2)).trans
      (extends_advance _ _)).trans (extends_setTmp _ _)
  · exact Extends.refl t

theorem extends_readUserData {table : Table} {t t' : Traced} {n : Nat}
    (h : t.readUserData table = some (n, t')) : Extends t t' := by
  by_cases h7 : t.state.members tpDcs = gsm7Bit
  · simp only [Traced.readUserData, if_pos h7] at h
    cases h
    exact (extends_readBuf t _).trans (extends_setMember _ _ .tpUd _)
  by_cases hu : t.state.members tpDcs = gsmUcs2
  · simp only [Traced.readUserData, if_neg h7, if_pos hu, Option.bind_eq_bind,
      Option.bind_eq_some_iff] at h
    obtain ⟨out, -, h⟩ := h
    cases h
    exact (extends_readBuf t _).trans (extends_setMember _ _ .tpUd _)
  · simp only [Traced.readUserData, if_neg h7, if_neg hu] at h
    cases h
    exact (extends_readBuf t _).trans (extends_setMember _ _ .tpUd _)

end Steps

/-! ### The decoder returns -/

theorem strUnicode2GBLoop_some {table : Table} {src : Bytes} {rounds k : Nat} {n : UInt32}
    {i : Nat} {pos : Int} {ws : Writes} (hn : n.toNat = 2 * k) (hrounds : k ≤ rounds) :
    ∃ out, strUnicode2GBLoop table src rounds n i pos ws = some out := by
  induction k generalizing rounds n i pos ws with
  | zero =>
      have hzero : n = 0 := UInt32.toNat_inj.1 hn
      unfold strUnicode2GBLoop
      exact ⟨_, if_pos hzero⟩
  | succ k ih =>
      obtain ⟨rounds, rfl⟩ : ∃ r, rounds = r + 1 := ⟨rounds - 1, by omega⟩
      obtain ⟨hne, hn'⟩ := pair_taken hn
      rw [strUnicode2GBLoop, if_neg hne]
      dsimp only
      split_ifs
      · exact ih hn' (by omega)
      · exact ih hn' (by omega)
      · exact ih hn' (by omega)

theorem strUnicode2GB_some (table : Table) (src : Bytes) {n : UInt32} {k : Nat}
    (hn : n.toNat = 2 * k) : ∃ out, strUnicode2GB table src n = some out :=
  strUnicode2GBLoop_some hn (by omega)

theorem readUserData_returns (table : Table) (t : Traced) :
    ∃ n t', t.readUserData table = some (n, t') := by
  by_cases h7 : t.state.members tpDcs = gsm7Bit
  · simp only [Traced.readUserData, if_pos h7]
    exact ⟨_, _, rfl⟩
  by_cases hu : t.state.members tpDcs = gsmUcs2
  · -- four bytes of text for each octet: the count is even
    have hcount : (UInt32.ofNat (t.readBuf (t.state.tmp.toNat * 2)).1).toNat =
        2 * (t.state.tmp.toNat * 2) := by
      have htmp := t.state.tmp.toNat_lt
      simp only [Traced.readBuf, string2Byte, UInt32.toNat_ofNat']
      omega
    obtain ⟨out, hout⟩ :=
      strUnicode2GB_some table (t.readBuf (t.state.tmp.toNat * 2)).2.state.buf hcount
    simp only [Traced.readUserData, if_neg h7, if_pos hu, hout]
    exact ⟨_, _, rfl⟩
  · simp only [Traced.readUserData, if_neg h7, if_neg hu]
    exact ⟨_, _, rfl⟩

/-! ### Writes outside the objects -/

theorem mem_log_access {t : Traced} {reads : Nat} {field : Field} {ws : Writes} {i : Int}
    {b : UInt8} (h : (i, b) ∈ ws) : Access.write field i ∈ (t.access reads field ws).log := by
  simp only [Traced.access, List.mem_append, List.mem_map]
  exact Or.inr ⟨(i, b), h, rfl⟩

/-- The second character of an octet goes behind the variable of one byte. -/
theorem mem_string2Byte_two (src : Bytes) :
    ((1 : Int), tab (src 0 &&& 0x0f)) ∈ (string2Byte src 2).writes := by
  refine List.mem_append_left _ (List.mem_flatMap.2 ⟨0, by simp, ?_⟩)
  simp

theorem mem_serializeNumbers (src dst : Bytes) {srcLen : Nat} (h : 16 < srcLen) :
    ((16 : Int), src 17) ∈ (serializeNumbers src dst srcLen).writes := by
  have hmem : ((16 : Int), src 17) ∈ swapPairs src ((srcLen + 1) / 2) :=
    mem_swapPairs.2 ⟨8, by omega, Or.inl ⟨rfl, rfl⟩⟩
  unfold serializeNumbers
  dsimp only
  split
  · exact List.mem_append_left _ hmem
  · exact List.mem_append_left _ hmem

theorem readSca_writes (t : Traced) :
    Access.write .tmp 1 ∈ t.readSca.log ∧ Access.write (.member .sca) 16 ∈ t.readSca.log := by
  constructor
  · have hmem : Access.write .tmp 1 ∈ t.readTmp.log := mem_log_access (mem_string2Byte_two _)
    exact (((extends_setTmp _ _).trans (extends_number _ .sca 4)).log).subset hmem
  · have hrange := readTmp_range t.state
    have hlen : 16 < ((t.state.readTmp.tmp - 1) * 2).toNat := by
      rw [UInt8.toNat_mul, UInt8.toNat_sub_of_le _ _ (by rw [UInt8.le_iff_toNat_le]; simp; omega)]
      simp only [UInt8.reduceToNat]
      omega
    exact mem_log_access (mem_serializeNumbers _ _ hlen)

theorem readTpa_writes (t : Traced) : Access.write (.member .tpa) 16 ∈ t.readTpa.2.log := by
  have hrange := readTmp_range ((t.readTmp.advance 2).state)
  simp only [Traced.readTpa]
  split
  · have hlen : 16 < ((t.readTmp.advance 2).state.readTmp.tmp + 1).toNat := by
      rw [UInt8.toNat_add]
      simp only [UInt8.reduceToNat]
      omega
    exact mem_log_access (mem_serializeNumbers _ _ hlen)
  · have hlen : 16 < (t.readTmp.advance 2).state.readTmp.tmp.toNat := by omega
    exact mem_log_access (mem_serializeNumbers _ _ hlen)

theorem readParameters_writes (t : Traced) :
    Access.write (.member .tpPid) 1 ∈ t.readParameters.log ∧
      Access.write (.member .tpDcs) 1 ∈ t.readParameters.log := by
  have hrest : Extends ((((t.readOctet .tpPid).advance 2).readOctet .tpDcs).advance 2)
      t.readParameters :=
    ((extends_setMember _ _ .tpScts _).trans (extends_advance _ 14)).trans
      ((extends_readTmp _).trans (extends_advance _ 2))
  have hpid : Access.write (.member .tpPid) 1 ∈ ((t.readOctet .tpPid).advance 2).log :=
    mem_log_access (mem_string2Byte_two _)
  have hdcs : Access.write (.member .tpDcs) 1 ∈
      ((((t.readOctet .tpPid).advance 2).readOctet .tpDcs).advance 2).log :=
    mem_log_access (mem_string2Byte_two _)
  exact ⟨((extends_readOctet _ .tpDcs).trans hrest).log.subset hpid, hrest.log.subset hdcs⟩

/-- Whatever `src` is, `DecodePdu` returns and has written behind `tmp`, `sca_`,
`tpa_`, `tp_pid_` and `tp_dcs_`; the record is that of its state. -/
theorem tracedDecodePdu_writes (table : Table) (src members buf : Bytes) (tmp : UInt8) :
    ∃ n t, tracedDecodePdu table src members buf tmp = some (n, t) ∧ Recorded t ∧
      ∀ a ∈ [Access.write .tmp 1, .write (.member .sca) 16, .write (.member .tpa) 16,
        .write (.member .tpPid) 1, .write (.member .tpDcs) 1], a ∈ t.log := by
  obtain ⟨n, t, ht⟩ := readUserData_returns table
    ((Traced.readSca ⟨⟨src, tmp, 0, buf, members, []⟩, 0, []⟩).readTpa.2.readParameters.skipHeader
      (Traced.readSca ⟨⟨src, tmp, 0, buf, members, []⟩, 0, []⟩).readTpa.1)
  generalize hinit : (⟨⟨src, tmp, 0, buf, members, []⟩, 0, []⟩ : Traced) = t₀ at ht
  have hrecorded : Recorded t₀ := by rw [← hinit]; rfl
  have htail := (extends_skipHeader t₀.readSca.readTpa.2.readParameters
    t₀.readSca.readTpa.1).trans (extends_readUserData ht)
  have hparam := (extends_readParameters t₀.readSca.readTpa.2).trans htail
  have htpa := (extends_readTpa t₀.readSca).trans hparam
  refine ⟨n, t, by rw [← ht, ← hinit]; rfl,
    ((extends_readSca t₀).trans htpa).recorded hrecorded, ?_⟩
  simp only [List.mem_cons, List.not_mem_nil, or_false, forall_eq_or_imp, forall_eq]
  exact ⟨htpa.log.subset (readSca_writes t₀).1, htpa.log.subset (readSca_writes t₀).2,
    hparam.log.subset (readTpa_writes _), htail.log.subset (readParameters_writes _).1,
    htail.log.subset (readParameters_writes _).2⟩

theorem not_inside {t : Traced} {field : Field} {i : Int} (srcLen : Nat)
    (hmem : Access.write field i ∈ t.log) (hi : (field.size : Int) ≤ i) : ¬ t.Inside srcLen := by
  intro hinside
  have hlt : i < field.size := (hinside _ hmem).2
  omega

/-- There is no string for which the decoder stays inside its objects. -/
theorem decodePdu_never_inside (table : Table) (src members buf : Bytes) (tmp : UInt8)
    (s : List UInt8) (_ : src.Holds s) :
    ∃ n t, tracedDecodePdu table src members buf tmp = some (n, t) ∧ ¬ t.Inside s.length := by
  obtain ⟨n, t, ht, -, hwrites⟩ := tracedDecodePdu_writes table src members buf tmp
  have htmp : Access.write .tmp 1 ∈ t.log := hwrites _ (by simp)
  exact ⟨n, t, ht, not_inside s.length htmp (le_refl _)⟩

/-- A delivery whose service centre is of seven octets. -/
theorem decodePdu_never_inside_deliver : ∃ n t,
    tracedDecodePdu #[] (Bytes.literal [0x30, 0x38, 0x39, 0x31, 0x36, 0x38]) (fun _ => 0)
      (fun _ => 0) 0 = some (n, t) ∧ ¬ t.Inside 6 :=
  decodePdu_never_inside #[] _ _ _ 0 [0x30, 0x38, 0x39, 0x31, 0x36, 0x38]
    (Bytes.literal_holds (by decide))

/-- The empty string already makes `String2Byte` write behind `tmp`. -/
theorem decodePdu_outside :
    ¬ ∀ (table : Table) (src members buf : Bytes) (tmp : UInt8) (s : List UInt8),
      src.Holds s →
        ∃ n t, tracedDecodePdu table src members buf tmp = some (n, t) ∧ t.Inside s.length := by
  intro hclaim
  obtain ⟨n, t, ht, hinside⟩ := hclaim #[] (fun _ => 0) (fun _ => 0) (fun _ => 0) 0 []
    ⟨by simp, by simp, rfl⟩
  obtain ⟨n', t', ht', -, hwrites⟩ :=
    tracedDecodePdu_writes #[] (fun _ => 0) (fun _ => 0) (fun _ => 0) 0
  rw [ht] at ht'
  cases ht'
  have htmp : Access.write .tmp 1 ∈ t.log := hwrites _ (by simp)
  exact not_inside 0 htmp (le_refl _) hinside

end Mobile.Sms.Proofs.Bounds
