import Mobile.Sms.ReadMessage
import Mobile.Sms.Proofs.Bounds
import Mobile.Sms.Proofs.Conversion

/-!
# The header of an incoming message

`ATReadSMSThread` steps through the header from comma to comma, and looks at the results of
the last two searches only.  Behind the header the length from the wire goes to a copy or
to a conversion, and every other form to `DecodePdu`.
-/

namespace Mobile.Sms.Proofs.Header

open Mobile.ProofSupport.Image Mobile.ProofSupport.Image.Writes Mobile.ProofSupport.Search
open Mobile.Token.Scan Mobile.Channel.Types Mobile.Sms.Helpers Mobile.Sms.Unicode Mobile.Sms.Accesses
open Mobile.Sms.ReadMessage Mobile.Sms.Proofs.Bounds
open Mobile.Sms.Proofs.Conversion (strUnicode2GB_of_even strUnicode2GB_of_odd)

variable {table : Table} {s : Line}

structure FirstLine where
  tag : Line
  fields : Line
  tag_length : tag.length = 7

def FirstLine.text (l : FirstLine) : Line := l.tag ++ l.fields

def commas (s : Line) : Nat := s.count comma

def firstField (s : Line) : Line := s.takeWhile (· ≠ comma)

def behind : Nat → Line → Line
  | 0, s => s
  | k + 1, s => behind k (s.dropWhile (· ≠ comma)).tail

def form (l : FirstLine) : Int := atoi (behind 8 l.fields)

/-- The call returns as the number of commas says, and does not fault. -/
def Rejects (table : Table) (l : FirstLine) (line2 : CString) (line2Len : Int)
    (members buf : Bytes) (tmp : UInt8) : Prop :=
  atReadSMSThread table .text l.text line2 line2Len members buf tmp =
    .ok (if commas l.fields < 8 then -1 else 0)

/-- An ASCII text of any length, or a UCS2 text of whole characters with its last two
bytes; the length is cut to 140. -/
def TextFits (form line2Len : Int) : Prop :=
  (form = 1 ∧ 0 ≤ line2Len) ∨ (form = 4 ∧ 2 ≤ line2Len ∧ (140 < line2Len ∨ line2Len % 2 = 0))

@[simp] theorem ok_bind {α β : Type} (a : α) (f : α → Except Fault β) :
    (Except.ok a >>= f) = f a := rfl

@[simp] theorem error_bind {α β : Type} (fault : Fault) (f : α → Except Fault β) :
    (Except.error fault >>= f) = .error fault := rfl

/-! ## Commas -/

theorem split_comma (h : commas s ≠ 0) :
    s = firstField s ++ comma :: behind 1 s ∧ comma ∉ firstField s := by
  have hmem : comma ∈ s := List.count_pos_iff.1 (Nat.pos_of_ne_zero h)
  obtain ⟨before, after, rfl, hbefore⟩ := List.eq_append_cons_of_mem hmem
  have hfield : firstField (before ++ comma :: after) = before := takeWhile_ne_split hbefore
  have hbehind : behind 1 (before ++ comma :: after) = after := by
    rw [behind, behind, dropWhile_ne_split hbefore, List.tail_cons]
  rw [hfield, hbehind]
  exact ⟨rfl, hbefore⟩

theorem search_comma (h : commas s ≠ 0) : search s [comma] = some (comma :: behind 1 s) := by
  obtain ⟨hsplit, habsent⟩ := split_comma h
  exact search_singleton_eq_some_iff.2 ⟨_, _, habsent, hsplit, rfl⟩

theorem search_no_comma (h : commas s = 0) : search s [comma] = none :=
  search_singleton_eq_none_iff.2 (List.count_eq_zero.1 h)

theorem commas_behind (h : commas s ≠ 0) : commas (behind 1 s) + 1 = commas s := by
  obtain ⟨hsplit, habsent⟩ := split_comma h
  have hcount := congrArg commas hsplit
  rw [hcount]
  simp [commas, List.count_eq_zero.2 habsent]

theorem searchNext_comma (h : commas s ≠ 0) :
    searchNext (some (comma :: s)) = .ok (some (comma :: behind 1 s)) := by
  rw [searchNext, List.tail_cons, search_comma h]

theorem searchNext_last (h : commas s = 0) : searchNext (some (comma :: s)) = .ok none := by
  rw [searchNext, List.tail_cons, search_no_comma h]

theorem stampLoop_commas {k : Nat} (h : k ≤ commas s) :
    stampLoop k (some (comma :: s)) = .ok (some (comma :: behind k s)) ∧
      commas (behind k s) + k = commas s := by
  induction k generalizing s with
  | zero => exact ⟨rfl, rfl⟩
  | succ k ih =>
      have hne : commas s ≠ 0 := by omega
      have hcount := commas_behind hne
      obtain ⟨hloop, hrest⟩ := ih (s := behind 1 s) (by omega)
      rw [stampLoop, searchNext_comma hne]
      exact ⟨hloop, by show commas (behind k (behind 1 s)) + (k + 1) = _; omega⟩

/-- With too few commas the loop or the search behind it starts from the null pointer. -/
theorem stampLoop_null {k : Nat} (h : commas s < k) :
    (stampLoop k (some (comma :: s)) >>= searchNext) = .error .nullSearch := by
  induction k generalizing s with
  | zero => omega
  | succ k ih =>
      by_cases hne : commas s = 0
      · rw [stampLoop, searchNext_last hne]
        cases k with
        | zero => rfl
        | succ k => rfl
      · have hcount := commas_behind hne
        rw [stampLoop, searchNext_comma hne]
        exact ih (by omega)

/-! ## Copies -/

theorem store_ok_iff {fault : Fault} {ws : Writes} {size : Nat} :
    store fault ws size = .ok () ↔ Within ws size := by
  simp [store, Within]

theorem store_cases (fault : Fault) (ws : Writes) (size : Nat) :
    store fault ws size = .ok () ∨ store fault ws size = .error fault := by
  unfold store
  split
  · exact .inl rfl
  · exact .inr rfl

theorem strncpy_within_iff {src : Bytes} {n size : Nat} :
    Within (strncpy src n) size ↔ n ≤ size := by
  simp only [Within, strncpy, List.mem_map, List.mem_range]
  constructor
  · intro h
    by_contra hlong
    have hlast := (h _ ⟨size, by omega, rfl⟩).2
    exact absurd hlast (Int.lt_irrefl _)
  · rintro hle w ⟨k, hk, rfl⟩
    exact ⟨Int.natCast_nonneg k, Int.ofNat_lt.2 (Nat.lt_of_lt_of_le hk hle)⟩

theorem phone_length (h : commas s ≠ 0) :
    s.length - (comma :: behind 1 s).length = (firstField s).length := by
  have hlen := congrArg List.length (split_comma h).1
  rw [List.length_append] at hlen
  omega

/-! ## The text behind the header -/

section Text

variable {line2 : CString} {members buf : Bytes} {tmp : UInt8}

theorem readAscii_ok_iff {line2Len : Int} (hcut : line2Len ≤ 140) :
    readText table 1 line2 line2Len members buf tmp = .ok () ↔ 0 ≤ line2Len := by
  rw [readText, if_pos rfl]
  by_cases hneg : line2Len < 0
  · simp only [unsigned, if_pos hneg]
    exact iff_of_false nofun (by omega)
  · simp only [unsigned, if_neg hneg]
    refine iff_of_true ?_ (by omega)
    exact store_ok_iff.2 (strncpy_within_iff.2 (by unfold msgSize; omega))

theorem readUcs2_ok_iff {line2Len : Int} (hcut : line2Len ≤ 140) :
    readText table 4 line2 line2Len members buf tmp = .ok () ↔
      2 ≤ line2Len ∧ line2Len % 2 = 0 := by
  rw [readText, if_neg (by decide), if_pos rfl]
  by_cases hneg : line2Len - 2 < 0
  · simp only [unsigned, if_pos hneg]
    exact iff_of_false nofun (by omega)
  have hn : (UInt32.ofNat (line2Len - 2).toNat).toNat = (line2Len - 2).toNat := by
    rw [UInt32.toNat_ofNat', Nat.mod_eq_of_lt (by omega)]
  have hcall : (unsigned (line2Len - 2)) = .ok (line2Len - 2).toNat := if_neg hneg
  simp only [hcall, ok_bind]
  by_cases heven : line2Len % 2 = 0
  · refine iff_of_true ?_ ⟨by omega, heven⟩
    have hpairs : (UInt32.ofNat (line2Len - 2).toNat).toNat = 2 * ((line2Len - 2).toNat / 2) := by
      omega
    obtain ⟨t, -, hconverted, heq⟩ := strUnicode2GB_of_even table line2.bytes hpairs
    have hbounds := (hconverted.within hpairs).writes
    rw [heq]
    refine store_ok_iff.2 fun w hw => ?_
    obtain ⟨hlow, hhigh⟩ := hbounds w hw
    exact ⟨hlow, by unfold msgSize; omega⟩
  · refine iff_of_false ?_ fun h => heven h.2
    rw [strUnicode2GB_of_odd (by omega)]
    nofun

/-- `DecodePdu` leaves its objects for every text. -/
theorem readPdu_not_ok {form line2Len : Int} (h1 : form ≠ 1) (h4 : form ≠ 4) :
    readText table form line2 line2Len members buf tmp ≠ .ok () := by
  rw [readText, if_neg h1, if_neg h4]
  obtain ⟨n, t, ht, -, hwrites⟩ := tracedDecodePdu_writes table line2.bytes members buf tmp
  have htmp : Access.write .tmp 1 ∈ t.log := hwrites _ (by simp)
  have hout : ¬ t.Inside line2.text.length := not_inside _ htmp (Int.le_refl 1)
  have hall : ¬ (t.log.all fun a => a.isInside line2.text.length) = true := fun h =>
    hout fun a ha => Access.isInside_iff.1 (List.all_eq_true.1 h a ha)
  rw [ht]
  dsimp only
  rw [if_neg hall]
  nofun

end Text

/-! ## The header -/

section Call

variable {l : FirstLine} {line2 : CString} {line2Len : Int} {members buf : Bytes} {tmp : UInt8}

theorem FirstLine.drop_tag (l : FirstLine) : l.text.drop 7 = l.fields := by
  rw [FirstLine.text, ← l.tag_length, List.drop_left]

/-- Without a comma the copy gets the distance to the null pointer. -/
theorem read_no_comma (h : commas l.fields = 0) :
    atReadSMSThread table .text l.text line2 line2Len members buf tmp =
      .error .negativeLength := by
  simp [atReadSMSThread, l.drop_tag, search_no_comma h]

theorem read_long_phone (h : commas l.fields ≠ 0) (hlong : 32 < (firstField l.fields).length) :
    atReadSMSThread table .text l.text line2 line2Len members buf tmp = .error .phoneNum := by
  have hstore : store .phoneNum (strncpy (Bytes.literal l.fields) (firstField l.fields).length)
      phoneNumSize = .error .phoneNum := by
    refine (store_cases _ _ _).resolve_left fun hok => ?_
    have hle := strncpy_within_iff.1 (store_ok_iff.1 hok)
    unfold phoneNumSize at hle
    omega
  simp only [atReadSMSThread, l.drop_tag, search_comma h, phone_length h, hstore]
  rfl

theorem read_phone (h : commas l.fields ≠ 0) (hfits : (firstField l.fields).length ≤ 32) :
    atReadSMSThread table .text l.text line2 line2Len members buf tmp =
      (stampLoop 5 (some (comma :: behind 1 l.fields)) >>= searchNext) >>= fun p =>
        match p with
        | none => .ok (-1)
        | some p => searchNext (some p) >>= fun p =>
          match p with
          | none => .ok (-1)
          | some p =>
              readText table (atoi p.tail) line2 (if line2Len > 140 then 140 else line2Len)
                members buf tmp >>= fun _ => .ok 0 := by
  have hstore : store .phoneNum (strncpy (Bytes.literal l.fields) (firstField l.fields).length)
      phoneNumSize = .ok () := store_ok_iff.2 (strncpy_within_iff.2 hfits)
  simp only [atReadSMSThread, l.drop_tag, search_comma h, phone_length h, hstore, bind_assoc]
  rfl

/-- With fewer than six commas a search starts from the null pointer. -/
theorem read_short (h : commas l.fields ≠ 0) (hfits : (firstField l.fields).length ≤ 32)
    (hshort : commas l.fields < 6) :
    atReadSMSThread table .text l.text line2 line2Len members buf tmp = .error .nullSearch := by
  have hcount := commas_behind h
  rw [read_phone h hfits, stampLoop_null (by omega), error_bind]

theorem read_rejected (hmany : 6 ≤ commas l.fields)
    (hfits : (firstField l.fields).length ≤ 32) (hfew : commas l.fields < 8) :
    atReadSMSThread table .text l.text line2 line2Len members buf tmp = .ok (-1) := by
  have hcount := commas_behind (s := l.fields) (by omega)
  obtain ⟨hloop, hleft⟩ := stampLoop_commas (k := 5) (s := behind 1 l.fields) (by omega)
  rw [read_phone (by omega) hfits, hloop, ok_bind]
  by_cases hsix : commas (behind 5 (behind 1 l.fields)) = 0
  · rw [searchNext_last hsix, ok_bind]
  · have hlast := commas_behind hsix
    rw [searchNext_comma hsix, ok_bind]
    dsimp only
    rw [searchNext_last (by omega), ok_bind]

theorem read_accepted (hmany : 8 ≤ commas l.fields)
    (hfits : (firstField l.fields).length ≤ 32) :
    atReadSMSThread table .text l.text line2 line2Len members buf tmp = .ok 0 ↔
      readText table (form l) line2 (if line2Len > 140 then 140 else line2Len) members buf tmp =
        .ok () := by
  have hcount := commas_behind (s := l.fields) (by omega)
  obtain ⟨hloop, hleft⟩ := stampLoop_commas (k := 5) (s := behind 1 l.fields) (by omega)
  have hseven : commas (behind 5 (behind 1 l.fields)) ≠ 0 := by omega
  have hlast := commas_behind hseven
  rw [read_phone (by omega) hfits, hloop, ok_bind,
    searchNext_comma hseven, ok_bind]
  dsimp only
  rw [searchNext_comma (by omega), ok_bind]
  dsimp only [List.tail_cons]
  have hform : atoi (behind 1 (behind 1 (behind 5 (behind 1 l.fields)))) = form l := rfl
  rw [hform]
  cases readText table (form l) line2 (if line2Len > 140 then 140 else line2Len) members buf tmp with
  | error fault => exact iff_of_false nofun nofun
  | ok u => exact iff_of_true rfl rfl

end Call

theorem readText_ok_iff (form line2Len : Int) (line2 : CString) (members buf : Bytes)
    (tmp : UInt8) :
    readText table form line2 (if line2Len > 140 then 140 else line2Len) members buf tmp =
      .ok () ↔ TextFits form line2Len := by
  have hcut : (if line2Len > 140 then 140 else line2Len) ≤ 140 := by
    split <;> omega
  unfold TextFits
  by_cases h1 : form = 1
  · rw [h1, readAscii_ok_iff hcut]
    split <;> omega
  by_cases h4 : form = 4
  · rw [h4, readUcs2_ok_iff hcut]
    split <;> omega
  · refine iff_of_false (readPdu_not_ok h1 h4) ?_
    rintro (⟨h, -⟩ | ⟨h, -⟩)
    · exact h1 h
    · exact h4 h

/-- Which headers and texts are rejected or taken as they should be. -/
theorem rejects_iff (table : Table) (l : FirstLine) (line2 : CString) (line2Len : Int)
    (members buf : Bytes) (tmp : UInt8) :
    Rejects table l line2 line2Len members buf tmp ↔
      6 ≤ commas l.fields ∧ (firstField l.fields).length ≤ 32 ∧
        (commas l.fields < 8 ∨ TextFits (form l) line2Len) := by
  unfold Rejects
  by_cases hnone : commas l.fields = 0
  · rw [read_no_comma hnone]
    exact iff_of_false nofun fun h => by omega
  by_cases hlong : 32 < (firstField l.fields).length
  · rw [read_long_phone hnone hlong]
    exact iff_of_false nofun fun h => by omega
  have hfits := Nat.le_of_not_lt hlong
  by_cases hshort : commas l.fields < 6
  · rw [read_short hnone hfits hshort]
    exact iff_of_false nofun fun h => by omega
  have hmany := Nat.le_of_not_lt hshort
  by_cases hfew : commas l.fields < 8
  · rw [read_rejected hmany hfits hfew, if_pos hfew]
    exact iff_of_true rfl ⟨hmany, hfits, .inl hfew⟩
  · rw [if_neg hfew, read_accepted (Nat.le_of_not_lt hfew) hfits,
      readText_ok_iff]
    exact ⟨fun h => ⟨hmany, hfits, .inr h⟩, fun h => h.2.2.resolve_left hfew⟩

def truncated : FirstLine := ⟨text "^HCMGR:", text "10086,2009,03", by decide⟩

def noText : CString := ⟨fun _ => 0, [], by simp [Bytes.Holds]⟩

/-- The truncated header is searched on from the null pointer. -/
theorem truncated_header_followed :
    ¬ ∀ (table : Table) (l : FirstLine) (line2 : CString) (line2Len : Int)
      (members buf : Bytes) (tmp : UInt8), Rejects table l line2 line2Len members buf tmp := by
  intro h
  have hreject := h #[] truncated noText 0 (fun _ => 0) (fun _ => 0) 0
  rw [Rejects, read_short (by decide) (by decide) (by decide)] at hreject
  cases hreject

end Mobile.Sms.Proofs.Header
