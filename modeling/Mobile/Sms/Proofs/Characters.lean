import Mobile.Sms.Unicode

/-!
# What StrGB2Unicode makes of a string

The characters of a string decide what is written and returned, and whether the
counters of the conversion, which are `int`s, are large enough.
-/

namespace Mobile.Sms.Proofs.Characters

open Mobile.ProofSupport.Image Mobile.ProofSupport.Image.Writes
open Mobile.Token.Scan Mobile.Sms.Helpers Mobile.Sms.Unicode
open Mobile.Token.Tokenizer (toInt)

variable {table : Table}

/-- The characters of a GB text, with their codes where the search finds them. -/
def characters (table : Table) : Line → List (Option UInt16)
  | [] => []
  | [c] => [if c < 0x81 then some c.toUInt16 else findGB table c 0]
  | c :: d :: rest =>
      if c < 0x81 then some c.toUInt16 :: characters table (d :: rest)
      else findGB table c d :: characters table rest

/-- How many characters stand before the first one that is not found. -/
def known (cs : List (Option UInt16)) : Nat := (cs.takeWhile Option.isSome).length

def needed (cs : List (Option UInt16)) : Nat :=
  2 * known cs + if cs.all Option.isSome then 1 else 0

/-- What the conversion of the characters from `dst + j` on writes and returns. -/
def Converts (cs : List (Option UInt16)) (j : Nat) (ws : Writes) (out : Out) : Prop :=
  ∃ bytes : List UInt8, bytes.length = needed cs ∧ out.writes = ws ++ run j bytes ∧
    out.ret = if cs.all Option.isSome then j + 2 * known cs else 0

theorem converts_nil (j : Nat) (ws : Writes) : Converts [] j ws ⟨ws ++ [((j : Int), 0)], j⟩ :=
  ⟨[0], rfl, rfl, rfl⟩

theorem converts_none (cs : List (Option UInt16)) (j : Nat) (ws : Writes) :
    Converts (none :: cs) j ws ⟨ws, 0⟩ :=
  ⟨[], by simp [needed, known], by simp [run], by simp⟩

theorem converts_some {u : UInt16} {cs : List (Option UInt16)} {j : Nat} {ws : Writes}
    {a b : UInt8} {out : Out}
    (h : Converts cs (j + 2) (ws ++ [((j : Int), a), ((j : Int) + 1, b)]) out) :
    Converts (some u :: cs) j ws out := by
  obtain ⟨bytes, hlen, hwrites, hret⟩ := h
  have hknown : known (some u :: cs) = known cs + 1 := by simp [known]
  have hall : (some u :: cs).all Option.isSome = cs.all Option.isSome := by simp
  have hpos : ((j + 2 : Nat) : Int) = (j : Int) + 1 + 1 := by omega
  refine ⟨a :: b :: bytes, ?_, ?_, ?_⟩
  · rw [needed, hknown, hall, List.length_cons, List.length_cons, hlen, needed]
    omega
  · rw [hwrites, hpos, List.append_assoc]
    rfl
  · rw [hret, hknown, hall]
    congr 1
    omega

theorem strGB2UnicodeLoop_converts (table : Table) (s : Line) (j : Nat) (ws : Writes) :
    Converts (characters table s) j ws (strGB2UnicodeLoop table s j ws) := by
  fun_induction characters table s generalizing j ws with
  | case1 => exact converts_nil j ws
  | case2 c =>
      rw [strGB2UnicodeLoop]
      by_cases hc : c < 0x81
      · rw [if_pos hc, if_pos hc]
        exact converts_some (converts_nil _ _)
      · rw [if_neg hc, if_neg hc]
        cases findGB table c 0 with
        | none => exact converts_none _ _ _
        | some u => exact converts_some (converts_nil _ _)
  | case3 c d rest hc ih =>
      rw [strGB2UnicodeLoop, if_pos hc]
      exact converts_some (ih _ _)
  | case4 c d rest hc ih =>
      rw [strGB2UnicodeLoop, if_neg hc]
      cases findGB table c d with
      | none => exact converts_none _ _ _
      | some u => exact converts_some (ih _ _)

/-! ## The counters -/

theorem begunWithin_of_length_le {n : Nat} {s : Line} (h : s.length ≤ n) : begunWithin n s = s := by
  fun_induction begunWithin n s with
  | case1 s => exact (List.length_eq_zero_iff.1 (Nat.le_zero.1 h)).symm
  | case2 => rfl
  | case3 n c s hc ih => rw [ih (Nat.le_of_succ_le_succ h)]
  | case4 => rfl
  | case5 n c hc d rest ih =>
      simp only [List.length_cons] at h
      rw [ih (by omega)]

theorem scannedBytes_eq {s : Line} (h : s.length ≤ 0x7fffffff) : scannedBytes s = s := by
  have hint : (toInt s.length).toNat = s.length := by
    unfold toInt
    omega
  rw [scannedBytes, hint]
  exact begunWithin_of_length_le (Nat.le_refl _)

theorem known_le_length (table : Table) (s : Line) : known (characters table s) ≤ s.length := by
  have hlen : (characters table s).length ≤ s.length := by
    fun_induction characters table s with
    | case1 => exact Nat.le_refl 0
    | case2 => exact Nat.le_refl 1
    | case3 c d rest hc ih => exact Nat.succ_le_succ ih
    | case4 c d rest hc ih =>
        simp only [List.length_cons] at ih ⊢
        omega
  exact Nat.le_trans (List.takeWhile_sublist _).length_le hlen

theorem known_le_writes (table : Table) (s : Line) :
    2 * known (characters table s) ≤ (strGB2UnicodeLoop table s 0 []).writes.length := by
  obtain ⟨bytes, hlen, hwrites, -⟩ := strGB2UnicodeLoop_converts table s 0 []
  rw [hwrites, List.nil_append, length_run, hlen, needed]
  exact Nat.le_add_right _ _

/-- `j` does not overflow when fewer than 2^30 characters stand before the first one
that is not found. -/
theorem writes_all_iff (table : Table) (s : Line) :
    (strGB2UnicodeLoop table s 0 []).writes.all (fun w => w.1 < 0x7fffffff) = true ↔
      2 * known (characters table s) ≤ 0x7fffffff := by
  obtain ⟨bytes, hlen, hwrites, -⟩ := strGB2UnicodeLoop_converts table s 0 []
  have hwithin : Within (run (0 : Nat) bytes) 0x7fffffff ↔ 0 + bytes.length ≤ 0x7fffffff :=
    within_run (Nat.zero_le _)
  rw [hwrites, List.nil_append, List.all_eq_true]
  constructor
  · intro h
    have hneeded := hwithin.1 fun w hw => ⟨le_of_mem_run hw, by simpa using h w hw⟩
    rw [hlen, needed] at hneeded
    omega
  · intro h w hw
    have hneeded : 0 + bytes.length ≤ 0x7fffffff := by
      rw [hlen, needed]
      split <;> omega
    simpa using (hwithin.2 hneeded w hw).2

theorem strGB2Unicode_eq {str : Bytes} {limit : Nat} {s : Line} (hstr : str.Holds s)
    (hlimit : s.length < limit) (hint : s.length ≤ 0x7fffffff) :
    strGB2Unicode table str limit =
      if 2 * known (characters table s) ≤ 0x7fffffff then some (strGB2UnicodeLoop table s 0 [])
      else none := by
  simp only [strGB2Unicode, hstr.strlen_eq hlimit, Option.bind_eq_bind, Option.bind_some,
    hstr.map_range, scannedBytes_eq hint, writes_all_iff]

theorem strGB2Unicode_some {str : Bytes} {limit : Nat} {s : Line} {out : Out}
    (hstr : str.Holds s) (hint : s.length ≤ 0x7fffffff)
    (h : strGB2Unicode table str limit = some out) : out = strGB2UnicodeLoop table s 0 [] := by
  have hlimit : s.length < limit := by
    simp only [strGB2Unicode, Option.bind_eq_bind, Option.bind_eq_some_iff] at h
    obtain ⟨n, hlen, -⟩ := h
    rw [← hstr.strlen hlen]
    exact Bytes.strlen_lt hlen
  rw [strGB2Unicode_eq hstr hlimit hint] at h
  split at h
  · exact (Option.some.inj h).symm
  · cases h

end Mobile.Sms.Proofs.Characters
