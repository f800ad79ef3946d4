import Mobile.ProofSupport.Memory

/-!
# Prefix test and end-of-line search

`AtStrStartWith` and `AtFindNextEOL` of `token.cc`.  The first works on string
contents, the second on the memory seen by a pointer: the SMS prompt is told
from an ordinary line by the terminator that follows it.
-/

namespace Mobile.Token.Scan

open Mobile.ProofSupport.Memory

/-- The text of a NUL-terminated string, without its terminator. -/
abbrev Line := List UInt8

def cr : UInt8 := 0x0d

def lf : UInt8 := 0x0a

def isEol (c : UInt8) : Bool := c == cr || c == lf

def smsPrompt : Line := [0x3e, 0x20]

def atStrStartWith : Line → Line → Bool
  | c :: line, d :: pre => if c ≠ d then false else atStrStartWith line pre
  | _, pre => pre.isEmpty

theorem atStrStartWith_iff (line pre : Line) :
    atStrStartWith line pre = true ↔ pre <+: line := by
  induction line generalizing pre with
  | nil => cases pre <;> simp [atStrStartWith]
  | cons c line ih =>
      cases pre with
      | nil => simp [atStrStartWith]
      | cons d pre =>
          by_cases hcd : c = d
          · subst hcd
            simp [atStrStartWith, ih]
          · simp [atStrStartWith, hcd, List.cons_prefix_cons, Ne.symm hcd]

/-- `cur[0] == '>' && cur[1] == ' ' && cur[2] == '\0'`, evaluated left to right. -/
def isSmsPrompt : List UInt8 → Option Bool
  | [] => none
  | c₀ :: s => if c₀ ≠ 0x3e then some false else
    match s with
    | [] => none
    | c₁ :: s => if c₁ ≠ 0x20 then some false else
      match s with
      | [] => none
      | c₂ :: _ => some (c₂ == 0)

/-- `none` when the search leaves the object, `some none` for the null result. -/
def atFindNextEOL (cur : List UInt8) : Option (Option Nat) := do
  if ← isSmsPrompt cur then
    return some 2
  let k ← scan (fun c => c ≠ 0 && !isEol c) cur
  let c ← cur[k]?
  return if c = 0 then none else some k

/-- Where a line ends in NUL-free unread data: the prompt ends at its
terminator, any other line at its first CR or LF. -/
def nextEol (data : List UInt8) : Option Nat :=
  if data = smsPrompt then some 2 else data.findIdx? isEol

theorem isSmsPrompt_append_zero {data tail : List UInt8} (hdata : (0 : UInt8) ∉ data) :
    isSmsPrompt (data ++ 0 :: tail) = some (decide (data = smsPrompt)) := by
  match data, hdata with
  | [], _ => simp [isSmsPrompt, smsPrompt]
  | [a], _ => by_cases ha : a = 0x3e <;> simp [isSmsPrompt, smsPrompt, ha]
  | [a, b], _ =>
      by_cases ha : a = 0x3e
      · by_cases hb : b = 0x20 <;> simp [isSmsPrompt, smsPrompt, ha, hb]
      · simp [isSmsPrompt, smsPrompt, ha]
  | a :: b :: c :: rest, hdata =>
      have hc : c ≠ 0 := fun h => hdata (by simp [h])
      by_cases ha : a = 0x3e
      · by_cases hb : b = 0x20 <;> simp [isSmsPrompt, smsPrompt, ha, hb, hc]
      · simp [isSmsPrompt, smsPrompt, ha]

theorem split_at_eol (data : List UInt8) :
    (∀ c ∈ data, isEol c = false) ∨
      ∃ l c rest, data = l ++ c :: rest ∧ (∀ d ∈ l, isEol d = false) ∧ isEol c = true := by
  induction data with
  | nil => exact Or.inl (by simp)
  | cons c data ih =>
      by_cases hc : isEol c = true
      · exact Or.inr ⟨[], c, data, rfl, by simp, hc⟩
      · rw [Bool.not_eq_true] at hc
        rcases ih with hnone | ⟨l, d, rest, hdata, hl, hd⟩
        · exact Or.inl (by simpa [hc] using hnone)
        · exact Or.inr ⟨c :: l, d, rest, by simp [hdata], by simpa [hc] using hl, hd⟩

theorem findIdx?_isEol_split {l rest : List UInt8} {c : UInt8}
    (hl : ∀ d ∈ l, isEol d = false) (hc : isEol c = true) :
    (l ++ c :: rest).findIdx? isEol = some l.length := by
  induction l with
  | nil => simp [List.findIdx?_cons, hc]
  | cons d l ih =>
      have hd : isEol d = false := hl d (by simp)
      have hrest : ∀ e ∈ l, isEol e = false := fun e he => hl e (by simp [he])
      simp [List.findIdx?_cons, hd, ih hrest]

theorem isEol_ne_zero {c : UInt8} (hc : isEol c = true) : c ≠ 0 := by
  rintro rfl
  simp [isEol, cr, lf] at hc

/-- On unread data closed by the sentinel the search stays inside the object
and finds `nextEol`. -/
theorem atFindNextEOL_append_zero {data tail : List UInt8} (hdata : (0 : UInt8) ∉ data) :
    atFindNextEOL (data ++ 0 :: tail) = some (nextEol data) := by
  unfold atFindNextEOL nextEol
  rw [isSmsPrompt_append_zero hdata]
  by_cases hp : data = smsPrompt
  · simp [hp]
  · have hne : ∀ d ∈ data, d ≠ 0 := fun d hd h => hdata (h ▸ hd)
    simp only [hp, decide_false, Option.bind_eq_bind, Option.bind_some, Bool.false_eq_true,
      if_false]
    rcases split_at_eol data with hnone | ⟨l, c, rest, rfl, hl, hc⟩
    · have hscan : scan (fun c => c ≠ 0 && !isEol c) (data ++ 0 :: tail) =
          some data.length := by
        refine scan_append_cons (fun d hd => ?_) (by simp)
        simp [hne d hd, hnone d hd]
      have hfind : data.findIdx? isEol = none := by
        rw [List.findIdx?_eq_none_iff]
        exact hnone
      rw [hscan, hfind]
      simp
    · have hscan : scan (fun c => c ≠ 0 && !isEol c) (l ++ c :: rest ++ 0 :: tail) =
          some l.length := by
        rw [List.append_assoc]
        refine scan_append_cons (fun d hd => ?_) (by simp [hc])
        simp [hne d (by simp [hd]), hl d hd]
      rw [hscan, findIdx?_isEol_split hl hc]
      have hc0 : c ≠ 0 := isEol_ne_zero hc
      simp [hc0]

theorem nextEol_eq_none {data : List UInt8} :
    nextEol data = none ↔ data ≠ smsPrompt ∧ ∀ c ∈ data, isEol c = false := by
  unfold nextEol
  by_cases hp : data = smsPrompt
  · simp [hp]
  · simp [hp, List.findIdx?_eq_none_iff]

end Mobile.Token.Scan
