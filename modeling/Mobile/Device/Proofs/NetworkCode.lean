import Mobile.Device.Network

/-!
# The operator of a subscriber number

A subscriber number begins with the network code.  `MatchOperator` looks for the codes
anywhere in the number, operator by operator: the digits behind the code decide when they
hold a code of an operator that stands earlier in the table.
-/

namespace Mobile.Device.Proofs.NetworkCode

open Mobile.Token.Scan Mobile.Channel.Types Mobile.Device.Types Mobile.Device.Network
open Mobile.ProofSupport.Search

def isDecimal (c : UInt8) : Bool := 0x30 ≤ c && c ≤ 0x39

structure Digits where
  text : Line
  decimal : text.all isDecimal = true

/-- The numeric keys, with the operator of each. -/
def networkCodes : List OperatorItem := kOperMatch.filter fun item => item.cimi.all isDecimal

/-- The leading code decides, and without one the operator is unknown. -/
def DecidedByCode (s : Digits) : Prop :=
  (∀ item ∈ networkCodes, item.cimi <+: s.text → matchOperator s.text = item.oper) ∧
    ((¬ ∃ item ∈ networkCodes, item.cimi <+: s.text) → matchOperator s.text = .unkown)

def rank : Operator → Nat
  | .mobile => 0
  | .unicom => 1
  | .telcom => 2
  | .unkown => 3

/-- No code of an operator before that of the leading code occurs in the number. -/
def Unambiguous (s : Digits) : Prop :=
  ∀ item ∈ networkCodes, item.cimi <:+: s.text →
    ∃ lead ∈ networkCodes, lead.cimi <+: s.text ∧ rank lead.oper ≤ rank item.oper

theorem rank_injective : Function.Injective rank := by
  intro a b h
  cases a <;> cases b <;> first | rfl | cases h

theorem kOperMatch_sorted : kOperMatch.Pairwise fun a b => rank a.oper ≤ rank b.oper := by
  decide

theorem oper_known : ∀ item ∈ kOperMatch, item.oper ≠ .unkown := by
  decide

theorem networkCodes_prefix_free :
    ∀ a ∈ networkCodes, ∀ b ∈ networkCodes, a.cimi <+: b.cimi → a = b := by
  decide

theorem lead_unique {s : Line} {a b : OperatorItem} (ha : a ∈ networkCodes)
    (hb : b ∈ networkCodes) (has : a.cimi <+: s) (hbs : b.cimi <+: s) : a = b := by
  rcases List.prefix_or_prefix_of_prefix has hbs with hab | hba
  · exact networkCodes_prefix_free a ha b hb hab
  · exact (networkCodes_prefix_free b hb a ha hba).symm

theorem mem_networkCodes {s : Digits} {item : OperatorItem} (hmem : item ∈ kOperMatch)
    (hocc : item.cimi <:+: s.text) : item ∈ networkCodes := by
  refine List.mem_filter.2 ⟨hmem, List.all_eq_true.2 fun c hc => ?_⟩
  exact List.all_eq_true.1 s.decimal c (hocc.subset hc)

/-- The operator is that of an occurring code of the least rank. -/
theorem matchOperator_cases (s : Digits) :
    (matchOperator s.text = .unkown ∧ ∀ item ∈ networkCodes, ¬ item.cimi <:+: s.text) ∨
    ∃ first ∈ networkCodes, first.cimi <:+: s.text ∧ matchOperator s.text = first.oper ∧
      ∀ item ∈ networkCodes, item.cimi <:+: s.text → rank first.oper ≤ rank item.oper := by
  unfold matchOperator
  cases hfind : kOperMatch.find? fun item => (search s.text item.cimi).isSome with
  | none =>
      refine .inl ⟨rfl, fun item hmem hocc => ?_⟩
      have hmiss := List.find?_eq_none.1 hfind item (List.mem_of_mem_filter hmem)
      exact hmiss (search_isSome_iff.2 hocc)
  | some first =>
      have hsome := List.find?_some hfind
      have hocc : first.cimi <:+: s.text := search_isSome_iff.1 hsome
      refine .inr ⟨first, mem_networkCodes (List.mem_of_find?_eq_some hfind) hocc, hocc, rfl,
        fun item hmem hitem => ?_⟩
      exact find?_rank_le (r := fun item => rank item.oper) kOperMatch_sorted hfind
        (List.mem_of_mem_filter hmem) (search_isSome_iff.2 hitem)

theorem decidedByCode_iff (s : Digits) : DecidedByCode s ↔ Unambiguous s := by
  constructor
  · rintro ⟨hlead, hnone⟩ item hmem hocc
    rcases matchOperator_cases s with ⟨-, habsent⟩ | ⟨first, hfirst, -, heq, hleast⟩
    · exact absurd hocc (habsent item hmem)
    by_cases hexists : ∃ lead ∈ networkCodes, lead.cimi <+: s.text
    · obtain ⟨lead, hmemLead, hpre⟩ := hexists
      have hoper : first.oper = lead.oper := heq.symm.trans (hlead lead hmemLead hpre)
      exact ⟨lead, hmemLead, hpre, hoper ▸ hleast item hmem hocc⟩
    · have hunknown : first.oper = .unkown := heq.symm.trans (hnone hexists)
      exact absurd hunknown (oper_known first (List.mem_of_mem_filter hfirst))
  · intro hclear
    rcases matchOperator_cases s with ⟨hunknown, habsent⟩ | ⟨first, hfirst, hocc, heq, hleast⟩
    · refine ⟨fun item hmem hpre => ?_, fun _ => hunknown⟩
      exact absurd hpre.isInfix (habsent item hmem)
    · obtain ⟨lead, hlead, hpre, hrank⟩ := hclear first hfirst hocc
      have hoper : first.oper = lead.oper :=
        rank_injective (Nat.le_antisymm (hleast lead hlead hpre.isInfix) hrank)
      refine ⟨fun item hmem hitem => ?_, fun hnone => absurd ⟨lead, hlead, hpre⟩ hnone⟩
      rw [heq, hoper, lead_unique hlead hmem hpre hitem]

/-- 460034600012345 is a number of the third operator, whose digits hold 46000. -/
theorem later_digits_decide : ¬ ∀ s : Digits, DecidedByCode s := by
  intro h
  have hlead := (h ⟨text "460034600012345", by decide⟩).1 ⟨text "46003", .telcom⟩
    (by decide) (by decide)
  exact absurd hlead (by decide)

end Mobile.Device.Proofs.NetworkCode
