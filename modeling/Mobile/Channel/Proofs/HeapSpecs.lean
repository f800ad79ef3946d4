import Mobile.Channel.Heap

/-!
# What the heap functions do

A response owns its object, the copy of its final line, and the chain of its
intermediate lines with their copies.  Each function is given as a triple over the
responses it works on, for an allocator that may fail.
-/

namespace Mobile.Channel.Proofs.HeapSpecs

open Mobile.ProofSupport.Separation Mobile.ProofSupport.Separation.Assertion
open Mobile.ProofSupport.Chain
open Mobile.Token.Scan Mobile.Channel.Types Mobile.Channel.Heap

abbrev Own := Assertion Addr Obj

/-- What a response says; a line whose copy could not be made has no text. -/
structure Contents where
  success : Int
  finalResp : Option Line
  intermediates : List (Option Line)

def Copy (p : Ptr Addr) : Option Line → Own
  | none => fact (p = none)
  | some s => any fun a => fact (p = some a) * pointsTo a (.chars s)

def LineNode (a : Addr) (next : Ptr Addr) (text : Option Line) : Own :=
  any fun copy => pointsTo a (.line ⟨copy, next⟩) * Copy copy text

def Response (a : Addr) (c : Contents) : Own :=
  any fun finalResp => any fun first =>
    pointsTo a (.response ⟨c.success, finalResp, first⟩) *
      (Copy finalResp c.finalResp * Linked LineNode first c.intermediates)

def Copied (al : Allocator Addr Obj) (s : Line) (text : Option Line) : Prop :=
  text = some s ∨ ¬ al.Total ∧ text = none

variable {al : Allocator Addr Obj} {β : Type} {R : Own} {S : β → Own} {a : Addr}

theorem loadLine_then {k : LineObj → Prog β} {l : LineObj}
    (h : Triple (pointsTo a (.line l) * R) (k l) S) :
    Triple (pointsTo a (.line l) * R) (loadLine (some a) >>= k) S := by
  rw [loadLine, bind_assoc]
  refine Triple.load ?_
  rwa [pure_bind]

theorem loadResponse_then {k : ResponseObj → Prog β} {r : ResponseObj}
    (h : Triple (pointsTo a (.response r) * R) (k r) S) :
    Triple (pointsTo a (.response r) * R) (loadResponse (some a) >>= k) S := by
  rw [loadResponse, bind_assoc]
  refine Triple.load ?_
  rwa [pure_bind]

theorem strdup_then {k : Ptr Addr → Prog β} {s : Line}
    (h : ∀ p text, Copied al s text → Triple (Copy p text * R) (k p) S) :
    Triple R (strdup al s >>= k) S := by
  refine Triple.malloc (fun hfail => ?_) fun b => ?_
  · refine (h none none (.inr ⟨hfail, rfl⟩)).entails (fun _ hR => ?_) fun _ => le_refl _
    exact fact_mul.2 ⟨rfl, hR⟩
  · refine (h (some b) (some s) (.inl rfl)).entails (mul_mono_left ?_ R) fun _ => le_refl _
    exact fun _ hb => ⟨b, fact_mul.2 ⟨rfl, hb⟩⟩

theorem free_copy_then {k : Unit → Prog β} {p : Ptr Addr} {text : Option Line}
    (h : Triple R (k ()) S) : Triple (Copy p text * R) (HeapM.free p >>= k) S := by
  cases text with
  | none =>
      refine Triple.fact fun hp => ?_
      subst hp
      exact h
  | some s =>
      rw [Copy, any_mul]
      refine Triple.any fun b => ?_
      rw [mul_assoc]
      refine Triple.fact fun hp => ?_
      subst hp
      exact Triple.free h

def Added (al : Allocator Addr Obj) (line : Line) (c c' : Contents) : Prop :=
  (∃ text, Copied al line text ∧ c' = { c with intermediates := text :: c.intermediates }) ∨
  ¬ al.Total ∧ c' = c

theorem addIntermediate_spec (al : Allocator Addr Obj) (c : Contents) (line : Line) :
    Triple (Response a c) (addIntermediate al (some a) line)
      fun _ => any fun c' => fact (Added al line c c') * Response a c' := by
  refine Triple.any fun finalResp => Triple.any fun first => ?_
  refine Triple.malloc (fun hfail => ?_) fun b => ?_
  · refine Triple.ret fun _ hR => ?_
    exact ⟨c, fact_mul.2 ⟨.inr ⟨hfail, rfl⟩, finalResp, first, hR⟩⟩
  · rw [if_neg (Option.some_ne_none b)]
    refine strdup_then fun copy text htext => ?_
    rw [mul_left_comm]
    refine Triple.store ?_
    rw [← mul_assoc, mul_left_comm]
    refine loadResponse_then ?_
    rw [mul_left_comm, mul_assoc]
    refine Triple.store ?_
    rw [← mul_assoc, mul_left_comm]
    refine Triple.store_last.entails (le_refl _) fun _ h hR => ?_
    refine ⟨_, fact_mul.2 ⟨.inl ⟨text, htext, rfl⟩, finalResp, some b, ?_⟩⟩
    refine mul_mono_right _ ?_ h hR
    rw [mul_left_comm]
    refine mul_mono_right _ ?_
    refine le_trans ?_ (linked_cons b first text c.intermediates)
    exact mul_mono_left (fun _ hcopy => ⟨copy, hcopy⟩) _

def Stray (s : Line) : Own := any fun a => pointsTo a (.chars s)

/-- What is left of a final line when another one replaces it. -/
def Lost : Option Line → Own
  | none => 1
  | some s => Stray s

theorem copy_le_lost (p : Ptr Addr) (text : Option Line) : Copy p text ≤ Lost text := by
  cases text with
  | none => exact fun _ h => h.1
  | some s => exact fun _ ⟨a, h⟩ => ⟨a, (fact_mul.1 h).2⟩

/-- The copy of an earlier final line is not freed. -/
theorem handleFinalResponse_spec (al : Allocator Addr Obj) (c : Contents) (success : Int)
    (line : Line) :
    Triple (Response a c) (handleFinalResponse al (some a) success line)
      fun _ => any fun text => fact (Copied al line text) *
        (Response a { c with success := success, finalResp := text } * Lost c.finalResp) := by
  refine Triple.any fun finalResp => Triple.any fun first => ?_
  refine loadResponse_then ?_
  refine Triple.store ?_
  refine strdup_then fun copy text htext => ?_
  rw [mul_left_comm]
  refine loadResponse_then ?_
  refine Triple.store_last.entails (le_refl _) fun _ h hR => ?_
  refine ⟨text, fact_mul.2 ⟨htext, ?_⟩⟩
  rw [mul_left_comm (Copy copy text), mul_left_comm, mul_comm] at hR
  refine mul_mono_left ?_ _ h (mul_mono_right _ (copy_le_lost _ _) h hR)
  exact fun _ hR => ⟨copy, first, hR⟩

def Pending (p : Ptr Addr) : Option Contents → Own
  | none => fact (p = none)
  | some c => any fun a => fact (p = some a) * Response a c

theorem pending_some (a : Addr) (c : Contents) : Response a c ≤ Pending (some a) (some c) :=
  fun _ h => ⟨a, fact_mul.2 ⟨rfl, h⟩⟩

def Allocated (al : Allocator Addr Obj) (pending : Option Contents) : Prop :=
  pending = some ⟨0, none, []⟩ ∨ ¬ al.Total ∧ pending = none

theorem allocResponce_spec (al : Allocator Addr Obj) : Triple 1 (allocResponce al) fun p =>
    any fun pending => fact (Allocated al pending) * Pending p pending := by
  rw [← bind_pure (allocResponce al)]
  refine Triple.malloc (fun hfail => ?_) fun b => ?_
  · refine Triple.ret fun _ h => ?_
    exact ⟨none, fact_mul.2 ⟨.inr ⟨hfail, rfl⟩, h, rfl⟩⟩
  · refine Triple.ret fun h hb => ?_
    refine ⟨some ⟨0, none, []⟩, fact_mul.2 ⟨.inl rfl, ?_⟩⟩
    refine pending_some b ⟨0, none, []⟩ h ⟨none, none, ?_⟩
    refine mul_mono_right _ (fun _ h => ?_) h hb
    exact fact_mul.2 ⟨rfl, h, rfl⟩

theorem lineNode_card (b : Addr) (next : Ptr Addr) (text : Option Line) (h : Heap Addr Obj)
    (hnode : LineNode b next text h) : 1 ≤ h.keys.card := by
  obtain ⟨copy, hnode⟩ := hnode
  obtain ⟨h₁, h₂, h₁b, -, hsum⟩ := card_mul hnode
  have hone := card_pointsTo h₁b
  omega

/-- The response at `a` between two rounds of the reversal: the lines done so far hang
on it, the others on the loop's own pointer. -/
def Turned (a : Addr) (success : Int) (finalResp : Ptr Addr) (done : List (Option Line)) : Own :=
  any fun first => pointsTo a (.response ⟨success, finalResp, first⟩) * Linked LineNode first done

theorem reverseOne_spec (success : Int) (finalResp : Ptr Addr) (done : List (Option Line))
    (b : Addr) (next : Ptr Addr) (text : Option Line) :
    Triple (LineNode b next text * Turned a success finalResp done) (reverseOne (some a) b)
      fun p => fact (p = next) * Turned a success finalResp (text :: done) := by
  rw [LineNode, any_mul]
  refine Triple.any fun copy => ?_
  rw [mul_comm, Turned, any_mul]
  refine Triple.any fun first => ?_
  rw [mul_comm, mul_assoc]
  refine loadLine_then ?_
  rw [← mul_assoc, mul_left_comm]
  refine loadResponse_then ?_
  rw [mul_left_comm, mul_assoc]
  refine Triple.store ?_
  rw [← mul_assoc, mul_left_comm]
  refine Triple.store ?_
  refine Triple.ret fun h hR => ?_
  refine fact_mul.2 ⟨rfl, some b, mul_mono_right _ ?_ h hR⟩
  exact le_trans (mul_mono_left (fun _ hnode => ⟨copy, hnode⟩) _)
    (linked_cons b first text done)

theorem reverseIntermediates_spec (c : Contents) :
    Triple (Response a c) (reverseIntermediates (some a))
      fun _ => Response a { c with intermediates := c.intermediates.reverse } := by
  refine Triple.any fun finalResp => Triple.any fun first => ?_
  refine loadResponse_then ?_
  refine Triple.store ?_
  have hstart : pointsTo a (.response ⟨c.success, finalResp, none⟩) ≤
      Turned a c.success finalResp [] := by
    rintro h ha
    refine ⟨none, ?_⟩
    dsimp only
    rwa [linked_nil, mul_one]
  have hloop := walkAll_linked first c.intermediates []
    lineNode_card (reverseOne_spec (a := a) c.success finalResp)
  refine (hloop.frame (Copy finalResp c.finalResp)).entails ?_ fun _ => ?_
  · refine (mul_mono_left hstart _).trans_eq ?_
    rw [mul_comm (Copy _ _), ← mul_assoc, mul_comm (Turned _ _ _ _)]
  · rw [List.append_nil, Turned, any_mul]
    rintro h ⟨first', hR⟩
    refine ⟨finalResp, first', ?_⟩
    rwa [mul_assoc, mul_comm (Linked _ _ _)] at hR

theorem freeLine_spec (b : Addr) (next : Ptr Addr) (text : Option Line) (R : Own) :
    Triple (LineNode b next text * R) (freeLine b) fun p => fact (p = next) * R := by
  rw [LineNode, any_mul]
  refine Triple.any fun copy => ?_
  rw [mul_assoc]
  refine loadLine_then ?_
  rw [mul_left_comm]
  refine free_copy_then ?_
  refine Triple.free ?_
  exact Triple.ret fun _ h => fact_mul.2 ⟨rfl, h⟩

theorem freeResponce_spec (p : Ptr Addr) (pending : Option Contents) :
    Triple (Pending p pending) (freeResponce p) fun _ => 1 := by
  cases pending with
  | none =>
      rw [Pending, ← mul_one (fact _)]
      refine Triple.fact fun hp => ?_
      subst hp
      exact Triple.ret (le_refl _)
  | some c =>
      refine Triple.any fun a => Triple.fact fun hp => ?_
      subst hp
      refine Triple.any fun finalResp => Triple.any fun first => ?_
      rw [freeResponce, if_neg (Option.some_ne_none a)]
      refine loadResponse_then ?_
      have hloop := walkAll_linked first c.intermediates []
        (I := fun _ => (1 : Own)) lineNode_card fun _ b next text => freeLine_spec b next text 1
      rw [← mul_assoc, mul_comm, ← mul_one (Linked _ _ _)]
      refine Triple.bind (hloop.frame _) fun _ => ?_
      rw [one_mul]
      refine loadResponse_then ?_
      rw [mul_comm, ← mul_one (pointsTo _ _)]
      refine free_copy_then ?_
      exact Triple.free_last

end Mobile.Channel.Proofs.HeapSpecs
