import Mobile.ProofSupport.Varint
import Mobile.Service.Messages

/-!
# What the messages need of the runtime

The promises of the protobuf runtime that the results on messages rest on, and a runtime
that keeps them: it reads and writes numbers with seven bits to a byte, and skips the
unknown fields that are numbers.
-/

namespace Mobile.Service.Proofs.Runtime

open Mobile.ProofSupport.Varint
open Mobile.Token.Scan Mobile.Service.Messages

section Promises

variable {φ : Type}

/-- What the runtime promises, over the bytes of a number and the tag of an unknown field:
a field is written as its tag and its value, and a read takes back what was written. -/
structure Lawful (rt : Runtime φ) (varint : UInt32 → List UInt8) (tagOf : φ → UInt32) :
    Prop where
  varint_one : ∀ v ≤ 127, (varint v).length = 1
  writeUInt32_eq : ∀ n v, rt.writeUInt32 n v = varint (n <<< 3) ++ varint v
  writeString_eq : ∀ n s,
    rt.writeString n s = varint (n <<< 3 ||| 2) ++ (varint (UInt32.ofNat s.length) ++ s)
  writeUnknown_eq : ∀ f, ∃ value, rt.writeUnknown f = varint (tagOf f) ++ value ∧
    ∀ rest, rt.skipField (tagOf f) (value ++ rest) = some (f, rest)
  tagOf_ne_zero : ∀ f, tagOf f ≠ 0
  readTag_end : rt.readTag [] = (0, false, [])
  readTag_varint : ∀ tag rest, tag ≠ 0 →
    rt.readTag (varint tag ++ rest) = (tag, decide (tag ≤ 127), rest)
  readUInt32_varint : ∀ v rest, rt.readUInt32 (varint v ++ rest) = some (v, rest)
  readString_varint : ∀ s rest, s.length < 2 ^ 31 →
    rt.readString (varint (UInt32.ofNat s.length) ++ (s ++ rest)) = some (s, rest)

/-- What the runtime promises of any input: a read takes bytes from the front, a string has
a length that fits an `int`, and what is skipped is a field with the tag. -/
structure LawfulReads (rt : Runtime φ) (tagOf : φ → UInt32) : Prop where
  readTag_lt : ∀ s, (rt.readTag s).1 ≠ 0 → (rt.readTag s).2.2.length < s.length
  readTag_cutoff : ∀ s, (rt.readTag s).2.1 = false →
    (rt.readTag s).1 = 0 ∨ 127 < (rt.readTag s).1
  readUInt32_le : ∀ s v rest, rt.readUInt32 s = some (v, rest) → rest.length ≤ s.length
  readString_le : ∀ s t rest, rt.readString s = some (t, rest) →
    rest.length ≤ s.length ∧ t.length < 2 ^ 31
  skipField_le : ∀ tag s f rest, rt.skipField tag s = some (f, rest) →
    rest.length ≤ s.length ∧ tagOf f = tag

/-- What the runtime promises of the sizes, and of the writers into an array. -/
structure LawfulSizes (rt : Runtime φ) (varint : UInt32 → List UInt8) : Prop where
  uInt32Size_eq : ∀ v, rt.uInt32Size v = (varint v).length
  stringSize_eq : ∀ s, rt.stringSize s = (varint (UInt32.ofNat s.length)).length + s.length
  unknownSize_eq : ∀ f, rt.unknownSize f = (rt.writeUnknown f).length
  writeUInt32ToArray_eq : ∀ n v target,
    rt.writeUInt32ToArray n v target = target ++ rt.writeUInt32 n v
  writeStringToArray_eq : ∀ n s target,
    rt.writeStringToArray n s target = target ++ rt.writeString n s
  writeUnknownToArray_eq : ∀ f target, rt.writeUnknownToArray f target = target ++ rt.writeUnknown f

end Promises

/-! ## Numbers of seven bits a byte -/

def varint (v : UInt32) : List UInt8 := encode v.toNat

structure NumberField where
  tag : UInt32
  value : Nat
  known : tag ≠ 0 ∧ tag % 8 = 0
  deriving DecidableEq, Repr

def readNumber (s : List UInt8) : Option (UInt32 × List UInt8) :=
  (decode s).map fun (n, rest) => (UInt32.ofNat n, rest)

def readText (s : List UInt8) : Option (Line × List UInt8) := do
  let (n, rest) ← decode s
  if n < 2 ^ 31 ∧ n ≤ rest.length then return (rest.take n, rest.drop n) else none

def writeNumber (n v : UInt32) : List UInt8 := varint (n <<< 3) ++ varint v

def writeText (n : UInt32) (s : Line) : List UInt8 :=
  varint (n <<< 3 ||| 2) ++ (varint (UInt32.ofNat s.length) ++ s)

def writeField (f : NumberField) : List UInt8 := varint f.tag ++ encode f.value

def readTag (s : List UInt8) : UInt32 × Bool × List UInt8 :=
  match readNumber s with
  | none => (0, false, s)
  | some (tag, rest) => (tag, tag ≠ 0 ∧ tag ≤ 127, rest)

def skipField (tag : UInt32) (s : List UInt8) : Option (NumberField × List UInt8) :=
  if h : tag ≠ 0 ∧ tag % 8 = 0 then (decode s).map fun (n, rest) => (⟨tag, n, h⟩, rest) else none

/-- Every string passes its check, and unknown fields are kept. -/
def varintRuntime : Runtime NumberField where
  readTag := readTag
  readUInt32 := readNumber
  readString := readText
  verifyUtf8String _ := true
  skipField := skipField
  preserveUnknowns := true
  writeUInt32 := writeNumber
  writeString := writeText
  writeUnknown := writeField
  writeUInt32ToArray n v target := target ++ writeNumber n v
  writeStringToArray n s target := target ++ writeText n s
  writeUnknownToArray f target := target ++ writeField f
  uInt32Size v := (varint v).length
  stringSize s := (varint (UInt32.ofNat s.length)).length + s.length
  unknownSize f := (writeField f).length

theorem readNumber_varint (v : UInt32) (rest : List UInt8) :
    readNumber (varint v ++ rest) = some (v, rest) := by
  simp [readNumber, varint, decode_encode]

theorem varintRuntime_lawful : Lawful varintRuntime varint NumberField.tag where
  varint_one v hv := by
    have hlt : v.toNat < 128 := Nat.lt_succ_of_le hv
    rw [varint, encode_one hlt, List.length_singleton]
  writeUInt32_eq _ _ := rfl
  writeString_eq _ _ := rfl
  writeUnknown_eq f := by
    refine ⟨encode f.value, rfl, fun rest => ?_⟩
    show skipField f.tag _ = _
    rw [skipField, dif_pos f.known, decode_encode, Option.map_some]
  tagOf_ne_zero f := f.known.1
  readTag_end := rfl
  readTag_varint tag rest hne := by
    show readTag _ = _
    simp [readTag, readNumber_varint, hne]
  readUInt32_varint := readNumber_varint
  readString_varint s rest hs := by
    show readText _ = _
    have hlen : (UInt32.ofNat s.length).toNat = s.length :=
      Nat.mod_eq_of_lt (Nat.lt_trans hs (by decide))
    have hfits : s.length < 2 ^ 31 ∧ s.length ≤ (s ++ rest).length :=
      ⟨hs, by rw [List.length_append]; omega⟩
    rw [readText, varint, decode_encode, hlen]
    show (if s.length < 2 ^ 31 ∧ s.length ≤ (s ++ rest).length then _ else _) = _
    rw [if_pos hfits, List.take_left, List.drop_left]
    rfl

theorem varintRuntime_reads : LawfulReads varintRuntime NumberField.tag where
  readTag_lt s hne := by
    show (readTag s).2.2.length < _
    have hne : (readTag s).1 ≠ 0 := hne
    unfold readTag readNumber at hne ⊢
    cases hs : decode s with
    | none => simp [hs] at hne
    | some r => exact decode_lt hs
  readTag_cutoff s hfalse := by
    show (readTag s).1 = 0 ∨ 127 < (readTag s).1
    have hfalse : (readTag s).2.1 = false := hfalse
    unfold readTag at hfalse ⊢
    cases hs : readNumber s with
    | none => exact .inl rfl
    | some r =>
        simp only [hs, decide_eq_false_iff_not, not_and, UInt32.not_le] at hfalse
        by_cases hzero : r.1 = 0
        · exact .inl hzero
        · exact .inr (hfalse hzero)
  readUInt32_le s v rest h := by
    obtain ⟨r, hs, heq⟩ := Option.map_eq_some_iff.1 h
    cases heq
    exact Nat.le_of_lt (decode_lt hs)
  readString_le s t rest h := by
    obtain ⟨⟨n, behind⟩, hs, hread⟩ := Option.bind_eq_some_iff.1 h
    have hlt := decode_lt hs
    simp only at hread
    split at hread
    case isTrue hn =>
      cases hread
      simp only [List.length_drop, List.length_take]
      omega
    case isFalse => cases hread
  skipField_le tag s f rest h := by
    have h : skipField tag s = some (f, rest) := h
    unfold skipField at h
    split at h
    case isTrue =>
      obtain ⟨r, hs, heq⟩ := Option.map_eq_some_iff.1 h
      cases heq
      exact ⟨Nat.le_of_lt (decode_lt hs), rfl⟩
    case isFalse => cases h

theorem varintRuntime_sizes : LawfulSizes varintRuntime varint :=
  ⟨fun _ => rfl, fun _ => rfl, fun _ => rfl, fun _ _ _ => rfl, fun _ _ _ => rfl, fun _ _ => rfl⟩

end Mobile.Service.Proofs.Runtime
