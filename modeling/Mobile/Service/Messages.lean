import Mathlib.Algebra.GroupWithZero.Nat
import Mobile.Channel.Types
import Mobile.ProofSupport.Consume

/-!
# The messages of the service

The message classes of `mobile.pb.cc`: how they are read from a coded stream, merged,
written and measured.  The protobuf runtime is a parameter.  A string is its bytes, and
`_internal_metadata_` is the list of the unknown fields.
-/

namespace Mobile.Service.Messages

open Mobile.ProofSupport.Consume
open Mobile.Token.Scan

/-- The functions of the protobuf runtime that the messages call, over the type `φ` of the
unknown fields.  A read yields what stands behind it, or nothing where it fails. -/
structure Runtime (φ : Type) where
  /-- `ReadTagWithCutoffNoLastTag(127u)`: the tag, and whether it is known to be at most 127 -/
  readTag : List UInt8 → UInt32 × Bool × List UInt8
  /-- `ReadPrimitive` of a `TYPE_UINT32` -/
  readUInt32 : List UInt8 → Option (UInt32 × List UInt8)
  readString : List UInt8 → Option (Line × List UInt8)
  /-- `VerifyUtf8String` of a string that was read -/
  verifyUtf8String : Line → Bool
  /-- `SkipField`, with the field that it adds to the unknown ones -/
  skipField : UInt32 → List UInt8 → Option (φ × List UInt8)
  /-- `GetProto3PreserveUnknownsDefault()` -/
  preserveUnknowns : Bool
  writeUInt32 : UInt32 → UInt32 → List UInt8
  writeString : UInt32 → Line → List UInt8
  /-- `SerializeUnknownFields`, field by field -/
  writeUnknown : φ → List UInt8
  /-- `WriteUInt32ToArray` and the others write behind what the array has. -/
  writeUInt32ToArray : UInt32 → UInt32 → List UInt8 → List UInt8
  writeStringToArray : UInt32 → Line → List UInt8 → List UInt8
  writeUnknownToArray : φ → List UInt8 → List UInt8
  uInt32Size : UInt32 → Nat
  stringSize : Line → Nat
  unknownSize : φ → Nat

section Runtime

variable {φ μ : Type} (rt : Runtime φ)

def fieldNumber (tag : UInt32) : UInt32 := tag >>> 3

/-- What the `switch` of a message does with a tag: nothing where it goes to
`handle_unusual`, else the field is read or the read fails. -/
abbrev Fields (μ : Type) := UInt32 → μ → List UInt8 → Option (Option (μ × List UInt8))

def handleUnusual (addUnknown : φ → μ → μ) (tag : UInt32) (m : μ) (input : List UInt8) :
    Round μ UInt8 :=
  if tag = 0 then .done
  else
    match rt.skipField tag input with
    | none => .failed
    | some (f, rest) => .next (addUnknown f m) rest

def mergeRound (fields : Fields μ) (addUnknown : φ → μ → μ) (m : μ) (input : List UInt8) :
    Round μ UInt8 :=
  let (tag, ok, input) := rt.readTag input
  if !ok then handleUnusual rt addUnknown tag m input
  else
    match fields tag m input with
    | none => handleUnusual rt addUnknown tag m input
    | some none => .failed
    | some (some (m, rest)) => .next m rest

/-- `MergePartialFromCodedStream`: what the object is behind a read that succeeds; nothing
at all when the fuel is used up. -/
def mergePartial (fields : Fields μ) (addUnknown : φ → μ → μ) (m : μ) (input : List UInt8) :
    Option (Option μ) :=
  loop (mergeRound rt fields addUnknown) (input.length + 1) m input

/-- `case n:` with the one byte that its tag may have; `read` reads the field. -/
def knownField (byte : UInt8) (tag : UInt32) (read : Option (μ × List UInt8)) :
    Option (Option (μ × List UInt8)) :=
  if tag.toUInt8 = byte then some read else none

/-! ### The unknown fields -/

def serializeUnknownFields (unknown : List φ) : List UInt8 :=
  if unknown ≠ [] ∧ rt.preserveUnknowns then unknown.flatMap rt.writeUnknown else []

def serializeUnknownFieldsToArray (unknown : List φ) (target : List UInt8) : List UInt8 :=
  if unknown ≠ [] ∧ rt.preserveUnknowns then
    unknown.foldl (fun target f => rt.writeUnknownToArray f target) target
  else target

def unknownFieldsSize (unknown : List φ) : Nat :=
  if unknown ≠ [] ∧ rt.preserveUnknowns then (unknown.map rt.unknownSize).sum else 0

end Runtime

/-! ### `MobileAPNRequest` -/

structure MobileAPNRequest (φ : Type) where
  cid : UInt32 := 0
  unknown : List φ := []
  deriving DecidableEq, Repr

namespace MobileAPNRequest

variable {φ : Type} (rt : Runtime φ)

def addUnknown (f : φ) (m : MobileAPNRequest φ) : MobileAPNRequest φ :=
  { m with unknown := m.unknown ++ [f] }

def fields : Fields (MobileAPNRequest φ) := fun tag m input =>
  match fieldNumber tag with
  | 2 => knownField 16 tag ((rt.readUInt32 input).map fun (v, rest) => ({ m with cid := v }, rest))
  | _ => none

def mergePartialFromCodedStream (m : MobileAPNRequest φ) (input : List UInt8) :
    Option (Option (MobileAPNRequest φ)) :=
  mergePartial rt (fields rt) addUnknown m input

def serializeWithCachedSizes (m : MobileAPNRequest φ) : List UInt8 :=
  (if m.cid ≠ 0 then rt.writeUInt32 2 m.cid else []) ++
  serializeUnknownFields rt m.unknown

def internalSerializeWithCachedSizesToArray (m : MobileAPNRequest φ) (target : List UInt8) :
    List UInt8 :=
  let target := if m.cid ≠ 0 then rt.writeUInt32ToArray 2 m.cid target else target
  serializeUnknownFieldsToArray rt m.unknown target

def byteSizeLong (m : MobileAPNRequest φ) : Nat :=
  unknownFieldsSize rt m.unknown + if m.cid ≠ 0 then 1 + rt.uInt32Size m.cid else 0

def mergeFrom (m source : MobileAPNRequest φ) : MobileAPNRequest φ :=
  let m := { m with unknown := m.unknown ++ source.unknown }
  if source.cid ≠ 0 then { m with cid := source.cid } else m

end MobileAPNRequest

/-! ### `MobileAPNResponse` -/

structure MobileAPNResponse (φ : Type) where
  apn : Line := []
  cid : UInt32 := 0
  type : UInt32 := 0
  unknown : List φ := []
  deriving DecidableEq, Repr

namespace MobileAPNResponse

variable {φ : Type} (rt : Runtime φ)

def addUnknown (f : φ) (m : MobileAPNResponse φ) : MobileAPNResponse φ :=
  { m with unknown := m.unknown ++ [f] }

/-- A string is checked behind its read. -/
def readApn (m : MobileAPNResponse φ) (input : List UInt8) :
    Option (MobileAPNResponse φ × List UInt8) := do
  let (apn, rest) ← rt.readString input
  if rt.verifyUtf8String apn then return ({ m with apn := apn }, rest) else none

def fields : Fields (MobileAPNResponse φ) := fun tag m input =>
  match fieldNumber tag with
  | 1 => knownField 10 tag (readApn rt m input)
  | 2 => knownField 16 tag ((rt.readUInt32 input).map fun (v, rest) => ({ m with cid := v }, rest))
  | 3 => knownField 24 tag ((rt.readUInt32 input).map fun (v, rest) => ({ m with type := v }, rest))
  | _ => none

def mergePartialFromCodedStream (m : MobileAPNResponse φ) (input : List UInt8) :
    Option (Option (MobileAPNResponse φ)) :=
  mergePartial rt (fields rt) addUnknown m input

def serializeWithCachedSizes (m : MobileAPNResponse φ) : List UInt8 :=
  (if m.apn.length > 0 then rt.writeString 1 m.apn else []) ++
  ((if m.cid ≠ 0 then rt.writeUInt32 2 m.cid else []) ++
  ((if m.type ≠ 0 then rt.writeUInt32 3 m.type else []) ++
  serializeUnknownFields rt m.unknown))

def internalSerializeWithCachedSizesToArray (m : MobileAPNResponse φ) (target : List UInt8) :
    List UInt8 :=
  let target := if m.apn.length > 0 then rt.writeStringToArray 1 m.apn target else target
  let target := if m.cid ≠ 0 then rt.writeUInt32ToArray 2 m.cid target else target
  let target := if m.type ≠ 0 then rt.writeUInt32ToArray 3 m.type target else target
  serializeUnknownFieldsToArray rt m.unknown target

def byteSizeLong (m : MobileAPNResponse φ) : Nat :=
  unknownFieldsSize rt m.unknown +
  (if m.apn.length > 0 then 1 + rt.stringSize m.apn else 0) +
  (if m.cid ≠ 0 then 1 + rt.uInt32Size m.cid else 0) +
  (if m.type ≠ 0 then 1 + rt.uInt32Size m.type else 0)

def mergeFrom (m source : MobileAPNResponse φ) : MobileAPNResponse φ :=
  let m := { m with unknown := m.unknown ++ source.unknown }
  let m := if source.apn.length > 0 then { m with apn := source.apn } else m
  let m := if source.cid ≠ 0 then { m with cid := source.cid } else m
  if source.type ≠ 0 then { m with type := source.type } else m

end MobileAPNResponse

/-! ### `MobileDialRequest` and `MobileDialResponse` -/

/-- The classes have no field and the same functions. -/
structure MobileDialMessage (φ : Type) where
  unknown : List φ := []
  deriving DecidableEq, Repr

namespace MobileDialMessage

variable {φ : Type} (rt : Runtime φ)

def addUnknown (f : φ) (m : MobileDialMessage φ) : MobileDialMessage φ := ⟨m.unknown ++ [f]⟩

def mergePartialFromCodedStream (m : MobileDialMessage φ) (input : List UInt8) :
    Option (Option (MobileDialMessage φ)) :=
  mergePartial rt (fun _ _ _ => none) addUnknown m input

def serializeWithCachedSizes (m : MobileDialMessage φ) : List UInt8 :=
  serializeUnknownFields rt m.unknown

end MobileDialMessage

abbrev MobileDialRequest := MobileDialMessage

abbrev MobileDialResponse := MobileDialMessage

end Mobile.Service.Messages
