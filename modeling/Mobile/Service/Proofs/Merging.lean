import Mobile.Service.Proofs.Runtime

/-!
# Messages on the wire

A written message acts on the loop that reads it: whatever object it is read into and
whatever stands behind it, the object becomes what `MergeFrom` makes of it.  Read into an
empty object it comes back, and messages written one after another merge.
-/

namespace Mobile.Service.Proofs.Merging

open Mobile.ProofSupport.Consume
open Mobile.Token.Scan Mobile.Channel.Types Mobile.Service.Messages
open Mobile.Service.Proofs.Runtime

variable {φ μ : Type}

/-! ## The fields -/

section Fields

variable {rt : Runtime φ} {varint : UInt32 → List UInt8} {tagOf : φ → UInt32}
  {fields : Fields μ} {addUnknown : φ → μ → μ}

theorem mergeRound_end (law : Lawful rt varint tagOf) (m : μ) :
    mergeRound rt fields addUnknown m [] = .done := by
  simp [mergeRound, law.readTag_end, handleUnusual]

theorem varint_ne_nil (law : Lawful rt varint tagOf) {tag : UInt32} (htag : tag ≤ 127) :
    varint tag ≠ [] := by
  intro hnil
  have hone := law.varint_one tag htag
  rw [hnil] at hone
  cases hone

theorem acts_field (law : Lawful rt varint tagOf) {tag : UInt32} {value : List UInt8} {g : μ → μ}
    (hne : tag ≠ 0) (hle : tag ≤ 127)
    (hread : ∀ m rest, fields tag m (value ++ rest) = some (some (g m, rest))) :
    Acts (mergeRound rt fields addUnknown) (varint tag ++ value) g := by
  refine acts_one (by simp [varint_ne_nil law hle]) fun m rest => ?_
  simp [mergeRound, List.append_assoc, law.readTag_varint tag _ hne, hle, hread]

theorem acts_unknown (addUnknown : φ → μ → μ) (law : Lawful rt varint tagOf) {f : φ}
    (hforeign : ∀ m input, fields (tagOf f) m input = none) :
    Acts (mergeRound rt fields addUnknown) (rt.writeUnknown f) (addUnknown f) := by
  obtain ⟨value, hwrite, hskip⟩ := law.writeUnknown_eq f
  have hne := law.tagOf_ne_zero f
  have hround : ∀ m rest, mergeRound rt fields addUnknown m (rt.writeUnknown f ++ rest) =
      .next (addUnknown f m) rest := by
    intro m rest
    rw [hwrite, List.append_assoc, mergeRound, law.readTag_varint _ _ hne]
    simp [handleUnusual, hforeign, hne, hskip]
  refine acts_one (fun hnil => ?_) hround
  -- without bytes the round would have ended
  have htag := law.readTag_varint (tagOf f) value hne
  rw [← hwrite, hnil, law.readTag_end, Prod.mk.injEq] at htag
  exact hne htag.1.symm

theorem acts_unknownFields (law : Lawful rt varint tagOf) {unknown : List φ}
    (hforeign : ∀ f ∈ unknown, ∀ m input, fields (tagOf f) m input = none) :
    Acts (mergeRound rt fields addUnknown) (serializeUnknownFields rt unknown)
      (fun m => (if rt.preserveUnknowns then unknown else []).foldl
        (fun m f => addUnknown f m) m) := by
  have hall := Acts.flatMap unknown fun f hf => acts_unknown addUnknown law
    (hforeign f hf)
  unfold serializeUnknownFields
  by_cases hkept : rt.preserveUnknowns = true
  · by_cases hne : unknown = []
    · subst hne
      simpa [hkept] using acts_nil
    · simpa [hkept, hne] using hall
  · simpa [hkept] using acts_nil

theorem mergePartial_eq (law : Lawful rt varint tagOf) {c : List UInt8} {g : μ → μ}
    (h : Acts (mergeRound rt fields addUnknown) c g) (m : μ) :
    mergePartial rt fields addUnknown m c = some (some (g m)) :=
  h.loop_eq (mergeRound_end law) (Nat.lt_succ_self _) m

end Fields

/-! ## The tags -/

/-- The number and the low byte of a tag with a small number determine it. -/
theorem tag_eq {tag n known : UInt32} {byte : UInt8} (hnumber : fieldNumber tag = n)
    (hn : n ≤ 15) (hbyte : tag.toUInt8 = byte) (hknown : byte.toUInt32 = known) :
    tag = known := by
  have hshift : tag.toNat / 8 = n.toNat := by
    rw [← hnumber, fieldNumber, UInt32.toNat_shiftRight]
    simp [Nat.shiftRight_eq_div_pow]
  have hlow : tag.toNat % 256 = byte.toNat := by
    rw [← hbyte, UInt32.toNat_toUInt8]
  have hn : n.toNat ≤ 15 := hn
  rw [← hknown, ← UInt32.toNat_inj, UInt8.toNat_toUInt32]
  omega

theorem request_fields {tag : UInt32} {rt : Runtime φ} (m : MobileAPNRequest φ)
    (input : List UInt8) : MobileAPNRequest.fields rt tag m input =
      if tag = 16 then
        some ((rt.readUInt32 input).map fun (v, rest) => ({ m with cid := v }, rest))
      else none := by
  by_cases htag : tag = 16
  · subst htag
    rfl
  · rw [if_neg htag]
    unfold MobileAPNRequest.fields knownField
    split
    case h_1 hnumber => exact if_neg fun hbyte => htag (tag_eq hnumber (by decide) hbyte rfl)
    case h_2 => rfl

def responseTags : List UInt32 := [10, 16, 24]

theorem response_fields_none_iff {tag : UInt32} {rt : Runtime φ} (m : MobileAPNResponse φ)
    (input : List UInt8) :
    MobileAPNResponse.fields rt tag m input = none ↔ tag ∉ responseTags := by
  constructor
  · intro hnone hmem
    simp only [responseTags, List.mem_cons, List.not_mem_nil, or_false] at hmem
    obtain rfl | rfl | rfl := hmem <;> cases hnone
  · intro htag
    simp only [responseTags, List.mem_cons, List.not_mem_nil, or_false, not_or] at htag
    obtain ⟨hapn, hcid, htype⟩ := htag
    unfold MobileAPNResponse.fields knownField
    split
    case h_1 hnumber => exact if_neg fun hbyte => hapn (tag_eq hnumber (by decide) hbyte rfl)
    case h_2 hnumber => exact if_neg fun hbyte => hcid (tag_eq hnumber (by decide) hbyte rfl)
    case h_3 hnumber => exact if_neg fun hbyte => htype (tag_eq hnumber (by decide) hbyte rfl)
    case h_4 => rfl

/-! ## The messages -/

section Messages

variable {rt : Runtime φ} {varint : UInt32 → List UInt8} {tagOf : φ → UInt32}

def keptRequest (rt : Runtime φ) (m : MobileAPNRequest φ) : MobileAPNRequest φ :=
  if rt.preserveUnknowns then m else { m with unknown := [] }

def keptResponse (rt : Runtime φ) (m : MobileAPNResponse φ) : MobileAPNResponse φ :=
  if rt.preserveUnknowns then m else { m with unknown := [] }

/-- No unknown field has the tag of a known one. -/
def RequestFits (tagOf : φ → UInt32) (m : MobileAPNRequest φ) : Prop :=
  ∀ f ∈ m.unknown, tagOf f ≠ 16

/-- The string can be read back, and no unknown field has the tag of a known one. -/
structure ResponseFits (rt : Runtime φ) (tagOf : φ → UInt32) (m : MobileAPNResponse φ) : Prop where
  length : m.apn.length < 2 ^ 31
  utf8 : m.apn ≠ [] → rt.verifyUtf8String m.apn = true
  foreign : ∀ f ∈ m.unknown, tagOf f ∉ responseTags

theorem foldl_requestUnknown (unknown : List φ) (m : MobileAPNRequest φ) :
    unknown.foldl (fun m f => MobileAPNRequest.addUnknown f m) m =
      { m with unknown := m.unknown ++ unknown } := by
  induction unknown generalizing m with
  | nil => simp
  | cons f unknown ih =>
      rw [List.foldl_cons, ih]
      simp [MobileAPNRequest.addUnknown]

theorem foldl_responseUnknown (unknown : List φ) (m : MobileAPNResponse φ) :
    unknown.foldl (fun m f => MobileAPNResponse.addUnknown f m) m =
      { m with unknown := m.unknown ++ unknown } := by
  induction unknown generalizing m with
  | nil => simp
  | cons f unknown ih =>
      rw [List.foldl_cons, ih]
      simp [MobileAPNResponse.addUnknown]

theorem acts_number {fields : Fields μ} {addUnknown : φ → μ → μ} {n tag : UInt32}
    (law : Lawful rt varint tagOf) (v : UInt32) {g : μ → μ} (htag : n <<< 3 = tag)
    (hne : tag ≠ 0) (hle : tag ≤ 127)
    (hread : ∀ m rest, fields tag m (varint v ++ rest) = some (some (g m, rest))) :
    Acts (mergeRound rt fields addUnknown) (if v ≠ 0 then rt.writeUInt32 n v else [])
      (fun m => if v ≠ 0 then g m else m) := by
  rw [law.writeUInt32_eq, htag]
  exact .ite fun _ => acts_field law hne hle hread

abbrev requestRound (rt : Runtime φ) :=
  mergeRound rt (MobileAPNRequest.fields rt) MobileAPNRequest.addUnknown

abbrev responseRound (rt : Runtime φ) :=
  mergeRound rt (MobileAPNResponse.fields rt) MobileAPNResponse.addUnknown

theorem request_acts (law : Lawful rt varint tagOf) {x : MobileAPNRequest φ}
    (hx : RequestFits tagOf x) :
    Acts (requestRound rt) (x.serializeWithCachedSizes rt)
      (fun m => m.mergeFrom (keptRequest rt x)) := by
  have hcid : Acts (requestRound rt) (if x.cid ≠ 0 then rt.writeUInt32 2 x.cid else [])
      (fun m => if x.cid ≠ 0 then { m with cid := x.cid } else m) :=
    acts_number law x.cid (show (2 : UInt32) <<< 3 = 16 from rfl) (by decide) (by decide)
      fun m rest => by simp [request_fields, law.readUInt32_varint]
  have hunknown : Acts (requestRound rt) (serializeUnknownFields rt x.unknown) _ :=
    acts_unknownFields law fun f hf m input => (request_fields m input).trans (if_neg (hx f hf))
  have heq : (fun m : MobileAPNRequest φ => m.mergeFrom (keptRequest rt x)) = fun m =>
      (if rt.preserveUnknowns then x.unknown else []).foldl
        (fun m f => MobileAPNRequest.addUnknown f m)
        (if x.cid ≠ 0 then { m with cid := x.cid } else m) := by
    funext m
    rw [foldl_requestUnknown, MobileAPNRequest.mergeFrom, keptRequest]
    split <;> split <;> simp_all
  rw [heq]
  exact hcid.append hunknown

theorem response_apn_acts (law : Lawful rt varint tagOf) {x : MobileAPNResponse φ}
    (hx : ResponseFits rt tagOf x) :
    Acts (responseRound rt) (if x.apn.length > 0 then rt.writeString 1 x.apn else [])
      (fun m => if x.apn.length > 0 then { m with apn := x.apn } else m) := by
  rw [law.writeString_eq, show (1 : UInt32) <<< 3 ||| 2 = 10 from rfl]
  refine .ite fun hne => acts_field law (by decide) (by decide) fun m rest => ?_
  have hutf8 := hx.utf8 (List.length_pos_iff.1 hne)
  have hread := law.readString_varint x.apn rest hx.length
  rw [List.append_assoc]
  show some (MobileAPNResponse.readApn rt m _) = _
  simp [MobileAPNResponse.readApn, hread, hutf8]

theorem response_acts (law : Lawful rt varint tagOf) {x : MobileAPNResponse φ}
    (hx : ResponseFits rt tagOf x) :
    Acts (responseRound rt) (x.serializeWithCachedSizes rt)
      (fun m => m.mergeFrom (keptResponse rt x)) := by
  have hcid : Acts (responseRound rt) (if x.cid ≠ 0 then rt.writeUInt32 2 x.cid else [])
      (fun m => if x.cid ≠ 0 then { m with cid := x.cid } else m) :=
    acts_number law x.cid (show (2 : UInt32) <<< 3 = 16 from rfl) (by decide) (by decide)
      fun m rest => by
        show some (Option.map _ (rt.readUInt32 _)) = _
        rw [law.readUInt32_varint, Option.map_some]
  have htype : Acts (responseRound rt) (if x.type ≠ 0 then rt.writeUInt32 3 x.type else [])
      (fun m => if x.type ≠ 0 then { m with type := x.type } else m) :=
    acts_number law x.type (show (3 : UInt32) <<< 3 = 24 from rfl) (by decide) (by decide)
      fun m rest => by
        show some (Option.map _ (rt.readUInt32 _)) = _
        rw [law.readUInt32_varint, Option.map_some]
  have hunknown : Acts (responseRound rt) (serializeUnknownFields rt x.unknown) _ :=
    acts_unknownFields law fun f hf m input =>
      (response_fields_none_iff m input).2 (hx.foreign f hf)
  have heq : (fun m : MobileAPNResponse φ => m.mergeFrom (keptResponse rt x)) = fun m =>
      (if rt.preserveUnknowns then x.unknown else []).foldl
        (fun m f => MobileAPNResponse.addUnknown f m)
        (let m := if x.apn.length > 0 then { m with apn := x.apn } else m
         let m := if x.cid ≠ 0 then { m with cid := x.cid } else m
         if x.type ≠ 0 then { m with type := x.type } else m) := by
    funext m
    rw [foldl_responseUnknown, MobileAPNResponse.mergeFrom, keptResponse]
    split <;> split <;> split <;> split <;> simp_all
  rw [heq]
  exact (response_apn_acts law hx).append (hcid.append (htype.append hunknown))

/-- Responses written one after another merge, into whatever object they are read. -/
theorem written_responses_merge (law : Lawful rt varint tagOf) (xs : List (MobileAPNResponse φ))
    (hxs : ∀ x ∈ xs, ResponseFits rt tagOf x) (m : MobileAPNResponse φ) :
    m.mergePartialFromCodedStream rt (xs.flatMap (·.serializeWithCachedSizes rt)) =
      some (some (xs.foldl (fun m x => m.mergeFrom (keptResponse rt x)) m)) := by
  exact mergePartial_eq law (.flatMap xs fun x hx => response_acts law (hxs x hx)) m

/-- A response cut in two, with a number that only one half has. -/
theorem written_responses_merge_halves :
    ({} : MobileAPNResponse NumberField).mergePartialFromCodedStream varintRuntime
        (([{ apn := text "cmnet" }, { cid := 300, type := 1 }] :
          List (MobileAPNResponse NumberField)).flatMap
            (·.serializeWithCachedSizes varintRuntime)) =
      some (some ⟨text "cmnet", 300, 1, []⟩) := by
  have hfits : ∀ x ∈ ([{ apn := text "cmnet" }, { cid := 300, type := 1 }] :
      List (MobileAPNResponse NumberField)), ResponseFits varintRuntime NumberField.tag x := by
    intro x hx
    simp only [List.mem_cons, List.not_mem_nil, or_false] at hx
    obtain rfl | rfl := hx
    · exact ⟨by decide, fun _ => rfl, by simp⟩
    · exact ⟨by decide, fun _ => rfl, by simp⟩
  exact written_responses_merge varintRuntime_lawful _ hfits {}

theorem response_mergeFrom_empty (x : MobileAPNResponse φ) :
    ({} : MobileAPNResponse φ).mergeFrom x = x := by
  obtain ⟨apn, cid, type, unknown⟩ := x
  unfold MobileAPNResponse.mergeFrom
  split <;> split <;> split <;> simp_all

theorem request_mergeFrom_empty (x : MobileAPNRequest φ) :
    ({} : MobileAPNRequest φ).mergeFrom x = x := by
  obtain ⟨cid, unknown⟩ := x
  unfold MobileAPNRequest.mergeFrom
  split <;> simp_all

theorem response_reads_back (law : Lawful rt varint tagOf) {x : MobileAPNResponse φ}
    (hx : ResponseFits rt tagOf x) :
    ({} : MobileAPNResponse φ).mergePartialFromCodedStream rt (x.serializeWithCachedSizes rt) =
      some (some (keptResponse rt x)) := by
  rw [MobileAPNResponse.mergePartialFromCodedStream, mergePartial_eq law (response_acts law hx),
    response_mergeFrom_empty]

theorem request_reads_back (law : Lawful rt varint tagOf) {x : MobileAPNRequest φ}
    (hx : RequestFits tagOf x) :
    ({} : MobileAPNRequest φ).mergePartialFromCodedStream rt (x.serializeWithCachedSizes rt) =
      some (some (keptRequest rt x)) := by
  rw [MobileAPNRequest.mergePartialFromCodedStream, mergePartial_eq law (request_acts law hx),
    request_mergeFrom_empty]

end Messages

end Mobile.Service.Proofs.Merging
