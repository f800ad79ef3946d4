import Mobile.Service.Proofs.Merging

/-!
# What is accepted

On every input the read of a message ends, and what it accepts can be written and read
again.  Both writers write as many bytes as were measured before.
-/

namespace Mobile.Service.Proofs.Accepting

open Mobile.ProofSupport.Consume
open Mobile.Token.Scan Mobile.Channel.Types Mobile.Service.Messages
open Mobile.Service.Proofs.Runtime Mobile.Service.Proofs.Merging

variable {φ μ : Type}

/-! ## A round -/

section Rounds

variable {rt : Runtime φ} {tagOf : φ → UInt32} {fields : Fields μ} {addUnknown : φ → μ → μ}

theorem mergeRound_next {m m' : μ} {input rest : List UInt8}
    (h : mergeRound rt fields addUnknown m input = .next m' rest) :
    ∃ tag ok behind, rt.readTag input = (tag, ok, behind) ∧
      (fields tag m behind = some (some (m', rest)) ∨
        ∃ f, tag ≠ 0 ∧ rt.skipField tag behind = some (f, rest) ∧ m' = addUnknown f m ∧
          (ok = false ∨ fields tag m behind = none)) := by
  rcases htag : rt.readTag input with ⟨tag, ok, behind⟩
  simp only [mergeRound, htag] at h
  refine ⟨tag, ok, behind, rfl, ?_⟩
  have hskip : handleUnusual rt addUnknown tag m behind = .next m' rest →
      ∃ f, tag ≠ 0 ∧ rt.skipField tag behind = some (f, rest) ∧ m' = addUnknown f m := by
    intro hunusual
    unfold handleUnusual at hunusual
    by_cases htag : tag = 0
    · simp [htag] at hunusual
    · cases hread : rt.skipField tag behind with
      | none => simp [htag, hread] at hunusual
      | some r =>
          simp only [if_neg htag, hread, Round.next.injEq] at hunusual
          exact ⟨r.1, htag, by rw [← hunusual.2], hunusual.1.symm⟩
  cases ok with
  | false =>
      obtain ⟨f, htag, hread, hm⟩ := hskip h
      exact .inr ⟨f, htag, hread, hm, .inl rfl⟩
  | true =>
      simp only [Bool.not_true, if_neg Bool.false_ne_true] at h
      cases hfield : fields tag m behind with
      | none =>
          rw [hfield] at h
          obtain ⟨f, htag, hread, hm⟩ := hskip h
          exact .inr ⟨f, htag, hread, hm, .inr rfl⟩
      | some read =>
          cases read with
          | none => simp [hfield] at h
          | some r =>
              simp only [hfield, Round.next.injEq] at h
              exact .inl (by rw [← h.1, ← h.2])

theorem mergePartial_ends (reads : LawfulReads rt tagOf)
    (hfields : ∀ tag m input m' rest, fields tag m input = some (some (m', rest)) →
      tag ≠ 0 ∧ rest.length ≤ input.length) (m : μ) (input : List UInt8) :
    ∃ end', mergePartial rt fields addUnknown m input = some end' := by
  refine loop_ends (fun m input m' rest h => ?_) m (Nat.lt_succ_self _)
  obtain ⟨tag, ok, behind, htag, hfield | ⟨f, hne, hskip, -, -⟩⟩ := mergeRound_next h
  all_goals have hlt := reads.readTag_lt input
  all_goals rw [htag] at hlt
  · obtain ⟨hne, hle⟩ := hfields tag m behind m' rest hfield
    exact Nat.lt_of_le_of_lt hle (hlt hne)
  · exact Nat.lt_of_le_of_lt (reads.skipField_le _ _ _ _ hskip).1 (hlt hne)

end Rounds

/-! ## Responses -/

section Responses

variable {rt : Runtime φ} {varint : UInt32 → List UInt8} {tagOf : φ → UInt32}

theorem response_field_read {tag : UInt32} {m m' : MobileAPNResponse φ}
    {input rest : List UInt8}
    (h : MobileAPNResponse.fields rt tag m input = some (some (m', rest))) :
    tag ∈ responseTags ∧ m'.unknown = m.unknown ∧
      ((∃ apn, rt.readString input = some (apn, rest) ∧ rt.verifyUtf8String apn = true ∧
        m'.apn = apn) ∨
      m'.apn = m.apn ∧ ∃ v, rt.readUInt32 input = some (v, rest)) := by
  by_cases htag : tag ∈ responseTags
  · refine ⟨htag, ?_⟩
    simp only [responseTags, List.mem_cons, List.not_mem_nil, or_false] at htag
    obtain rfl | rfl | rfl := htag
    · have hread : MobileAPNResponse.readApn rt m input = some (m', rest) := by
        injection h
      unfold MobileAPNResponse.readApn at hread
      obtain ⟨⟨apn, rest'⟩, hstring, hverify⟩ := Option.bind_eq_some_iff.1 hread
      simp only at hverify
      split at hverify
      case isTrue hutf8 =>
        cases hverify
        exact ⟨rfl, .inl ⟨apn, hstring, hutf8, rfl⟩⟩
      case isFalse => cases hverify
    all_goals
      have hread := Option.some.inj
        (show some ((rt.readUInt32 input).map _) = some (some (m', rest)) from h)
      obtain ⟨⟨v, rest'⟩, hnumber, heq⟩ := Option.map_eq_some_iff.1 hread
      cases heq
      exact ⟨rfl, .inr ⟨rfl, v, hnumber⟩⟩
  · rw [(response_fields_none_iff m input).2 htag] at h
    cases h

theorem response_round_fits (reads : LawfulReads rt tagOf) {m m' : MobileAPNResponse φ}
    {input rest : List UInt8} (hm : ResponseFits rt tagOf m)
    (h : responseRound rt m input = .next m' rest) : ResponseFits rt tagOf m' := by
  obtain ⟨tag, ok, behind, htag, hfield | ⟨f, hne, hskip, rfl, hunusual⟩⟩ := mergeRound_next h
  · obtain ⟨-, hunknown, hread⟩ := response_field_read hfield
    obtain ⟨apn, hstring, hutf8, rfl⟩ | ⟨hapn, -⟩ := hread
    · exact ⟨(reads.readString_le _ _ _ hstring).2, fun _ => hutf8, hunknown ▸ hm.foreign⟩
    · exact ⟨hapn ▸ hm.length, hapn ▸ hm.utf8, hunknown ▸ hm.foreign⟩
  · refine ⟨hm.length, hm.utf8, fun f' hf' => ?_⟩
    rcases List.mem_append.1 hf' with hold | hnew
    · exact hm.foreign f' hold
    · rw [List.mem_singleton.1 hnew, (reads.skipField_le _ _ _ _ hskip).2]
      rcases hunusual with rfl | hnone
      · have hcutoff := reads.readTag_cutoff input (by rw [htag])
        rw [htag] at hcutoff
        have habove : 127 < tag := hcutoff.resolve_left hne
        simp only [responseTags, List.mem_cons, List.not_mem_nil, or_false]
        rintro (rfl | rfl | rfl) <;> exact absurd habove (by decide)
      · exact (response_fields_none_iff m behind).1 hnone

theorem response_fields_le (reads : LawfulReads rt tagOf) {tag : UInt32}
    {m m' : MobileAPNResponse φ} {input rest : List UInt8}
    (h : MobileAPNResponse.fields rt tag m input = some (some (m', rest))) :
    tag ≠ 0 ∧ rest.length ≤ input.length := by
  obtain ⟨htag, -, hread⟩ := response_field_read h
  refine ⟨?_, ?_⟩
  · rintro rfl
    exact absurd htag (by decide)
  · obtain ⟨apn, hstring, -⟩ | ⟨-, v, hnumber⟩ := hread
    · exact (reads.readString_le _ _ _ hstring).1
    · exact reads.readUInt32_le _ _ _ hnumber

theorem emptyResponse_fits : ResponseFits rt tagOf ({} : MobileAPNResponse φ) :=
  ⟨Nat.two_pow_pos 31, fun h => absurd rfl h, fun _ h => absurd h List.not_mem_nil⟩

/-- On any input the read of a response ends, and a response that it accepts can be
written and read again: it is the same, but for unknown fields that are not kept. -/
theorem accepted_response_reads_back (rt : Runtime φ) (varint : UInt32 → List UInt8)
    (tagOf : φ → UInt32) (law : Lawful rt varint tagOf) (reads : LawfulReads rt tagOf)
    (input : List UInt8) :
    ∃ end', ({} : MobileAPNResponse φ).mergePartialFromCodedStream rt input = some end' ∧
      ∀ x, end' = some x →
        ({} : MobileAPNResponse φ).mergePartialFromCodedStream rt
          (x.serializeWithCachedSizes rt) = some (some (keptResponse rt x)) := by
  obtain ⟨end', hend⟩ : ∃ end',
      ({} : MobileAPNResponse φ).mergePartialFromCodedStream rt input = some end' :=
    mergePartial_ends reads (fun _ _ _ _ _ h => response_fields_le reads h) {} input
  refine ⟨end', hend, ?_⟩
  rintro x rfl
  have hfits : ResponseFits rt tagOf x :=
    loop_invariant (fun _ _ _ _ hm h => response_round_fits reads hm h) emptyResponse_fits hend
  exact response_reads_back law hfits

/-- `\x0a\x02ok\x10\x05` and an unknown number. -/
theorem accepted_response_reads_back_ok :
    ∃ end', ({} : MobileAPNResponse NumberField).mergePartialFromCodedStream varintRuntime
        [0x0a, 0x02, 0x6f, 0x6b, 0x10, 0x05, 0x20, 0x07] = some end' ∧
      ∀ x, end' = some x →
        ({} : MobileAPNResponse NumberField).mergePartialFromCodedStream varintRuntime
          (x.serializeWithCachedSizes varintRuntime) =
            some (some (keptResponse varintRuntime x)) :=
  accepted_response_reads_back varintRuntime varint NumberField.tag varintRuntime_lawful
    varintRuntime_reads _

end Responses

/-! ## Sizes -/

section Sizes

variable {rt : Runtime φ} {varint : UInt32 → List UInt8} {tagOf : φ → UInt32}

theorem unknownFields_size (sizes : LawfulSizes rt varint) (unknown : List φ) :
    unknownFieldsSize rt unknown = (serializeUnknownFields rt unknown).length := by
  unfold unknownFieldsSize serializeUnknownFields
  split
  case isTrue =>
    rw [List.length_flatMap]
    exact congrArg List.sum (List.map_congr_left fun f _ => sizes.unknownSize_eq f)
  case isFalse => rfl

theorem unknownFields_toArray (sizes : LawfulSizes rt varint) (unknown : List φ)
    (target : List UInt8) : serializeUnknownFieldsToArray rt unknown target =
      target ++ serializeUnknownFields rt unknown := by
  have hall : ∀ target, unknown.foldl (fun target f => rt.writeUnknownToArray f target) target =
      target ++ unknown.flatMap rt.writeUnknown := by
    induction unknown with
    | nil => simp
    | cons f unknown ih =>
        intro target
        rw [List.foldl_cons, ih, sizes.writeUnknownToArray_eq, List.flatMap_cons,
          List.append_assoc]
  unfold serializeUnknownFieldsToArray serializeUnknownFields
  split
  case isTrue => exact hall target
  case isFalse => rw [List.append_nil]

theorem number_size (law : Lawful rt varint tagOf) (sizes : LawfulSizes rt varint) {n : UInt32}
    (v : UInt32) (hn : n <<< 3 ≤ 127) :
    (if v ≠ 0 then 1 + rt.uInt32Size v else 0) =
      (if v ≠ 0 then rt.writeUInt32 n v else []).length := by
  split
  case isTrue =>
    rw [law.writeUInt32_eq, List.length_append, law.varint_one _ hn, sizes.uInt32Size_eq]
  case isFalse => rfl

theorem string_size (law : Lawful rt varint tagOf) (sizes : LawfulSizes rt varint) {n : UInt32}
    (s : Line) (hn : n <<< 3 ||| 2 ≤ 127) :
    (if s.length > 0 then 1 + rt.stringSize s else 0) =
      (if s.length > 0 then rt.writeString n s else []).length := by
  split
  case isTrue =>
    rw [law.writeString_eq, List.length_append, List.length_append, law.varint_one _ hn,
      sizes.stringSize_eq]
  case isFalse => rfl

/-- Both writers write the same bytes, as many as `ByteSizeLong` counts. -/
theorem response_writers_agree (rt : Runtime φ) (varint : UInt32 → List UInt8)
    (tagOf : φ → UInt32) (law : Lawful rt varint tagOf) (sizes : LawfulSizes rt varint)
    (x : MobileAPNResponse φ) (target : List UInt8) :
    x.internalSerializeWithCachedSizesToArray rt target =
        target ++ x.serializeWithCachedSizes rt ∧
      x.byteSizeLong rt = (x.serializeWithCachedSizes rt).length := by
  constructor
  · unfold MobileAPNResponse.internalSerializeWithCachedSizesToArray
      MobileAPNResponse.serializeWithCachedSizes
    simp only [sizes.writeStringToArray_eq, sizes.writeUInt32ToArray_eq,
      unknownFields_toArray sizes]
    split <;> split <;> split <;> simp
  · unfold MobileAPNResponse.byteSizeLong MobileAPNResponse.serializeWithCachedSizes
    rw [unknownFields_size sizes, string_size law sizes x.apn (show (1 : UInt32) <<< 3 ||| 2 ≤ 127
      from by decide), number_size law sizes x.cid (show (2 : UInt32) <<< 3 ≤ 127 from by decide),
      number_size law sizes x.type (show (3 : UInt32) <<< 3 ≤ 127 from by decide)]
    simp only [List.length_append]
    omega

theorem response_writers_agree_cmnet :
    (⟨text "cmnet", 300, 1, []⟩ : MobileAPNResponse NumberField).byteSizeLong varintRuntime =
      ((⟨text "cmnet", 300, 1, []⟩ : MobileAPNResponse NumberField).serializeWithCachedSizes
        varintRuntime).length :=
  (response_writers_agree varintRuntime varint NumberField.tag varintRuntime_lawful
    varintRuntime_sizes ⟨text "cmnet", 300, 1, []⟩ []).2

end Sizes

end Mobile.Service.Proofs.Accepting
