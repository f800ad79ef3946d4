import Mobile.Service.Calls
import Mobile.Service.Proofs.Merging

/-!
# Answers of the service

From the written request of a client to the response it reads, the number of the context
comes back with the fixed access point.
-/

namespace Mobile.Service.Proofs.Answers

open Mobile.Token.Scan Mobile.Channel.Types Mobile.Service.Messages Mobile.Service.Calls
open Mobile.Service.Proofs.Runtime Mobile.Service.Proofs.Merging

variable {φ : Type}

/-- What a client writes as its request comes back as the answer it reads: the number of
the context with the fixed access point. -/
theorem answer_reaches_client (rt : Runtime φ) (varint : UInt32 → List UInt8)
    (tagOf : φ → UInt32) (law : Lawful rt varint tagOf)
    (hutf8 : rt.verifyUtf8String (text "public.vpdn.cn") = true) (s : MobileServiceImpl)
    (hs : s.failReason = []) (q : MobileAPNRequest φ) (hq : RequestFits tagOf q) :
    ∃ proto response request answer, getRequestPrototype 1 = some proto ∧
      getResponsePrototype 1 = some response ∧
      proto.mergePartialFromCodedStream rt (q.serializeWithCachedSizes rt) =
        some (some request) ∧
      callMethod s 1 request response = some (answer, [.run]) ∧
      response.mergePartialFromCodedStream rt (answer.serializeWithCachedSizes rt) =
        some (some (.apnResponse ⟨text "public.vpdn.cn", q.cid, 1, []⟩)) := by
  have hrequest := request_reads_back law hq
  have hcid : (keptRequest rt q).cid = q.cid := by
    unfold keptRequest
    split <;> rfl
  have hlen : (text "public.vpdn.cn").length < 2 ^ 31 := by decide
  have hfits : ResponseFits rt tagOf ⟨text "public.vpdn.cn", q.cid, 1, []⟩ :=
    ⟨hlen, fun _ => hutf8, fun _ h => absurd h List.not_mem_nil⟩
  have hanswer := response_reads_back law hfits
  refine ⟨.apnRequest {}, .apnResponse {}, .apnRequest (keptRequest rt q),
    .apnResponse ⟨text "public.vpdn.cn", q.cid, 1, []⟩, rfl, rfl, ?_, ?_, ?_⟩
  · simp [Message.mergePartialFromCodedStream, hrequest]
  · simp [callMethod, getMobileAPN, hs, hcid]
  · simp only [Message.mergePartialFromCodedStream, Message.serializeWithCachedSizes, hanswer]
    simp [keptResponse]

/-- Context 300. -/
theorem answer_reaches_client_300 :
    ∃ proto response request answer, getRequestPrototype 1 = some proto ∧
      getResponsePrototype 1 = some response ∧
      proto.mergePartialFromCodedStream varintRuntime
        ((⟨300, []⟩ : MobileAPNRequest NumberField).serializeWithCachedSizes varintRuntime) =
          some (some request) ∧
      callMethod ⟨1, []⟩ 1 request response = some (answer, [.run]) ∧
      response.mergePartialFromCodedStream varintRuntime
          (answer.serializeWithCachedSizes varintRuntime) =
        some (some (.apnResponse ⟨text "public.vpdn.cn", 300, 1, []⟩)) :=
  answer_reaches_client varintRuntime varint NumberField.tag varintRuntime_lawful rfl ⟨1, []⟩ rfl
    ⟨300, []⟩ (fun _ h => absurd h List.not_mem_nil)

end Mobile.Service.Proofs.Answers
