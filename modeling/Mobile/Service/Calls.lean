import Mobile.Service.Messages

/-!
# Calls of the service

`GetMobileAPNService::CallMethod` of `mobile.pb.cc` and the methods behind it: those the
base class has, which are not implemented, and `GetMobileAPN` of `service.cc`.
-/

namespace Mobile.Service.Calls

open Mobile.Token.Scan Mobile.Channel.Types Mobile.Service.Messages

variable {φ : Type}

structure MobileServiceImpl where
  echoDelay : Int
  failReason : Line
  deriving DecidableEq, Repr

/-- What a method does to its controller and its closure. -/
inductive CallEvent
  | setFailed (reason : Line)
  | run
  deriving DecidableEq, Repr

inductive Message (φ : Type)
  | apnRequest (m : MobileAPNRequest φ)
  | apnResponse (m : MobileAPNResponse φ)
  | dialRequest (m : MobileDialRequest φ)
  | dialResponse (m : MobileDialResponse φ)
  deriving DecidableEq, Repr

namespace Message

/-- The virtual functions of the classes. -/
def mergePartialFromCodedStream (rt : Runtime φ) (input : List UInt8) :
    Message φ → Option (Option (Message φ))
  | apnRequest m => (m.mergePartialFromCodedStream rt input).map (·.map apnRequest)
  | apnResponse m => (m.mergePartialFromCodedStream rt input).map (·.map apnResponse)
  | dialRequest m => (m.mergePartialFromCodedStream rt input).map (·.map dialRequest)
  | dialResponse m => (m.mergePartialFromCodedStream rt input).map (·.map dialResponse)

def serializeWithCachedSizes (rt : Runtime φ) : Message φ → List UInt8
  | apnRequest m => m.serializeWithCachedSizes rt
  | apnResponse m => m.serializeWithCachedSizes rt
  | dialRequest m => m.serializeWithCachedSizes rt
  | dialResponse m => m.serializeWithCachedSizes rt

end Message

def notImplemented (name : String) : List CallEvent :=
  [.setFailed (text s!"Method {name}() not implemented."), .run]

def getMobileAPN (s : MobileServiceImpl) (request : MobileAPNRequest φ)
    (response : MobileAPNResponse φ) : MobileAPNResponse φ × List CallEvent :=
  if s.failReason = [] then
    ({ response with apn := text "public.vpdn.cn", cid := request.cid, type := 1 }, [.run])
  else (response, [.setFailed s.failReason, .run])

/-- The response behind the call, and what the call did; `none` for a bad index, which is
fatal, and for a message of another class than the method's. -/
def callMethod (s : MobileServiceImpl) (index : Nat) (request response : Message φ) :
    Option (Message φ × List CallEvent) :=
  match index, request, response with
  | 0, .dialRequest _, .dialResponse r => some (.dialResponse r, notImplemented "MobileDial")
  | 1, .apnRequest q, .apnResponse r =>
      let (r, events) := getMobileAPN s q r
      some (.apnResponse r, events)
  | 2, .apnRequest _, .apnResponse r => some (.apnResponse r, notImplemented "SetMobileAPN")
  | _, _, _ => none

def getRequestPrototype : Nat → Option (Message φ)
  | 0 => some (.dialRequest {})
  | 1 => some (.apnRequest {})
  | 2 => some (.apnRequest {})
  | _ => none

def getResponsePrototype : Nat → Option (Message φ)
  | 0 => some (.dialResponse {})
  | 1 => some (.apnResponse {})
  | 2 => some (.apnResponse {})
  | _ => none

end Mobile.Service.Calls
