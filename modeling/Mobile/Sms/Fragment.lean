import Mobile.ProofSupport.Image

/-!
# The splitting of long messages

`CheckFragment` of `sms.cc`: where a message is cut, or -1.  Plain `char` is
unsigned, as on the aarch64 device of the README.
-/

namespace Mobile.Sms.Fragment

open Mobile.ProofSupport.Image

/-- The loop over the bytes that are left; `msg_idx` is `chn_num + eng_num`. -/
def checkFragmentLoop : List UInt8 → UInt32 → UInt32 → Int
  | [], _, _ => -1
  | c :: rest, chnNum, engNum =>
    let chnNum := if c > 0xA0 then chnNum + 1 else chnNum
    let engNum := if c > 0xA0 then engNum else engNum + 1
    if chnNum + 2 * engNum ≥ 139 ∧ chnNum % 2 = 0 then (chnNum + engNum).toInt32.toInt
    else checkFragmentLoop rest chnNum engNum

def checkFragment (msg : Bytes) (len : UInt32) : Int :=
  checkFragmentLoop ((List.range len.toNat).map fun i : Nat => msg i) 0 0

end Mobile.Sms.Fragment
