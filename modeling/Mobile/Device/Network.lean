import Mobile.Device.Scanf
import Mobile.Device.Types

/-!
# Operator and network mode

`MatchOperator` and `MatchNetMode` of `modem.cc`.
-/

namespace Mobile.Device.Network

open Mobile.Token.Scan Mobile.Channel.Types Mobile.Device.Types Mobile.Device.Scanf
open Mobile.Token.Tokenizer (atTokStart atTokNextStr)
open Mobile.ProofSupport.Search (search)

structure OperatorItem where
  cimi : Line
  oper : Operator
  deriving DecidableEq, Repr

def kOperMatch : List OperatorItem :=
  [⟨text "OPERATOR MOBILE", .mobile⟩,
   ⟨text "CMCC", .mobile⟩,
   ⟨text "46000", .mobile⟩,
   ⟨text "46002", .mobile⟩,
   ⟨text "46004", .mobile⟩,
   ⟨text "46007", .mobile⟩,
   ⟨text "46008", .mobile⟩,
   ⟨text "46020", .mobile⟩,
   ⟨text "46027", .mobile⟩,
   ⟨text "CHN-UNICOM", .unicom⟩,
   ⟨text "UNICOM", .unicom⟩,
   ⟨text "46001", .unicom⟩,
   ⟨text "46006", .unicom⟩,
   ⟨text "46009", .unicom⟩,
   ⟨text "CHN-UNICOM", .telcom⟩,
   ⟨text "46003", .telcom⟩,
   ⟨text "46005", .telcom⟩,
   ⟨text "46011", .telcom⟩,
   ⟨text "2040", .telcom⟩]

/-- The first row whose text occurs in the string decides. -/
def matchOperator (cimiStr : Line) : Operator :=
  match kOperMatch.find? fun item => (search cimiStr item.cimi).isSome with
  | some item => item.oper
  | none => .unkown

structure NetModeItem where
  name : Line
  oper : Operator
  mode : NetMode
  deriving DecidableEq, Repr

def kModeMath : List NetModeItem :=
  [⟨text "NONE", .mobile, .none⟩,
   ⟨text "NONE", .unicom, .none⟩,
   ⟨text "NONE", .telcom, .none⟩,
   ⟨text "LTE FDD", .telcom, .fddlte⟩,
   ⟨text "LTE FDD", .unicom, .fddlte⟩,
   ⟨text "LTE TDD", .mobile, .tdlte⟩,
   ⟨text "UMTS", .mobile, .tdscdma⟩,
   ⟨text "UMTS", .unicom, .wcdma⟩,
   ⟨text "HSUPA", .unicom, .wcdma⟩,
   ⟨text "HSDPA", .mobile, .tdscdma⟩,
   ⟨text "EVDO", .telcom, .evdo⟩,
   ⟨text "TDSCDMA", .mobile, .tdscdma⟩,
   ⟨text "GPRS", .mobile, .gprs⟩,
   ⟨text "GPRS", .unicom, .gprs⟩,
   ⟨text "GPRS", .telcom, .gprs⟩,
   ⟨text "EDGE", .mobile, .gprs⟩,
   ⟨text "EDGE", .unicom, .gprs⟩,
   ⟨text "EDGE", .telcom, .gprs⟩,
   ⟨text "WCDMA", .unicom, .wcdma⟩]

/-- The loop over `kModeMath` from one row on: every miss resets the mode. -/
def modeLoop (response : Line) : List NetModeItem → Modem → Modem
  | [], m => m
  | item :: rest, m =>
      if (search response item.name).isSome ∧ m.modem.simOperator = item.oper then
        { m with netMode := item.mode }
      else modeLoop response rest { m with netMode := .none }

def sysinfoFormat : List Directive :=
  [.char 0x3a, .int, .char 0x2c, .int, .char 0x2c, .int, .char 0x2c, .int, .char 0x2c,
    .char 0x2c, .int, .char 0x2c, .char 0x22, .string, .char 0x22]

structure Locals where
  tmp : Fin 7 → Int
  currMode : Fin 32 → UInt8

/-- What the scan stores in the arrays, argument by argument: `none` when it leaves
`currMode`. -/
def store : List Value → Fin 7 → Locals → Option Locals
  | .int n :: vs, i, l => store vs (i + 1) { l with tmp := Function.update l.tmp i n }
  | .string s :: vs, i, l =>
      if s.length < 32 then
        -- the text and its terminator
        store vs i { l with currMode := fun j =>
          if j.val ≤ s.length then s.getD j.val 0 else l.currMode j }
      else none
  | _, _, l => some l

/-- `switch (tmp[4])` -/
def switchMode (n : Int) (m : Modem) : Modem :=
  match n with
  | 1 => { m with netMode := .gprs }
  | 3 => { m with netMode := .wcdma }
  | 4 => { m with netMode := .tdscdma }
  | 6 => { m with netMode := if m.modem.simOperator = .mobile then .tdlte else .fddlte }
  | _ => m

/-- `none` where the code writes outside an array or reads through the null cursor. -/
def matchNetMode (netStr : Line) (stack : Locals) (m : Modem) : Option Modem :=
  match m.modem.modemType with
  | .huawei => do
      let locals := { stack with currMode := fun _ => 0 }
      match search netStr [0x3a] with
      | none => return m
      | some p =>
          let locals ← store (sscanf p sysinfoFormat) 0 locals
          return switchMode (locals.tmp 4) m
  | .longsung | .noeway | .nodecom | .simcom => do
      let (ret, cur) := atTokStart (some netStr)
      if ret < 0 then return m
      let (ret, response, _) ← atTokNextStr cur
      if ret < 0 then return m
      return modeLoop response kModeMath m
  | _ => some m

end Mobile.Device.Network
