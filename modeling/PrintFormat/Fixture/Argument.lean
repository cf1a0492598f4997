import PrintFormat.Address.Reading
import PrintFormat.Argument
import PrintFormat.Calendar.Text
import PrintFormat.Decimal.Reading
import PrintFormat.Json.Record
import PrintFormat.Text.Utf8

/-!
Arguments as fixtures and command lines give them. Times and addresses stay text
until a render needs them. An argument is written `kind:value` on a command line
and as a record of kind and value in a fixture.
-/
namespace PrintFormat.Fixture

/-- Why a text is no argument. -/
inductive Fault
  | noKind | noNumber | noTruth | noCharacter | unknownKind
  | badTime | badIPv4 | badIPv6 | badMac
  deriving DecidableEq

def Fault.message : Fault → String
  | .noKind => "expected type:value"
  | .noNumber => "not a number"
  | .noTruth => "expected true or false"
  | .noCharacter => "expected one character"
  | .unknownKind => "unknown argument type"
  | .badTime => "bad time"
  | .badIPv4 => "bad IPv4 address"
  | .badIPv6 => "bad IPv6 address"
  | .badMac => "bad MAC address"

/-- A text that is no argument. -/
structure InvalidArgument where
  value : String
  fault : Fault
  deriving DecidableEq

def InvalidArgument.message (e : InvalidArgument) : String :=
  "invalid argument '" ++ e.value ++ "': " ++ e.fault.message

/-- An argument. -/
inductive Argument
  | int (value : Int64)
  | uint (value : UInt64)
  | float (value : Binary64)
  | char (value : Char)
  | bool (value : Bool)
  | str (value : String)
  | pointer (value : UInt64)
  | time (text : String)
  | epoch (seconds : Int64)
  | ipv4 (text : String)
  | ipv6 (text : String)
  | mac (text : String)
  deriving DecidableEq

namespace Argument

/-- The name of an argument's kind. -/
def kind : Argument → String
  | int _ => "int"
  | uint _ => "uint"
  | float _ => "float"
  | char _ => "char"
  | bool _ => "bool"
  | str _ => "str"
  | pointer _ => "pointer"
  | time _ => "time"
  | epoch _ => "epoch"
  | ipv4 _ => "ipv4"
  | ipv6 _ => "ipv6"
  | mac _ => "mac"

/-! ## Command lines -/

/-- Reads a signed word. -/
def readSigned? (cs : List Char) : Option Int64 := (readInt? 0x8000000000000000 cs).map Int64.ofInt

/-- Reads an unsigned word. -/
def readUnsigned? (cs : List Char) : Option UInt64 := (readNat? 10 UInt64.size cs).map Nat.toUInt64

/-- Reads a truth value. -/
def readTruth? (text : String) : Option Bool :=
  if text = "true" then some true else if text = "false" then some false else none

/-- Reads the value of an argument of a kind. -/
def ofValue (kind : String) (value : List Char) : Except Fault Argument :=
  let text := String.ofList value
  let orFault (argument : Option Argument) (fault : Fault) : Except Fault Argument :=
    argument.elim (.error fault) .ok
  match kind with
  | "int" => orFault ((readSigned? value).map int) .noNumber
  | "uint" => orFault ((readUnsigned? value).map uint) .noNumber
  | "float" => orFault ((Decimal.read? text).map float) .noNumber
  | "pointer" => orFault ((readUnsigned? value).map pointer) .noNumber
  | "epoch" => orFault ((readSigned? value).map epoch) .noNumber
  | "bool" => orFault ((readTruth? text).map bool) .noTruth
  | "char" =>
      match value with
      | [c] => .ok (char c)
      | _ => .error .noCharacter
  | "str" => .ok (str text)
  | "time" => .ok (time text)
  | "ipv4" => .ok (ipv4 text)
  | "ipv6" => .ok (ipv6 text)
  | "mac" => .ok (mac text)
  | _ => .error .unknownKind

/-- Reads `kind:value`. -/
def ofText (text : String) : Except InvalidArgument Argument :=
  match Text.cut (· = ':') text.toList with
  | (_, none) => .error ⟨text, .noKind⟩
  | (kind, some value) => (ofValue (String.ofList kind) value).mapError (⟨text, ·⟩)

/-! ## Fixtures -/

/-- The value of an argument as a document. -/
def valueJson : Argument → Json
  | int v => .ofInt v.toInt
  | uint v => .ofNat v.toNat
  | float v => .ofFloat v
  | char c => .ofText (String.singleton c)
  | bool b => .bool b
  | pointer p => .ofNat p.toNat
  | epoch s => .ofInt s.toInt
  | str s | time s | ipv4 s | ipv6 s | mac s => .ofText s

/-- An argument as a document. -/
def toJson (a : Argument) : Json := .ofMembers [("type", .ofText a.kind), ("value", a.valueJson)]

/-- The signed word that a document is. -/
def signed? (j : Json) : Option Int64 :=
  (j.int?.filter fun n => -0x8000000000000000 ≤ n && n < 0x8000000000000000).map Int64.ofInt

/-- The unsigned word that a document is. -/
def unsigned? (j : Json) : Option UInt64 := j.nat?.map Nat.toUInt64

/-- The argument of a kind that a document is the value of. -/
def ofValueJson? (kind : String) (value : Json) : Option Argument :=
  match kind with
  | "int" => (signed? value).map int
  | "uint" => (unsigned? value).map uint
  | "float" => value.float?.map float
  | "char" => value.char?.map char
  | "bool" => value.bool?.map bool
  | "str" => value.text?.map str
  | "pointer" => (unsigned? value).map pointer
  | "time" => value.text?.map time
  | "epoch" => (signed? value).map epoch
  | "ipv4" => value.text?.map ipv4
  | "ipv6" => value.text?.map ipv6
  | "mac" => value.text?.map mac
  | _ => none

/-- The argument that a document is. -/
def ofJson? (j : Json) : Option Argument := do
  let r ← j.record? ["type", "value"] 2
  let kind ← r.required "type" Json.name?
  r.required "value" (ofValueJson? kind)

/-! ## Use -/

/-- The argument of a render. -/
def toArg (a : Argument) : Except InvalidArgument Arg :=
  let parsed {α : Type} (text : String) (read? : String → Option α) (fault : Fault)
      (wrap : α → Arg) : Except InvalidArgument Arg :=
    (read? text).elim (.error ⟨text, fault⟩) fun v => .ok (wrap v)
  match a with
  | int v => .ok (.int v)
  | uint v => .ok (.uint v)
  | float v => .ok (.float v)
  | char c => .ok (.uint c.toNat.toUInt64)
  | bool b => .ok (.bool b)
  | str s => .ok (.str (Text.encode s))
  | pointer p => .ok (.pointer p)
  | time s => parsed s CivilTime.read? .badTime .time
  | epoch s => .ok (.time (.ofUnixSeconds s.toInt))
  | ipv4 s => parsed s IPv4.read? .badIPv4 .ipv4
  | ipv6 s => parsed s IPv6.read? .badIPv6 .ipv6
  | mac s => parsed s Mac.read? .badMac .mac

end Argument
end PrintFormat.Fixture
