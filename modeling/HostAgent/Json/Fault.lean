import HostAgent.Decimal.Shortest
import HostAgent.Text.Quoted
import HostAgent.Time.Fault

namespace HostAgent.Json

/-!
# What can be wrong with a text or a value

A text can be malformed, and a value can differ from the record that it should describe. A report
adds where in the value the fault was met.
-/

inductive Malformed where
  | endInList
  | endInObject
  | endInString
  | endInValue
  | expectedColon
  | expectedListEnd
  | expectedObjectEnd
  | expectedWord
  | expectedValue
  | escape
  | number
  | outOfRange
  | codePoint
  | control
  | keyNotString
  | loneSurrogate
  | trailingComma
  | trailingCharacters
  | unpairedSurrogate
  | tooDeep
  deriving DecidableEq, Repr, Inhabited

def Malformed.message : Malformed → String
  | .endInList => "EOF while parsing a list"
  | .endInObject => "EOF while parsing an object"
  | .endInString => "EOF while parsing a string"
  | .endInValue => "EOF while parsing a value"
  | .expectedColon => "expected `:`"
  | .expectedListEnd => "expected `,` or `]`"
  | .expectedObjectEnd => "expected `,` or `\x7d`"
  | .expectedWord => "expected ident"
  | .expectedValue => "expected value"
  | .escape => "invalid escape"
  | .number => "invalid number"
  | .outOfRange => "number out of range"
  | .codePoint => "invalid unicode code point"
  | .control => "control character (\\u0000-\\u001F) found while parsing a string"
  | .keyNotString => "key must be a string"
  | .loneSurrogate => "lone leading surrogate in hex escape"
  | .trailingComma => "trailing comma"
  | .trailingCharacters => "trailing characters"
  | .unpairedSurrogate => "unexpected end of hex escape"
  | .tooDeep => "recursion limit exceeded"

inductive Shape where
  | null
  | bool (value : Bool)
  | integer (value : Int)
  | float (value : Decimal.Binary64)
  | string (value : String)
  | array
  | object
  deriving DecidableEq, Repr, Inhabited

def Shape.text : Shape → String
  | .null => "null"
  | .bool b => s!"boolean `{b}`"
  | .integer i => s!"integer `{i}`"
  | .float x => s!"floating point `{x.text}`"
  | .string s => s!"string {Text.debugQuoted s}"
  | .array => "sequence"
  | .object => "map"

inductive Fault where
  | malformed (fault : Malformed)
  | invalidType (found : Shape) (expected : String)
  | invalidValue (found : Shape) (expected : String)
  | invalidLength (length : Nat) (expected : String)
  | unknownVariant (name : String) (known : List String)
  | missingField (name : String)
  | duplicateField (name : String)
  | time (fault : Time.Fault)
  deriving DecidableEq, Repr, Inhabited

/-- The names that were expected, as a message lists them. -/
def oneOf : List String → String
  | [] => ""
  | [a] => s!"`{a}`"
  | [a, b] => s!"`{a}` or `{b}`"
  | names => "one of " ++ ", ".intercalate (names.map fun n => s!"`{n}`")

def Fault.message : Fault → String
  | .malformed m => m.message
  | .invalidType found expected => s!"invalid type: {found.text}, expected {expected}"
  | .invalidValue found expected => s!"invalid value: {found.text}, expected {expected}"
  | .invalidLength length expected => s!"invalid length {length}, expected {expected}"
  | .unknownVariant name [] => s!"unknown variant `{name}`, there are no variants"
  | .unknownVariant name known => s!"unknown variant `{name}`, expected {oneOf known}"
  | .missingField name => s!"missing field `{name}`"
  | .duplicateField name => s!"duplicate field `{name}`"
  | .time fault => fault.message

/-- Whether a fault lies in the text itself and not in what it says. -/
def Fault.isMalformed : Fault → Bool
  | .malformed _ => true
  | _ => false

inductive Segment where
  | key (name : String)
  | index (position : Nat)
  | unknown
  deriving DecidableEq, Repr, Inhabited

/-- A fault and where it was met, from the outermost value inwards. -/
structure Report where
  path : List Segment
  fault : Fault
  deriving DecidableEq, Repr, Inhabited

namespace Report

def ofFault (fault : Fault) : Report := ⟨[], fault⟩

def ofMalformed (fault : Malformed) : Report := ⟨[], .malformed fault⟩

def within (segment : Segment) (r : Report) : Report :=
  ⟨segment :: r.path, r.fault⟩

def message (r : Report) : String := r.fault.message

/-- Names are joined by points and positions stand in brackets. -/
def pathText : List Segment → Bool → String
  | [], _ => ""
  | .key name :: r, first => (if first then "" else ".") ++ name ++ pathText r false
  | .index position :: r, _ => s!"[{position}]" ++ pathText r false
  | .unknown :: r, first => (if first then "" else ".") ++ "?" ++ pathText r false

/-- The message with its place in front, where a part of the place is known. -/
def located (r : Report) : String :=
  if r.path.all (· == .unknown) then r.message
  else s!"{pathText r.path true}: {r.message}"

end Report

end HostAgent.Json
