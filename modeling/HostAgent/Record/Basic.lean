import HostAgent.Json.Decoder
import HostAgent.Json.Printer

namespace HostAgent

/-!
# Records

A record is a type with a JSON form: the value that describes it, and the decoder that takes it
out of a text or a value again.
-/

class Record (α : Type) where
  toJson : α → Json
  decoder : Json.Decoder α

namespace Record

variable {α : Type} [Record α]

def text (a : α) : String := (toJson a).text

def ofInput (s : Json.Input) : Except Json.Report α := (decoder (α := α)).ofInput s

def ofString (s : String) : Except Json.Report α := (decoder (α := α)).ofString s

def ofJson (j : Json) : Except Json.Report α := (decoder (α := α)).ofJson j

end Record

namespace Json

def ofWord (n : UInt64) : Json := .number (.integer n.toNat)

def strings (l : List String) : Json := .array (l.map .string)

end Json

end HostAgent
