import HostAgent.Json.Lexeme

namespace HostAgent.Json

/-!
# Texts as read once

A `Doc` holds what a JSON text says together with the faults in it, each where it stands. What a
fault is called depends on who meets it: a reader that wants the value, one that passes it over,
or one that takes a fixed number of items. So a text is read once, without failing, and the
readers of records decide afterwards.
-/

/-- How the items of an array, or the members of an object, come to an end. `cut` is the end of
the text after an item, or inside an item that is at fault itself. -/
inductive Ending where
  | closed
  | missingComma
  | commaThenClose
  | commaThenEnd
  | cut
  | badKey (found : Except Malformed Shape)
  deriving Repr

/-- A value as it stands in a text. It is `absent` where the text ends or lacks the colon before it,
and `broken` where what stands there begins no value. -/
inductive Doc where
  | null
  | bool (value : Bool)
  | number (lexeme : Lexeme Number)
  | string (lexeme : Lexeme String)
  | array (items : List Doc) (ending : Ending)
  | object (members : List (Lexeme String × Doc)) (ending : Ending)
  | absent (fault : Malformed)
  | broken (fault : Malformed)
  deriving Repr

/-- A whole text: its value, and whether more than blanks follows it. -/
structure Document where
  root : Doc
  trailing : Bool
  deriving Repr

/-! ## Endings -/

/-- The fault of an ending, to a reader that wants all items. -/
def Ending.inList : Ending → Option Malformed
  | .closed => none
  | .commaThenClose => some .trailingComma
  | .commaThenEnd => some .endInValue
  | .cut => some .endInList
  | .missingComma | .badKey _ => some .expectedListEnd

/-- The fault of an ending, to a reader that wants all members. -/
def Ending.inObject : Ending → Option Malformed
  | .closed => none
  | .commaThenClose => some .trailingComma
  | .commaThenEnd => some .endInValue
  | .cut => some .endInObject
  | .missingComma => some .expectedObjectEnd
  | .badKey _ => some .keyNotString

/-- The fault of an ending, to a reader that passes the array over. -/
def Ending.inSkippedList : Ending → Option Malformed
  | .closed => none
  | .commaThenClose => some .expectedValue
  | .commaThenEnd => some .endInValue
  | .cut => some .endInList
  | .missingComma | .badKey _ => some .expectedListEnd

/-- The fault of an ending, to a reader that passes the object over. -/
def Ending.inSkippedObject : Ending → Option Malformed
  | .closed => none
  | .commaThenClose => some .keyNotString
  | .commaThenEnd | .cut => some .endInObject
  | .missingComma => some .expectedObjectEnd
  | .badKey _ => some .keyNotString

/-- The fault of an ending, to a reader that has taken all the items that it wants. -/
def Ending.afterItems : Ending → Option Malformed
  | .closed => none
  | .commaThenClose => some .trailingComma
  | .cut => some .endInList
  | .missingComma | .commaThenEnd | .badKey _ => some .trailingCharacters

/-! ## Passing over -/

mutual

def Doc.skipped : Doc → Option Malformed
  | .null | .bool _ => none
  | .number l => l.skipped
  | .string l => l.skipped
  | .array items ending => (skippedItems items).or ending.inSkippedList
  | .object members ending => (skippedMembers members).or ending.inSkippedObject
  | .absent f | .broken f => some f

def skippedItems : List Doc → Option Malformed
  | [] => none
  | d :: r => d.skipped.or (skippedItems r)

def skippedMembers : List (Lexeme String × Doc) → Option Malformed
  | [] => none
  | (k, d) :: r => (k.skipped.or d.skipped).or (skippedMembers r)

end

/-! ## Values as texts without faults -/

mutual

def Doc.ofJson : Json → Doc
  | .null => .null
  | .bool b => .bool b
  | .number n => .number (.ok n)
  | .string s => .string (.ok s)
  | .array l => .array (ofItems l) .closed
  | .object m => .object (ofMembers m) .closed

def ofItems : List Json → List Doc
  | [] => []
  | j :: r => Doc.ofJson j :: ofItems r

def ofMembers : List (String × Json) → List (Lexeme String × Doc)
  | [] => []
  | (k, j) :: r => (.ok k, Doc.ofJson j) :: ofMembers r

end

end HostAgent.Json
