import HostAgent.Json.Doc

namespace HostAgent.Json

/-!
# Reading texts

From the symbols of a text to its `Doc`. Reading never fails; it only stops at the first symbol
from which not even a reader that passes values over could go on.
-/

def isSpace : Option Char → Bool
  | some c => c == ' ' || c == '\n' || c == '\t' || c == '\r'
  | none => false

def skipSpace (s : Input) : Input := s.dropWhile isSpace

def readWord : List Char → Doc → Input → Doc × Option Input
  | [], d, r => (d, some r)
  | _ :: _, _, [] => (.broken .endInValue, none)
  | c :: w, d, s :: r => if s = some c then readWord w d r else (.broken .expectedWord, none)

/-- Where a word, a number or a string begins, that lexeme; in other places no value begins. -/
def readScalar : Input → Doc × Option Input
  | [] => (.absent .endInValue, none)
  | some 'n' :: r => readWord ['u', 'l', 'l'] .null r
  | some 't' :: r => readWord ['r', 'u', 'e'] (.bool true) r
  | some 'f' :: r => readWord ['a', 'l', 's', 'e'] (.bool false) r
  | some '"' :: r =>
    let (l, rest) := readString r
    (.string l, rest)
  | some '-' :: r =>
    let (l, rest) := readNumber true r
    (.number l, rest)
  | c :: r =>
    match digit? c with
    | some _ =>
      let (l, rest) := readNumber false (c :: r)
      (.number l, rest)
    | none => (.broken .expectedValue, none)

def foundAt : Input → Except Malformed Shape
  | some '[' :: _ => .ok .array
  | some '\x7b' :: _ => .ok .object
  | s =>
    match (readScalar s).1 with
    | .null => .ok .null
    | .bool b => .ok (.bool b)
    | .number l => l.value.map fun
      | .integer i => .integer i
      | .float x => .float x
    | .string l => l.value.map .string
    | .array _ _ => .ok .array
    | .object _ _ => .ok .object
    | .absent f | .broken f => .error f

/-- The items of an array from the next one on, how they end, and the rest of the text. -/
abbrev Items := List Doc × Ending × Option Input

abbrev Members := List (Lexeme String × Doc) × Ending × Option Input

mutual

/-- Reads the value at the front of a text, blanks before it included. Each step takes from the
first argument; twice the length of the text is always enough. -/
def readValue : Nat → Input → Doc × Option Input
  | 0, _ => (.absent .endInValue, none)
  | n + 1, s =>
    match skipSpace s with
    | some '[' :: r =>
      match skipSpace r with
      | [] => (.array [] .cut, none)
      | some ']' :: r => (.array [] .closed, some r)
      | r =>
        let (items, ending, rest) := readItems n r
        (.array items ending, rest)
    | some '\x7b' :: r =>
      match skipSpace r with
      | [] => (.object [] .cut, none)
      | some '\x7d' :: r => (.object [] .closed, some r)
      | r =>
        let (members, ending, rest) := readMembers n r
        (.object members ending, rest)
    | r => readScalar r

def readItems : Nat → Input → Items
  | 0, _ => ([], .cut, none)
  | n + 1, s =>
    match readValue n s with
    | (d, none) => ([d], .cut, none)
    | (d, some r) =>
      match skipSpace r with
      | [] => ([d], .cut, none)
      | some ']' :: r => ([d], .closed, some r)
      | some ',' :: r =>
        match skipSpace r with
        | [] => ([d], .commaThenEnd, none)
        | some ']' :: _ => ([d], .commaThenClose, none)
        | r =>
          let (items, ending, rest) := readItems n r
          (d :: items, ending, rest)
      | _ => ([d], .missingComma, none)

def readMembers : Nat → Input → Members
  | 0, _ => ([], .cut, none)
  | n + 1, some '"' :: s =>
    match readString s with
    | (k, none) => ([(k, .absent .endInObject)], .cut, none)
    | (k, some r) =>
      match skipSpace r with
      | [] => ([(k, .absent .endInObject)], .cut, none)
      | some ':' :: r =>
        match readValue n r with
        | (d, none) => ([(k, d)], .cut, none)
        | (d, some r) =>
          match skipSpace r with
          | [] => ([(k, d)], .cut, none)
          | some '\x7d' :: r => ([(k, d)], .closed, some r)
          | some ',' :: r =>
            match skipSpace r with
            | [] => ([(k, d)], .commaThenEnd, none)
            | some '\x7d' :: _ => ([(k, d)], .commaThenClose, none)
            | r =>
              let (members, ending, rest) := readMembers n r
              ((k, d) :: members, ending, rest)
          | _ => ([(k, d)], .missingComma, none)
      | _ => ([(k, .absent .expectedColon)], .cut, none)
  | _ + 1, s => ([], .badKey (foundAt s), none)

end

def readDocument (s : Input) : Document :=
  let (root, rest) := readValue (2 * s.length + 2) s
  ⟨root, match rest with
    | some r => !(skipSpace r).isEmpty
    | none => false⟩

end HostAgent.Json
