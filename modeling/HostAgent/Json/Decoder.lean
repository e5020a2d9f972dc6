import HostAgent.Json.Reader

namespace HostAgent.Json

/-!
# Decoding

A decoder takes a value out of a document and reports the first fault that it meets, in the order
of the text. Records are described by their fields. A record is read from an object, whose unknown
members are passed over, or from an array that holds the fields in their declared order.
-/

/-- Where a document comes from: a text; a JSON value; or a value set aside while the members of an
object were sorted out. The three differ in how some faults are called. -/
inductive Origin where
  | text
  | value
  | buffered
  deriving DecidableEq, Repr

/-- The origin of a document and how many arrays and objects may still be entered, which only a
text limits. -/
structure Cursor where
  origin : Origin
  depth : Nat
  deriving DecidableEq, Repr

def Cursor.ofText : Cursor := ⟨.text, 128⟩

def Cursor.ofValue : Cursor := ⟨.value, 0⟩

def Cursor.ofBuffer : Cursor := ⟨.buffered, 0⟩

def Cursor.enter (c : Cursor) : Except Report Cursor :=
  match c.origin with
  | .text => if c.depth ≤ 1 then .error (.ofMalformed .tooDeep) else .ok ⟨.text, c.depth - 1⟩
  | _ => .ok c

abbrev Decoder (α : Type) := Cursor → Doc → Except Report α

/-- A value that a lexeme spells, or the report of its fault. -/
def Lexeme.get {α : Type} (l : Lexeme α) : Except Report α :=
  l.value.mapError Report.ofMalformed

def Number.shape : Number → Shape
  | .integer i => .integer i
  | .float x => .float x

/-- What stands in a place, if it can be said. -/
def Doc.shape : Doc → Except Report Shape
  | .null => .ok .null
  | .bool b => .ok (.bool b)
  | .number l => l.get.map Number.shape
  | .string l => l.get.map .string
  | .array _ _ => .ok .array
  | .object _ _ => .ok .object
  | .absent f | .broken f => .error (.ofMalformed f)

def mismatch (expected : String) (d : Doc) : Report :=
  match d.shape with
  | .ok s => .ofFault (.invalidType s expected)
  | .error r => r

def check (fault : Option Malformed) : Except Report Unit :=
  match fault with
  | none => .ok ()
  | some f => .error (.ofMalformed f)

def inside {α : Type} (segment : Segment) (r : Except Report α) : Except Report α :=
  r.mapError (·.within segment)

namespace Decoder

variable {α β : Type}

def map (f : α → β) (d : Decoder α) : Decoder β := fun c x => (d c x).map f

def string : Decoder String
  | _, .string l => l.get
  | _, d => .error (mismatch "a string" d)

def bool : Decoder Bool
  | _, .bool b => .ok b
  | _, d => .error (mismatch "a boolean" d)

def unit : Decoder Unit
  | _, .null => .ok ()
  | c, d =>
    match c.origin, d with
    | .buffered, .object [] .closed => .ok ()
    | _, _ => .error (mismatch "unit" d)

/-- Integers without a sign of at most sixty-four bits. -/
def word : Decoder UInt64
  | _, .number l => do
    match ← l.get with
    | .integer i =>
      if 0 ≤ i ∧ i < 18446744073709551616 then return UInt64.ofNat i.toNat
      else throw (.ofFault (.invalidValue (.integer i) "u64"))
    | .float x => throw (.ofFault (.invalidType (.float x) "u64"))
  | _, d => .error (mismatch "u64" d)

/-- A value that may be left out as `null`. -/
def option (d : Decoder α) : Decoder (Option α)
  | _, .null => .ok none
  | c, x => (d c x).map some

def items (d : Decoder α) (c : Cursor) (ending : Ending) : Nat → List Doc → Except Report (List α)
  | i, [] => do
    inside (.index i) (check ending.inList)
    return []
  | i, x :: r => do
    let a ← inside (.index i) (d c x)
    let as ← items d c ending (i + 1) r
    return a :: as

def list (d : Decoder α) : Decoder (List α)
  | c, .array l ending => do
    let c ← c.enter
    items d c ending 0 l
  | _, x => .error (mismatch "a sequence" x)

def members (d : Decoder α) (c : Cursor) (ending : Ending) :
    List (Lexeme String × Doc) → Except Report (List (String × α))
  | [] => do
    inside .unknown (check ending.inObject)
    return []
  | (k, x) :: r => do
    let k ← inside .unknown k.get
    let a ← inside (.key k) (d c x)
    let as ← members d c ending r
    return (k, a) :: as

/-- An object as a map; the last member of a name stays. -/
def sortedMap (d : Decoder α) : Decoder (SortedMap α)
  | c, .object m ending => do
    let c ← c.enter
    return SortedMap.ofList (← members d c ending m)
  | _, x => .error (mismatch "a map" x)

mutual

/-- Any value, as it stands. -/
def anything (c : Cursor) : Doc → Except Report Json
  | .null => .ok .null
  | .bool b => .ok (.bool b)
  | .number l => l.get.map .number
  | .string l => l.get.map .string
  | .array l ending => do
    let c ← c.enter
    return .array (← anythingItems c ending 0 l)
  | .object m ending => do
    let c ← c.enter
    return .object (← anythingMembers c ending m)
  | .absent f | .broken f => .error (.ofMalformed f)

def anythingItems (c : Cursor) (ending : Ending) : Nat → List Doc → Except Report (List Json)
  | i, [] => do
    inside (.index i) (check ending.inList)
    return []
  | i, x :: r => do
    let a ← inside (.index i) (anything c x)
    let as ← anythingItems c ending (i + 1) r
    return a :: as

def anythingMembers (c : Cursor) (ending : Ending) :
    List (Lexeme String × Doc) → Except Report (List (String × Json))
  | [] => do
    inside .unknown (check ending.inObject)
    return []
  | (k, x) :: r => do
    let k ← inside .unknown k.get
    let a ← inside (.key k) (anything c x)
    let as ← anythingMembers c ending r
    return (k, a) :: as

end

/-- Any value, the names of its objects brought into order. -/
def value : Decoder Value := fun c d => (anything c d).map Json.value

/-! ## Variants -/

def variant (known : List (String × α)) (name : String) : Except Report α :=
  match known.lookup name with
  | some a => .ok a
  | none => .error (.ofFault (.unknownVariant name (known.map Prod.fst)))

/-- A variant in an object of a text: one member, its value `null`. -/
def variantMember (known : List (String × α)) (c : Cursor) (ending : Ending) :
    List (Lexeme String × Doc) → Except Report α
  | [] =>
    match ending with
    | .badKey (.ok s) => .error (.ofFault (.invalidType s "variant identifier"))
    | .badKey (.error f) => .error (.ofMalformed f)
    | .cut => .error (.ofMalformed .endInValue)
    | _ => .error (.ofMalformed .expectedValue)
  | (k, d) :: r => do
    let name ← k.get
    let a ← variant known name
    match d with
    | .absent .expectedColon => throw (.ofMalformed .expectedColon)
    | .absent .endInObject => throw (.ofMalformed .endInObject)
    | d => inside (.key name) (unit c d)
    match r, ending with
    | [], .closed => return a
    | [], .cut => throw (.ofMalformed .endInObject)
    | _, _ => throw (.ofMalformed .expectedValue)

/-- A variant without content: its name, or an object with `null` under its name. -/
def enumeration (known : List (String × α)) : Decoder α
  | _, .string l => do variant known (← l.get)
  | c, .object m ending =>
    match c.origin with
    | .text => do variantMember known (← c.enter) ending m
    | _ =>
      match m with
      | [(k, d)] => do
        let a ← variant known (← k.get)
        unit c d
        return a
      | _ => .error (.ofFault (.invalidValue .object "map with a single key"))
  | c, d =>
    match c.origin, d with
    | .text, .absent f => .error (.ofMalformed f)
    | .text, _ => .error (.ofMalformed .expectedValue)
    | _, _ => .error (mismatch "string or map" d)

/-! ## Whole inputs -/

/-- Decodes a text that holds nothing else. -/
def ofInput (d : Decoder α) (s : Input) : Except Report α := do
  let doc := readDocument s
  let a ← d .ofText doc.root
  if doc.trailing then throw (.ofMalformed .trailingCharacters)
  return a

def ofString (d : Decoder α) (s : String) : Except Report α := d.ofInput (inputOf s)

def ofJson (d : Decoder α) (j : Json) : Except Report α := d .ofValue (Doc.ofJson j)

end Decoder

/-! ## Records -/

/-- A field by its name, and whether a value is one for it. -/
structure Field where
  name : String
  accepts : Decoder Unit

/-- Where the fields of a record are found: the part of the document for a name, with the step
to it, and the report of a field that is not there. -/
structure Source where
  cursor : Cursor
  find : String → Except Report (Option (Segment × Doc))
  missing : String → Report

/-- The fields of a record in declared order, and how the record is built of them. -/
structure Fields (α : Type) where
  declared : List Field
  build : Source → Except Report α

namespace Fields

variable {α β : Type}

instance : Applicative Fields where
  pure a := ⟨[], fun _ => .ok a⟩
  seq f x := ⟨f.declared ++ (x ()).declared, fun s => do
    let g ← f.build s
    let a ← (x ()).build s
    return g a⟩

def accepting (d : Decoder α) : Decoder Unit := fun c x => (d c x).map fun _ => ()

def required (name : String) (d : Decoder α) : Fields α :=
  ⟨[⟨name, accepting d⟩], fun s => do
    match ← s.find name with
    | some (segment, x) => inside segment (d s.cursor x)
    | none => throw (s.missing name)⟩

/-- A field that has a value when it is left out. -/
def optional (name : String) (d : Decoder α) (absent : α) : Fields α :=
  ⟨[⟨name, accepting d⟩], fun s => do
    match ← s.find name with
    | some (segment, x) => inside segment (d s.cursor x)
    | none => return absent⟩

def find? (f : Fields α) (name : String) : Option Field :=
  f.declared.find? fun x => x.name == name

end Fields

variable {α β : Type}

/-- Goes through the members of an object in their order: a declared field must be new and hold a
value for it, every other member is given to `other`. What is left are the declared members. -/
def sortOut (declared : List Field) (other : Cursor → String → Doc → Except Report (List β))
    (c : Cursor) (ending : Ending) :
    List (Lexeme String × Doc) → List (String × Doc) →
      Except Report (List (String × Doc) × List β)
  | [], seen => do
    inside .unknown (check ending.inObject)
    return (seen, [])
  | (k, x) :: r, seen => do
    let name ← inside .unknown k.get
    match declared.find? fun f => f.name == name with
    | some f =>
      if (seen.lookup name).isSome then throw (.ofFault (.duplicateField name))
      inside (.key name) (f.accepts c x)
      sortOut declared other c ending r (seen ++ [(name, x)])
    | none =>
      let b ← inside (.key name) (other c name x)
      let (seen, bs) ← sortOut declared other c ending r seen
      return (seen, b ++ bs)

/-- Unknown members need only be JSON. -/
def passOver (_ : Cursor) (_ : String) (x : Doc) : Except Report (List Unit) := do
  check x.skipped
  return []

/-- Unknown members are read and set aside. -/
def setAside (c : Cursor) (name : String) (x : Doc) : Except Report (List (String × Json)) := do
  return [(name, ← Decoder.anything c x)]

def Source.ofMembers (c : Cursor) (seen : List (String × Doc)) : Source where
  cursor := c
  find name := .ok ((seen.lookup name).map fun x => (.key name, x))
  missing name := .ofFault (.missingField name)

/-- How many fields a record has, as messages say it. -/
def withElements (title : String) (n : Nat) : String :=
  s!"{title} with {n} " ++ (if n = 1 then "element" else "elements")

def Source.ofItems (title : String) (declared : List Field) (c : Cursor) (items : List Doc)
    (ending : Ending) : Source where
  cursor := c
  find name := do
    let i := declared.findIdx fun f => f.name == name
    match items[i]? with
    | some x => return some (.index i, x)
    | none =>
      inside (.index i) (check ending.inList)
      return none
  missing name :=
    .ofFault (.invalidLength (declared.findIdx fun f => f.name == name)
      (withElements title declared.length))

def afterRecord (declared : List Field) (c : Cursor) (items : List Doc) (ending : Ending) :
    Except Report Unit :=
  match c.origin with
  | .text =>
    if declared.length < items.length then .error (.ofMalformed .trailingCharacters)
    else check ending.afterItems
  | .value =>
    if declared.length < items.length then
      .error (.ofFault (.invalidLength items.length "fewer elements in array"))
    else .ok ()
  | .buffered =>
    if declared.length < items.length then
      .error (.ofFault (.invalidLength items.length s!"{declared.length} elements in sequence"))
    else .ok ()

/-- A record of the given title, as messages call it. -/
def record (title : String) (fields : Fields α) : Decoder α
  | c, .object members ending => do
    let c ← c.enter
    let (seen, _) ← sortOut fields.declared passOver c ending members []
    fields.build (.ofMembers c seen)
  | c, .array items ending => do
    let c ← c.enter
    let a ← fields.build (.ofItems title fields.declared c items ending)
    afterRecord fields.declared c items ending
    return a
  | _, d => .error (mismatch title d)

/-- A record that holds the fields of another one among its own. Its own fields are read first, and
the other record from the members that are left. -/
def flattened (title : String) (own : Fields α) (rest : Fields β) : Decoder (α × β)
  | c, .object members ending => do
    let c ← c.enter
    let (seen, others) ← sortOut own.declared setAside c ending members []
    let a ← own.build (.ofMembers c seen)
    let (seen, _) ← sortOut rest.declared passOver .ofBuffer .closed (ofMembers others) []
    let b ← rest.build (.ofMembers .ofBuffer seen)
    return (a, b)
  | _, d => .error (mismatch title d)

end HostAgent.Json
