import HostAgent.Json.Decoder
import HostAgent.Proofs.Json.Lexeme
import Mathlib.Data.List.TakeWhile

namespace HostAgent.Json

/-!
# Texts of values

A value may be written in many ways: with blanks between its parts, and with its characters escaped
or not. Every such text is read in the same way, as the document that the value is spelled as. If
all integers have sixty-four bits, this is the document of the value itself. The induction carries
what follows the value, and a bound on the length that is left.
-/

/-! ## Blanks -/

def Blank (b : List Char) : Prop := ∀ c ∈ b, isSpace (some c) = true

theorem blank_nil : Blank [] := nofun

section Blanks

variable {b : List Char} {c : Char}

theorem skipSpace_cons (h : isSpace (some c) = false) (r : Input) :
    skipSpace (some c :: r) = some c :: r := by
  simp [skipSpace, h]

theorem skipSpace_blank (hb : Blank b) (s : Input) :
    skipSpace (b.map some ++ s) = skipSpace s := by
  refine List.dropWhile_append_of_pos fun c hc => ?_
  obtain ⟨d, hd, rfl⟩ := List.mem_map.mp hc
  exact hb d hd

theorem skipSpace_blank_cons (hb : Blank b) (h : isSpace (some c) = false) (r : Input) :
    skipSpace (b.map some ++ some c :: r) = some c :: r := by
  rw [skipSpace_blank hb, skipSpace_cons h]

theorem readValue_blank (hb : Blank b) (n : Nat) (s : Input) :
    readValue n (b.map some ++ s) = readValue n s := by
  cases n with
  | zero => rfl
  | succ n => rw [readValue, readValue, skipSpace_blank hb]

end Blanks

/-! ## Values that texts keep -/

mutual

/-- All numbers of a value are integers that texts keep. -/
def Integral : Json → Prop
  | .number (.integer i) => IsWord i
  | .number (.float _) => False
  | .array l => IntegralItems l
  | .object m => IntegralMembers m
  | _ => True

def IntegralItems : List Json → Prop
  | [] => True
  | j :: r => Integral j ∧ IntegralItems r

def IntegralMembers : List (String × Json) → Prop
  | [] => True
  | (_, j) :: r => Integral j ∧ IntegralMembers r

end

theorem integralMembers_iff {m : List (String × Json)} :
    IntegralMembers m ↔ ∀ e ∈ m, Integral e.2 := by
  induction m with
  | nil => simp [IntegralMembers]
  | cons e r ih => simp [IntegralMembers, ih]

mutual

/-- All numbers of a value have a property. -/
def Numbers (p : Number → Prop) : Json → Prop
  | .number n => p n
  | .array l => NumbersItems p l
  | .object m => NumbersMembers p m
  | _ => True

def NumbersItems (p : Number → Prop) : List Json → Prop
  | [] => True
  | j :: r => Numbers p j ∧ NumbersItems p r

def NumbersMembers (p : Number → Prop) : List (String × Json) → Prop
  | [] => True
  | (_, j) :: r => Numbers p j ∧ NumbersMembers p r

end

theorem numbersMembers_iff {p : Number → Prop} {m : List (String × Json)} :
    NumbersMembers p m ↔ ∀ e ∈ m, Numbers p e.2 := by
  induction m with
  | nil => simp [NumbersMembers]
  | cons e r ih => simp [NumbersMembers, ih]

mutual

theorem Integral.numbers {p : Number → Prop} (hp : ∀ i, IsWord i → p (.integer i)) :
    {j : Json} → Integral j → Numbers p j
  | .null, _ | .bool _, _ | .string _, _ => trivial
  | .number (.integer i), h => hp i h
  | .array _, h => IntegralItems.numbers hp h
  | .object _, h => IntegralMembers.numbers hp h

theorem IntegralItems.numbers {p : Number → Prop} (hp : ∀ i, IsWord i → p (.integer i)) :
    {l : List Json} → IntegralItems l → NumbersItems p l
  | [], _ => trivial
  | _ :: _, h => ⟨h.1.numbers hp, IntegralItems.numbers hp h.2⟩

theorem IntegralMembers.numbers {p : Number → Prop} (hp : ∀ i, IsWord i → p (.integer i)) :
    {m : List (String × Json)} → IntegralMembers m → NumbersMembers p m
  | [], _ => trivial
  | _ :: _, h => ⟨h.1.numbers hp, IntegralMembers.numbers hp h.2⟩

end

/-! ## Grammar -/

mutual

/-- A text spells a value, without blanks around it. -/
inductive Spells : Json → List Char → Prop
  | null : Spells .null ['n', 'u', 'l', 'l']
  | true : Spells (.bool true) ['t', 'r', 'u', 'e']
  | false : Spells (.bool false) ['f', 'a', 'l', 's', 'e']
  | integer (i : Int) : Spells (.number (.integer i)) (printInteger i)
  | float {x t} (h : SpellsFloat x t) : Spells (.number (.float x)) t
  | string {s t} (h : SpellsChars s.toList t) : Spells (.string s) ('"' :: t ++ ['"'])
  | emptyArray {b} (hb : Blank b) : Spells (.array []) ('[' :: b ++ [']'])
  | array {b j l t} (hb : Blank b) (h : SpellsItems j l t) :
      Spells (.array (j :: l)) ('[' :: b ++ t ++ [']'])
  | emptyObject {b} (hb : Blank b) : Spells (.object []) ('\x7b' :: b ++ ['\x7d'])
  | object {b k j m t} (hb : Blank b) (h : SpellsMembers k j m t) :
      Spells (.object ((k, j) :: m)) ('\x7b' :: b ++ t ++ ['\x7d'])

/-- A text spells the items of an array from one on, up to the bracket. -/
inductive SpellsItems : Json → List Json → List Char → Prop
  | last {j t b} (h : Spells j t) (hb : Blank b) : SpellsItems j [] (t ++ b)
  | next {j i l t b b' u} (h : Spells j t) (hb : Blank b) (hb' : Blank b')
      (hl : SpellsItems i l u) : SpellsItems j (i :: l) (t ++ b ++ ',' :: b' ++ u)

/-- A text spells the members of an object from one on, up to the brace. -/
inductive SpellsMembers : String → Json → List (String × Json) → List Char → Prop
  | last {k j t b} (h : SpellsMember k j t) (hb : Blank b) : SpellsMembers k j [] (t ++ b)
  | next {k j i v m t b b' u} (h : SpellsMember k j t) (hb : Blank b) (hb' : Blank b')
      (hm : SpellsMembers i v m u) : SpellsMembers k j ((i, v) :: m) (t ++ b ++ ',' :: b' ++ u)

inductive SpellsMember : String → Json → List Char → Prop
  | mk {k j s b b' t} (hk : SpellsChars k.toList s) (hb : Blank b) (hb' : Blank b')
      (h : Spells j t) : SpellsMember k j ('"' :: s ++ '"' :: b ++ ':' :: b' ++ t)

end

/-! ## Documents of texts -/

mutual

/-- The document that all texts of a value are read as. -/
def Doc.spelled : Json → Doc
  | .null => .null
  | .bool b => .bool b
  | .number (.integer i) => .number (integerLexeme i)
  | .number (.float x) => .number (.ok (.float x))
  | .string s => .string (.ok s)
  | .array l => .array (spelledItems l) .closed
  | .object m => .object (spelledMembers m) .closed

def spelledItems : List Json → List Doc
  | [] => []
  | j :: r => Doc.spelled j :: spelledItems r

def spelledMembers : List (String × Json) → List (Lexeme String × Doc)
  | [] => []
  | (k, j) :: r => (.ok k, Doc.spelled j) :: spelledMembers r

end

/-- Whether a number is one that values are made of: their integers have sixty-four bits. -/
def Number.Fits : Number → Prop
  | .integer i => IsWord i
  | .float _ => True

mutual

theorem spelled_of_fits : (j : Json) → Numbers Number.Fits j → Doc.spelled j = Doc.ofJson j
  | .null, _ | .bool _, _ | .string _, _ | .number (.float _), _ => rfl
  | .number (.integer _), h => congrArg Doc.number (integerLexeme_of_isWord h)
  | .array l, h => by rw [Doc.spelled, Doc.ofJson, spelledItems_of_fits l h]
  | .object m, h => by rw [Doc.spelled, Doc.ofJson, spelledMembers_of_fits m h]

theorem spelledItems_of_fits : (l : List Json) → NumbersItems Number.Fits l →
    spelledItems l = ofItems l
  | [], _ => rfl
  | j :: r, h => by rw [spelledItems, ofItems, spelled_of_fits j h.1, spelledItems_of_fits r h.2]

theorem spelledMembers_of_fits : (m : List (String × Json)) → NumbersMembers Number.Fits m →
    spelledMembers m = ofMembers m
  | [], _ => rfl
  | (k, j) :: r, h => by
    rw [spelledMembers, ofMembers, spelled_of_fits j h.1, spelledMembers_of_fits r h.2]

end

theorem Integral.fits {j : Json} (h : Integral j) : Numbers Number.Fits j :=
  h.numbers fun _ hi => hi

/-! ## The front of a text -/

/-- Whether a value can begin with a character: it is no blank and closes nothing. -/
def StartsValue (c : Char) : Prop := isSpace (some c) = false ∧ c ≠ ']' ∧ c ≠ '\x7d'

instance (c : Char) : Decidable (StartsValue c) := inferInstanceAs (Decidable (_ ∧ _))

theorem ne_of_isDigit {c d : Char} (hc : c.isDigit) (hd : d.isDigit = false) : c ≠ d := by
  rintro rfl
  rw [hc] at hd
  cases hd

theorem startsValue_of_isDigit {c : Char} (hc : c.isDigit) : StartsValue c := by
  refine ⟨?_, ne_of_isDigit hc (by decide), ne_of_isDigit hc (by decide)⟩
  simp only [isSpace, Bool.or_eq_false_iff, beq_eq_false_iff_ne]
  exact ⟨⟨⟨ne_of_isDigit hc (by decide), ne_of_isDigit hc (by decide)⟩,
    ne_of_isDigit hc (by decide)⟩, ne_of_isDigit hc (by decide)⟩

def StartsScalar (c : Char) : Prop := StartsValue c ∧ c ≠ '[' ∧ c ≠ '\x7b'

instance (c : Char) : Decidable (StartsScalar c) := inferInstanceAs (Decidable (_ ∧ _))

theorem printInteger_head (i : Int) : ∃ c t, printInteger i = c :: t ∧ StartsScalar c := by
  cases i with
  | ofNat n =>
    cases hds : Nat.toDigits 10 n with
    | nil => exact absurd hds Nat.toDigits_ne_nil
    | cons c ds =>
      have hc : c.isDigit := Text.isDigit_of_mem_toDigits (hds ▸ List.mem_cons_self)
      exact ⟨c, ds, hds, startsValue_of_isDigit hc, ne_of_isDigit hc (by decide),
        ne_of_isDigit hc (by decide)⟩
  | negSucc n => exact ⟨'-', _, rfl, by decide, by decide, by decide⟩

theorem SpellsFloat.head {x : Decimal.Binary64} {t : List Char} (h : SpellsFloat x t) :
    ∃ c u, t = c :: u ∧ StartsScalar c := by
  obtain ⟨⟨c, hc, hnumber⟩, -⟩ := readScalar_local h
  cases t with
  | nil => cases hc
  | cons d u =>
    obtain rfl : d = c := Option.some.inj (Option.some.inj hc)
    refine ⟨d, u, rfl, ?_⟩
    rcases hnumber with rfl | hdigit
    · decide
    · exact ⟨startsValue_of_isDigit hdigit, ne_of_isDigit hdigit (by decide),
        ne_of_isDigit hdigit (by decide)⟩

theorem Spells.head {j : Json} {t : List Char} (h : Spells j t) :
    ∃ c u, t = c :: u ∧ StartsValue c := by
  cases h with
  | integer i =>
    obtain ⟨c, u, hu, hc, -⟩ := printInteger_head i
    exact ⟨c, u, hu, hc⟩
  | float h =>
    obtain ⟨c, u, hu, hc, -⟩ := h.head
    exact ⟨c, u, hu, hc⟩
  | array => exact ⟨_, _, rfl, by decide⟩
  | object => exact ⟨_, _, rfl, by decide⟩
  | _ => exact ⟨_, _, rfl, by decide⟩

theorem SpellsItems.head {j : Json} {l : List Json} {t : List Char} (h : SpellsItems j l t) :
    ∃ c u, t = c :: u ∧ StartsValue c := by
  cases h with
  | last h hb =>
    obtain ⟨c, u, rfl, hc⟩ := h.head
    exact ⟨c, _, rfl, hc⟩
  | next h hb hb' hl =>
    obtain ⟨c, u, rfl, hc⟩ := h.head
    exact ⟨c, _, by simp only [List.cons_append]; rfl, hc⟩

theorem SpellsMembers.head {k : String} {j : Json} {m : List (String × Json)} {t : List Char}
    (h : SpellsMembers k j m t) : ∃ u, t = '"' :: u := by
  cases h with
  | last h hb =>
    cases h
    exact ⟨_, rfl⟩
  | next h hb hb' hm =>
    cases h
    exact ⟨_, by simp only [List.cons_append]; rfl⟩

/-! ## Steps of the reader -/

section Steps

variable {n : Nat} {s t u r : Input} {c : Char} {d : Doc} {k : Lexeme String}
variable {items : List Doc} {members : List (Lexeme String × Doc)} {ending : Ending}
variable {rest : Option Input}

theorem readValue_scalar (h : StartsScalar c) (n : Nat) (r : Input) :
    readValue (n + 1) (some c :: r) = readScalar (some c :: r) := by
  obtain ⟨⟨hspace, -, -⟩, hlist, hobject⟩ := h
  rw [readValue, skipSpace_cons hspace]
  split
  next heq => cases heq; exact absurd rfl hlist
  next heq => cases heq; exact absurd rfl hobject
  next => rfl

theorem readValue_emptyArray (hs : skipSpace s = some ']' :: r) (n : Nat) :
    readValue (n + 1) (some '[' :: s) = (.array [] .closed, some r) := by
  rw [readValue, skipSpace_cons (by decide)]
  simp only [hs]

theorem readValue_array (hc : StartsValue c) (hs : skipSpace s = some c :: t)
    (hr : readItems n (some c :: t) = (items, ending, rest)) :
    readValue (n + 1) (some '[' :: s) = (.array items ending, rest) := by
  rw [readValue, skipSpace_cons (by decide)]
  simp only [hs]
  split
  next heq => cases heq
  next heq => cases heq; exact absurd rfl hc.2.1
  next => rw [hr]

theorem readValue_emptyObject (hs : skipSpace s = some '\x7d' :: r) (n : Nat) :
    readValue (n + 1) (some '\x7b' :: s) = (.object [] .closed, some r) := by
  rw [readValue, skipSpace_cons (by decide)]
  simp only [hs]

theorem readValue_object (hc : StartsValue c) (hs : skipSpace s = some c :: t)
    (hr : readMembers n (some c :: t) = (members, ending, rest)) :
    readValue (n + 1) (some '\x7b' :: s) = (.object members ending, rest) := by
  rw [readValue, skipSpace_cons (by decide)]
  simp only [hs]
  split
  next heq => cases heq
  next heq => cases heq; exact absurd rfl hc.2.2
  next => rw [hr]

theorem readItems_last (h : readValue n s = (d, some u)) (hu : skipSpace u = some ']' :: r) :
    readItems (n + 1) s = ([d], .closed, some r) := by
  rw [readItems, h]
  simp only [hu]

theorem readItems_next (h : readValue n s = (d, some u)) (hu : skipSpace u = some ',' :: t)
    (hc : StartsValue c) (ht : skipSpace t = some c :: r)
    (hr : readItems n (some c :: r) = (items, ending, rest)) :
    readItems (n + 1) s = (d :: items, ending, rest) := by
  rw [readItems, h]
  simp only [hu, ht]
  split
  next heq => cases heq
  next heq => cases heq; exact absurd rfl hc.2.1
  next => rw [hr]

/-- A member is read: its key, and its value after the colon. -/
def ReadsMember (n : Nat) (s : Input) (k : Lexeme String) (d : Doc) (u : Input) : Prop :=
  ∃ v w, readString s = (k, some v) ∧ skipSpace v = some ':' :: w ∧ readValue n w = (d, some u)

theorem readMembers_last (h : ReadsMember n s k d u) (hu : skipSpace u = some '\x7d' :: r) :
    readMembers (n + 1) (some '"' :: s) = ([(k, d)], .closed, some r) := by
  obtain ⟨v, w, hk, hv, hw⟩ := h
  rw [readMembers, hk]
  simp only [hv, hw, hu]

theorem readMembers_next (h : ReadsMember n s k d u) (hu : skipSpace u = some ',' :: t)
    (hc : StartsValue c) (ht : skipSpace t = some c :: r)
    (hr : readMembers n (some c :: r) = (members, ending, rest)) :
    readMembers (n + 1) (some '"' :: s) = ((k, d) :: members, ending, rest) := by
  obtain ⟨v, w, hk, hv, hw⟩ := h
  rw [readMembers, hk]
  simp only [hv, hw, hu, ht]
  split
  next heq => cases heq
  next heq => cases heq; exact absurd rfl hc.2.2
  next => rw [hr]

end Steps

/-! ## Whole values -/

theorem endsNumber_blank {b : List Char} (hb : Blank b) {r : Input} (hr : EndsNumber r) :
    EndsNumber (b.map some ++ r) := by
  cases b with
  | nil => exact hr
  | cons d b =>
    rintro c ⟨⟩
    have hspace := hb d List.mem_cons_self
    simp only [isSpace, Bool.or_eq_true, beq_iff_eq] at hspace
    rcases hspace with ((rfl | rfl) | rfl) | rfl <;> decide

theorem endsNumber_comma (r : Input) : EndsNumber (some ',' :: r) := by
  rintro c ⟨⟩
  decide

theorem endsNumber_bracket (r : Input) : EndsNumber (some ']' :: r) := by
  rintro c ⟨⟩
  decide

theorem endsNumber_brace (r : Input) : EndsNumber (some '\x7d' :: r) := by
  rintro c ⟨⟩
  decide

/-- With this bound, texts of values, items and members are read as what they spell. -/
structure Reads (n : Nat) : Prop where
  value : ∀ j t, Spells j t → 2 * t.length ≤ n → ∀ r, EndsNumber r →
    readValue n (t.map some ++ r) = (Doc.spelled j, some r)
  items : ∀ j l t, SpellsItems j l t → 2 * t.length + 1 ≤ n → ∀ r,
    readItems n (t.map some ++ some ']' :: r) = (Doc.spelled j :: spelledItems l, .closed, some r)
  members : ∀ k j m t, SpellsMembers k j m t →
    2 * t.length + 1 ≤ n → ∀ r, readMembers n (t.map some ++ some '\x7d' :: r) =
      ((.ok k, Doc.spelled j) :: spelledMembers m, .closed, some r)

theorem reads_zero : Reads 0 where
  value j t h hn := by
    obtain ⟨c, u, rfl, -⟩ := h.head
    simp at hn
  items j l t _ hn := by omega
  members k j m t _ hn := by omega

theorem Reads.items_succ {n : Nat} (h : Reads n) {j : Json} {l : List Json} {t : List Char}
    (ht : SpellsItems j l t) (hn : 2 * t.length ≤ n)
    (r : Input) :
    readItems (n + 1) (t.map some ++ some ']' :: r) =
      (Doc.spelled j :: spelledItems l, .closed, some r) := by
  cases ht with
  | @last _ t b ht hb =>
    rw [List.length_append] at hn
    rw [List.map_append, List.append_assoc]
    have hvalue := h.value j t ht (by omega) _ (endsNumber_blank hb (endsNumber_bracket r))
    rw [readItems_last hvalue (skipSpace_blank_cons hb (by decide) r)]
    rfl
  | @next _ i l t b b' u ht hb hb' hu =>
    simp only [List.length_append, List.length_cons] at hn
    simp only [List.map_append, List.map_cons, List.append_assoc, List.cons_append]
    have hvalue := h.value j t ht (by omega) _ (endsNumber_blank hb (endsNumber_comma
      (b'.map some ++ (u.map some ++ some ']' :: r))))
    have hitems := h.items i l u hu
    obtain ⟨c, v, rfl, hc⟩ := hu.head
    rw [List.length_cons] at hitems hn
    rw [readItems_next hvalue (skipSpace_blank_cons hb (by decide) _) hc
      (skipSpace_blank_cons hb' hc.1 _) (hitems (by omega) r)]
    rfl

theorem Reads.member {n : Nat} (h : Reads n) {k : String} {j : Json} {t : List Char}
    (ht : SpellsMember k j t) (hn : 2 * t.length ≤ n) {r : Input}
    (hr : EndsNumber r) :
    ∃ s, t.map some ++ r = some '"' :: s ∧ ReadsMember n s (.ok k) (Doc.spelled j) r := by
  cases ht with
  | @mk _ _ s b b' t hk hb hb' ht =>
    simp only [List.length_append, List.length_cons] at hn
    refine ⟨s.map some ++ some '"' :: (b.map some ++ some ':' :: (b'.map some ++
      (t.map some ++ r))), by simp, _, _, readString_spelled hk _,
      skipSpace_blank_cons hb (by decide) _, ?_⟩
    rw [readValue_blank hb']
    exact h.value j t ht (by omega) r hr

theorem Reads.members_succ {n : Nat} (h : Reads n) {k : String} {j : Json}
    {m : List (String × Json)} {t : List Char} (ht : SpellsMembers k j m t)
    (hn : 2 * t.length ≤ n) (r : Input) :
    readMembers (n + 1) (t.map some ++ some '\x7d' :: r) =
      ((.ok k, Doc.spelled j) :: spelledMembers m, .closed, some r) := by
  cases ht with
  | @last _ _ t b ht hb =>
    rw [List.length_append] at hn
    obtain ⟨s, hs, hmember⟩ :=
      h.member ht (by omega) (endsNumber_blank hb (endsNumber_brace r))
    rw [List.map_append, List.append_assoc, hs,
      readMembers_last hmember (skipSpace_blank_cons hb (by decide) r)]
    rfl
  | @next _ _ i v m t b b' u ht hb hb' hu =>
    simp only [List.length_append, List.length_cons] at hn
    simp only [List.map_append, List.map_cons, List.append_assoc, List.cons_append]
    obtain ⟨s, hs, hmember⟩ := h.member ht (by omega) (endsNumber_blank hb (endsNumber_comma
      (b'.map some ++ (u.map some ++ some '\x7d' :: r))))
    have hmembers := h.members i v m u hu
    obtain ⟨w, rfl⟩ := hu.head
    rw [List.length_cons] at hmembers hn
    rw [hs, readMembers_next hmember (skipSpace_blank_cons hb (by decide) _) (c := '"') (by decide)
      (skipSpace_blank_cons hb' (by decide) _) (hmembers (by omega) r)]
    rfl

theorem readValue_spelledString {s : String} {t : List Char} (ht : SpellsChars s.toList t) (n : Nat)
    (r : Input) :
    readValue (n + 1) (('"' :: t ++ ['"']).map some ++ r) = (Doc.spelled (.string s), some r) := by
  have hfront : ('"' :: t ++ ['"']).map some ++ r =
      some '"' :: (t.map some ++ some '"' :: r) := by
    simp
  rw [hfront, readValue_scalar (by decide), readScalar, readString_spelled ht]
  rfl

theorem readValue_spelledEmptyArray {b : List Char} (hb : Blank b) (n : Nat) (r : Input) :
    readValue (n + 1) (('[' :: b ++ [']']).map some ++ r) = (Doc.spelled (.array []), some r) := by
  have hfront : ('[' :: b ++ [']']).map some ++ r =
      some '[' :: (b.map some ++ some ']' :: r) := by
    simp
  rw [hfront, readValue_emptyArray (skipSpace_blank_cons hb (by decide) r)]
  rfl

theorem readValue_spelledEmptyObject {b : List Char} (hb : Blank b) (n : Nat) (r : Input) :
    readValue (n + 1) (('\x7b' :: b ++ ['\x7d']).map some ++ r) =
      (Doc.spelled (.object []), some r) := by
  have hfront : ('\x7b' :: b ++ ['\x7d']).map some ++ r =
      some '\x7b' :: (b.map some ++ some '\x7d' :: r) := by
    simp
  rw [hfront, readValue_emptyObject (skipSpace_blank_cons hb (by decide) r)]
  rfl

theorem Reads.array {n : Nat} (h : Reads n) {i : Json} {l : List Json} {b t : List Char}
    (hb : Blank b) (ht : SpellsItems i l t) (hn : 2 * t.length + 1 ≤ n) (r : Input) :
    readValue (n + 1) (('[' :: b ++ t ++ [']']).map some ++ r) =
      (Doc.spelled (.array (i :: l)), some r) := by
  have hfront : ('[' :: b ++ t ++ [']']).map some ++ r =
      some '[' :: (b.map some ++ (t.map some ++ some ']' :: r)) := by
    simp
  have hitems := h.items i l t ht hn r
  rw [hfront]
  obtain ⟨c, u, rfl, hc⟩ := ht.head
  rw [List.map_cons, List.cons_append] at hitems ⊢
  rw [readValue_array hc (skipSpace_blank_cons hb hc.1 _) hitems]
  rfl

theorem Reads.object {n : Nat} (h : Reads n) {k : String} {i : Json} {m : List (String × Json)}
    {b t : List Char} (hb : Blank b) (ht : SpellsMembers k i m t) (hn : 2 * t.length + 1 ≤ n)
    (r : Input) :
    readValue (n + 1) (('\x7b' :: b ++ t ++ ['\x7d']).map some ++ r) =
      (Doc.spelled (.object ((k, i) :: m)), some r) := by
  have hfront : ('\x7b' :: b ++ t ++ ['\x7d']).map some ++ r =
      some '\x7b' :: (b.map some ++ (t.map some ++ some '\x7d' :: r)) := by
    simp
  have hmembers := h.members k i m t ht hn r
  rw [hfront]
  obtain ⟨u, rfl⟩ := ht.head
  rw [List.map_cons, List.cons_append] at hmembers ⊢
  rw [readValue_object (c := '"') (by decide) (skipSpace_blank_cons hb (by decide) _) hmembers]
  rfl

theorem Reads.value_succ {n : Nat} (h : Reads n) {j : Json} {t : List Char} (ht : Spells j t)
    (hn : 2 * t.length ≤ n + 1) {r : Input} (hr : EndsNumber r) :
    readValue (n + 1) (t.map some ++ r) = (Doc.spelled j, some r) := by
  cases ht with
  | null => exact readValue_scalar (by decide) n _
  | true => exact readValue_scalar (by decide) n _
  | false => exact readValue_scalar (by decide) n _
  | integer i =>
    obtain ⟨c, u, hu, hc⟩ := printInteger_head i
    have hscalar := readScalar_printInteger i hr
    rw [hu] at hscalar ⊢
    exact (readValue_scalar hc n _).trans hscalar
  | float ht =>
    obtain ⟨c, u, rfl, hc⟩ := ht.head
    exact (readValue_scalar hc n _).trans ((readScalar_local ht).2 r hr)
  | string ht => exact readValue_spelledString ht n r
  | emptyArray hb => exact readValue_spelledEmptyArray hb n r
  | array hb ht => exact h.array hb ht (by simp at hn; omega) r
  | emptyObject hb => exact readValue_spelledEmptyObject hb n r
  | object hb ht => exact h.object hb ht (by simp at hn; omega) r

theorem reads (n : Nat) : Reads n := by
  induction n with
  | zero => exact reads_zero
  | succ n ih =>
    exact {
      value := fun j t ht hn r hr => ih.value_succ ht hn hr
      items := fun j l t ht hn r => ih.items_succ ht (by omega) r
      members := fun k j m t ht hn r => ih.members_succ ht (by omega) r }

/-- An input is a text of a value: a spelling of it, with blanks around it. -/
def IsText (s : Input) (j : Json) : Prop :=
  ∃ b t b' : List Char, Blank b ∧ Spells j t ∧ Blank b' ∧ s = (b ++ t ++ b').map some

theorem IsText.readDocument {s : Input} {j : Json} (h : IsText s j) :
    readDocument s = ⟨Doc.spelled j, false⟩ := by
  obtain ⟨b, t, b', hb, ht, hb', rfl⟩ := h
  have hends : EndsNumber (b'.map some) := by
    have happend := endsNumber_blank hb' (r := []) nofun
    rwa [List.append_nil] at happend
  have hlast : skipSpace (b'.map some) = [] := by
    have happend := skipSpace_blank hb' []
    rwa [List.append_nil] at happend
  have hread := (reads (2 * ((b ++ t ++ b').map some).length + 2)).value j t ht
    (by simp; omega) _ hends
  rw [Json.readDocument, List.map_append, List.map_append, List.append_assoc, readValue_blank hb]
  rw [List.map_append, List.map_append, List.append_assoc] at hread
  rw [hread]
  simp only [hlast]
  rfl

/-- What a decoder makes of a text of a value is what it makes of the document. -/
theorem IsText.ofInput {α : Type} {s : Input} {j : Json} (h : IsText s j) (d : Decoder α) :
    d.ofInput s = d .ofText (Doc.spelled j) := by
  rw [Decoder.ofInput, h.readDocument]
  cases d .ofText (Doc.spelled j) <;> rfl

/-- A decoder that finds something in a value finds it in a text of the value too. -/
theorem ofInput_spelled {α : Type} {d : Decoder α} {j : Json} {a : α} {b t b' : List Char}
    (h : Spells j t) (hj : Integral j) (hb : Blank b) (hb' : Blank b')
    (hd : d .ofText (Doc.ofJson j) = .ok a) : d.ofInput ((b ++ t ++ b').map some) = .ok a := by
  have htext : IsText ((b ++ t ++ b').map some) j := ⟨b, t, b', hb, h, hb', rfl⟩
  rw [htext.ofInput, spelled_of_fits j hj.fits, hd]

end HostAgent.Json
