import HostAgent.Proofs.Text.Cutting
import HostAgent.Proofs.Text.Utf8
import HostAgent.Text.Percent

namespace HostAgent.Text.Percent

/-!
# Reading what was escaped

Who receives an escaped text puts the octets back together. A form is cut into its pairs first, so
names and values may hold any character, those that cut included.
-/

/-! ## Octets -/

theorem hexValue?_hexDigit {n : Nat} (h : n < 16) : hexValue? (hexDigit n) = some n := by
  revert n
  decide

theorem decode_octet (b : UInt8) (r : List Char) : decode (octet b ++ r) = b :: decode r := by
  have hb : b.toNat < 256 := b.toNat_lt
  have hoctet : UInt8.ofNat (16 * (b.toNat / 16) + b.toNat % 16) = b := by
    rw [Nat.div_add_mod, UInt8.ofNat_toNat]
  change decode ('%' :: hexDigit (b.toNat / 16) :: hexDigit (b.toNat % 16) :: r) = _
  rw [decode, hexValue?_hexDigit (by omega), hexValue?_hexDigit (by omega)]
  simp only [hoctet]

theorem decode_octets (l : List UInt8) (r : List Char) :
    decode (l.flatMap octet ++ r) = l ++ decode r := by
  induction l with
  | nil => rfl
  | cons b l ih => rw [List.flatMap_cons, List.append_assoc, decode_octet, ih, List.cons_append]

theorem decode_cons {c : Char} (hc : c ≠ '%') (r : List Char) :
    decode (c :: r) = String.utf8EncodeChar c ++ decode r := by
  rw [decode]
  intro a b s h
  exact absurd h hc

/-- The text that an escaped text stands for. -/
def text (s : List Char) : String := Utf8.decodeLossy (decode s)

/-- A text without the sign of an escape stands for itself. -/
theorem text_of_plain {s : String} (h : '%' ∉ s.toList) : text s.toList = s := by
  have hdecode : ∀ l : List Char, '%' ∉ l → decode l = l.flatMap String.utf8EncodeChar := by
    intro l hl
    induction l with
    | nil => rw [decode, List.flatMap_nil]
    | cons c l ih =>
      rw [List.mem_cons, not_or] at hl
      rw [decode_cons (Ne.symm hl.1), ih hl.2, List.flatMap_cons]
  rw [text, hdecode _ h]
  exact Utf8.decodeLossy_encode s

theorem encode_cons (harmless : Char → Bool) (c : Char) (s : List Char) :
    encode harmless (c :: s) =
      (if harmless c then [c] else (String.utf8EncodeChar c).flatMap octet) ++ encode harmless s :=
  List.flatMap_cons

/-! ## Forms -/

def blankOfPlus (c : Char) : Char := if c == '+' then ' ' else c

/-- The text of a name or a value in a form. -/
def formText (s : List Char) : String := text (s.map blankOfPlus)

/-- The pairs of a form. -/
def decodeForm (s : List Char) : List (String × String) :=
  ((splitWhere (· == '&') s).filter fun p => !p.isEmpty).map fun p =>
    (formText (p.takeWhile (· != '=')), formText ((p.dropWhile (· != '=')).drop 1))

def formChar (c : Char) : List Char := if c == ' ' then ['+'] else encode isFormSafe [c]

theorem toList_encodeForm (s : String) : (encodeForm s).toList = s.toList.flatMap formChar := by
  rw [encodeForm, String.toList_ofList]
  rfl

/-- A sign that cuts a form, stands for a blank in it or begins an escape. -/
def isFormMark (c : Char) : Bool := c == '&' || c == '=' || c == '+' || c == '%'

theorem isFormMark_hexDigit {n : Nat} (h : n < 16) : isFormMark (hexDigit n) = false := by
  revert n
  decide

theorem isFormMark_of_safe {c : Char} (h : isFormSafe c = true) : isFormMark c = false := by
  rw [Bool.eq_false_iff]
  intro hmark
  simp only [isFormMark, Bool.or_eq_true, beq_iff_eq] at hmark
  rcases hmark with ((rfl | rfl) | rfl) | rfl <;> exact absurd h (by decide)

/-- The only marks in an escaped character are the sign of the escape and the one for a blank. -/
theorem formChar_cases (c : Char) :
    c = ' ' ∧ formChar c = ['+'] ∨ isFormMark c = false ∧ formChar c = [c] ∨
      formChar c = (String.utf8EncodeChar c).flatMap octet := by
  by_cases hblank : c = ' '
  · subst hblank
    exact .inl ⟨rfl, rfl⟩
  have hchar : formChar c = encode isFormSafe [c] := by
    rw [formChar, if_neg (by simpa using hblank)]
  rw [hchar, encode, List.flatMap_singleton]
  by_cases hsafe : isFormSafe c = true
  · exact .inr (.inl ⟨isFormMark_of_safe hsafe, by rw [if_pos hsafe]⟩)
  · exact .inr (.inr (by rw [if_neg hsafe]))

theorem mem_octet {b : UInt8} {c : Char} (h : c ∈ octet b) : c = '%' ∨ isFormMark c = false := by
  have hb : b.toNat < 256 := b.toNat_lt
  rw [octet] at h
  simp only [List.mem_cons, List.not_mem_nil, or_false] at h
  rcases h with rfl | rfl | rfl
  · exact .inl rfl
  · exact .inr (isFormMark_hexDigit (by omega))
  · exact .inr (isFormMark_hexDigit (by omega))

theorem mem_formChar {c d : Char} (h : d ∈ formChar c) : d ≠ '&' ∧ d ≠ '=' := by
  have hplain : isFormMark d = false → d ≠ '&' ∧ d ≠ '=' := by
    intro hd
    constructor <;> rintro rfl <;> cases hd
  rcases formChar_cases c with ⟨-, hc⟩ | ⟨hmark, hc⟩ | hc
  · rw [hc, List.mem_singleton] at h
    subst h
    decide
  · rw [hc, List.mem_singleton] at h
    subst h
    exact hplain hmark
  · rw [hc, List.mem_flatMap] at h
    obtain ⟨b, -, hb⟩ := h
    rcases mem_octet hb with rfl | hd
    · decide
    · exact hplain hd

theorem map_blankOfPlus {l : List Char} (h : ∀ c ∈ l, c = '%' ∨ isFormMark c = false) :
    l.map blankOfPlus = l := by
  rw [List.map_congr_left (g := id), List.map_id]
  intro c hc
  rcases h c hc with rfl | hmark
  · rfl
  · rw [blankOfPlus, if_neg]
    · rfl
    · intro hplus
      rw [beq_iff_eq.mp hplus] at hmark
      cases hmark

theorem decode_formChar (c : Char) (r : List Char) :
    decode ((formChar c).map blankOfPlus ++ r) = String.utf8EncodeChar c ++ decode r := by
  rcases formChar_cases c with ⟨rfl, hc⟩ | ⟨hmark, hc⟩ | hc
  · rw [hc]
    exact decode_cons (by decide) r
  · have hne : c ≠ '%' := by
      rintro rfl
      cases hmark
    rw [hc, map_blankOfPlus (by simpa using .inr hmark)]
    exact decode_cons hne r
  · rw [hc, map_blankOfPlus, decode_octets]
    intro d hd
    obtain ⟨b, -, hb⟩ := List.mem_flatMap.mp hd
    exact mem_octet hb

/-- What was escaped for a form is read as it was. -/
theorem formText_encodeForm (s : String) : formText (encodeForm s).toList = s := by
  have hdecode : ∀ l : List Char,
      decode ((l.flatMap formChar).map blankOfPlus) = l.flatMap String.utf8EncodeChar := by
    intro l
    induction l with
    | nil => rw [List.flatMap_nil, List.map_nil, decode, List.flatMap_nil]
    | cons c l ih =>
      rw [List.flatMap_cons, List.map_append, decode_formChar, ih, List.flatMap_cons]
  rw [formText, text, toList_encodeForm]
  change Utf8.decodeLossy (decode ((s.toList.flatMap formChar).map blankOfPlus)) = s
  rw [hdecode]
  exact Utf8.decodeLossy_encode s

/-- A form without a second pair is read as one, cut where the first sign for it stands. -/
theorem decodeForm_of_unmarked {name value : List Char} (hname : ∀ d ∈ name, d ≠ '&' ∧ d ≠ '=')
    (hvalue : ∀ d ∈ value, d ≠ '&') :
    decodeForm (name ++ '=' :: value) = [(formText name, formText value)] := by
  have hsplit : splitWhere (· == '&') (name ++ '=' :: value) = [name ++ '=' :: value] := by
    apply splitWhere_of_forall
    intro d hd
    rw [beq_eq_false_iff_ne]
    rcases List.mem_append.mp hd with hd | hd
    · exact (hname d hd).1
    · rcases List.mem_cons.mp hd with rfl | hd
      · decide
      · exact hvalue d hd
  have hfront : ∀ d ∈ name, (d != '=') = true := fun d hd => by
    simpa using (hname d hd).2
  rw [decodeForm, hsplit, List.filter_cons_of_pos (by simp), List.filter_nil, List.map_singleton,
    List.takeWhile_append_of_pos hfront, List.dropWhile_append_of_pos hfront]
  simp only [List.takeWhile_cons, List.dropWhile_cons, bne_self_eq_false, Bool.false_eq_true,
    if_false, List.append_nil, List.drop_succ_cons, List.drop_zero]

/-- A form of one pair is read as this pair. -/
theorem decodeForm_pair (name value : String) :
    decodeForm (encodeForm name ++ "=" ++ encodeForm value).toList = [(name, value)] := by
  have hmarks : ∀ t : String, ∀ d ∈ (encodeForm t).toList, d ≠ '&' ∧ d ≠ '=' := by
    intro t d hd
    rw [toList_encodeForm, List.mem_flatMap] at hd
    obtain ⟨c, -, hc⟩ := hd
    exact mem_formChar hc
  have hlist : (encodeForm name ++ "=" ++ encodeForm value).toList =
      (encodeForm name).toList ++ '=' :: (encodeForm value).toList := by
    simp
  rw [hlist, decodeForm_of_unmarked (hmarks name) fun d hd => (hmarks value d hd).1,
    formText_encodeForm, formText_encodeForm]

/-! ## Names -/

theorem isFormMark_of_unreserved {c : Char} (h : isUnreserved c = true) : isFormMark c = false := by
  rw [Bool.eq_false_iff]
  intro hmark
  simp only [isFormMark, Bool.or_eq_true, beq_iff_eq] at hmark
  rcases hmark with ((rfl | rfl) | rfl) | rfl <;> exact absurd h (by decide)

theorem toNat_of_unreserved {c : Char} (h : isUnreserved c = true) :
    (45 ≤ c.toNat ∧ c.toNat ≤ 57 ∧ c.toNat ≠ 47) ∨ (65 ≤ c.toNat ∧ c.toNat ≤ 90) ∨
      c.toNat = 95 ∨ (97 ≤ c.toNat ∧ c.toNat ≤ 122) ∨ c.toNat = 126 := by
  rw [isUnreserved] at h
  delta Char.isAlphanum Char.isAlpha Char.isUpper Char.isLower Char.isDigit at h
  simp only [Bool.or_eq_true, Bool.and_eq_true, decide_eq_true_eq, beq_iff_eq, ge_iff_le,
    UInt32.le_iff_toNat_le, Char.reduceVal, UInt32.reduceToNat] at h
  have hval : c.toNat = c.val.toNat := rfl
  rcases h with ((((h | h) | rfl) | rfl) | rfl) | rfl
  · omega
  · omega
  all_goals decide

theorem toList_encodeName (s : String) : (encodeName s).toList = encode isUnreserved s.toList := by
  rw [encodeName, String.toList_ofList]

theorem size_of_unreserved {c : Char} (h : isUnreserved c = true) : c.utf8Size = 1 := by
  have hc := toNat_of_unreserved h
  rw [Char.utf8Size_eq_one_iff, UInt32.le_iff_toNat_le]
  change c.toNat ≤ 127
  omega

/-- A text of characters that need no escape, and of escapes. -/
inductive IsEscaped : List Char → Prop
  | nil : IsEscaped []
  | plain {c : Char} {r : List Char} (hc : isUnreserved c = true) (h : IsEscaped r) :
      IsEscaped (c :: r)
  | octet {m n : Nat} {r : List Char} (hm : m < 16) (hn : n < 16) (h : IsEscaped r) :
      IsEscaped ('%' :: hexDigit m :: hexDigit n :: r)

theorem IsEscaped.octets (l : List UInt8) {r : List Char} (h : IsEscaped r) :
    IsEscaped (l.flatMap Percent.octet ++ r) := by
  induction l with
  | nil => exact h
  | cons b l ih =>
    have hb : b.toNat < 256 := b.toNat_lt
    rw [List.flatMap_cons, List.append_assoc]
    exact ih.octet (by omega) (by omega)

/-- A character of an escaped text is the sign of an escape, a digit of it, or needs none. -/
theorem IsEscaped.mem {s : List Char} (h : IsEscaped s) {d : Char} (hd : d ∈ s) :
    d = '%' ∨ (∃ n < 16, d = hexDigit n) ∨ isUnreserved d = true := by
  induction h with
  | nil => cases hd
  | plain hc _ ih =>
    rcases List.mem_cons.mp hd with rfl | hd
    · exact .inr (.inr hc)
    · exact ih hd
  | octet hm hn _ ih =>
    simp only [List.mem_cons] at hd
    rcases hd with rfl | rfl | rfl | hd
    · exact .inl rfl
    · exact .inr (.inl ⟨_, hm, rfl⟩)
    · exact .inr (.inl ⟨_, hn, rfl⟩)
    · exact ih hd

theorem IsEscaped.size_eq_one {s : List Char} (h : IsEscaped s) {d : Char} (hd : d ∈ s) :
    d.utf8Size = 1 := by
  have hdigits : ∀ n < 16, (hexDigit n).utf8Size = 1 := by decide
  rcases h.mem hd with rfl | ⟨n, hn, rfl⟩ | hd
  · rfl
  · exact hdigits n hn
  · exact size_of_unreserved hd

theorem isEscaped_encodeName (s : String) : IsEscaped (encodeName s).toList := by
  rw [toList_encodeName]
  induction s.toList with
  | nil => exact .nil
  | cons c l ih =>
    rw [encode_cons]
    split
    next hc => exact ih.plain hc
    next => exact ih.octets _

theorem isFormMark_of_mem_encodeName {s : String} {d : Char} (h : d ∈ (encodeName s).toList) :
    d = '%' ∨ isFormMark d = false := by
  rcases (isEscaped_encodeName s).mem h with rfl | ⟨n, hn, rfl⟩ | hd
  · exact .inl rfl
  · exact .inr (isFormMark_hexDigit hn)
  · exact .inr (isFormMark_of_unreserved hd)

/-- Who reads the escapes of a name has the octets of the name. -/
theorem decode_encodeName (s : String) : decode (encodeName s).toList = Utf8.encode s := by
  rw [toList_encodeName, Utf8.encode]
  induction s.toList with
  | nil => rw [encode, List.flatMap_nil, decode, List.flatMap_nil]
  | cons c l ih =>
    rw [encode_cons, List.flatMap_cons, ← ih]
    split
    next hc =>
      have hne : c ≠ '%' := by
        rintro rfl
        cases hc
      rw [List.singleton_append, decode_cons hne]
    next => rw [decode_octets]

/-- A name that was escaped for a query is read as it was. -/
theorem formText_encodeName (s : String) : formText (encodeName s).toList = s := by
  rw [formText, map_blankOfPlus fun d hd => isFormMark_of_mem_encodeName hd, text,
    decode_encodeName, Utf8.decodeLossy_encode]

/-- Different names are written differently. -/
theorem encodeName_injective : Function.Injective encodeName := by
  intro s t h
  rw [← formText_encodeName s, ← formText_encodeName t, h]

/-! ## Lengths -/

theorem length_octets (l : List UInt8) : (l.flatMap octet).length = 3 * l.length := by
  induction l with
  | nil => rfl
  | cons b l ih =>
    rw [List.flatMap_cons, List.length_append, ih, List.length_cons, octet]
    simp only [List.length_cons, List.length_nil]
    omega

/-- An escaped text has an octet for each character. -/
theorem IsEscaped.length {s : List Char} (h : IsEscaped s) :
    (s.flatMap String.utf8EncodeChar).length = s.length := by
  have hone : ∀ d ∈ s, (String.utf8EncodeChar d).length = 1 := fun d hd => by
    rw [String.length_utf8EncodeChar, h.size_eq_one hd]
  rw [List.length_flatMap, List.map_congr_left hone, List.map_const', List.sum_replicate_nat,
    Nat.mul_one]

/-- An escape takes three characters for one octet. -/
theorem length_encodeName (s : String) :
    (Utf8.encode s).length ≤ (encodeName s).toList.length ∧
      (encodeName s).toList.length ≤ 3 * (Utf8.encode s).length := by
  rw [toList_encodeName, Utf8.encode]
  induction s.toList with
  | nil => exact ⟨Nat.le_refl _, Nat.le_refl _⟩
  | cons c l ih =>
    rw [encode_cons, List.flatMap_cons, List.length_append, List.length_append]
    split
    next hc =>
      have hone : (String.utf8EncodeChar c).length = 1 := by
        rw [String.length_utf8EncodeChar, size_of_unreserved hc]
      rw [hone, List.length_singleton]
      omega
    next =>
      rw [length_octets]
      omega

end HostAgent.Text.Percent
