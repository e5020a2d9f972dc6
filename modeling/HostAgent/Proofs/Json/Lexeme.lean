import HostAgent.Json.Printer
import HostAgent.Json.Reader
import HostAgent.Proofs.Text.Digits

namespace HostAgent.Json

/-!
# Numbers and strings read back

Each printed integer, and each string however its characters are escaped, is read as the lexeme of
its value, whatever follows it: an integer ends where no further digit, point or exponent stands, a
string at its own quote.
-/

/-! ## Strings -/

theorem readCharacters_plain {c : Char} (hquote : c ≠ '"') (hslash : c ≠ '\\')
    (hcontrol : ¬ c.toNat < 0x20) (r : Input) :
    readCharacters (some c :: r) = .push c (readCharacters r) := by
  rw [readCharacters.eq_8 c r hquote (fun _ _ _ _ _ _ h => hslash h) (fun _ _ h => hslash h)
    (fun _ h => hslash h) (fun _ _ _ h => hslash h), if_neg hcontrol]

theorem readCharacters_letter {e c : Char} (h : escaped? (some e) = some c) (r : Input) :
    readCharacters (some '\\' :: some e :: r) = .push c (readCharacters r) := by
  have hne : some e ≠ some 'u' := by
    rintro ⟨⟩
    cases h
  rw [readCharacters.eq_6 (some e) r (fun _ _ _ _ _ h => absurd h hne) hne, h]

/-- No character is a surrogate. -/
theorem not_surrogate (c : Char) : isTrail c.toNat = false ∧ isLead c.toNat = false := by
  have hvalid : c.toNat < 0xD800 ∨ 0xDFFF < c.toNat := by
    rcases c.valid with h | ⟨h, -⟩
    · exact .inl h
    · exact .inr h
  simp only [isTrail, isLead, Bool.and_eq_false_iff, decide_eq_false_iff_not]
  omega

theorem readCharacters_code {c w x y z : Char}
    (h : hexFour? (some w) (some x) (some y) (some z) = some c.toNat) (r : Input) :
    readCharacters (some '\\' :: some 'u' :: some w :: some x :: some y :: some z :: r) =
      .push c (readCharacters r) := by
  obtain ⟨htrail, hlead⟩ := not_surrogate c
  rw [readCharacters.eq_3, h]
  simp only [htrail, hlead, Bool.false_eq_true, if_false, Char.ofNat_toNat]

theorem not_isTrail_of_isLead {n : Nat} (h : isLead n = true) : isTrail n = false := by
  simp only [isLead, isTrail, Bool.and_eq_true, decide_eq_true_eq, Bool.and_eq_false_iff,
    decide_eq_false_iff_not] at h ⊢
  omega

/-- A text spells a character within a string: the character itself, if it may stand there, or an
escape of it. A character beyond the first plane is escaped as two surrogates. -/
inductive SpellsChar : Char → List Char → Prop
  | plain {c} (hquote : c ≠ '"') (hslash : c ≠ '\\') (hcontrol : ¬ c.toNat < 0x20) :
      SpellsChar c [c]
  | letter {c e} (h : escaped? (some e) = some c) : SpellsChar c ['\\', e]
  | code {c w x y z} (h : hexFour? (some w) (some x) (some y) (some z) = some c.toNat) :
      SpellsChar c ['\\', 'u', w, x, y, z]
  | pair {w x y z w' x' y' z' n m}
      (hn : hexFour? (some w) (some x) (some y) (some z) = some n) (hlead : isLead n = true)
      (hm : hexFour? (some w') (some x') (some y') (some z') = some m) (htrail : isTrail m = true) :
      SpellsChar (ofSurrogates n m) ['\\', 'u', w, x, y, z, '\\', 'u', w', x', y', z']

/-- A text spells characters, one after the other. -/
inductive SpellsChars : List Char → List Char → Prop
  | nil : SpellsChars [] []
  | cons {c l t u} (h : SpellsChar c t) (hl : SpellsChars l u) : SpellsChars (c :: l) (t ++ u)

theorem readCharacters_spelled {c : Char} {t : List Char} (h : SpellsChar c t) (r : Input) :
    readCharacters (t.map some ++ r) = .push c (readCharacters r) := by
  cases h with
  | plain hquote hslash hcontrol => exact readCharacters_plain hquote hslash hcontrol r
  | letter h => exact readCharacters_letter h r
  | code h => exact readCharacters_code h r
  | pair hn hlead hm htrail =>
    simp only [List.map_cons, List.map_nil, List.cons_append, List.nil_append]
    rw [readCharacters.eq_3, hn]
    simp only [not_isTrail_of_isLead hlead, hlead, hm, htrail, Bool.false_eq_true, if_false,
      if_true]

theorem readCharacters_spelled_all {l t : List Char} (h : SpellsChars l t) (r : Input) :
    readCharacters (t.map some ++ some '"' :: r) = (.ok l, some r) := by
  induction h with
  | nil => rfl
  | cons h hl ih =>
    rw [List.map_append, List.append_assoc, readCharacters_spelled h, ih]
    rfl

/-- A spelled string is its quote and the rest that a reader of strings begins with. -/
theorem readString_spelled {s : String} {t : List Char} (h : SpellsChars s.toList t) (r : Input) :
    readString (t.map some ++ some '"' :: r) = (.ok s, some r) := by
  rw [readString, readCharacters_spelled_all h]
  simp [Lexeme.ok, Except.map]

/-! ### Printed strings -/

theorem hexDigit?_lowerHexDigit {n : Nat} (h : n < 16) :
    hexDigit? (some (lowerHexDigit n)) = some n := by
  have hall : ∀ n < 16, hexDigit? (some (lowerHexDigit n)) = some n := by decide
  exact hall n h

theorem hexFour?_control {n : Nat} (h : n < 0x20) :
    hexFour? (some '0') (some '0') (some (lowerHexDigit (n / 16)))
      (some (lowerHexDigit (n % 16))) = some n := by
  have h₀ : hexDigit? (some '0') = some 0 := rfl
  have h₁ := hexDigit?_lowerHexDigit (n := n / 16) (by omega)
  have h₂ := hexDigit?_lowerHexDigit (n := n % 16) (by omega)
  simp only [hexFour?, h₀, h₁, h₂, bind, Option.bind, pure]
  congr 1
  omega

theorem spells_escapeChar (c : Char) : SpellsChar c (escapeChar c) := by
  unfold escapeChar
  split
  next hquote =>
    subst hquote
    exact .letter rfl
  split
  next hslash =>
    subst hslash
    exact .letter rfl
  split
  next hb =>
    subst hb
    exact .letter rfl
  split
  next ht =>
    subst ht
    exact .letter rfl
  split
  next hn =>
    subst hn
    exact .letter rfl
  split
  next hf =>
    subst hf
    exact .letter rfl
  split
  next hr =>
    subst hr
    exact .letter rfl
  split
  next hcontrol => exact .code (hexFour?_control hcontrol)
  next hcontrol => exact .plain ‹_› ‹_› hcontrol

theorem spells_escaped (l : List Char) : SpellsChars l (l.flatMap escapeChar) := by
  induction l with
  | nil => exact .nil
  | cons c l ih => exact .cons (spells_escapeChar c) ih

/-! ## Integers -/

theorem digit?_of_isDigit {c : Char} (h : c.isDigit) : digit? (some c) = some (c.toNat - 48) := by
  simp only [Char.isDigit, Bool.and_eq_true, decide_eq_true_eq] at h
  rw [digit?, if_pos ⟨h.1, h.2⟩]

theorem isDigit_of_digit? {c : Option Char} {d : Nat} (h : digit? c = some d) :
    ∃ e, c = some e ∧ e.isDigit := by
  cases c with
  | none => cases h
  | some e =>
    rw [digit?] at h
    split at h
    next hrange =>
      refine ⟨e, rfl, ?_⟩
      simp only [Char.isDigit, Bool.and_eq_true, decide_eq_true_eq]
      exact ⟨hrange.1, hrange.2⟩
    next => cases h

/-- Whether a number that stands in front of this input ends there. -/
def EndsNumber (r : Input) : Prop :=
  ∀ c ∈ r.head?, digit? c = none ∧ c ≠ some '.' ∧ c ≠ some 'e' ∧ c ≠ some 'E'

theorem takeDigits_append {ds : List Char} (hds : ∀ c ∈ ds, c.isDigit) {r : Input}
    (hr : EndsNumber r) :
    takeDigits (ds.map some ++ r) = (ds.map (fun c => c.toNat - 48), r) := by
  induction ds with
  | nil =>
    cases r with
    | nil => rfl
    | cons c r =>
      have hc : digit? c = none := (hr c rfl).1
      simp [takeDigits, hc]
  | cons c ds ih =>
    have hc := digit?_of_isDigit (hds c List.mem_cons_self)
    have htail := ih fun d hd => hds d (List.mem_cons_of_mem _ hd)
    simp [takeDigits, hc, htail]

theorem appendDigits_of_le {ds : List Char} {s : Nat}
    (h : Nat.ofDigitChars 10 ds s ≤ maxSignificand) :
    appendDigits (ds.map fun c => c.toNat - 48) s = (Nat.ofDigitChars 10 ds s, 0) := by
  induction ds generalizing s with
  | nil => rfl
  | cons c ds ih =>
    rw [Text.ofDigitChars_cons_eq] at h ⊢
    have hle : s * 10 + (c.toNat - 48) ≤ maxSignificand :=
      Nat.le_trans (Text.le_ofDigitChars ds _) h
    rw [List.map_cons, appendDigits, if_pos hle, ih h]

theorem readExponentPart_of_ends (n : Numeral) {r : Input} (hr : EndsNumber r) :
    readExponentPart n r = (⟨n.value, none⟩, some r) := by
  unfold readExponentPart
  split
  · exact absurd rfl (hr _ rfl).2.2.1
  · exact absurd rfl (hr _ rfl).2.2.2
  · rfl

theorem readFractionPart_of_ends (n : Numeral) {r : Input} (hr : EndsNumber r) :
    readFractionPart n r = (⟨n.value, none⟩, some r) := by
  unfold readFractionPart
  split
  · exact absurd rfl (hr _ rfl).2.1
  · exact readExponentPart_of_ends n hr

theorem readNumber_toDigits (n : Nat) (negative : Bool) {r : Input} (hr : EndsNumber r) :
    readNumber negative ((Nat.toDigits 10 n).map some ++ r) =
      (⟨(⟨negative, (Nat.toDigits 10 n).map (fun c => c.toNat - 48), none, none⟩ : Numeral).value,
        none⟩, some r) := by
  rw [readNumber, takeDigits_append (fun c hc => Text.isDigit_of_mem_toDigits hc) hr]
  split
  next heq =>
    have hnil := congrArg Prod.fst heq
    simp at hnil
  next heq =>
    have hzero := congrArg Prod.fst heq
    rcases Nat.eq_zero_or_pos n with rfl | hpos
    · simp at hzero
    · obtain ⟨c, ds, hds, hc⟩ := Text.toDigits_leading hpos
      simp only [hds, List.map_cons, List.cons.injEq] at hzero
      omega
  next heq =>
    obtain ⟨rfl, rfl⟩ := Prod.mk.inj heq
    exact readFractionPart_of_ends _ hr

/-- The integers that a text keeps: those of sixty-four bits, with a sign or without. -/
def IsWord (i : Int) : Prop := -9223372036854775808 ≤ i ∧ i ≤ 18446744073709551615

instance (i : Int) : Decidable (IsWord i) := inferInstanceAs (Decidable (_ ∧ _))

theorem value_toDigits {n : Nat} (h : n ≤ maxSignificand) (negative : Bool) :
    (⟨negative, (Nat.toDigits 10 n).map (fun c => c.toNat - 48), none, none⟩ : Numeral).value =
      if negative = false then .ok (.integer n)
      else if n = 0 ∨ 9223372036854775808 < n then .ok (.float (Decimal.Binary64.ofNat n).neg)
      else .ok (.integer (-(n : Int))) := by
  have hdigits : appendDigits ((Nat.toDigits 10 n).map fun c => c.toNat - 48) 0 = (n, 0) := by
    rw [appendDigits_of_le (by rwa [Nat.ofDigitChars_ten_toDigits]), Nat.ofDigitChars_ten_toDigits]
  simp only [Numeral.value, hdigits, ne_eq, not_true_eq_false, if_false]

/-- The numeral that an integer is printed as. -/
def numeral : Int → Numeral
  | .ofNat n => ⟨false, (Nat.toDigits 10 n).map fun c => c.toNat - 48, none, none⟩
  | .negSucc n => ⟨true, (Nat.toDigits 10 (n + 1)).map fun c => c.toNat - 48, none, none⟩

/-- What a printed integer is read as. It is the integer if it has sixty-four bits, a floating point
number near it if there is one, and out of range otherwise. -/
def integerLexeme (i : Int) : Lexeme Number := ⟨(numeral i).value, none⟩

theorem integerLexeme_of_isWord {i : Int} (hi : IsWord i) :
    integerLexeme i = .ok (.integer i) := by
  obtain ⟨hlow, hhigh⟩ := hi
  cases i with
  | ofNat n =>
    rw [integerLexeme, numeral, value_toDigits (Int.ofNat_le.mp hhigh), if_pos rfl]
    rfl
  | negSucc n =>
    rw [integerLexeme, numeral, value_toDigits (by simp only [maxSignificand]; omega),
      if_neg (by decide), if_neg (by omega)]
    rfl

theorem readScalar_of_isDigit {c : Char} (hc : c.isDigit) (r : Input) :
    readScalar (some c :: r) =
      (.number (readNumber false (some c :: r)).1, (readNumber false (some c :: r)).2) := by
  unfold readScalar
  split <;> rename_i heq <;> cases heq
  case h_7 => rw [digit?_of_isDigit hc]
  all_goals exact absurd hc (by decide)

/-- A printed integer is read wherever no number goes on after it. -/
theorem readScalar_printInteger (i : Int) {r : Input} (hr : EndsNumber r) :
    readScalar ((printInteger i).map some ++ r) = (.number (integerLexeme i), some r) := by
  cases i with
  | ofNat n =>
    have hread := readNumber_toDigits n false hr
    rw [printInteger]
    cases hds : Nat.toDigits 10 n with
    | nil => exact absurd hds Nat.toDigits_ne_nil
    | cons c ds =>
      have hc : c.isDigit := Text.isDigit_of_mem_toDigits (hds ▸ List.mem_cons_self)
      rw [hds, List.map_cons, List.cons_append] at hread
      rw [List.map_cons, List.cons_append, readScalar_of_isDigit hc, hread, integerLexeme, numeral,
        hds, List.map_cons]
  | negSucc n =>
    rw [printInteger, List.map_cons, List.cons_append, readScalar, readNumber_toDigits _ _ hr]
    rfl

/-! ## Floating point numbers

A text that is read to its end as a number is read in the same way wherever no number goes on after
it.
-/

/-- A text is one number, and is read as this floating point number. -/
def SpellsFloat (x : Decimal.Binary64) (t : List Char) : Prop :=
  readScalar (t.map some) = (.number (.ok (.float x)), some [])

section Local

variable {s r rest : Input} {ds : List Nat} {l : Lexeme Number} {n : Numeral}

theorem takeDigits_local (h : takeDigits s = (ds, rest)) (hr : EndsNumber r) :
    takeDigits (s ++ r) = (ds, rest ++ r) := by
  induction s generalizing ds with
  | nil =>
    obtain ⟨rfl, rfl⟩ := Prod.mk.inj h
    have hnone : ∀ c ∈ ([] : List Char), c.isDigit := nofun
    exact takeDigits_append hnone hr
  | cons c s ih =>
    cases hd : digit? c with
    | some d =>
      simp only [takeDigits, hd] at h
      obtain ⟨rfl, rfl⟩ := Prod.mk.inj h
      simp only [List.cons_append, takeDigits, hd, ih rfl]
    | none =>
      simp only [takeDigits, hd] at h
      obtain ⟨rfl, rfl⟩ := Prod.mk.inj h
      simp only [List.cons_append, takeDigits, hd]

/-- The digits of an exponent, after its sign. -/
def exponentDigits (n : Numeral) (negative : Bool) (r : Input) : Lexeme Number × Option Input :=
  match takeDigits r with
  | ([], rest) => (missingDigit rest, none)
  | (ds, rest) => (⟨({ n with exponent := some (negative, ds) } : Numeral).value, none⟩, some rest)

theorem readExponent_unsigned {c : Option Char} (hplus : c ≠ some '+') (hminus : c ≠ some '-')
    (n : Numeral) (r : Input) : readExponent n (c :: r) = exponentDigits n false (c :: r) := by
  unfold readExponent
  split
  next heq =>
    split at heq
    next hc => exact absurd (List.cons.inj hc).1 hplus
    next hc => exact absurd (List.cons.inj hc).1 hminus
    next =>
      cases heq
      rfl

theorem exponentDigits_local (negative : Bool) (h : exponentDigits n negative s = (l, some []))
    (hr : EndsNumber r) : exponentDigits n negative (s ++ r) = (l, some r) := by
  obtain ⟨ds, rest, hs⟩ : ∃ ds rest, takeDigits s = (ds, rest) := ⟨_, _, rfl⟩
  rw [exponentDigits, hs] at h
  rw [exponentDigits, takeDigits_local hs hr]
  cases ds with
  | nil => cases h
  | cons d ds =>
    cases h
    rfl

theorem readExponent_local (h : readExponent n s = (l, some [])) (hr : EndsNumber r) :
    readExponent n (s ++ r) = (l, some r) := by
  cases s with
  | nil => cases h
  | cons c s =>
    by_cases hplus : c = some '+'
    · subst hplus
      exact exponentDigits_local false h hr
    by_cases hminus : c = some '-'
    · subst hminus
      exact exponentDigits_local true h hr
    rw [readExponent_unsigned hplus hminus] at h
    rw [List.cons_append, readExponent_unsigned hplus hminus]
    exact exponentDigits_local false h hr

theorem readExponentPart_local (h : readExponentPart n s = (l, some [])) (hr : EndsNumber r) :
    readExponentPart n (s ++ r) = (l, some r) := by
  unfold readExponentPart at h
  split at h
  · exact readExponent_local h hr
  · exact readExponent_local h hr
  · cases h
    exact readExponentPart_of_ends n hr

theorem readFractionPart_local (h : readFractionPart n s = (l, some [])) (hr : EndsNumber r) :
    readFractionPart n (s ++ r) = (l, some r) := by
  unfold readFractionPart at h
  split at h
  next s =>
    obtain ⟨ds, rest, hs⟩ : ∃ ds rest, takeDigits s = (ds, rest) := ⟨_, _, rfl⟩
    rw [hs] at h
    rw [List.cons_append, readFractionPart, takeDigits_local hs hr]
    cases ds with
    | nil => cases h
    | cons d ds => exact readExponentPart_local h hr
  next hpoint =>
    cases s with
    | nil =>
      cases h
      exact readFractionPart_of_ends n hr
    | cons c s =>
      have hexponent : readFractionPart n (c :: s ++ r) = readExponentPart n (c :: s ++ r) := by
        unfold readFractionPart
        split
        next heq => exact absurd (congrArg (· :: s) (List.cons.inj heq).1) (hpoint s)
        next => rfl
      rw [hexponent]
      exact readExponentPart_local h hr

theorem readNumber_local {negative : Bool} (h : readNumber negative s = (l, some []))
    (hr : EndsNumber r) : readNumber negative (s ++ r) = (l, some r) := by
  obtain ⟨ds, rest, hs⟩ : ∃ ds rest, takeDigits s = (ds, rest) := ⟨_, _, rfl⟩
  rw [readNumber, hs] at h
  rw [readNumber, takeDigits_local hs hr]
  match ds with
  | [] => cases h
  | 0 :: _ :: _ => cases h
  | [0] => exact readFractionPart_local h hr
  | (_ + 1) :: _ => exact readFractionPart_local h hr

theorem readWord_ne_number (w : List Char) {d : Doc} (hd : ∀ l, d ≠ .number l) (s : Input)
    (l : Lexeme Number) (rest : Option Input) : readWord w d s ≠ (.number l, rest) := by
  induction w generalizing s with
  | nil =>
    rw [readWord]
    rintro ⟨⟩
    exact hd l rfl
  | cons c w ih =>
    cases s with
    | nil => nofun
    | cons e s =>
      rw [readWord]
      split
      · exact ih s
      · nofun

/-- What is read as a number to its end begins as a number does, and is read in the same way before
all that ends a number. -/
theorem readScalar_local (h : readScalar s = (.number l, some [])) :
    (∃ c, s.head? = some (some c) ∧ (c = '-' ∨ c.isDigit)) ∧
      ∀ r, EndsNumber r → readScalar (s ++ r) = (.number l, some r) := by
  unfold readScalar at h
  split at h
  · cases h
  · exact (readWord_ne_number _ (by rintro _ ⟨⟩) _ _ _ h).elim
  · exact (readWord_ne_number _ (by rintro _ ⟨⟩) _ _ _ h).elim
  · exact (readWord_ne_number _ (by rintro _ ⟨⟩) _ _ _ h).elim
  · cases h
  next s =>
    obtain ⟨l', rest, hs⟩ : ∃ l rest, readNumber true s = (l, rest) := ⟨_, _, rfl⟩
    rw [hs] at h
    cases h
    refine ⟨⟨'-', rfl, .inl rfl⟩, fun r hr => ?_⟩
    rw [List.cons_append, readScalar, readNumber_local hs hr]
  next c s _ _ _ _ _ =>
    split at h
    next d hd =>
      obtain ⟨c, rfl, hc⟩ := isDigit_of_digit? hd
      obtain ⟨l', rest, hs⟩ : ∃ l rest, readNumber false (some c :: s) = (l, rest) := ⟨_, _, rfl⟩
      rw [hs] at h
      cases h
      refine ⟨⟨c, rfl, .inr hc⟩, fun r hr => ?_⟩
      rw [List.cons_append, readScalar_of_isDigit hc, ← List.cons_append, readNumber_local hs hr]
    next => cases h

end Local

end HostAgent.Json
