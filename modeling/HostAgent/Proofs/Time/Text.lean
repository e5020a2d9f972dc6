import HostAgent.Proofs.Text.Digits
import HostAgent.Time.Reader
import Mathlib.Tactic.SplitIfs

namespace HostAgent.Time

/-!
# Printed moments read back

Every moment is read back from its text, to the nanosecond, in years of any number of digits and in
leap seconds. Each part of the text is scanned as the number that it was printed from, whatever
follows it.
-/

open Text

theorem isBlank_of_isDigit {c : Char} (h : c.isDigit) : isBlank c = false := by
  simp only [Char.isDigit, Bool.and_eq_true, decide_eq_true_eq, UInt32.le_iff_toNat_le] at h
  have hlow : 48 ≤ c.toNat := h.1
  have hhigh : c.toNat ≤ 57 := h.2
  simp only [isBlank, Bool.or_eq_false_iff, Bool.and_eq_false_iff, decide_eq_false_iff_not,
    beq_eq_false_iff_ne]
  omega

theorem skipBlanks_cons {c : Char} (h : isBlank c = false) (r : List Char) :
    skipBlanks (c :: r) = c :: r := by
  simp [skipBlanks, h]

theorem skipBlanks_digits {ds : List Char} (hds : ∀ c ∈ ds, c.isDigit) (hne : ds ≠ [])
    (r : List Char) : skipBlanks (ds ++ r) = ds ++ r := by
  cases ds with
  | nil => exact absurd rfl hne
  | cons c ds =>
    rw [List.cons_append, skipBlanks_cons (isBlank_of_isDigit (hds c List.mem_cons_self))]

/-! ## Numbers -/

/-- Whether a scan of digits of bounded width ends after some digits. -/
def StopsAt (width : Nat) (ds r : List Char) : Prop :=
  ds.length = width ∨ ds.length ≤ width ∧ ∀ c ∈ r.head?, isDigit c = false

theorem digitsFrom_append {ds : List Char} (hds : ∀ c ∈ ds, c.isDigit) {w n : Nat} {r : List Char}
    (hstop : StopsAt w ds r) (hmax : Nat.ofDigitChars 10 ds n ≤ maxNumber) :
    digitsFrom w n (ds ++ r) = .ok (Nat.ofDigitChars 10 ds n, r) := by
  induction ds generalizing w n with
  | nil =>
    cases w with
    | zero => rfl
    | succ w =>
      rcases hstop with hlen | ⟨-, hhead⟩
      · simp at hlen
      · cases r with
        | nil => rfl
        | cons c r => simp [digitsFrom, hhead c rfl]
  | cons c ds ih =>
    have hc : isDigit c = true := hds c List.mem_cons_self
    obtain ⟨w, rfl⟩ : ∃ v, w = v + 1 := by
      rcases hstop with hlen | ⟨hlen, -⟩
      · exact ⟨ds.length, hlen.symm⟩
      · exact ⟨w - 1, by simp at hlen; omega⟩
    have hstop' : StopsAt w ds r := by
      rcases hstop with hlen | ⟨hlen, hhead⟩
      · exact .inl (by simpa using hlen)
      · exact .inr ⟨by simpa using hlen, hhead⟩
    rw [ofDigitChars_cons_eq] at hmax ⊢
    have hle := Nat.le_trans (le_ofDigitChars ds _) hmax
    rw [List.cons_append, digitsFrom, if_pos hc, digitValue, if_neg (by omega)]
    exact ih (fun d hd => hds d (List.mem_cons_of_mem _ hd)) hstop' hmax

theorem scanNumber_padded {width w n : Nat} {r : List Char}
    (hstop : StopsAt width (Span.padded w n) r) (hmax : n ≤ maxNumber) :
    scanNumber width (Span.padded w n ++ r) = .ok (n, r) := by
  have hscan := digitsFrom_append (n := 0) (fun c hc => isDigit_of_mem_padded hc) hstop
    (by rwa [ofDigitChars_padded])
  rw [ofDigitChars_padded] at hscan
  cases hds : Span.padded w n with
  | nil => exact absurd hds (padded_ne_nil w n)
  | cons c ds =>
    have hc : isDigit c = true := isDigit_of_mem_padded (hds ▸ List.mem_cons_self)
    rw [hds] at hscan
    rw [List.cons_append, scanNumber, if_pos hc]
    exact hscan

theorem skipBlanks_padded (w n : Nat) (r : List Char) :
    skipBlanks (Span.padded w n ++ r) = Span.padded w n ++ r :=
  skipBlanks_digits (fun _ hc => isDigit_of_mem_padded hc) (padded_ne_nil w n) r

theorem scanField_padded {low high n : Nat} (hlow : low ≤ n) (hhigh : n ≤ high) (hn : n < 100)
    (r : List Char) : scanField low high (Span.padded 2 n ++ r) = .ok (n, r) := by
  have hstop : StopsAt 2 (Span.padded 2 n) r := .inl (length_padded (by decide) hn)
  have hscan := scanNumber_padded hstop (by simp only [maxNumber]; omega)
  simp [scanField, skipBlanks_padded, hscan, hlow, hhigh, bind, Except.bind, pure, Except.pure]

theorem scanMark_cons {c : Char} (h : isBlank c = false) (r : List Char) :
    scanMark c (c :: r) = .ok ((), r) := by
  simp [scanMark, skipBlanks_cons h]

/-! ## Parts of a moment -/

theorem scanNumber_year (n : Nat) (hn : n ≤ 1000000) (r : List Char) :
    scanNumber (Span.padded 4 n ++ '-' :: r).length (Span.padded 4 n ++ '-' :: r) =
      .ok (n, '-' :: r) := by
  refine scanNumber_padded (.inr ⟨by simp, ?_⟩) (by simp only [maxNumber]; omega)
  rintro c ⟨⟩
  rfl

theorem scanYear_yearText {y : Int} (hlow : minYear ≤ y) (hhigh : y ≤ maxYear) (r : List Char) :
    scanYear (Timestamp.yearText y ++ '-' :: r) = .ok (y, '-' :: r) := by
  simp only [minYear, maxYear] at hlow hhigh
  have hscan := scanNumber_year y.natAbs (by omega) r
  unfold Timestamp.yearText
  split_ifs with hfour hneg
  · have hy : ((y.toNat : Nat) : Int) = y := Int.toNat_of_nonneg hfour.1
    have hdigits : scanNumber 4 (Span.padded 4 y.toNat ++ '-' :: r) = .ok (y.toNat, '-' :: r) :=
      scanNumber_padded (.inl (length_padded (by decide) (by omega)))
        (by simp only [maxNumber]; omega)
    cases hds : Span.padded 4 y.toNat with
    | nil => exact absurd hds (padded_ne_nil 4 _)
    | cons c ds =>
      have hc : c.isDigit := isDigit_of_mem_padded (hds ▸ List.mem_cons_self)
      rw [hds] at hdigits
      rw [scanYear, List.cons_append, skipBlanks_cons (isBlank_of_isDigit hc)]
      split
      next heq => cases heq; exact absurd hc (by decide)
      next heq => cases heq; exact absurd hc (by decide)
      next =>
        rw [List.cons_append] at hdigits
        simp only [hdigits, bind, Except.bind]
        rw [if_pos (by omega), hy]
  · rw [List.cons_append, scanYear, skipBlanks_cons (by decide)]
    simp only [hscan, bind, Except.bind]
    rw [if_pos (by omega), show -(y.natAbs : Int) = y by omega]
  · rw [List.cons_append, scanYear, skipBlanks_cons (by decide)]
    simp only [hscan, bind, Except.bind]
    rw [if_pos (by omega), show (y.natAbs : Int) = y by omega]

/-- A fraction of so many digits that as many are missing of nine as `scale` has zeros. -/
theorem scanFraction_group {places n : Nat} (hplaces : 0 < places) (hle : places ≤ 9)
    (hn : n < 10 ^ places) :
    scanFraction ('.' :: Span.padded places n ++ ['Z']) =
      .ok (n * 10 ^ (9 - places), ['Z']) := by
  have hlen := length_padded hplaces hn
  have hstop : StopsAt 9 (Span.padded places n) ['Z'] := by
    refine .inr ⟨by omega, ?_⟩
    rintro c ⟨⟩
    rfl
  have hmax : n ≤ maxNumber := by
    have hpow : 10 ^ places ≤ 10 ^ 9 := Nat.pow_le_pow_right (by decide) hle
    simp only [maxNumber]
    omega
  have hdrop : List.dropWhile isDigit ['Z'] = ['Z'] := rfl
  simp only [List.cons_append, scanFraction, scanNumber_padded hstop hmax, bind, Except.bind, pure,
    Except.pure, hdrop, List.length_append, hlen, Nat.add_sub_cancel]
  rfl

theorem scanFraction_fractionText {n : Nat} (hn : n < 1000000000) :
    scanFraction (Timestamp.fractionText n ++ ['Z']) = .ok (n, ['Z']) := by
  unfold Timestamp.fractionText
  split_ifs with hzero hmilli hmicro
  · subst hzero
    rfl
  · rw [scanFraction_group (by decide) (by decide) (by omega)]
    congr 2
    omega
  · rw [scanFraction_group (by decide) (by decide) (by omega)]
    congr 2
    omega
  · rw [scanFraction_group (by decide) (by decide) (by omega), Nat.sub_self, Nat.pow_zero,
      Nat.mul_one]

/-! ## Whole moments -/

theorem daysIn_le (y : Int) (m : Nat) : daysIn y m ≤ 31 := by
  unfold daysIn
  split_ifs <;> decide

theorem ofFields?_date (d : Date) : Date.ofFields? d.year d.month d.day = some d := by
  rw [Date.ofFields?, dif_pos d.isDate]

theorem ofFields?_timestamp (t : Timestamp) :
    Timestamp.ofFields? t.date t.hour t.minute t.second t.nano = some t := by
  rw [Timestamp.ofFields?, dif_pos t.isTime]

theorem addMinutes?_zero (t : Timestamp) : t.addMinutes? 0 = some t := by
  obtain ⟨hhour, hminute, -⟩ := t.isTime
  have hneg : ¬ ((t.hour * 60 + t.minute : Nat) : Int) + 0 < 0 := by omega
  have hday : ¬ 1440 ≤ ((t.hour * 60 + t.minute : Nat) : Int) + 0 := by omega
  have hin : ((((t.hour * 60 + t.minute : Nat) : Int) + 0) % 1440).toNat =
      t.hour * 60 + t.minute := by omega
  simp only [Timestamp.addMinutes?, if_neg hneg, if_neg hday, hin, Option.bind_some]
  rw [show (t.hour * 60 + t.minute) / 60 = t.hour by omega,
    show (t.hour * 60 + t.minute) % 60 = t.minute by omega, ofFields?_timestamp]

/-- The second as it is printed, which in a leap second is the sixtieth. -/
def Timestamp.printedSecond (t : Timestamp) : Nat :=
  if 1000000000 ≤ t.nano then t.second + 1 else t.second

def Timestamp.printedNano (t : Timestamp) : Nat :=
  if 1000000000 ≤ t.nano then t.nano - 1000000000 else t.nano

theorem ofLocal_printed (t : Timestamp) :
    ofLocal t.date.year t.date.month t.date.day t.hour t.minute t.printedSecond t.printedNano 0 =
      .ok t := by
  obtain ⟨-, -, hsecond, hnano⟩ := t.isTime
  have hpair : (if t.printedSecond = 60 then (59, t.printedNano + 1000000000)
      else (t.printedSecond, t.printedNano)) = (t.second, t.nano) := by
    unfold Timestamp.printedSecond Timestamp.printedNano
    split_ifs <;> simp <;> omega
  simp only [ofLocal, hpair, ofFields?_date, ofFields?_timestamp]
  rw [if_neg (by decide), Int.neg_zero, addMinutes?_zero]

theorem print_eq (t : Timestamp) :
    t.print = Timestamp.yearText t.date.year ++ '-' :: (Span.padded 2 t.date.month ++
      '-' :: (Span.padded 2 t.date.day ++ 'T' :: (Span.padded 2 t.hour ++
        ':' :: (Span.padded 2 t.minute ++ ':' :: (Span.padded 2 t.printedSecond ++
          (Timestamp.fractionText t.printedNano ++ ['Z'])))))) := by
  simp [Timestamp.print, Timestamp.printTime, Timestamp.printedSecond, Timestamp.printedNano]

theorem read_print (t : Timestamp) : Timestamp.read t.print = .ok t := by
  obtain ⟨hlow, hhigh, hmonth, hmonth', hday, hday'⟩ := t.date.isDate
  obtain ⟨hhour, hminute, hsecond, hnano⟩ := t.isTime
  have hdays := daysIn_le t.date.year t.date.month
  have hprinted : t.printedSecond ≤ 60 := by
    unfold Timestamp.printedSecond
    split_ifs <;> omega
  have hfraction : t.printedNano < 1000000000 := by
    unfold Timestamp.printedNano
    split_ifs <;> omega
  have hdash : ∀ r, scanMark '-' ('-' :: r) = .ok ((), r) := scanMark_cons (by decide)
  have hcolon : ∀ r, scanMark ':' (':' :: r) = .ok ((), r) := scanMark_cons (by decide)
  have hparting : ∀ r, scanParting ('T' :: r) = .ok ((), r) := fun _ => rfl
  have hzone : scanZoneName ['Z'] = .ok (0, []) := rfl
  have hend : (skipBlanks []).isEmpty = true := rfl
  rw [print_eq]
  simp only [Timestamp.read, bind, Except.bind, scanYear_yearText hlow hhigh, hdash, hparting,
    hcolon, scanField_padded hmonth hmonth' (by omega),
    scanField_padded hday (by omega : t.date.day ≤ 31) (by omega),
    scanField_padded (Nat.zero_le t.hour) (by omega : t.hour ≤ 23) (by omega),
    scanField_padded (Nat.zero_le t.minute) (by omega : t.minute ≤ 59) (by omega),
    scanField_padded (Nat.zero_le t.printedSecond) hprinted (by omega),
    scanFraction_fractionText hfraction, hzone, hend, if_true, ofLocal_printed]

@[simp] theorem read_text (t : Timestamp) : Timestamp.read t.text.toList = .ok t := by
  rw [Timestamp.text, String.toList_ofList, read_print]

end HostAgent.Time
