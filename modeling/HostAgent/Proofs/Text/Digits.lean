import HostAgent.Time.Span
import Mathlib.Algebra.Group.Nat.Defs

namespace HostAgent.Text

/-!
# Digits of numbers

The number that printed digits spell is the one that was printed, zeros in front included.
-/

theorem le_ofDigitChars (ds : List Char) (s : Nat) : s ≤ Nat.ofDigitChars 10 ds s := by
  rw [Nat.ofDigitChars_eq_ofDigitChars_zero]
  exact Nat.le_add_right_of_le (Nat.le_mul_of_pos_left s (Nat.pow_pos (by decide)))

theorem ofDigitChars_cons_eq (c : Char) (ds : List Char) (s : Nat) :
    Nat.ofDigitChars 10 (c :: ds) s = Nat.ofDigitChars 10 ds (s * 10 + (c.toNat - 48)) := by
  rw [Nat.ofDigitChars_cons, Nat.mul_comm]
  rfl

theorem eq_of_toString_eq {m n : Nat} (h : toString m = toString n) : m = n := by
  have hdigits : Nat.toDigits 10 m = Nat.toDigits 10 n := by
    have hlist := congrArg String.toList h
    simpa [Nat.repr] using hlist
  rw [← Nat.ofDigitChars_ten_toDigits (n := m), hdigits, Nat.ofDigitChars_ten_toDigits]

theorem isDigit_of_mem_toDigits {n : Nat} {c : Char} (h : c ∈ Nat.toDigits 10 n) : c.isDigit :=
  Nat.isDigit_of_mem_toDigits (by decide) (by decide) h

theorem toDigits_leading {n : Nat} (h : 0 < n) :
    ∃ c ds, Nat.toDigits 10 n = c :: ds ∧ 0 < c.toNat - 48 := by
  induction n using Nat.base_induction 10 (by decide) with
  | single m hm =>
    refine ⟨Nat.digitChar m, [], Nat.toDigits_of_lt_base hm, ?_⟩
    rw [Nat.toNat_digitChar_sub_48_of_lt_ten hm]
    exact h
  | digit m k hk hm ih =>
    obtain ⟨c, ds, hds, hc⟩ := ih hm
    refine ⟨c, ds ++ Nat.toDigits 10 k, ?_, hc⟩
    rw [← Nat.toDigits_append_toDigits (by decide) hm hk, hds, List.cons_append]

theorem length_toString_le {n k : Nat} (hk : 0 < k) (h : n < 10 ^ k) :
    (toString n).toList.length ≤ k := by
  have hlist : (toString n).toList = Nat.toDigits 10 n := by simp [Nat.repr]
  rw [hlist]
  exact (Nat.length_toDigits_le_iff (by decide) hk).mpr h

theorem isDigit_of_mem_padded {w n : Nat} {c : Char} (h : c ∈ Time.Span.padded w n) :
    c.isDigit := by
  rcases List.mem_append.mp h with hzero | hdigit
  · rw [List.eq_of_mem_replicate hzero]
    rfl
  · exact isDigit_of_mem_toDigits hdigit

@[simp] theorem ofDigitChars_padded (w n : Nat) :
    Nat.ofDigitChars 10 (Time.Span.padded w n) 0 = n := by
  rw [Time.Span.padded, Nat.ofDigitChars_append, Nat.ofDigitChars_replicate_zero, Nat.mul_zero,
    Nat.ofDigitChars_ten_toDigits]

theorem length_padded {w n : Nat} (hw : 0 < w) (hn : n < 10 ^ w) :
    (Time.Span.padded w n).length = w := by
  have hlen := (Nat.length_toDigits_le_iff (b := 10) (by decide) hw).mpr hn
  rw [Time.Span.padded, List.length_append, List.length_replicate]
  omega

theorem padded_ne_nil (w n : Nat) : Time.Span.padded w n ≠ [] := by
  simp [Time.Span.padded]

end HostAgent.Text
