import HostAgent.Proofs.Time.Text
import Mathlib.Order.Defs.PartialOrder

namespace HostAgent.Time

/-!
# Moments in order

Moments are ordered by their dates and by their times of day. A moment within a leap second is after
all other moments of its minute and before those of the next one.
-/

namespace Timestamp

/-- The moments numbered in their order, each field within the room that the next greater one leaves
for it. -/
def rank (t : Timestamp) : Int :=
  (((((t.date.year * 13 + t.date.month) * 32 + t.date.day) * 24 + t.hour) * 60 + t.minute) * 60 +
    t.second) * 2000000000 + t.nano

theorem rank_injective : Function.Injective rank := by
  rintro ⟨⟨y, m, d, hdate⟩, hour, minute, second, nano, htime⟩
    ⟨⟨y', m', d', hdate'⟩, hour', minute', second', nano', htime'⟩ h
  obtain ⟨-, -, -, hm, -, hd⟩ := id hdate
  obtain ⟨-, -, -, hm', -, hd'⟩ := id hdate'
  obtain ⟨hhour, hminute, hsecond, hnano⟩ := id htime
  obtain ⟨hhour', hminute', hsecond', hnano'⟩ := id htime'
  have hmonth := daysIn_le y m
  have hmonth' := daysIn_le y' m'
  simp only [rank] at h
  obtain ⟨rfl, rfl, rfl, rfl, rfl, rfl, rfl⟩ : y = y' ∧ m = m' ∧ d = d' ∧ hour = hour' ∧
      minute = minute' ∧ second = second' ∧ nano = nano' := by omega
  rfl

instance : PartialOrder Timestamp where
  le s t := s.rank ≤ t.rank
  le_refl _ := Int.le_refl _
  le_trans _ _ _ := Int.le_trans
  le_antisymm _ _ h h' := rank_injective (Int.le_antisymm h h')

end Timestamp

end HostAgent.Time
