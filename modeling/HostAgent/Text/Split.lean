namespace HostAgent.Text

/-! # Cutting lists

A list cut at each element of a kind, which itself is in no part. There is always one part more
than there are such elements.
-/

section Split

variable {α : Type} (p : α → Bool)

def splitWhere : List α → List (List α)
  | [] => [[]]
  | a :: r =>
    if p a then [] :: splitWhere r
    else
      match splitWhere r with
      | [] => [[a]]
      | w :: ws => (a :: w) :: ws

theorem splitWhere_ne_nil (s : List α) : splitWhere p s ≠ [] := by
  cases s with
  | nil => simp [splitWhere]
  | cons a r =>
    simp only [splitWhere]
    split
    · simp
    · split <;> simp

@[simp] theorem length_splitWhere (s : List α) :
    (splitWhere p s).length = s.countP p + 1 := by
  induction s with
  | nil => rfl
  | cons a r ih =>
    simp only [splitWhere]
    split
    · simp_all
    · have := splitWhere_ne_nil p r
      split <;> simp_all

end Split

/-- The parts of a text between the places where a character stands. -/
def splitAt (c : Char) (s : String) : List String :=
  (splitWhere (· == c) s.toList).map String.ofList

end HostAgent.Text
