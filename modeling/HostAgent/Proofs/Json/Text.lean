import HostAgent.Proofs.Json.Grammar

namespace HostAgent.Json

/-!
# Printed values read back

The compact text of a value spells it, if its floating point numbers are written so that they are
read back. So it is read as the document that the value is spelled as.
-/

/-- Whether a number is read back from its text. An integer is read as one lexeme always; the text
of a floating point number may be read as a neighbour of it. -/
def Number.Regained : Number → Prop
  | .integer _ => True
  | .float x => SpellsFloat x x.text.toList

theorem Integral.regained {j : Json} (h : Integral j) : Numbers Number.Regained j :=
  h.numbers fun _ _ => trivial

/-- The text of the items of an array from one on, without the bracket. -/
def itemsText (j : Json) (l : List Json) : List Char := print j ++ printItems l

def membersText (k : String) (j : Json) (m : List (String × Json)) : List Char :=
  printString k ++ ':' :: print j ++ printMembers m

-- The equations have the blanks that the grammar has in these places, all of them empty.

theorem itemsText_cons (j i : Json) (l : List Json) :
    itemsText j (i :: l) = print j ++ [] ++ ',' :: [] ++ itemsText i l := by
  simp [itemsText, printItems]

theorem membersText_cons (k i : String) (j v : Json) (m : List (String × Json)) :
    membersText k j ((i, v) :: m) =
      printString k ++ ':' :: print j ++ [] ++ ',' :: [] ++ membersText i v m := by
  simp [membersText, printMembers]

theorem print_array (j : Json) (l : List Json) :
    print (.array (j :: l)) = '[' :: [] ++ itemsText j l ++ [']'] := by
  simp [print, itemsText]

theorem print_object (k : String) (j : Json) (m : List (String × Json)) :
    print (.object ((k, j) :: m)) = '\x7b' :: [] ++ membersText k j m ++ ['\x7d'] := by
  simp [print, membersText]

theorem spellsMember_print (k : String) {j : Json} (h : Spells j (print j)) :
    SpellsMember k j (printString k ++ ':' :: print j) := by
  have hmember := SpellsMember.mk (spells_escaped k.toList) blank_nil blank_nil h
  simpa [printString] using hmember

mutual

theorem spells_print : (j : Json) → Numbers Number.Regained j → Spells j (print j)
  | .null, _ => .null
  | .bool true, _ => .true
  | .bool false, _ => .false
  | .number (.integer i), _ => .integer i
  | .number (.float _), h => .float h
  | .string s, _ => .string (spells_escaped s.toList)
  | .array [], _ => .emptyArray blank_nil
  | .array (j :: l), h => by
    rw [print_array]
    exact .array blank_nil (spellsItems_print l h.2 (spells_print j h.1))
  | .object [], _ => .emptyObject blank_nil
  | .object ((k, j) :: m), h => by
    rw [print_object]
    exact .object blank_nil (spellsMembers_print m h.2 k (spells_print j h.1))

theorem spellsItems_print : (l : List Json) → NumbersItems Number.Regained l → {j : Json} →
    Spells j (print j) → SpellsItems j l (itemsText j l)
  | [], _, _, hj => .last hj blank_nil
  | i :: l, hl, j, hj => by
    rw [itemsText_cons]
    exact .next hj blank_nil blank_nil (spellsItems_print l hl.2 (spells_print i hl.1))

theorem spellsMembers_print : (m : List (String × Json)) → NumbersMembers Number.Regained m →
    (k : String) → {j : Json} → Spells j (print j) → SpellsMembers k j m (membersText k j m)
  | [], _, k, _, hj => .last (spellsMember_print k hj) blank_nil
  | (i, v) :: m, hm, k, j, hj => by
    rw [membersText_cons]
    exact .next (spellsMember_print k hj) blank_nil blank_nil
      (spellsMembers_print m hm.2 i (spells_print v hm.1))

end

theorem isText_print {j : Json} (h : Numbers Number.Regained j) :
    IsText ((print j).map some) j :=
  ⟨[], print j, [], blank_nil, spells_print j h, blank_nil, by
    rw [List.nil_append, List.append_nil]⟩

/-- A decoder that finds a value in the document of a printed value finds it in the text too. -/
theorem ofInput_print {α : Type} {d : Decoder α} {j : Json} {a : α} (h : Integral j)
    (hd : d .ofText (Doc.ofJson j) = .ok a) : d.ofInput ((print j).map some) = .ok a := by
  rw [(isText_print h.regained).ofInput, spelled_of_fits j h.fits, hd]

end HostAgent.Json
