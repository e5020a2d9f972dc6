import HostAgent.Http.Url
import HostAgent.Proofs.Text.Form

namespace HostAgent

/-!
# Paths that are kept

Reading an address escapes what may not stand in a path, and whoever reads the escapes gets it back.
A path is kept in this way unless it holds signs that mean something else to one of the two: what
looks like an escape already, segments of dots, and what cuts the address or is left out of it.
-/

namespace Text.Percent

/-- Whether a text begins with the sign of an escape and two digits. -/
def beginsEscape : List Char → Bool
  | '%' :: a :: b :: _ => (hexValue? a).isSome && (hexValue? b).isSome
  | _ => false

/-- There is no escape anywhere in a text. -/
def NoEscape (s : List Char) : Prop := ∀ t ∈ s.tails, beginsEscape t = false

instance (s : List Char) : Decidable (NoEscape s) := inferInstanceAs (Decidable (∀ t ∈ s.tails, _))

theorem noEscape_nil : NoEscape [] := by decide

theorem noEscape_cons_iff {c : Char} {s : List Char} :
    NoEscape (c :: s) ↔ beginsEscape (c :: s) = false ∧ NoEscape s := by
  simp [NoEscape]

theorem beginsEscape_of_ne {c : Char} (h : c ≠ '%') (s : List Char) :
    beginsEscape (c :: s) = false := by
  unfold beginsEscape
  split
  next heq => exact absurd (List.cons.inj heq).1 h
  next => rfl

theorem NoEscape.append_left {p s : List Char} (hp : '%' ∉ p) (hs : NoEscape s) :
    NoEscape (p ++ s) := by
  induction p with
  | nil => exact hs
  | cons c p ih =>
    rw [List.mem_cons, not_or] at hp
    exact noEscape_cons_iff.mpr ⟨beginsEscape_of_ne (Ne.symm hp.1) _, ih hp.2⟩

/-- Parts of a text without escapes have none. -/
theorem NoEscape.of_infix {s w : List Char} (h : NoEscape s) (hw : w <:+: s) : NoEscape w := by
  obtain ⟨p, r, rfl⟩ := hw
  rw [List.append_assoc] at h
  have hrest : NoEscape (w ++ r) := by
    induction p with
    | nil => exact h
    | cons c p ih => exact ih (noEscape_cons_iff.mp h).2
  clear h
  induction w with
  | nil => exact noEscape_nil
  | cons c w ih =>
    obtain ⟨hbegin, hw⟩ := noEscape_cons_iff.mp hrest
    refine noEscape_cons_iff.mpr ⟨?_, ih hw⟩
    by_cases hc : c = '%'
    · subst hc
      match w with
      | [] | [_] => rfl
      | a :: b :: w => exact hbegin
    · exact beginsEscape_of_ne hc _

/-- A sign of an escape without its digits stands for itself. -/
theorem decode_percent {s : List Char} (h : beginsEscape ('%' :: s) = false) :
    decode ('%' :: s) = 0x25 :: decode s := by
  have hsign : String.utf8EncodeChar '%' = [0x25] := by decide
  match s with
  | [] => simp [decode, hsign]
  | [a] => simp [decode, hsign]
  | a :: b :: r =>
    rw [decode]
    cases ha : hexValue? a with
    | none => rfl
    | some x =>
      cases hb : hexValue? b with
      | none => rfl
      | some y => simp [beginsEscape, ha, hb] at h

/-- Reading escapes never makes a text longer. -/
theorem length_decode_le (s : List Char) :
    (decode s).length ≤ (s.flatMap String.utf8EncodeChar).length := by
  fun_induction decode s with
  | case1 => exact Nat.le_refl _
  | case2 a b r x y hx hy ih =>
    simp only [List.flatMap_cons, List.length_append, List.length_cons]
    have hsign := List.length_pos_iff.mpr (String.utf8EncodeChar_ne_nil (c := '%'))
    omega
  | case3 a b r hab ih =>
    have hsign : String.utf8EncodeChar '%' = [0x25] := by decide
    rw [List.flatMap_cons, hsign, List.singleton_append]
    exact Nat.succ_le_succ ih
  | case4 c r hc ih =>
    rw [List.flatMap_cons, List.length_append, List.length_append]
    exact Nat.add_le_add_left ih _

/-- A text with an escape is longer than what it is read as. -/
theorem noEscape_of_length_le {s : List Char}
    (h : (s.flatMap String.utf8EncodeChar).length ≤ (decode s).length) : NoEscape s := by
  fun_induction decode s with
  | case1 => exact noEscape_nil
  | case2 a b r x y hx hy ih =>
    have hrest := length_decode_le r
    have hsign := List.length_pos_iff.mpr (String.utf8EncodeChar_ne_nil (c := '%'))
    have ha := List.length_pos_iff.mpr (String.utf8EncodeChar_ne_nil (c := a))
    simp only [List.flatMap_cons, List.length_append, List.length_cons] at h
    omega
  | case3 a b r hab ih =>
    have hsign : String.utf8EncodeChar '%' = [0x25] := by decide
    rw [List.flatMap_cons, hsign, List.singleton_append] at h
    refine noEscape_cons_iff.mpr ⟨?_, ih (Nat.le_of_succ_le_succ h)⟩
    rw [beginsEscape, Bool.and_eq_false_iff, Option.isSome_eq_false_iff, Option.isSome_eq_false_iff]
    cases ha : hexValue? a with
    | none => exact .inl rfl
    | some x =>
      cases hb : hexValue? b with
      | none => exact .inr rfl
      | some y => exact (hab x y ha hb).elim
  | case4 c r hc ih =>
    rw [List.flatMap_cons, List.length_append, List.length_append] at h
    refine noEscape_cons_iff.mpr ⟨?_, ih (Nat.le_of_add_le_add_left h)⟩
    unfold beginsEscape
    split
    next heq =>
      obtain ⟨hsign, hrest⟩ := List.cons.inj heq
      exact (hc _ _ _ hsign hrest).elim
    next => rfl

section Encode

variable {harmless : Char → Bool} {s : List Char} {c : Char}

/-- The first sign of an escaped text is the first sign of the text, or that of an escape. -/
theorem head_encode (harmless : Char → Bool) (c : Char) (s : List Char) :
    encode harmless (c :: s) = c :: encode harmless s ∨
      ∃ r, encode harmless (c :: s) = '%' :: r := by
  rw [encode_cons]
  by_cases hc : harmless c = true
  · rw [if_pos hc]
    exact .inl rfl
  · rw [if_neg hc]
    obtain ⟨b, l, hb⟩ := List.exists_cons_of_ne_nil (String.utf8EncodeChar_ne_nil (c := c))
    rw [hb, List.flatMap_cons]
    exact .inr ⟨_, rfl⟩

/-- Escaping makes no escape of what was none. -/
theorem beginsEscape_encode (h : beginsEscape ('%' :: s) = false) :
    beginsEscape ('%' :: encode harmless s) = false := by
  have hsign : hexValue? '%' = none := by decide
  match s with
  | [] => rfl
  | a :: s =>
    rcases head_encode harmless a s with ha | ⟨r, ha⟩
    · rw [ha]
      match s with
      | [] => rfl
      | b :: s =>
        rcases head_encode harmless b s with hb | ⟨r, hb⟩
        · rw [hb]
          exact h
        · rw [hb, beginsEscape, hsign]
          simp
    · rw [ha]
      cases r with
      | nil => rfl
      | cons b r => rw [beginsEscape, hsign]; rfl

/-- What was escaped is read as it was, if it had no escapes before. -/
theorem decode_encode (h : NoEscape s) :
    decode (encode harmless s) = s.flatMap String.utf8EncodeChar := by
  induction s with
  | nil => simp [encode, decode]
  | cons c s ih =>
    obtain ⟨hbegin, hs⟩ := noEscape_cons_iff.mp h
    rw [encode_cons, List.flatMap_cons, ← ih hs]
    by_cases hc : harmless c = true
    · rw [if_pos hc, List.singleton_append]
      by_cases hescape : c = '%'
      · subst hescape
        exact decode_percent (beginsEscape_encode hbegin)
      · exact decode_cons hescape _
    · rw [if_neg hc, decode_octets]

/-- A text without escapes is read as it is. -/
theorem decode_of_noEscape (h : NoEscape s) : decode s = s.flatMap String.utf8EncodeChar := by
  have hplain : encode (fun _ => true) s = s := by simp [encode]
  rw [← decode_encode h, hplain]

end Encode

end Text.Percent

namespace Http.Url

open Text.Percent (NoEscape noEscape_cons_iff encode_cons)

/-! ## Segments -/

theorem undot_of_noEscape {s : List Char} (h : NoEscape s) : undot s = s := by
  induction s with
  | nil => rfl
  | cons c s ih =>
    obtain ⟨hbegin, hs⟩ := noEscape_cons_iff.mp h
    rw [undot, ih hs]
    · rintro r rfl rfl
      cases hbegin
    · rintro r rfl rfl
      cases hbegin

theorem dots_of_noEscape {s : List Char} (h : NoEscape s) (hone : s ≠ ['.'])
    (htwo : s ≠ ['.', '.']) : dots s = .name := by
  rw [dots, undot_of_noEscape h, if_neg hone, if_neg htwo]

theorem resolve_of_forall {l : List (List Char)} (hl : l ≠ []) (h : ∀ s ∈ l, dots s = .name)
    (acc : List String) : resolve l acc = acc.reverse ++ l.map (encode inPath) := by
  induction l generalizing acc with
  | nil => exact absurd rfl hl
  | cons s l ih =>
    have hs := h s List.mem_cons_self
    cases l with
    | nil =>
      rw [resolve, hs]
      simp only [List.reverse_cons, List.map_cons, List.map_nil]
    | cons t l =>
      have hrest := ih (List.cons_ne_nil t l) (fun u hu => h u (List.mem_cons_of_mem _ hu))
        (encode inPath s :: acc)
      rw [resolve, hs]
      · simp only [hrest, List.map_cons, List.reverse_cons, List.append_assoc,
          List.singleton_append]
      · simp

/-- The characters of a path: each segment after a slash. -/
theorem toList_text (l : List String) :
    (Path.segments l).text.toList = l.flatMap fun s => '/' :: s.toList := by
  rw [Path.text, String.toList_join, List.flatMap_map]
  simp only [String.toList_append]
  rfl

/-- Cutting a path at its slashes, escaping the parts and joining them again escapes the path. -/
theorem flatMap_encode_splitWhere {s : List Char} (h : '\\' ∉ s) :
    ((Text.splitWhere (isSlash true) s).flatMap fun w => '/' :: Text.Percent.encode inPath w) =
      '/' :: Text.Percent.encode inPath s := by
  induction s with
  | nil => rfl
  | cons c s ih =>
    rw [List.mem_cons, not_or] at h
    have ih := ih h.2
    rw [Text.splitWhere]
    by_cases hc : isSlash true c = true
    · obtain rfl : c = '/' := by
        simp only [isSlash, Bool.true_and, Bool.or_eq_true, beq_iff_eq] at hc
        exact hc.resolve_right (Ne.symm h.1)
      rw [if_pos hc, List.flatMap_cons, ih, encode_cons]
      rfl
    · rw [if_neg hc, encode_cons]
      cases hsplit : Text.splitWhere (isSlash true) s with
      | nil => exact absurd hsplit (Text.splitWhere_ne_nil _ _)
      | cons w ws =>
        rw [hsplit, List.flatMap_cons, List.cons_append, List.cons.injEq] at ih
        simp only [List.flatMap_cons, encode_cons, List.cons_append, List.append_assoc, ih.2]

end Http.Url

namespace Http

open Text.Percent (NoEscape)

/-- A text that is read as a path and as nothing else where a path is expected. -/
structure IsPath (s : String) : Prop where
  rooted : ∃ t, s.toList = '/' :: t
  whole : ∀ c ∈ "\t\n\r\\?#".toList, c ∉ s.toList
  closed : ∀ c, s.toList.getLast? = some c → 0x20 < c.toNat

/-- A path that is kept, up to escapes. -/
structure IsVerbatim (s : String) : Prop extends IsPath s where
  unescaped : NoEscape s.toList
  undotted : ∀ w ∈ Text.splitWhere (Url.isSlash true) s.toList, w ≠ ['.'] ∧ w ≠ ['.', '.']

/-- A path that is kept is written with its characters escaped, and nothing else. -/
theorem IsVerbatim.text_segments {s : String} (h : IsVerbatim s) :
    (Path.segments (Url.segments true s.toList)).text.toList =
      Text.Percent.encode Url.inPath s.toList := by
  obtain ⟨t, ht⟩ := h.rooted
  have hback : '\\' ∉ t := by
    have hnone := h.whole '\\' (by decide)
    rw [ht, List.mem_cons, not_or] at hnone
    exact hnone.2
  have hsplit : Text.splitWhere (Url.isSlash true) s.toList =
      [] :: Text.splitWhere (Url.isSlash true) t := by
    rw [ht]
    rfl
  have hdots : ∀ w ∈ Text.splitWhere (Url.isSlash true) t, Url.dots w = .name := by
    intro w hw
    have hmem : w ∈ Text.splitWhere (Url.isSlash true) s.toList := by
      rw [hsplit]
      exact List.mem_cons_of_mem _ hw
    obtain ⟨hone, htwo⟩ := h.undotted w hmem
    exact Url.dots_of_noEscape (h.unescaped.of_infix (Text.infix_of_mem_splitWhere hmem)) hone htwo
  have hsegments : Url.segments true s.toList =
      (Text.splitWhere (Url.isSlash true) t).map (Url.encode Url.inPath) := by
    rw [ht]
    exact Url.resolve_of_forall (Text.splitWhere_ne_nil _ _) hdots []
  have hencode : ∀ w, (Url.encode Url.inPath w).toList = Text.Percent.encode Url.inPath w :=
    fun w => String.toList_ofList
  rw [hsegments, Url.toList_text, List.flatMap_map, ht]
  simp only [hencode]
  exact Url.flatMap_encode_splitWhere hback

/-- Whoever reads the escapes of such a path has the octets of the path. -/
theorem IsVerbatim.decode_segments {s : String} (h : IsVerbatim s) :
    Text.Percent.decode (Path.segments (Url.segments true s.toList)).text.toList =
      Text.Utf8.encode s := by
  rw [h.text_segments, Text.Percent.decode_encode h.unescaped]
  rfl

end Http

end HostAgent
