import HostAgent.Text.Utf8
import Mathlib.Tactic.SplitIfs

namespace HostAgent.Text.Utf8

/-!
# Encoded text reads back

The octets of a text fall apart into exactly its characters. No octet of an encoded text is junk,
so readers that replace junk and readers that stop at it agree on such octets. Texts and their
octets are in the same order.
-/

theorem toNat_octet {n : Nat} (h : n < 256) : (UInt8.ofNat n).toNat = n :=
  UInt8.toNat_ofNat_of_lt' h

theorem octet_beq {n : Nat} (h : n < 256) (b : UInt8) :
    (UInt8.ofNat n == b) = decide (n = b.toNat) := by
  have heq : UInt8.ofNat n = b ↔ n = b.toNat := by
    rw [← UInt8.toNat_inj, toNat_octet h]
  rw [Bool.eq_iff_iff]
  simpa using heq

/-! ## First octets -/

theorem begin_one {n : Nat} (h : n < 0x80) :
    begin (UInt8.ofNat n) = .inl (.char (Char.ofNat n)) := by
  have hn : (UInt8.ofNat n).toNat = n := toNat_octet (by omega)
  have hlt : UInt8.ofNat n < 0x80 := by
    rw [UInt8.lt_iff_toNat_lt, hn]
    exact h
  rw [begin, if_pos hlt, hn]

theorem begin_two {n : Nat} (h : 0xC2 ≤ n) (h' : n < 0xE0) :
    begin (UInt8.ofNat n) = .inr ⟨n - 0xC0, 1, 1, 0x80, 0xBF⟩ := by
  have hn : (UInt8.ofNat n).toNat = n := toNat_octet (by omega)
  simp only [begin, UInt8.lt_iff_toNat_lt, hn, UInt8.reduceToNat]
  rw [if_neg (by omega), if_neg (by omega), if_pos h']

/-- The second octet of a character of three has bounds of its own after the least first octet, and
before the surrogates. -/
theorem begin_three {n : Nat} (h : 0xE0 ≤ n) (h' : n < 0xF0) :
    begin (UInt8.ofNat n) =
      .inr ⟨n - 0xE0, 1, 2, if n = 0xE0 then 0xA0 else 0x80, if n = 0xED then 0x9F else 0xBF⟩ := by
  have hn : (UInt8.ofNat n).toNat = n := toNat_octet (by omega)
  simp only [begin, UInt8.lt_iff_toNat_lt, octet_beq (show n < 256 by omega), hn,
    UInt8.reduceToNat, decide_eq_true_eq]
  rw [if_neg (by omega), if_neg (by omega), if_neg (by omega)]
  by_cases hleast : n = 0xE0
  · rw [hleast]
    rfl
  · by_cases hlast : n = 0xED
    · rw [hlast]
      rfl
    · rw [if_neg hleast, if_neg hlast, if_pos h', if_neg hleast, if_neg hlast]

/-- The second octet of a character of four has bounds of its own after the least first octet, and
before the end of the characters. -/
theorem begin_four {n : Nat} (h : 0xF0 ≤ n) (h' : n < 0xF5) :
    begin (UInt8.ofNat n) =
      .inr ⟨n - 0xF0, 1, 3, if n = 0xF0 then 0x90 else 0x80, if n = 0xF4 then 0x8F else 0xBF⟩ := by
  have hn : (UInt8.ofNat n).toNat = n := toNat_octet (by omega)
  simp only [begin, UInt8.lt_iff_toNat_lt, octet_beq (show n < 256 by omega), hn,
    UInt8.reduceToNat, decide_eq_true_eq]
  rw [if_neg (by omega), if_neg (by omega), if_neg (by omega), if_neg (by omega),
    if_neg (by omega), if_neg (by omega)]
  by_cases hleast : n = 0xF0
  · rw [hleast]
    rfl
  · by_cases hlast : n = 0xF4
    · rw [hlast]
      rfl
    · rw [if_neg hleast, if_pos (by omega), if_neg hleast, if_neg hlast]

/-! ## Further octets -/

/-- Whether six more bits may follow what is pending. -/
def Pending.Allows (p : Pending) (n : Nat) : Prop :=
  p.low.toNat ≤ n + 0x80 ∧ n + 0x80 ≤ p.high.toNat ∧ n < 0x40

theorem push_of_allows {p : Pending} {n : Nat} (h : p.Allows n) :
    p.push (UInt8.ofNat (n + 0x80)) =
      if p.owed ≤ 1 then some (.inl (.char (Char.ofNat (p.value * 64 + n))))
      else some (.inr ⟨p.value * 64 + n, p.octets + 1, p.owed - 1, 0x80, 0xBF⟩) := by
  obtain ⟨hlow, hhigh, hn⟩ := h
  have hb : (UInt8.ofNat (n + 0x80)).toNat = n + 0x80 := toNat_octet (by omega)
  have hmem : p.low ≤ UInt8.ofNat (n + 0x80) ∧ UInt8.ofNat (n + 0x80) ≤ p.high := by
    rw [UInt8.le_iff_toNat_le, UInt8.le_iff_toNat_le, hb]
    exact ⟨hlow, hhigh⟩
  simp only [Pending.push, if_pos hmem, hb, Nat.add_sub_cancel]

theorem chunksFrom_begin {b : UInt8} {p : Pending} (h : begin b = .inr p) (r : List UInt8) :
    chunksFrom none (b :: r) = chunksFrom (some p) r := by
  rw [chunksFrom, h]

theorem chunksFrom_next {p : Pending} {n : Nat} (h : p.Allows n) (howed : 1 < p.owed)
    (r : List UInt8) :
    chunksFrom (some p) (UInt8.ofNat (n + 0x80) :: r) =
      chunksFrom (some ⟨p.value * 64 + n, p.octets + 1, p.owed - 1, 0x80, 0xBF⟩) r := by
  rw [chunksFrom, push_of_allows h, if_neg (by omega)]

theorem chunksFrom_last {p : Pending} {n : Nat} (h : p.Allows n) (howed : p.owed = 1)
    (r : List UInt8) :
    chunksFrom (some p) (UInt8.ofNat (n + 0x80) :: r) =
      .char (Char.ofNat (p.value * 64 + n)) :: chunksFrom none r := by
  rw [chunksFrom, push_of_allows h, if_pos (by omega)]

/-! ## Characters and texts -/

/-- What is read of the octets of a character at the front is that character. -/
theorem chunksFrom_encodeChar (c : Char) (rest : List UInt8) :
    chunksFrom none (String.utf8EncodeChar c ++ rest) = .char c :: chunksFrom none rest := by
  have hc : Char.ofNat c.toNat = c := Char.ofNat_toNat c
  have hvalid : c.toNat < 0xD800 ∨ 0xDFFF < c.toNat ∧ c.toNat < 0x110000 := c.valid
  generalize hv : c.toNat = v at hc hvalid
  have hv' : c.val.toNat = v := hv
  simp only [String.utf8EncodeChar, hv']
  split_ifs with h₁ h₂ h₃
  · rw [List.singleton_append, chunksFrom, begin_one (by omega), hc]
  · rw [List.cons_append, chunksFrom_begin (begin_two (by omega) (by omega)), List.cons_append,
      chunksFrom_last ⟨by simp, by simp; omega, by omega⟩ rfl, List.nil_append]
    simp only
    rw [show (v / 64 % 0x20 + 0xC0 - 0xC0) * 64 + v % 0x40 = v by omega, hc]
  · rw [List.cons_append, chunksFrom_begin (begin_three (by omega) (by omega)), List.cons_append,
      chunksFrom_next ⟨?_, ?_, by omega⟩ (by simp), List.cons_append,
      chunksFrom_last ⟨by simp, by simp; omega, by omega⟩ rfl, List.nil_append]
    · simp only
      rw [show ((v / 4096 % 0x10 + 0xE0 - 0xE0) * 64 + v / 64 % 0x40) * 64 + v % 0x40 = v by omega,
        hc]
    · simp only
      split_ifs <;> simp
      omega
    · simp only
      split_ifs <;> (simp; omega)
  · rw [List.cons_append, chunksFrom_begin (begin_four (by omega) (by omega)), List.cons_append,
      chunksFrom_next ⟨?_, ?_, by omega⟩ (by simp), List.cons_append,
      chunksFrom_next ⟨by simp, by simp; omega, by omega⟩ (by simp), List.cons_append,
      chunksFrom_last ⟨by simp, by simp; omega, by omega⟩ rfl, List.nil_append]
    · simp only
      rw [show (((v / 262144 % 0x08 + 0xF0 - 0xF0) * 64 + v / 4096 % 0x40) * 64 + v / 64 % 0x40)
        * 64 + v % 0x40 = v by omega, hc]
    · simp only
      split_ifs <;> simp
      omega
    · simp only
      split_ifs <;> (simp; omega)

theorem chunksFrom_encode_append (s : String) (rest : List UInt8) :
    chunksFrom none (encode s ++ rest) = s.toList.map .char ++ chunksFrom none rest := by
  rw [encode]
  induction s.toList with
  | nil => rfl
  | cons c r ih =>
    rw [List.flatMap_cons, List.append_assoc, chunksFrom_encodeChar, ih, List.map_cons,
      List.cons_append]

theorem chunks_encode (s : String) : chunks (encode s) = s.toList.map .char := by
  have happend := chunksFrom_encode_append s []
  rwa [List.append_nil, chunksFrom, List.append_nil] at happend

@[simp] theorem symbols_encode (s : String) : symbols (encode s) = s.toList.map some := by
  rw [symbols, chunks_encode, List.flatMap_map]
  induction s.toList with
  | nil => rfl
  | cons c r ih => rw [List.flatMap_cons, ih]; rfl

@[simp] theorem decodeLossy_encode (s : String) : decodeLossy (encode s) = s := by
  rw [decodeLossy, chunks_encode, List.map_map]
  have hshown : Chunk.shown ∘ Chunk.char = id := rfl
  rw [hshown, List.map_id, String.ofList_toList]

@[simp] theorem decode?_encode (s : String) : decode? (encode s) = some s := by
  have hchars : ∀ l : List Char, (l.map Chunk.char).mapM Chunk.char? = some l := by
    intro l
    induction l with
    | nil => rfl
    | cons c l ih =>
      rw [List.map_cons, List.mapM_cons, ih]
      rfl
  rw [decode?, chunks_encode, hchars, Option.map_some, String.ofList_toList]

theorem encode_append (s t : String) : encode (s ++ t) = encode s ++ encode t := by
  rw [encode, String.toList_append, List.flatMap_append]
  rfl

theorem length_encode_le (s : String) : (encode s).length ≤ 4 * s.toList.length := by
  rw [encode]
  induction s.toList with
  | nil => exact Nat.le_refl _
  | cons c l ih =>
    have hc := Char.utf8Size_le_four c
    rw [List.flatMap_cons, List.length_append, String.length_utf8EncodeChar, List.length_cons]
    omega

/-! ## Order -/

theorem octet_cons_lt {m n : Nat} {r r' : List UInt8} (hn : n < 256) (hle : m ≤ n)
    (hr : m = n → r < r') : UInt8.ofNat m :: r < UInt8.ofNat n :: r' := by
  rw [List.cons_lt_cons_iff]
  rcases Nat.lt_or_eq_of_le hle with hlt | rfl
  · left
    rw [UInt8.lt_iff_toNat_lt, toNat_octet hn, toNat_octet (Nat.lt_trans hlt hn)]
    exact hlt
  · exact .inr ⟨rfl, hr rfl⟩

theorem octet_lt {m n : Nat} {r r' : List UInt8} (hn : n < 256) (hlt : m < n) :
    UInt8.ofNat m :: r < UInt8.ofNat n :: r' :=
  octet_cons_lt hn (Nat.le_of_lt hlt) fun heq => absurd heq (Nat.ne_of_lt hlt)

/-- The lesser of two characters has the lesser octets, whatever follows. -/
theorem encodeChar_append_lt {c d : Char} (h : c < d) (r r' : List UInt8) :
    String.utf8EncodeChar c ++ r < String.utf8EncodeChar d ++ r' := by
  have hlt : c.val.toNat < d.val.toNat := h
  have hvalid : d.toNat < 0xD800 ∨ 0xDFFF < d.toNat ∧ d.toNat < 0x110000 := d.valid
  have hd : d.val.toNat < 0x110000 := by
    change d.toNat < 0x110000
    omega
  simp only [String.utf8EncodeChar]
  generalize c.val.toNat = v at hlt ⊢
  generalize d.val.toNat = w at hlt hd ⊢
  split_ifs
  all_goals simp only [List.cons_append, List.nil_append]
  -- The first octets tell characters of different lengths apart. Of one length, octets are compared
  -- as long as they agree, and they cannot agree all along.
  all_goals try exact octet_lt (by omega) (by omega)
  · refine octet_cons_lt (by omega) (by omega) fun _ => ?_
    exact octet_lt (by omega) (by omega)
  · refine octet_cons_lt (by omega) (by omega) fun _ => ?_
    refine octet_cons_lt (by omega) (by omega) fun _ => ?_
    exact octet_lt (by omega) (by omega)
  · refine octet_cons_lt (by omega) (by omega) fun _ => ?_
    refine octet_cons_lt (by omega) (by omega) fun _ => ?_
    refine octet_cons_lt (by omega) (by omega) fun _ => ?_
    exact octet_lt (by omega) (by omega)

/-- Texts are in the order of their octets. -/
theorem encode_lt_encode {s t : String} (h : s < t) : encode s < encode t := by
  rw [String.lt_iff] at h
  unfold encode
  generalize s.toList = l at h
  generalize t.toList = m at h
  induction l generalizing m with
  | nil =>
    cases m with
    | nil => exact absurd h (List.lt_irrefl _)
    | cons d m =>
      have hne : (d :: m).flatMap String.utf8EncodeChar ≠ [] := by
        simp [String.utf8EncodeChar_ne_nil]
      obtain ⟨b, l, hbl⟩ := List.exists_cons_of_ne_nil hne
      rw [hbl]
      exact List.nil_lt_cons _ _
  | cons c l ih =>
    cases m with
    | nil => exact absurd h (List.not_lt_nil _)
    | cons d m =>
      rw [List.flatMap_cons, List.flatMap_cons]
      rcases List.cons_lt_cons_iff.mp h with hcd | ⟨rfl, hlm⟩
      · exact encodeChar_append_lt hcd _ _
      · exact List.append_left_lt (ih m hlm)

theorem encode_lt_encode_iff {s t : String} : encode s < encode t ↔ s < t := by
  refine ⟨fun h => Decidable.byContradiction fun hnot => ?_, encode_lt_encode⟩
  have hle : t ≤ s := String.not_lt.mp hnot
  have hge : s ≤ t := String.not_lt.mp fun hlt => List.lt_asymm h (encode_lt_encode hlt)
  rw [String.le_antisymm hge hle] at h
  exact List.lt_irrefl _ h

/-- A text begins with another one if its octets do. -/
theorem encode_prefix_iff {s t : String} : encode s <+: encode t ↔ s.toList <+: t.toList := by
  constructor
  · rintro ⟨rest, hrest⟩
    have hchunks := congrArg (List.filterMap Chunk.char?) (chunks_encode t)
    rw [← hrest, chunks, chunksFrom_encode_append, List.filterMap_append] at hchunks
    have hchars : ∀ l : List Char, (l.map Chunk.char).filterMap Chunk.char? = l := by
      intro l
      rw [List.filterMap_map]
      exact List.filterMap_some
    rw [hchars, hchars] at hchunks
    exact ⟨_, hchunks⟩
  · rintro ⟨l, hl⟩
    have ht : t = s ++ String.ofList l := by
      rw [← String.toList_inj, String.toList_append, String.toList_ofList, hl]
    exact ⟨encode (String.ofList l), by rw [ht, encode_append]⟩

end HostAgent.Text.Utf8
