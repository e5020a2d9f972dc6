import HostAgent.Proofs.Json.Fields
import HostAgent.Proofs.Json.Grammar

namespace HostAgent.Json

/-!
# Members in another order

A record is read from its members in any order, and from among members of other names. A record by
itself passes those over, whatever they are; one that holds another record sets them aside first,
and then their numbers must be in range.
-/

variable {α β γ : Type}

/-! ## Schemas -/

/-- How records stand within a value. -/
inductive Schema where
  /-- There is no record, or none that is looked into. -/
  | whole
  /-- A record that declares these names, cannot do without some of them, and passes over the other
  members or sets them aside. -/
  | record (declared required : List String) (aside : Bool) (within : String → Schema)
  /-- Names are free, and a value of one schema stands under each. -/
  | table (within : Schema)

/-- Whether a text of a number is read, perhaps as another number. -/
def Number.IsReadable : Number → Prop
  | .integer i => ∃ n, (integerLexeme i).value = .ok n
  | .float _ => True

/-- A member that may be added to a record: its name is not declared, and its numbers are in range
if it is set aside. -/
structure IsOther (declared : List String) (aside : Bool) (e : String × Json) : Prop where
  undeclared : e.1 ∉ declared
  readable : aside = true → Numbers Number.IsReadable e.2

/-- The same names in the same order, with related values. -/
def Pairs (R : String → Json → Json → Prop) (m own : List (String × Json)) : Prop :=
  List.Forall₂ (fun e e' => e'.1 = e.1 ∧ R e.1 e.2 e'.2) m own

/-- The members of a record in another order, and with other members among them. -/
inductive Mixes (declared : List String) (aside : Bool) (R : String → Json → Json → Prop)
    (m : List (String × Json)) : List (String × Json) → Prop
  | mk {own others m' : List (String × Json)} (hown : Pairs R m own)
      (hothers : ∀ e ∈ others, IsOther declared aside e) (hperm : m'.Perm (own ++ others)) :
      Mixes declared aside R m m'

/-- A value with the members of its records in any order, and with any others among them. -/
def Arranged : Schema → Json → Json → Prop
  | .whole, j, j' => j' = j
  | .record declared _ aside within, j, j' => ∃ m m', j = .object m ∧ j' = .object m' ∧
      Mixes declared aside (fun k => Arranged (within k)) m m'
  | .table within, j, j' => ∃ m m', j = .object m ∧ j' = .object m' ∧
      Pairs (fun _ => Arranged within) m m'

/-! ## Members of texts -/

def spellings (m : List (String × Json)) : List (String × Doc) :=
  m.map fun e => (e.1, Doc.spelled e.2)

theorem spelledMembers_eq (m : List (String × Json)) : spelledMembers m = keyed (spellings m) := by
  induction m with
  | nil => rfl
  | cons e m ih =>
    rw [spelledMembers, ih]
    rfl

theorem map_fst_spellings (m : List (String × Json)) :
    (spellings m).map Prod.fst = m.map Prod.fst := by
  rw [spellings, List.map_map]
  rfl

theorem lookup_spellings (m : List (String × Json)) (k : String) :
    (spellings m).lookup k = (m.lookup k).map Doc.spelled :=
  lookup_map Doc.spelled m k

theorem spellings_of_fits {m : List (String × Json)} (h : NumbersMembers Number.Fits m) :
    spellings m = docs m := by
  refine List.map_congr_left fun e he => ?_
  rw [spelled_of_fits e.2 (numbersMembers_iff.mp h e he)]

mutual

theorem skipped_spelled : (j : Json) → (Doc.spelled j).skipped = none
  | .null | .bool _ | .string _ | .number (.integer _) | .number (.float _) => rfl
  | .array l => by simp [Doc.spelled, Doc.skipped, skippedItems_spelled l, Ending.inSkippedList]
  | .object m => by
    simp [Doc.spelled, Doc.skipped, skippedMembers_spelled m, Ending.inSkippedObject]

theorem skippedItems_spelled : (l : List Json) → skippedItems (spelledItems l) = none
  | [] => rfl
  | j :: r => by simp [spelledItems, skippedItems, skipped_spelled j, skippedItems_spelled r]

theorem skippedMembers_spelled : (m : List (String × Json)) →
    skippedMembers (spelledMembers m) = none
  | [] => rfl
  | (k, j) :: r => by
    simp [spelledMembers, skippedMembers, skipped_spelled j, skippedMembers_spelled r, Lexeme.ok]

end

theorem passesOver_spellings (declared : List Field) (m : List (String × Json)) :
    PassesOver declared (spellings m) := by
  intro e he _
  obtain ⟨d, -, rfl⟩ := List.mem_map.mp he
  exact skipped_spelled d.2

mutual

/-- A value can be set aside from a text if its numbers are in range. -/
theorem anything_spelled : (j : Json) → Numbers Number.IsReadable j →
    ∃ v, Takes Decoder.anything (depth j) (Doc.spelled j) v
  | .null, _ => ⟨.null, fun _ _ => rfl⟩
  | .bool b, _ => ⟨.bool b, fun _ _ => rfl⟩
  | .string s, _ => ⟨.string s, fun _ _ => rfl⟩
  | .number (.float x), _ => ⟨.number (.float x), fun _ _ => rfl⟩
  | .number (.integer i), ⟨n, hn⟩ => by
    refine ⟨.number n, fun c _ => ?_⟩
    simp [Doc.spelled, Decoder.anything, Lexeme.get, hn, Except.mapError, Except.map]
  | .array l, h => by
    obtain ⟨v, hv⟩ := anythingItems_spelled l h
    refine ⟨.array v, fun c hc => ?_⟩
    obtain ⟨c', henter, hc'⟩ := Cursor.Admits.enter hc
    simp [Doc.spelled, Decoder.anything, henter, hv c' 0 hc', bind, Except.bind, pure, Except.pure]
  | .object m, h => by
    obtain ⟨v, hv⟩ := anythingMembers_spelled m h
    refine ⟨.object v, fun c hc => ?_⟩
    obtain ⟨c', henter, hc'⟩ := Cursor.Admits.enter hc
    simp [Doc.spelled, Decoder.anything, henter, hv c' hc', bind, Except.bind, pure, Except.pure]

theorem anythingItems_spelled : (l : List Json) → NumbersItems Number.IsReadable l →
    ∃ v, ∀ (c : Cursor) (i : Nat), c.Admits (depthItems l) →
      Decoder.anythingItems c .closed i (spelledItems l) = .ok v
  | [], _ => ⟨[], fun _ _ _ => rfl⟩
  | j :: r, h => by
    obtain ⟨v, hv⟩ := anything_spelled j h.1
    obtain ⟨vs, hvs⟩ := anythingItems_spelled r h.2
    refine ⟨v :: vs, fun c i hc => ?_⟩
    have hj := hv c (hc.mono (Nat.le_max_left _ _))
    have hr := hvs c (i + 1) (hc.mono (Nat.le_max_right _ _))
    simp [spelledItems, Decoder.anythingItems, inside, hj, hr, Except.mapError, bind, Except.bind,
      pure, Except.pure]

theorem anythingMembers_spelled : (m : List (String × Json)) →
    NumbersMembers Number.IsReadable m → ∃ v, ∀ c : Cursor, c.Admits (depthMembers m) →
      Decoder.anythingMembers c .closed (spelledMembers m) = .ok v
  | [], _ => ⟨[], fun _ _ => rfl⟩
  | (k, j) :: r, h => by
    obtain ⟨v, hv⟩ := anything_spelled j h.1
    obtain ⟨vs, hvs⟩ := anythingMembers_spelled r h.2
    refine ⟨(k, v) :: vs, fun c hc => ?_⟩
    have hj := hv c (hc.mono (Nat.le_max_left _ _))
    have hr := hvs c (hc.mono (Nat.le_max_right _ _))
    simp [spelledMembers, Decoder.anythingMembers, inside, hj, hr, Lexeme.get, Lexeme.ok,
      Except.mapError, bind, Except.bind, pure, Except.pure]

end

theorem takes_heard {j : Json} (h : Numbers Number.IsReadable j) :
    Takes Decoder.anything (depth j) (Doc.spelled j) (heard (Doc.spelled j)) := by
  obtain ⟨v, hv⟩ := anything_spelled j h
  rwa [heard_of_takes hv]

/-! ## Members by their names -/

theorem lookup_eq_none {m : List (String × γ)} {k : String} :
    m.lookup k = none ↔ k ∉ m.map Prod.fst := by
  rw [List.lookup_eq_none_iff, List.mem_map, not_exists]
  refine forall_congr' fun e => ?_
  rw [bne_iff_ne, ne_eq, not_and, eq_comm]

/-- Members of other names, wherever they stand, do not change what is found under a name. -/
theorem lookup_of_perm {l m m' : List (String × γ)} (hperm : m'.Perm (m ++ l))
    (hnodup : (m.map Prod.fst).Nodup) {k : String} (hk : k ∉ l.map Prod.fst) :
    m'.lookup k = m.lookup k := by
  have hsplit : ∀ e ∈ m', e.1 = k → e ∈ m := fun e he hname => by
    rcases List.mem_append.mp (hperm.mem_iff.mp he) with he | he
    · exact he
    · exact absurd (List.mem_map.mpr ⟨e, he, hname⟩) hk
  cases hm' : m'.lookup k with
  | some j => exact (lookup_of_mem hnodup (hsplit _ (mem_of_lookup hm') rfl)).symm
  | none =>
    have hnames : k ∉ (m ++ l).map Prod.fst := by
      rw [← (hperm.map Prod.fst).mem_iff]
      exact lookup_eq_none.mp hm'
    rw [List.map_append, List.mem_append, not_or] at hnames
    exact (lookup_eq_none.mpr hnames.1).symm

section Pairs

variable {R : String → Json → Json → Prop} {m own : List (String × Json)} {k : String}

theorem Pairs.map_fst (h : Pairs R m own) : own.map Prod.fst = m.map Prod.fst := by
  induction h with
  | nil => rfl
  | cons hhead _ ih => rw [List.map_cons, List.map_cons, hhead.1, ih]

theorem Pairs.lookup (h : Pairs R m own) {j : Json} (hj : m.lookup k = some j) :
    ∃ j', own.lookup k = some j' ∧ R k j j' := by
  induction h with
  | nil => cases hj
  | @cons e e' m own hhead _ ih =>
    obtain ⟨k', v⟩ := e
    obtain ⟨k'', v'⟩ := e'
    obtain ⟨rfl, hR⟩ := hhead
    rw [List.lookup_cons] at hj ⊢
    split at hj
    next heq =>
      cases hj
      obtain rfl := beq_iff_eq.mp heq
      exact ⟨v', by simp only [heq], hR⟩
    next heq => simpa only [heq] using ih hj

end Pairs

/-! ## Reading what was rearranged -/

/-- A decoder takes the texts of all arrangements of a value for what the value stands for. -/
def TakesArranged (d : Decoder α) (s : Schema) (j : Json) (a : α) : Prop :=
  ∀ j', Arranged s j j' → Takes d (depth j') (Doc.spelled j') a

theorem TakesArranged.map {d : Decoder α} {s : Schema} {j : Json} {a : α}
    (h : TakesArranged d s j a) (f : α → β) : TakesArranged (d.map f) s j (f a) :=
  fun j' hj' => (h j' hj').map f

/-- A value that is left alone is decoded from a text as it is decoded by itself. -/
theorem Decodes.takesArranged {d : Decoder α} {j : Json} {a : α} (h : Decodes d j a)
    (hfits : Numbers Number.Fits j) : TakesArranged d .whole j a := by
  rintro j' rfl
  rw [spelled_of_fits j' hfits]
  exact h.takes

/-- The fields of a record are found among the arranged members, and give the record. -/
def Fields.Arranges (f : Fields α) (within : String → Schema) (m : List (String × Json)) (a : α) :
    Prop :=
  ∀ own n, Pairs (fun k => Arranged (within k)) m own → depthMembers own ≤ n →
    f.Finds n (spellings own) a

section Arranges

variable {f : Fields (α → β)} {x : Fields α} {g : α → β} {a : α} {d : Decoder α} {j : Json}
variable {within : String → Schema} {m : List (String × Json)} {name : String}

namespace Fields

theorem arranges_pure (within : String → Schema) (m : List (String × Json)) (a : α) :
    (pure a : Fields α).Arranges within m a :=
  fun _ n _ _ => .pure n _ a

theorem Arranges.seq (hf : f.Arranges within m g) (hx : x.Arranges within m a) :
    (f <*> x).Arranges within m (g a) :=
  fun own n hown hn => (hf own n hown hn).seq (hx own n hown hn)

theorem Arranges.map (hx : x.Arranges within m a) (f : α → β) :
    (f <$> x).Arranges within m (f a) :=
  (arranges_pure within m f).seq hx

theorem lookup_arranged {own : List (String × Json)} {n : Nat}
    (h : TakesArranged d (within name) j a) (hj : m.lookup name = some j)
    (hown : Pairs (fun k => Arranged (within k)) m own) (hn : depthMembers own ≤ n) :
    ∃ y, (spellings own).lookup name = some y ∧ Takes d n y a := by
  obtain ⟨j', hj', harranged⟩ := hown.lookup hj
  refine ⟨Doc.spelled j', by rw [lookup_spellings, hj']; rfl, (h j' harranged).mono ?_⟩
  exact Nat.le_trans (depth_le_depthMembers (mem_of_lookup hj')) hn

theorem arranges_required (h : TakesArranged d (within name) j a) (hj : m.lookup name = some j) :
    (required name d).Arranges within m a := by
  intro own n hown hn
  obtain ⟨y, hy, htakes⟩ := lookup_arranged h hj hown hn
  exact finds_required htakes hy

theorem arranges_optional (h : TakesArranged d (within name) j a) (hj : m.lookup name = some j)
    (absent : α) : (optional name d absent).Arranges within m a := by
  intro own n hown hn
  obtain ⟨y, hy, htakes⟩ := lookup_arranged h hj hown hn
  exact finds_optional htakes hy absent

theorem pairs_whole {own : List (String × Json)} (hwhole : ∀ e ∈ m, within e.1 = .whole)
    (hown : Pairs (fun k => Arranged (within k)) m own) : own = m := by
  induction hown with
  | nil => rfl
  | @cons e e' m own hhead _ ih =>
    obtain ⟨hname, harranged⟩ := hhead
    rw [hwhole e List.mem_cons_self, Arranged] at harranged
    rw [ih fun d hd => hwhole d (List.mem_cons_of_mem _ hd), Prod.ext hname harranged]

/-- Where no member is looked into, the fields find what they find in the encoded record. -/
theorem Reads.arranges (h : x.Reads m a) (hfits : NumbersMembers Number.Fits m)
    (hwhole : ∀ e ∈ m, within e.1 = .whole) : x.Arranges within m a := by
  intro own n hown hn
  obtain rfl := pairs_whole hwhole hown
  rw [spellings_of_fits hfits]
  exact h.finds hn

end Fields

end Arranges

section Mixed

variable {own others m' : List (String × Json)} {declared : List String} {aside : Bool}
variable {fields : List Field}

theorem isDeclared_iff {name : String} :
    isDeclared fields name = true ↔ name ∈ fields.map Field.name := by
  simp [isDeclared]

theorem agree_of_perm (hsub : ∀ x ∈ fields, x.name ∈ declared)
    (hothers : ∀ e ∈ others, IsOther declared aside e) (hnodup : (own.map Prod.fst).Nodup)
    (hperm : m'.Perm (own ++ others)) : Agree fields own m' := by
  intro x hx
  refine lookup_of_perm hperm hnodup fun hmem => ?_
  obtain ⟨e, he, hname⟩ := List.mem_map.mp hmem
  exact (hothers e he).undeclared (hname ▸ hsub x hx)

theorem distinct_of_perm (hsub : ∀ x ∈ fields, x.name ∈ declared)
    (hothers : ∀ e ∈ others, IsOther declared aside e) (hnodup : (own.map Prod.fst).Nodup)
    (hperm : m'.Perm (own ++ others)) : Distinct fields m' := by
  have hnone : declaredOf fields others = [] := by
    refine List.filter_eq_nil_iff.mpr fun e he hdeclared => ?_
    obtain ⟨x, hx, hname⟩ := List.mem_map.mp (isDeclared_iff.mp hdeclared)
    exact (hothers e he).undeclared (hname ▸ hsub x hx)
  have hdeclared : (declaredOf fields m').Perm (declaredOf fields own) := by
    have hfilter := hperm.filter fun e => isDeclared fields e.1
    rwa [List.filter_append, ← declaredOf, ← declaredOf, ← declaredOf, hnone, List.append_nil]
      at hfilter
  exact (hdeclared.map Prod.fst).nodup_iff.mpr (distinct_of_nodup hnodup fields)

theorem depthMembers_le_of_perm (hperm : m'.Perm (own ++ others)) :
    depthMembers own ≤ depthMembers m' :=
  depthMembers_le_iff.mpr fun _ he =>
    depth_le_depthMembers (hperm.mem_iff.mpr (List.mem_append_left others he))

theorem agree_spellings {m : List (String × Json)} (h : Agree fields m m') :
    Agree fields (spellings m) (spellings m') := by
  intro x hx
  rw [lookup_spellings, lookup_spellings, h x hx]

end Mixed

/-- A record is taken from texts of its members in any order, and others do not matter. -/
theorem takesArranged_record (title : String) {f : Fields α} {m : List (String × Json)} {a : α}
    {declared required : List String} {aside : Bool} {within : String → Schema}
    (hdeclared : f.declared.map Field.name = declared) (h : f.Arranges within m a)
    (hm : AreFields f.declared m) :
    TakesArranged (record title f) (.record declared required aside within) (.object m) a := by
  rintro j' ⟨m₀, m', hm₀, rfl, hmixes⟩
  cases hm₀
  obtain @⟨own, others, _, hown, hothers, hperm⟩ := hmixes
  have hsub : ∀ x ∈ f.declared, x.name ∈ declared := fun x hx =>
    hdeclared ▸ List.mem_map_of_mem hx
  have hnodup : (own.map Prod.fst).Nodup := hown.map_fst ▸ hm.nodup
  have hfinds := (h own _ hown (depthMembers_le_of_perm hperm)).congr
    (agree_spellings (agree_of_perm hsub hothers hnodup hperm))
  have htakes := takes_record title hfinds
    ((distinct_of_perm hsub hothers hnodup hperm).map Doc.spelled) (passesOver_spellings _ m')
  rwa [← spelledMembers_eq] at htakes

/-- A record that holds another one is taken from texts of the members of both in any order, and
others do not matter as long as they can be set aside. -/
theorem takesArranged_flattened (title : String) {own : Fields α} {rest : Fields β}
    {m : List (String × Json)} {a : α} {b : β} {declared required : List String}
    (hdeclared : (own.declared ++ rest.declared).map Field.name = declared) (hown : own.Reads m a)
    (hrest : rest.Reads m b) (hfits : NumbersMembers Number.Fits m)
    (hnodup : (m.map Prod.fst).Nodup)
    (hdisjoint : ∀ x ∈ rest.declared, x.name ∉ own.declared.map Field.name) :
    TakesArranged (flattened title own rest) (.record declared required true fun _ => .whole)
      (.object m) (a, b) := by
  rintro j' ⟨m₀, m', hm₀, rfl, hmixes⟩
  cases hm₀
  obtain @⟨m₁, others, _, hm₁, hothers, hperm⟩ := hmixes
  obtain rfl := Fields.pairs_whole (fun _ _ => rfl) hm₁
  have hsub : ∀ x ∈ own.declared ++ rest.declared, x.name ∈ declared := fun x hx =>
    hdeclared ▸ List.mem_map_of_mem hx
  have hsub₁ : ∀ x ∈ own.declared, x.name ∈ declared := fun x hx =>
    hsub x (List.mem_append_left _ hx)
  have hsub₂ : ∀ x ∈ rest.declared, x.name ∈ declared := fun x hx =>
    hsub x (List.mem_append_right _ hx)
  -- Every member can be set aside, and those of the encoded record stay what they are.
  have hkept : ∀ e ∈ m₁, Takes Decoder.anything (depth e.2) (Doc.spelled e.2) e.2 := by
    intro e he c hc
    rw [spelled_of_fits e.2 (numbersMembers_iff.mp hfits e he)]
    exact anything_ofJson e.2 c hc
  have hset : SetsAside (depthMembers m') own.declared (spellings m') := by
    intro x hx _
    obtain ⟨e, he, rfl⟩ := List.mem_map.mp hx
    refine Takes.mono ?_ (depth_le_depthMembers he)
    rcases List.mem_append.mp (hperm.mem_iff.mp he) with he | he
    · have hheard := heard_of_takes (hkept e he)
      exact hheard.symm ▸ hkept e he
    · exact takes_heard ((hothers e he).readable rfl)
  have hown' : own.Finds (depthMembers m') (spellings m') a := by
    have hfinds := hown.finds (depthMembers_le_of_perm hperm)
    rw [← spellings_of_fits hfits] at hfinds
    exact hfinds.congr (agree_spellings (agree_of_perm hsub₁ hothers hnodup hperm))
  have hrest' : rest.Reads (aside (spellings m')) b := by
    refine hrest.congr fun x hx => ?_
    rw [aside, lookup_map, lookup_spellings, agree_of_perm hsub₂ hothers hnodup hperm x hx]
    cases hj : m₁.lookup x.name with
    | none => rfl
    | some j =>
      rw [Option.map_some, Option.map_some, heard_of_takes (hkept (x.name, j) (mem_of_lookup hj))]
  have htakes := takes_flattened title hown' hrest'
    ((distinct_of_perm hsub₁ hothers hnodup hperm).map Doc.spelled)
    ((distinct_of_perm hsub₂ hothers hnodup hperm).map Doc.spelled) hset hdisjoint
  rwa [← spelledMembers_eq] at htakes

theorem takes_pairs {d : Decoder α} {f : α → Json} {s : Schema}
    (h : ∀ a, TakesArranged d s (f a) a) {l : List (String × α)} {m' : List (String × Json)}
    (hpairs : Pairs (fun _ => Arranged s) (l.map fun e => (e.1, f e.2)) m') {n : Nat}
    (hn : depthMembers m' ≤ n) :
    List.Forall₂ (fun e a => e.1 = a.1 ∧ Takes d n e.2 a.2) (spellings m') l := by
  induction l generalizing m' with
  | nil =>
    cases hpairs
    exact .nil
  | cons a l ih =>
    obtain _ | ⟨⟨hname, harranged⟩, htail⟩ := hpairs
    rw [depthMembers, Nat.max_le] at hn
    exact .cons ⟨hname, (h a.2 _ harranged).mono hn.1⟩ (ih htail hn.2)

/-- A map is taken from texts of what its keys hold, arranged in any way. -/
theorem takesArranged_sortedMap {d : Decoder α} {f : α → Json} {s : Schema}
    (h : ∀ a, TakesArranged d s (f a) a) (m : SortedMap α) :
    TakesArranged d.sortedMap (.table s) (.object (m.entries.map fun e => (e.1, f e.2))) m := by
  rintro j' ⟨m₀, m', hm₀, rfl, hpairs⟩
  cases hm₀
  have htakes := takes_sortedMap (takes_pairs h hpairs (Nat.le_refl _))
  rwa [← spelledMembers_eq] at htakes

end HostAgent.Json
