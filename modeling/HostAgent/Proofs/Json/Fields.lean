import HostAgent.Proofs.Json.Decoding

namespace HostAgent.Json

/-!
# Decoding records

The members of an object fall to the fields of a record by their names. A record that holds another
one among its own fields passes on the members that are not its own. What is shown of documents
holds of the documents of values: those of an encoded record give the record.
-/

variable {α β γ : Type}

/-! ## Members by their names -/

theorem map_fst_docs (m : List (String × Json)) : (docs m).map Prod.fst = m.map Prod.fst := by
  rw [docs, List.map_map]
  rfl

theorem lookup_map (g : β → γ) (m : List (String × β)) (k : String) :
    (m.map fun e => (e.1, g e.2)).lookup k = (m.lookup k).map g := by
  induction m with
  | nil => rfl
  | cons e m ih =>
    obtain ⟨i, j⟩ := e
    simp only [List.map_cons, List.lookup_cons]
    split
    · rfl
    · exact ih

theorem lookup_docs (m : List (String × Json)) (k : String) :
    (docs m).lookup k = (m.lookup k).map Doc.ofJson :=
  lookup_map Doc.ofJson m k

theorem mem_of_lookup {m : List (String × γ)} {k : String} {j : γ} (h : m.lookup k = some j) :
    (k, j) ∈ m := by
  induction m with
  | nil => cases h
  | cons e m ih =>
    obtain ⟨i, v⟩ := e
    rw [List.lookup_cons] at h
    split at h
    next heq =>
      cases h
      rw [beq_iff_eq.mp heq]
      exact List.mem_cons_self
    next => exact List.mem_cons_of_mem _ (ih h)

theorem lookup_of_mem {m : List (String × γ)} (h : (m.map Prod.fst).Nodup)
    {e : String × γ} (he : e ∈ m) : m.lookup e.1 = some e.2 := by
  induction m with
  | nil => cases he
  | cons d m ih =>
    obtain ⟨hd, hm⟩ := List.nodup_cons.mp h
    rcases List.mem_cons.mp he with rfl | he
    · rw [List.lookup_cons, beq_self_eq_true]
    · have hne : e.1 ≠ d.1 := by
        intro heq
        exact hd (heq ▸ List.mem_map_of_mem he)
      rw [List.lookup_cons, beq_false_of_ne hne]
      exact ih hm he

theorem lookup_filter {q : String → Bool} {k : String} (hk : q k = true)
    (m : List (String × γ)) : (m.filter fun e => q e.1).lookup k = m.lookup k := by
  induction m with
  | nil => rfl
  | cons e m ih =>
    obtain ⟨i, j⟩ := e
    by_cases hi : k = i
    · subst hi
      rw [List.filter_cons_of_pos (by simpa using hk), List.lookup_cons, List.lookup_cons,
        beq_self_eq_true]
    · rw [List.lookup_cons, beq_false_of_ne hi, ← ih, List.filter_cons]
      split
      · rw [List.lookup_cons, beq_false_of_ne hi]
      · rfl

/-- Members are the same for some fields: each of these finds the same member. -/
def Agree (declared : List Field) (m m' : List (String × γ)) : Prop :=
  ∀ x ∈ declared, m'.lookup x.name = m.lookup x.name

theorem agree_append {declared : List Field} {m n : List (String × γ)}
    (h : ∀ x ∈ declared, n.lookup x.name = none) : Agree declared m (m ++ n) := by
  intro x hx
  rw [List.lookup_append, h x hx, Option.or_none]

/-! ## Sorting out -/

def isDeclared (declared : List Field) (name : String) : Bool :=
  (declared.find? fun f => f.name == name).isSome

theorem isDeclared_of_mem {declared : List Field} {f : Field} (h : f ∈ declared) :
    isDeclared declared f.name = true := by
  rw [isDeclared, List.find?_isSome]
  exact ⟨f, h, by simp⟩

/-- The members that fields are declared for. -/
def declaredOf (declared : List Field) (m : List (String × γ)) : List (String × γ) :=
  m.filter fun e => isDeclared declared e.1

theorem declaredOf_cons {declared : List Field} {e : String × γ}
    (h : isDeclared declared e.1 = true) (m : List (String × γ)) :
    declaredOf declared (e :: m) = e :: declaredOf declared m :=
  List.filter_cons_of_pos h

theorem declaredOf_cons_other {declared : List Field} {e : String × γ}
    (h : isDeclared declared e.1 = false) (m : List (String × γ)) :
    declaredOf declared (e :: m) = declaredOf declared m :=
  List.filter_cons_of_neg (by simp [h])

/-- The members that no field is declared for. -/
def othersOf (declared : List Field) (m : List (String × γ)) : List (String × γ) :=
  m.filter fun e => !isDeclared declared e.1

/-- No field is declared for two members. -/
def Distinct (declared : List Field) (m : List (String × γ)) : Prop :=
  ((declaredOf declared m).map Prod.fst).Nodup

theorem distinct_of_nodup {m : List (String × γ)} (h : (m.map Prod.fst).Nodup)
    (declared : List Field) : Distinct declared m :=
  h.sublist (List.filter_sublist.map _)

theorem Distinct.sublist {declared : List Field} {l m : List (String × γ)}
    (h : Distinct declared m) (hl : l.Sublist m) : Distinct declared l :=
  List.Nodup.sublist ((hl.filter _).map _) h

theorem Distinct.map {declared : List Field} {m : List (String × β)} (h : Distinct declared m)
    (g : β → γ) : Distinct declared (m.map fun e => (e.1, g e.2)) := by
  rw [Distinct, declaredOf, List.filter_map, List.map_map]
  exact h

theorem Distinct.lookup {declared : List Field} {m : List (String × γ)} (h : Distinct declared m)
    {e : String × γ} (he : e ∈ m) (hdeclared : isDeclared declared e.1 = true) :
    m.lookup e.1 = some e.2 := by
  rw [← lookup_filter hdeclared]
  exact lookup_of_mem h (List.mem_filter.mpr ⟨he, hdeclared⟩)

/-- What becomes of a member: a declared one is accepted by its field, another one is handled. -/
def Sorts (declared : List Field) (other : Cursor → String → Doc → Except Report (List β))
    (c : Cursor) (g : String × Doc → List β) (e : String × Doc) : Prop :=
  (∀ f ∈ declared, f.name = e.1 → f.accepts c e.2 = .ok ()) ∧
    (isDeclared declared e.1 = false → other c e.1 e.2 = .ok (g e))

theorem sortOut_keyed {declared : List Field}
    {other : Cursor → String → Doc → Except Report (List β)} {c : Cursor}
    {g : String × Doc → List β} {m : List (String × Doc)} (hdistinct : Distinct declared m)
    (hsorts : ∀ e ∈ m, Sorts declared other c g e) (seen : List (String × Doc))
    (hseen : ∀ e ∈ m, isDeclared declared e.1 = true → seen.lookup e.1 = none) :
    sortOut declared other c .closed (keyed m) seen =
      .ok (seen ++ declaredOf declared m, (othersOf declared m).flatMap g) := by
  induction m generalizing seen with
  | nil => simp [keyed, sortOut, inside, check, declaredOf, othersOf, Ending.inObject,
      Except.mapError, bind, Except.bind, pure, Except.pure]
  | cons e m ih =>
    obtain ⟨k, x⟩ := e
    obtain ⟨haccept, hother⟩ := hsorts (k, x) List.mem_cons_self
    have hsorts' : ∀ e ∈ m, Sorts declared other c g e := fun e he =>
      hsorts e (List.mem_cons_of_mem _ he)
    simp only at haccept hother
    rw [keyed, List.map_cons, ← keyed, sortOut]
    cases hfind : declared.find? fun f => f.name == k with
    | some f =>
      have hname : f.name = k := by simpa using List.find?_some hfind
      have hdeclared : isDeclared declared k = true := by rw [isDeclared, hfind]; rfl
      have hlookup := hseen (k, x) List.mem_cons_self hdeclared
      rw [Distinct, declaredOf_cons hdeclared] at hdistinct
      obtain ⟨hk, hdistinct'⟩ := List.nodup_cons.mp hdistinct
      have hseen' : ∀ e ∈ m, isDeclared declared e.1 = true →
          (seen ++ [(k, x)]).lookup e.1 = none := by
        intro e he hdecl
        have hne : e.1 ≠ k := fun heq =>
          hk (List.mem_map.mpr ⟨e, List.mem_filter.mpr ⟨he, hdecl⟩, heq⟩)
        have hold := hseen e (List.mem_cons_of_mem _ he) hdecl
        rw [List.lookup_append, hold, Option.none_or, List.lookup_cons, beq_false_of_ne hne,
          List.lookup_nil]
      have hacc := haccept f (List.mem_of_find?_eq_some hfind) hname
      have hrest := ih hdistinct' hsorts' (seen ++ [(k, x)]) hseen'
      simp only at hlookup
      simp [inside, Lexeme.get, Lexeme.ok, Except.mapError, hfind, hlookup, hacc, hrest, hdeclared,
        declaredOf, othersOf, bind, Except.bind]
    | none =>
      have hdeclared : isDeclared declared k = false := by rw [isDeclared, hfind]; rfl
      rw [Distinct, declaredOf_cons_other hdeclared] at hdistinct
      have hb := hother hdeclared
      have hrest := ih hdistinct hsorts' seen fun e he => hseen e (List.mem_cons_of_mem _ he)
      simp [inside, Lexeme.get, Lexeme.ok, Except.mapError, hfind, hb, hrest, hdeclared, declaredOf,
        othersOf, bind, Except.bind, pure, Except.pure]

/-! ## Fields -/

/-- The fields of a record are found among members that are nested at most this deep, and give the
record. -/
structure Fields.Finds (f : Fields α) (n : Nat) (m : List (String × Doc)) (a : α) : Prop where
  build : ∀ (c : Cursor) (seen : List (String × Doc)), c.Admits n → Agree f.declared m seen →
    f.build (.ofMembers c seen) = .ok a
  accepts : ∀ c : Cursor, c.Admits n → ∀ x ∈ f.declared, ∀ y, m.lookup x.name = some y →
    x.accepts c y = .ok ()

namespace Fields.Finds

variable {f : Fields (α → β)} {x : Fields α} {g : α → β} {a : α} {n : Nat}
variable {m m' : List (String × Doc)}

theorem congr (h : x.Finds n m a) (hagree : Agree x.declared m m') : x.Finds n m' a where
  build c seen hc hseen := h.build c seen hc fun y hy => (hseen y hy).trans (hagree y hy)
  accepts c hc y hy z hz := h.accepts c hc y hy z ((hagree y hy).symm.trans hz)

theorem pure (n : Nat) (m : List (String × Doc)) (a : α) :
    (Pure.pure a : Fields α).Finds n m a where
  build _ _ _ _ := rfl
  accepts _ _ y hy := by cases hy

theorem seq (hf : f.Finds n m g) (hx : x.Finds n m a) : (f <*> x).Finds n m (g a) where
  build c seen hc hseen := by
    have hbuild : (f <*> x).build (.ofMembers c seen) =
      (do
        let g ← f.build (.ofMembers c seen)
        let a ← x.build (.ofMembers c seen)
        return g a) := rfl
    rw [hbuild, hf.build c seen hc fun y hy => hseen y (List.mem_append_left _ hy),
      hx.build c seen hc fun y hy => hseen y (List.mem_append_right _ hy)]
    rfl
  accepts c hc y hy z hz := by
    rcases List.mem_append.mp hy with hy | hy
    · exact hf.accepts c hc y hy z hz
    · exact hx.accepts c hc y hy z hz

end Fields.Finds

section Member

variable {d : Decoder α} {n : Nat} {m : List (String × Doc)} {name : String} {y : Doc} {a : α}

theorem Fields.accepting_of_ok {c : Cursor} (h : d c y = .ok a) :
    Fields.accepting d c y = .ok () := by
  simp [Fields.accepting, h, Except.map]

theorem Fields.finds_required (h : Takes d n y a) (hy : m.lookup name = some y) :
    (Fields.required name d).Finds n m a where
  build c seen hc hseen := by
    have hfound : seen.lookup name = some y := (hseen _ List.mem_cons_self).trans hy
    simp [Fields.required, Source.ofMembers, hfound, inside, h c hc, Except.mapError, bind,
      Except.bind]
  accepts c hc x hx z hz := by
    rw [List.mem_singleton.mp hx, hy] at hz
    cases hz
    rw [List.mem_singleton.mp hx]
    exact Fields.accepting_of_ok (h c hc)

theorem Fields.finds_optional (h : Takes d n y a) (hy : m.lookup name = some y) (absent : α) :
    (Fields.optional name d absent).Finds n m a where
  build c seen hc hseen := by
    have hfound : seen.lookup name = some y := (hseen _ List.mem_cons_self).trans hy
    simp [Fields.optional, Source.ofMembers, hfound, inside, h c hc, Except.mapError, bind,
      Except.bind]
  accepts c hc x hx z hz := by
    rw [List.mem_singleton.mp hx, hy] at hz
    cases hz
    rw [List.mem_singleton.mp hx]
    exact Fields.accepting_of_ok (h c hc)

theorem Fields.finds_absent (hy : m.lookup name = none) (absent : α) :
    (Fields.optional name d absent).Finds n m absent where
  build c seen _ hseen := by
    have hfound : seen.lookup name = none := (hseen _ List.mem_cons_self).trans hy
    simp [Fields.optional, Source.ofMembers, hfound, bind, Except.bind, Pure.pure, Except.pure]
  accepts c _ x hx z hz := by
    rw [List.mem_singleton.mp hx, hy] at hz
    cases hz

end Member

/-! ### Members that are values -/

/-- No member of a field is nested more deeply than this. -/
def Bounds (n : Nat) (declared : List Field) (m : List (String × Json)) : Prop :=
  ∀ x ∈ declared, ∀ j, m.lookup x.name = some j → depth j ≤ n

/-- The fields of a record are found among values, and give the record. -/
def Fields.Reads (f : Fields α) (m : List (String × Json)) (a : α) : Prop :=
  ∀ n, Bounds n f.declared m → f.Finds n (docs m) a

namespace Fields

variable {f : Fields (α → β)} {x : Fields α} {g : α → β} {a : α} {d : Decoder α} {j : Json}
variable {m m' : List (String × Json)} {name : String}

theorem Reads.finds (h : x.Reads m a) {n : Nat} (hn : depthMembers m ≤ n) :
    x.Finds n (docs m) a :=
  h n fun _ _ _ hj => Nat.le_trans (depth_le_depthMembers (mem_of_lookup hj)) hn

theorem Reads.congr (h : x.Reads m a) (hagree : Agree x.declared m m') : x.Reads m' a := by
  intro n hn
  refine (h n fun y hy j hj => hn y hy j ((hagree y hy).trans hj)).congr fun y hy => ?_
  rw [lookup_docs, lookup_docs, hagree y hy]

theorem reads_pure (m : List (String × Json)) (a : α) : (pure a : Fields α).Reads m a :=
  fun n _ => .pure n (docs m) a

theorem Reads.seq (hf : f.Reads m g) (hx : x.Reads m a) : (f <*> x).Reads m (g a) := fun n hn =>
  (hf n fun y hy => hn y (List.mem_append_left _ hy)).seq
    (hx n fun y hy => hn y (List.mem_append_right _ hy))

theorem Reads.map (hx : x.Reads m a) (f : α → β) : (f <$> x).Reads m (f a) :=
  (reads_pure m f).seq hx

theorem reads_required (h : Decodes d j a) (hj : m.lookup name = some j) :
    (required name d).Reads m a := fun _ hn =>
  finds_required (h.takes.mono (hn _ List.mem_cons_self j hj)) (by rw [lookup_docs, hj]; rfl)

theorem reads_optional (h : Decodes d j a) (hj : m.lookup name = some j) (absent : α) :
    (optional name d absent).Reads m a := fun _ hn =>
  finds_optional (h.takes.mono (hn _ List.mem_cons_self j hj)) (by rw [lookup_docs, hj]; rfl) absent

theorem reads_absent (hj : m.lookup name = none) (absent : α) :
    (optional name d absent).Reads m absent := fun _ _ =>
  finds_absent (by rw [lookup_docs, hj]; rfl) absent

end Fields

/-! ## Records -/

mutual

theorem skipped_ofJson : (j : Json) → (Doc.ofJson j).skipped = none
  | .null | .bool _ => rfl
  | .number _ | .string _ => rfl
  | .array l => by simp [Doc.ofJson, Doc.skipped, skippedItems_ofItems l, Ending.inSkippedList]
  | .object m => by
    simp [Doc.ofJson, Doc.skipped, skippedMembers_ofMembers m, Ending.inSkippedObject]

theorem skippedItems_ofItems : (l : List Json) → skippedItems (ofItems l) = none
  | [] => rfl
  | j :: r => by simp [ofItems, skippedItems, skipped_ofJson j, skippedItems_ofItems r]

theorem skippedMembers_ofMembers : (m : List (String × Json)) →
    skippedMembers (ofMembers m) = none
  | [] => rfl
  | (k, j) :: r => by
    simp [ofMembers, skippedMembers, skipped_ofJson j, skippedMembers_ofMembers r, Lexeme.ok]

end

/-- The members that may stand beside those of fields: they can be passed over. -/
def PassesOver (declared : List Field) (m : List (String × Doc)) : Prop :=
  ∀ e ∈ m, isDeclared declared e.1 = false → e.2.skipped = none

theorem passesOver_docs (declared : List Field) (m : List (String × Json)) :
    PassesOver declared (docs m) := by
  intro e he _
  obtain ⟨d, -, rfl⟩ := List.mem_map.mp he
  exact skipped_ofJson d.2

section Object

variable {f : Fields α} {n : Nat} {m : List (String × Doc)} {a : α}

theorem Fields.Finds.sorts (h : f.Finds n m a) (hdistinct : Distinct f.declared m) {c : Cursor}
    (hc : c.Admits n) {e : String × Doc} (he : e ∈ m) {x : Field} (hx : x ∈ f.declared)
    (hname : x.name = e.1) : x.accepts c e.2 = .ok () :=
  h.accepts c hc x hx e.2 (hname ▸ hdistinct.lookup he (hname ▸ isDeclared_of_mem hx))

/-- Members that no field declares are passed over. -/
theorem sortOut_passOver (h : f.Finds n m a) (hdistinct : Distinct f.declared m)
    (hpassed : PassesOver f.declared m) {c : Cursor} (hc : c.Admits n) :
    sortOut f.declared passOver c .closed (keyed m) [] = .ok (declaredOf f.declared m, []) := by
  have hsorts : ∀ e ∈ m, Sorts f.declared passOver c (fun _ => []) e := by
    intro e he
    refine ⟨fun x hx hname => h.sorts hdistinct hc he hx hname, fun hother => ?_⟩
    rw [passOver, hpassed e he hother]
    rfl
  rw [sortOut_keyed hdistinct hsorts [] (fun _ _ _ => rfl), List.nil_append,
    List.flatMap_eq_nil_iff.mpr fun _ _ => rfl]

theorem agree_declaredOf (declared : List Field) (m : List (String × γ)) :
    Agree declared m (declaredOf declared m) := fun _ hx =>
  lookup_filter (isDeclared_of_mem hx) m

/-- A record is taken from members in any order, among others that it does not declare. -/
theorem takes_record (title : String) (h : f.Finds n m a) (hdistinct : Distinct f.declared m)
    (hpassed : PassesOver f.declared m) :
    Takes (record title f) (n + 1) (.object (keyed m) .closed) a := by
  intro c hc
  obtain ⟨c', henter, hc'⟩ := Cursor.Admits.enter hc
  simp [record, henter, sortOut_passOver h hdistinct hpassed hc',
    h.build c' _ hc' (agree_declaredOf f.declared m), bind, Except.bind]

end Object

section Values

variable {f : Fields α} {m : List (String × Json)} {a : α}

theorem distinct_docs (h : (m.map Prod.fst).Nodup) (declared : List Field) :
    Distinct declared (docs m) :=
  distinct_of_nodup (by rwa [map_fst_docs]) declared

/-- A record is decoded from members in any order, among others that it does not declare. -/
theorem decodes_object (title : String) (h : f.Reads m a) (hnodup : (m.map Prod.fst).Nodup) :
    Decodes (record title f) (.object m) a := by
  have htakes := takes_record title (h.finds (Nat.le_refl _)) (distinct_docs hnodup f.declared)
    (passesOver_docs _ m)
  rwa [← ofMembers_eq] at htakes

/-- Members that a record may be encoded as: those of fields with different names, in declared
order, where some may be left out. -/
structure AreFields (declared : List Field) (m : List (String × Json)) : Prop where
  distinct : (declared.map Field.name).Nodup
  ordered : (m.map Prod.fst).Sublist (declared.map Field.name)

theorem AreFields.nodup {declared : List Field} {m : List (String × Json)}
    (h : AreFields declared m) : (m.map Prod.fst).Nodup :=
  h.ordered.nodup h.distinct

theorem decodes_record (title : String) (h : f.Reads m a) (hm : AreFields f.declared m) :
    Decodes (record title f) (.object m) a :=
  decodes_object title h hm.nodup

end Values

theorem depthMembers_append (m n : List (String × Json)) :
    depthMembers (m ++ n) = max (depthMembers m) (depthMembers n) := by
  induction m with
  | nil => simp [depthMembers]
  | cons e m ih => simp [depthMembers, ih, Nat.max_assoc]

/-! ## Records within records -/

section Flattened

variable {own : Fields α} {rest : Fields β} {n : Nat} {m : List (String × Doc)} {a : α} {b : β}

/-- What is left of a document when it was set aside. -/
def heard (x : Doc) : Json :=
  match Decoder.anything .ofValue x with
  | .ok j => j
  | .error _ => .null

theorem heard_of_takes {x : Doc} {j : Json} (h : Takes Decoder.anything n x j) : heard x = j := by
  rw [heard, h .ofValue (Cursor.admits_ofValue n)]

/-- Members as they are set aside. -/
def aside (m : List (String × Doc)) : List (String × Json) := m.map fun e => (e.1, heard e.2)

theorem aside_docs (m : List (String × Json)) : aside (docs m) = m := by
  have hheard : ∀ j, heard (Doc.ofJson j) = j := fun j =>
    heard_of_takes fun c hc => anything_ofJson j c hc
  rw [aside, docs, List.map_map]
  refine List.map_id'' (fun e => ?_) m
  rw [Function.comp_apply, hheard]

/-- The members that may stand beside those of fields: they can be set aside. -/
def SetsAside (n : Nat) (declared : List Field) (m : List (String × Doc)) : Prop :=
  ∀ e ∈ m, isDeclared declared e.1 = false → Takes Decoder.anything n e.2 (heard e.2)

/-- The members that are not declared are set aside. -/
theorem sortOut_setAside (hown : own.Finds n m a) (hdistinct : Distinct own.declared m)
    (hset : SetsAside n own.declared m) {c : Cursor} (hc : c.Admits n) :
    sortOut own.declared setAside c .closed (keyed m) [] =
      .ok (declaredOf own.declared m, aside (othersOf own.declared m)) := by
  have hsorts : ∀ e ∈ m, Sorts own.declared setAside c (fun e => [(e.1, heard e.2)]) e := by
    intro e he
    refine ⟨fun x hx hname => hown.sorts hdistinct hc he hx hname, fun hother => ?_⟩
    rw [setAside, hset e he hother c hc]
    rfl
  rw [sortOut_keyed hdistinct hsorts [] fun _ _ _ => rfl, List.nil_append, aside,
    List.map_eq_flatMap]

theorem isDeclared_eq_false {declared : List Field} {name : String}
    (h : name ∉ declared.map Field.name) : isDeclared declared name = false := by
  simp only [isDeclared, Option.isSome_eq_false_iff, Option.isNone_iff_eq_none, List.find?_eq_none]
  exact fun x hx hname => h (List.mem_map.mpr ⟨x, hx, by simpa using hname⟩)

/-- A record that holds another one is taken from the members of both in any order, among others
that neither declares. -/
theorem takes_flattened (title : String) (hown : own.Finds n m a)
    (hrest : rest.Reads (aside m) b) (hdistinct : Distinct own.declared m)
    (hdistinct' : Distinct rest.declared m) (hset : SetsAside n own.declared m)
    (hdisjoint : ∀ x ∈ rest.declared, x.name ∉ own.declared.map Field.name) :
    Takes (flattened title own rest) (n + 1) (.object (keyed m) .closed) (a, b) := by
  intro c hc
  obtain ⟨c', henter, hc'⟩ := Cursor.Admits.enter hc
  have hown' := sortOut_setAside hown hdistinct hset hc'
  have hleft : ∀ x ∈ rest.declared, (!isDeclared own.declared x.name) = true := fun x hx => by
    rw [isDeclared_eq_false (hdisjoint x hx), Bool.not_false]
  have hagree : Agree rest.declared (aside m) (aside (othersOf own.declared m)) := by
    intro x hx
    rw [aside, aside, lookup_map, lookup_map, othersOf,
      lookup_filter (q := fun k => !isDeclared own.declared k) (hleft x hx)]
  have hfinds := (hrest.congr hagree).finds (Nat.le_refl _)
  have hdistinct'' : Distinct rest.declared (docs (aside (othersOf own.declared m))) :=
    ((hdistinct'.sublist List.filter_sublist).map heard).map Doc.ofJson
  have hsort := sortOut_passOver hfinds hdistinct'' (passesOver_docs _ _)
    (Cursor.admits_ofBuffer _)
  simp [flattened, henter, hown', ofMembers_eq, hsort,
    hown.build c' _ hc' (agree_declaredOf own.declared m),
    hfinds.build .ofBuffer _ (Cursor.admits_ofBuffer _) (agree_declaredOf rest.declared _),
    bind, Except.bind, pure, Except.pure]

/-- A record that holds another one is decoded from the members of both in any order. -/
theorem decodes_flattened {m : List (String × Json)} (title : String) (hown : own.Reads m a)
    (hrest : rest.Reads m b) (hnodup : (m.map Prod.fst).Nodup)
    (hdisjoint : ∀ x ∈ rest.declared, x.name ∉ own.declared.map Field.name) :
    Decodes (flattened title own rest) (.object m) (a, b) := by
  have hset : SetsAside (depthMembers m) own.declared (docs m) := by
    intro e he _
    obtain ⟨d, hd, rfl⟩ := List.mem_map.mp he
    have htakes : Takes Decoder.anything (depth d.2) (Doc.ofJson d.2) d.2 := fun c hc =>
      anything_ofJson d.2 c hc
    rw [heard_of_takes htakes]
    exact htakes.mono (depth_le_depthMembers hd)
  have htakes := takes_flattened title (hown.finds (Nat.le_refl _)) ((aside_docs m).symm ▸ hrest)
    (distinct_docs hnodup _) (distinct_docs hnodup _) hset hdisjoint
  rwa [← ofMembers_eq] at htakes

end Flattened

end HostAgent.Json
