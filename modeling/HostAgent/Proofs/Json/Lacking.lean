import HostAgent.Proofs.Json.Rearranged

namespace HostAgent.Json

/-!
# Members that are missing

Nothing is read where a record lacks a member that it cannot do without, at whatever place of a
value the record stands and whatever else the value holds. The lemmas follow the decoders from the
field that is missing outwards.
-/

variable {α β : Type}

/-- Some record within a value lacks a member that it cannot do without. -/
def Lacks : Schema → Json → Prop
  | .whole, _ => False
  | .record _ required _ within, j => ∃ m, j = .object m ∧
      ((∃ k ∈ required, k ∉ m.map Prod.fst) ∨ ∃ e ∈ m, Lacks (within e.1) e.2)
  | .table within, j => ∃ m, j = .object m ∧ ∃ e ∈ m, Lacks within e.2

/-- A decoder takes a document for nothing, wherever it stands. -/
def Refuses (d : Decoder α) (x : Doc) : Prop := ∀ c a, d c x ≠ .ok a

theorem Refuses.map {d : Decoder α} {x : Doc} (h : Refuses d x) (f : α → β) :
    Refuses (d.map f) x := by
  intro c b hb
  rw [Decoder.map] at hb
  cases hd : d c x with
  | error r =>
    rw [hd] at hb
    cases hb
  | ok a => exact h c a hd

theorem Refuses.accepting {d : Decoder α} {x : Doc} (h : Refuses d x) :
    Refuses (Fields.accepting d) x :=
  h.map fun _ => ()

theorem ok_of_bind {ε : Type} {x : Except ε α} {f : α → Except ε β} {b : β}
    (h : x >>= f = .ok b) : ∃ a, x = .ok a ∧ f a = .ok b := by
  cases x with
  | error e => cases h
  | ok a => exact ⟨a, rfl, h⟩

theorem ok_of_inside {segment : Segment} {x : Except Report α} {a : α}
    (h : inside segment x = .ok a) : x = .ok a := by
  cases x with
  | error r => cases h
  | ok b => exact h

/-! ## Fields -/

/-- The fields of a record give nothing where a member of one of these names is missing. -/
def Fields.Requires (f : Fields α) (names : List String) : Prop :=
  ∀ k ∈ names, ∀ c seen, seen.lookup k = none → ∀ a, f.build (.ofMembers c seen) ≠ .ok a

namespace Fields

theorem requires_required (name : String) (d : Decoder α) : (required name d).Requires [name] := by
  intro k hk c seen hseen a
  obtain rfl := List.mem_singleton.mp hk
  simp [required, Source.ofMembers, hseen, bind, Except.bind, throw, throwThe, MonadExceptOf.throw]

theorem requires_nil (f : Fields α) : f.Requires [] := nofun

theorem Requires.seq {f : Fields (α → β)} {x : Fields α} {l l' : List String}
    (hf : f.Requires l) (hx : x.Requires l') : (f <*> x).Requires (l ++ l') := by
  intro k hk c seen hseen b hb
  have hbuild : (f <*> x).build (.ofMembers c seen) =
      (do
        let g ← f.build (.ofMembers c seen)
        let a ← x.build (.ofMembers c seen)
        return g a) := rfl
  rw [hbuild] at hb
  obtain ⟨g, hg, hb⟩ := ok_of_bind hb
  obtain ⟨a, ha, -⟩ := ok_of_bind hb
  rcases List.mem_append.mp hk with hk | hk
  · exact hf k hk c seen hseen g hg
  · exact hx k hk c seen hseen a ha

theorem Requires.map {x : Fields α} {l : List String} (hx : x.Requires l) (f : α → β) :
    (f <$> x).Requires l :=
  (requires_nil (pure f)).seq hx

end Fields

/-! ## Sorting out -/

section Sorting

variable {declared : List Field} {other : Cursor → String → Doc → Except Report (List β)}
variable {c : Cursor} {ending : Ending} {m seen seen' : List (String × Doc)} {bs : List β}

theorem sortOut_cons (e : String × Doc) :
    sortOut declared other c ending (keyed (e :: m)) seen =
      match declared.find? fun f => f.name == e.1 with
      | some f => do
        if (seen.lookup e.1).isSome then throw (.ofFault (.duplicateField e.1))
        inside (.key e.1) (f.accepts c e.2)
        sortOut declared other c ending (keyed m) (seen ++ [(e.1, e.2)])
      | none => do
        let b ← inside (.key e.1) (other c e.1 e.2)
        let (seen, bs) ← sortOut declared other c ending (keyed m) seen
        return (seen, b ++ bs) := rfl

/-- Members that were sorted out: the declared ones are left and were accepted, the others were
handled, and what was made of them comes from them. -/
structure SortedOut (declared : List Field)
    (other : Cursor → String → Doc → Except Report (List β)) (c : Cursor)
    (m seen seen' : List (String × Doc)) (bs : List β) : Prop where
  seen_eq : seen' = seen ++ declaredOf declared m
  accepted : ∀ e ∈ m, ∀ x, (declared.find? fun f => f.name == e.1) = some x →
    x.accepts c e.2 = .ok ()
  handled : ∀ e ∈ m, isDeclared declared e.1 = false → ∃ l, other c e.1 e.2 = .ok l
  others : ∀ b ∈ bs, ∃ e ∈ m, ∃ l, other c e.1 e.2 = .ok l ∧ b ∈ l

theorem sortedOut_of_ok (h : sortOut declared other c ending (keyed m) seen = .ok (seen', bs)) :
    SortedOut declared other c m seen seen' bs := by
  induction m generalizing seen seen' bs with
  | nil =>
    obtain ⟨-, -, hend⟩ := ok_of_bind h
    cases hend
    exact ⟨(List.append_nil seen).symm, List.forall_mem_nil _, List.forall_mem_nil _,
      List.forall_mem_nil _⟩
  | cons e m ih =>
    rw [sortOut_cons] at h
    cases hfind : declared.find? fun f => f.name == e.1 with
    | some f =>
      have hdeclared : isDeclared declared e.1 = true := by rw [isDeclared, hfind]; rfl
      simp only [hfind] at h
      split at h
      next => cases h
      obtain ⟨_, haccept, h⟩ := ok_of_bind h
      have hrest := ih h
      refine ⟨?_, ?_, ?_, fun b hb => ?_⟩
      · rw [hrest.seen_eq, declaredOf_cons hdeclared, List.append_assoc, List.singleton_append]
      · refine List.forall_mem_cons.mpr ⟨fun x hx => ?_, hrest.accepted⟩
        rw [hfind] at hx
        cases hx
        exact ok_of_inside haccept
      · exact List.forall_mem_cons.mpr
          ⟨fun hother => Bool.noConfusion (hdeclared.symm.trans hother), hrest.handled⟩
      · obtain ⟨d, hd, hl⟩ := hrest.others b hb
        exact ⟨d, List.mem_cons_of_mem _ hd, hl⟩
    | none =>
      have hdeclared : isDeclared declared e.1 = false := by rw [isDeclared, hfind]; rfl
      simp only [hfind] at h
      obtain ⟨l, hother, h⟩ := ok_of_bind h
      obtain ⟨⟨seen₁, bs₁⟩, hsort, h⟩ := ok_of_bind h
      cases h
      have hrest := ih hsort
      refine ⟨?_, ?_, ?_, fun b hb => ?_⟩
      · rw [hrest.seen_eq, declaredOf_cons_other hdeclared]
      · refine List.forall_mem_cons.mpr ⟨fun x hx => ?_, hrest.accepted⟩
        rw [hfind] at hx
        cases hx
      · exact List.forall_mem_cons.mpr ⟨fun _ => ⟨l, ok_of_inside hother⟩, hrest.handled⟩
      · rcases List.mem_append.mp hb with hb | hb
        · exact ⟨e, List.mem_cons_self, l, ok_of_inside hother, hb⟩
        · obtain ⟨d, hd, hl⟩ := hrest.others b hb
          exact ⟨d, List.mem_cons_of_mem _ hd, hl⟩

end Sorting

/-! ## Records -/

section Records

variable {m : List (String × Doc)} {k : String}

theorem lookup_declaredOf_eq_none {declared : List Field} (hk : k ∉ m.map Prod.fst) :
    (declaredOf declared m).lookup k = none :=
  lookup_eq_none.mpr fun hmem => hk ((List.filter_sublist.map Prod.fst).subset hmem)

/-- A record is not taken from an object without a member that it requires. -/
theorem refuses_record (title : String) {f : Fields α} {names : List String}
    (h : f.Requires names) (hk : k ∈ names) (hm : k ∉ m.map Prod.fst) :
    Refuses (record title f) (.object (keyed m) .closed) := by
  intro c a ha
  obtain ⟨c', -, ha⟩ := ok_of_bind ha
  obtain ⟨⟨seen, bs⟩, hsort, hbuild⟩ := ok_of_bind ha
  have hseen := (sortedOut_of_ok hsort).seen_eq
  rw [List.nil_append] at hseen
  exact h k hk c' seen (hseen ▸ lookup_declaredOf_eq_none hm) a hbuild

/-- A record is not taken from an object if one of its fields refuses what it is given. -/
theorem refuses_record_member (title : String) {f : Fields α} {e : String × Doc} {x : Field}
    (he : e ∈ m) (hx : f.find? e.1 = some x) (hrefuses : Refuses x.accepts e.2) :
    Refuses (record title f) (.object (keyed m) .closed) := by
  intro c a ha
  obtain ⟨c', -, ha⟩ := ok_of_bind ha
  obtain ⟨⟨seen, bs⟩, hsort, -⟩ := ok_of_bind ha
  exact hrefuses c' () ((sortedOut_of_ok hsort).accepted e he x hx)

theorem mem_of_setAside {e : String × Doc} {c : Cursor} {l : List (String × Json)}
    {d : String × Json} (h : setAside c e.1 e.2 = .ok l) (hd : d ∈ l) : d.1 = e.1 := by
  obtain ⟨v, -, h⟩ := ok_of_bind h
  cases h
  rw [List.mem_singleton.mp hd]

/-- A record that holds another one is not taken from an object with another member that cannot be
set aside. -/
theorem refuses_flattened_other (title : String) {own : Fields α} {rest : Fields β}
    {e : String × Doc} (he : e ∈ m) (hother : isDeclared own.declared e.1 = false)
    (h : Refuses Decoder.anything e.2) :
    Refuses (flattened title own rest) (.object (keyed m) .closed) := by
  intro c a ha
  obtain ⟨c', -, ha⟩ := ok_of_bind ha
  obtain ⟨⟨seen, others⟩, hset, -⟩ := ok_of_bind ha
  obtain ⟨l, hl⟩ := (sortedOut_of_ok hset).handled e he hother
  obtain ⟨v, hv, -⟩ := ok_of_bind hl
  exact h c' v hv

/-- A record that holds another one is not taken from an object without a member that the other one
requires. -/
theorem refuses_flattened (title : String) {own : Fields α} {rest : Fields β}
    {names : List String} (h : rest.Requires names) (hk : k ∈ names) (hm : k ∉ m.map Prod.fst) :
    Refuses (flattened title own rest) (.object (keyed m) .closed) := by
  intro c a ha
  obtain ⟨c', -, ha⟩ := ok_of_bind ha
  obtain ⟨⟨seen, others⟩, hset, ha⟩ := ok_of_bind ha
  obtain ⟨_, -, ha⟩ := ok_of_bind ha
  obtain ⟨⟨seen', bs⟩, hsort, ha⟩ := ok_of_bind ha
  obtain ⟨b, hbuild, -⟩ := ok_of_bind ha
  have hothers : k ∉ (docs others).map Prod.fst := by
    rw [map_fst_docs, List.mem_map]
    rintro ⟨d, hd, rfl⟩
    obtain ⟨e, he, l, hl, hdl⟩ := (sortedOut_of_ok hset).others d hd
    exact hm (List.mem_map.mpr ⟨e, he, (mem_of_setAside hl hdl).symm⟩)
  rw [ofMembers_eq] at hsort
  have hseen := (sortedOut_of_ok hsort).seen_eq
  rw [List.nil_append] at hseen
  exact h k hk .ofBuffer seen' (hseen ▸ lookup_declaredOf_eq_none hothers) b hbuild

end Records

theorem refuses_sortedMap {d : Decoder α} {m : List (String × Doc)} {e : String × Doc}
    (he : e ∈ m) (h : Refuses d e.2) : Refuses d.sortedMap (.object (keyed m) .closed) := by
  have hmembers : ∀ c (l : List (String × α)), d.members c .closed (keyed m) ≠ .ok l := by
    intro c
    induction m with
    | nil => cases he
    | cons b m ih =>
      intro l hl
      have hcons : d.members c .closed (keyed (b :: m)) =
          (do
            let a ← inside (.key b.1) (d c b.2)
            let as ← d.members c .closed (keyed m)
            return (b.1, a) :: as) := rfl
      rw [hcons] at hl
      obtain ⟨a, ha, hl⟩ := ok_of_bind hl
      obtain ⟨as, has, -⟩ := ok_of_bind hl
      rcases List.mem_cons.mp he with rfl | he
      · exact h c a (ok_of_inside ha)
      · exact ih he as has
  intro c s hs
  obtain ⟨c', -, hs⟩ := ok_of_bind hs
  obtain ⟨l, hl, -⟩ := ok_of_bind hs
  exact hmembers c' l hl

/-! ## Schemas -/

/-- A decoder takes no text of a value for anything if a record in it lacks a member. -/
def RefusesLacking (d : Decoder α) (s : Schema) : Prop :=
  ∀ j, Lacks s j → Refuses d (Doc.spelled j)

theorem RefusesLacking.map {d : Decoder α} {s : Schema} (h : RefusesLacking d s) (f : α → β) :
    RefusesLacking (d.map f) s :=
  fun j hj => (h j hj).map f

theorem refusesLacking_record (title : String) {f : Fields α} {declared required : List String}
    {aside : Bool} {within : String → Schema} (h : f.Requires required)
    (hwithin : ∀ k j, Lacks (within k) j →
      ∃ x, f.find? k = some x ∧ Refuses x.accepts (Doc.spelled j)) :
    RefusesLacking (record title f) (.record declared required aside within) := by
  rintro j ⟨m, rfl, hlacks⟩
  rw [Doc.spelled, spelledMembers_eq]
  rcases hlacks with ⟨k, hk, hm⟩ | ⟨e, he, hlacks⟩
  · exact refuses_record title h hk (by rwa [map_fst_spellings])
  · obtain ⟨x, hx, hrefuses⟩ := hwithin e.1 e.2 hlacks
    exact refuses_record_member title (List.mem_map_of_mem he) hx hrefuses

theorem refusesLacking_flattened (title : String) {own : Fields α} {rest : Fields β}
    {declared required : List String} (h : rest.Requires required) :
    RefusesLacking (flattened title own rest) (.record declared required true fun _ => .whole) := by
  rintro j ⟨m, rfl, ⟨k, hk, hm⟩ | ⟨e, -, hlacks⟩⟩
  · rw [Doc.spelled, spelledMembers_eq]
    exact refuses_flattened title h hk (by rwa [map_fst_spellings])
  · cases hlacks

theorem refusesLacking_sortedMap {d : Decoder α} {s : Schema} (h : RefusesLacking d s) :
    RefusesLacking d.sortedMap (.table s) := by
  rintro j ⟨m, rfl, e, he, hlacks⟩
  rw [Doc.spelled, spelledMembers_eq]
  exact refuses_sortedMap (List.mem_map_of_mem he) (h e.2 hlacks)

end HostAgent.Json
