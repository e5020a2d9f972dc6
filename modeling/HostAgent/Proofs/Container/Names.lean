import HostAgent.Proofs.Container.Addresses

namespace HostAgent.Container.Daemon

/-!
# The name that a container is created under

A name goes into the query of a creation with every octet escaped that may not stand there as it is.
Whatever the name is, a daemon finds this one parameter and reads the name back from it. Only the
length of the address is left to go wrong: a name may be so long that no request can be made.
-/

open Text.Percent (IsEscaped encodeName isEscaped_encodeName decode_encodeName)

variable {cl : Client} {spec : Spec}

/-! ## Creations as requests -/

/-- What stands before the name in the target of a creation. -/
def beforeName : String := "/v1.24/containers/create?name="

theorem target_create (spec : Spec) :
    version ++ path (.create spec) = beforeName ++ encodeName spec.name := by
  have hstart : version ++ "/containers/create?name=" = beforeName := by decide
  rw [← hstart, String.append_assoc]
  rfl

def creation (spec : Spec) : Request :=
  requestOf .post (beforeName ++ encodeName spec.name) (some (createBody spec))

theorem answer_create (h : cl.Fits (.create spec)) :
    answer cl (.create spec) = .ask (I := interface) (creation spec) fun o =>
      .done (some (conclude (.create spec) (received o))) := by
  rw [answer_eq _ (target?_call (fun id hid => by cases hid) h), target_create]
  rfl

theorem sent_create {r : Request} (h : sent? (answer cl (.create spec)) = some r) :
    r = creation spec := by
  by_cases hfits : cl.Fits (.create spec)
  · rw [answer_create hfits] at h
    exact (Option.some.inj h).symm
  · rw [answer_of_not_fits hfits] at h
    cases h

theorem query_creation (spec : Spec) : query (creation spec) = [("name", spec.name)] := by
  have hfront : ∀ c ∈ (front (.create spec)).toList, inPath c = true := inPath_front nofun
  have hpairs : pairs? (.create spec) = some ("name=" ++ encodeName spec.name) := rfl
  rw [creation, ← target_create, version_path, query_requestOf hfront, hpairs, Option.getD_some,
    query_name]

/-- The target of a request ends in a text of unreserved characters and of escapes, of which one
reads the octets of a name; and the name is all that is in its query. -/
structure Names (r : Request) (name w : String) : Prop where
  target : r.target = beforeName ++ w
  escaped : IsEscaped w.toList
  decoded : Text.Percent.decode w.toList = Text.Utf8.encode name
  alone : query r = [("name", name)]

theorem names_creation (spec : Spec) : Names (creation spec) spec.name (encodeName spec.name) where
  target := rfl
  escaped := isEscaped_encodeName spec.name
  decoded := decode_encodeName spec.name
  alone := query_creation spec

/-! ## Lengths -/

/-- How many octets of the address of a creation are not those of the name. -/
def aroundName (cl : Client) : Nat :=
  addressFrame + 2 * (Text.Utf8.encode cl.socket).length + (Text.Utf8.encode beforeName).length

/-- Names of so many octets fit, behind any socket. -/
def maxName : Nat := 21759

theorem fits_create_iff :
    cl.Fits (.create spec) ↔ aroundName cl + (encodeName spec.name).toList.length ≤ maxAddress := by
  have hname := (isEscaped_encodeName spec.name).length
  rw [← Text.Utf8.encode] at hname
  rw [Client.Fits, addressLength, target_create, Text.Utf8.encode_append, List.length_append,
    hname, aroundName, ← Nat.add_assoc]

theorem length_beforeName : (Text.Utf8.encode beforeName).length = 30 := by decide

/-- A name that is not too long fits even if all of it has to be escaped. -/
theorem fits_of_length_le (hsocket : (Text.Utf8.encode cl.socket).length ≤ maxSocket)
    (hname : (Text.Utf8.encode spec.name).length ≤ maxName) : cl.Fits (.create spec) := by
  have hescaped := (Text.Percent.length_encodeName spec.name).2
  have hframe : addressFrame = 9 := by decide
  rw [maxSocket] at hsocket
  rw [maxName] at hname
  rw [fits_create_iff, aroundName, length_beforeName, hframe, maxAddress]
  omega

/-- A name that is too long does not fit even if nothing of it has to be escaped. -/
theorem not_fits_of_lt (hname : maxAddress < (Text.Utf8.encode spec.name).length) :
    ¬ cl.Fits (.create spec) := by
  have hescaped := (Text.Percent.length_encodeName spec.name).1
  rw [fits_create_iff]
  omega

/-- A creation is one request, whatever comes back for it, if its address is not too long, and ends
the client before any if it is; names of up to `maxName` octets never make it so. The request gives
the name and nothing besides, whatever the name is, and different names have different targets. -/
theorem names_addressed (cl : Client) (spec : Spec) :
    (cl.Fits (.create spec) → ∃ r w, Names r spec.name w ∧ r.method = .post ∧
      answer cl (.create spec) = .ask (I := interface) r fun o =>
        .done (some (conclude (.create spec) (received o)))) ∧
    (¬ cl.Fits (.create spec) → answer cl (.create spec) = .done none) ∧
    (cl.Fits (.create spec) ↔
      aroundName cl + (encodeName spec.name).toList.length ≤ maxAddress) ∧
    ((Text.Utf8.encode cl.socket).length ≤ maxSocket →
      (Text.Utf8.encode spec.name).length ≤ maxName → cl.Fits (.create spec)) ∧
    ∀ cl' spec' r r', sent? (answer cl (.create spec)) = some r →
      sent? (answer cl' (.create spec')) = some r' → spec.name ≠ spec'.name →
        r.target ≠ r'.target := by
  refine ⟨fun hfits => ?_, answer_of_not_fits, fits_create_iff, fits_of_length_le, ?_⟩
  · exact ⟨creation spec, _, names_creation spec, rfl, answer_create hfits⟩
  · intro cl' spec' r r' hr hr' hne heq
    rw [sent_create hr, sent_create hr'] at heq
    have hname : encodeName spec.name = encodeName spec'.name := by
      have hlist := congrArg String.toList heq
      simp only [creation, requestOf, String.toList_append] at hlist
      exact String.toList_inj.mp (List.append_cancel_left hlist)
    exact hne (Text.Percent.encodeName_injective hname)

/-- A name of signs that cut a query, cut it off, or begin an escape. -/
theorem names_addressed_marks :
    ∃ r w, Names r "a&b=#%41 ü" w ∧
      r.target = "/v1.24/containers/create?name=a%26b%3D%23%2541%20%C3%BC" ∧
      sent? (answer localDaemon (.create { (default : Spec) with name := "a&b=#%41 ü" })) =
        some r := by
  obtain ⟨hsent, -, -, hshort, -⟩ :=
    names_addressed localDaemon { (default : Spec) with name := "a&b=#%41 ü" }
  obtain ⟨r, w, hnames, -, hanswer⟩ := hsent (hshort (by decide) (by decide))
  have hr := congrArg sent? hanswer
  refine ⟨r, w, hnames, ?_, hr⟩
  rw [sent_create hr]
  decide +kernel

/-- A name that ends the client, though each of its characters stands for itself. -/
theorem name_too_long :
    answer localDaemon (.create { (default : Spec) with
      name := String.ofList (List.replicate 70000 'a') }) = .done none := by
  refine answer_of_not_fits (not_fits_of_lt ?_)
  have hlength : ∀ n, ((List.replicate n 'a').flatMap String.utf8EncodeChar).length = n := by
    intro n
    rw [List.length_flatMap, List.map_replicate, List.sum_replicate_nat]
    exact Nat.mul_one n
  rw [Text.Utf8.encode, String.toList_ofList, hlength]
  decide

end HostAgent.Container.Daemon
