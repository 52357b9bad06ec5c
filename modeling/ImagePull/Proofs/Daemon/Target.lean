import ImagePull.Daemon.Query
import ImagePull.Proofs.ImageRef
import ImagePull.Proofs.Text.Percent

/-!
# Targets of requests

A target is a path and, behind a question mark, parameters with an ampersand between them, each a
name and a percent-encoded value with an equals sign between them. A target is read as what it was
written for (`ofText?_chars`): no mark that divides it stands in an encoded value. So a request to
pull asks for the repository, the tag or digest and the platform that are meant, whatever
characters they hold (`pullTarget_asks`).
-/

namespace ImagePull

/-- A target taken apart. The names stand as they were, the values are decoded. -/
structure Target where
  path : String
  parameters : List (String × String)
deriving DecidableEq, Repr

namespace Target

open Text.Percent (IsWritten decode? encode isUnreserved)

/-! ## Reading -/

/-- The name and the value of a parameter. -/
def parameter? (part : List Char) : Option (String × String) :=
  match part.splitOn '=' with
  | [name, value] => (decode? value).map (String.ofList name, ·)
  | _ => none

/-- What a target says, divided at its first question mark, at every ampersand behind that, and at
the equals sign of every parameter. -/
def ofText? (s : String) : Option Target :=
  match Text.cutFirst? '?' s.toList with
  | none => some ⟨s, []⟩
  | some (path, query) =>
    ((query.splitOn '&').mapM parameter?).map (⟨String.ofList path, ·⟩)

/-! ## Writing -/

/-- A parameter as it is written. -/
def written (parameter : String × String) : List Char :=
  parameter.1.toList ++ '=' :: (encode parameter.2).toList

/-- A target as it is written. -/
def chars (t : Target) : List Char :=
  t.path.toList ++ '?' :: ['&'].intercalate (t.parameters.map written)

/-- The characters that divide a target. -/
def marks : List Char := ['/', '?', '&', '=']

/-- No mark stands in an encoded value. -/
theorem not_mem_encode {mark : Char} (h : mark ∈ marks) (value : String) :
    mark ∉ (encode value).toList := by
  intro hmem
  have hclass := (Text.Percent.isWritten_encode value).isUnreserved_of_mem hmem
  have hall : ∀ c ∈ marks, ¬(isUnreserved c = true ∨ c = '%') := by simp [marks, isUnreserved]
  exact hall mark h hclass

/-- The marks of a target can be told apart: there is a parameter, no name holds an ampersand or an
equals sign, and the path holds no question mark. -/
structure IsDivisible (t : Target) : Prop where
  path : '?' ∉ t.path.toList
  parameters : t.parameters ≠ []
  names : ∀ p ∈ t.parameters, '&' ∉ p.1.toList ∧ '=' ∉ p.1.toList

theorem parameter?_written {p : String × String} (h : '=' ∉ p.1.toList) :
    parameter? (written p) = some p := by
  have hvalue : '=' ∉ (encode p.2).toList := not_mem_encode (by decide) p.2
  have hjoined : written p = ['='].intercalate [p.1.toList, (encode p.2).toList] := by
    simp [written, List.intercalate]
  have hsplit : (written p).splitOn '=' = [p.1.toList, (encode p.2).toList] := by
    rw [hjoined]
    refine List.splitOn_intercalate '=' ?_ (by simp)
    simp [h, hvalue]
  rw [parameter?, hsplit]
  simp only [Text.Percent.decode?_encode, Option.map_some, String.ofList_toList]

theorem mapM_parameter?_written {ps : List (String × String)} (h : ∀ p ∈ ps, '=' ∉ p.1.toList) :
    (ps.map written).mapM parameter? = some ps := by
  induction ps with
  | nil => rfl
  | cons p rest ih =>
      obtain ⟨hp, hrest⟩ := List.forall_mem_cons.mp h
      rw [List.map_cons, List.mapM_cons, parameter?_written hp, ih hrest]
      rfl

/-- **A target is read as what it was written for.** -/
theorem ofText?_chars {t : Target} (h : t.IsDivisible) :
    ofText? (String.ofList t.chars) = some t := by
  have hcut : Text.cutFirst? '?' t.chars
      = some (t.path.toList, ['&'].intercalate (t.parameters.map written)) :=
    Text.cutFirst?_eq_some.mpr ⟨rfl, h.path⟩
  have hsplit : (['&'].intercalate (t.parameters.map written)).splitOn '&'
      = t.parameters.map written := by
    refine List.splitOn_intercalate '&' ?_ (by simpa using h.parameters)
    intro part hpart
    obtain ⟨p, hp, rfl⟩ := List.mem_map.mp hpart
    have hvalue : '&' ∉ (encode p.2).toList := not_mem_encode (by decide) p.2
    simp [written, (h.names p hp).1, hvalue]
  have hread : (t.parameters.map written).mapM parameter? = some t.parameters :=
    mapM_parameter?_written fun p hp => (h.names p hp).2
  rw [ofText?, String.toList_ofList, hcut]
  simp only [hsplit, hread, Option.map_some, String.ofList_toList]

/-! ## Requests to pull -/

/-- What a request to pull asks for: the repository, the tag or digest, and the platform if one is
wanted. -/
def ofPull (repository asked : String) (platform : Option String) : Target where
  path := "/images/create"
  parameters := ("fromImage", repository) :: ("tag", asked)
    :: (platform.map (("platform", ·))).toList

theorem isDivisible_ofPull (repository asked : String) (platform : Option String) :
    (ofPull repository asked platform).IsDivisible where
  path := by simp [ofPull]
  parameters := by simp [ofPull]
  names := by cases platform <;> simp [ofPull]

theorem ofPull_inj {repository repository' asked asked' : String}
    {platform platform' : Option String} :
    ofPull repository asked platform = ofPull repository' asked' platform'
      ↔ repository = repository' ∧ asked = asked' ∧ platform = platform' := by
  cases platform <;> cases platform' <;> simp [ofPull]

theorem isWritten_encode (value : String) : IsWritten marks (encode value).toList :=
  (Text.Percent.isWritten_encode value).mono nofun

theorem filter_marks_encode (value : String) : (encode value).toList.filter marks.contains = [] := by
  rw [List.filter_eq_nil_iff]
  intro c hc hmark
  exact not_mem_encode (List.contains_iff_mem.mp hmark) value hc

end Target

namespace ImageRef

open Target (marks ofPull filter_marks_encode)
open Text.Percent (IsWritten encode isUnreserved)

variable {r : ImageRef} {asked : String}

theorem toList_pullTarget (h : r.pullTag = some asked) (platform : Option Platform) :
    (r.pullTarget platform).toList
      = "/images/create?fromImage=".toList ++ (encode r.repository).toList
        ++ "&tag=".toList ++ (encode asked).toList
        ++ platform.elim [] fun p => "&platform=".toList ++ (encode p.text).toList := by
  unfold pullTarget
  rw [h]
  cases platform <;> simp

theorem pullTarget_eq (h : r.pullTag = some asked) (platform : Option Platform) :
    r.pullTarget platform
      = String.ofList (ofPull r.repository asked (platform.map Platform.text)).chars := by
  rw [← String.toList_inj, String.toList_ofList, toList_pullTarget h]
  cases platform <;> simp [ofPull, Target.chars, Target.written, List.intercalate]

theorem ofText?_pullTarget (h : r.pullTag = some asked) (platform : Option Platform) :
    Target.ofText? (r.pullTarget platform)
      = some (ofPull r.repository asked (platform.map Platform.text)) := by
  rw [pullTarget_eq h]
  exact Target.ofText?_chars (Target.isDivisible_ofPull _ _ _)

/-- A target holds unreserved characters, escapes and its own marks. -/
theorem isWritten_pullTarget (h : r.pullTag = some asked) (platform : Option Platform) :
    IsWritten marks (r.pullTarget platform).toList := by
  have hword (cs : List Char) (hall : ∀ c ∈ cs, isUnreserved c = true ∨ c ∈ marks) :
      IsWritten marks cs := Text.Percent.isWritten_of_all hall
  rw [toList_pullTarget h]
  refine ((((hword _ ?_).append (Target.isWritten_encode _)).append (hword _ ?_)).append
    (Target.isWritten_encode _)).append ?_
  · simp [marks, isUnreserved]
  · simp [marks, isUnreserved]
  · cases platform with
    | none => exact .nil
    | some p =>
        refine (hword _ ?_).append (Target.isWritten_encode _)
        simp [marks, isUnreserved]

theorem filter_marks_pullTarget (h : r.pullTag = some asked) (platform : Option Platform) :
    (r.pullTarget platform).toList.filter marks.contains
      = "//?=&=".toList ++ platform.elim [] fun _ => "&=".toList := by
  rw [toList_pullTarget h]
  cases platform <;>
    simp only [Option.elim_none, Option.elim_some, List.filter_append, filter_marks_encode] <;>
    simp [marks]

/-- **A request to pull says what was asked.** Divided at its marks and decoded, the target for a
reference that was read is the path and the parameters that were meant, in this order and no
others, whatever a platform is called. It holds unreserved characters and escapes beside its own
marks, and it is the target for no other repository, tag or digest, or platform. -/
theorem pullTarget_asks {s : String} (h : parse s = .ok r) (platform : Option Platform) :
    ∃ asked, r.pullTag = some asked
      ∧ Target.ofText? (r.pullTarget platform)
        = some (ofPull r.repository asked (platform.map Platform.text))
      ∧ IsWritten marks (r.pullTarget platform).toList
      ∧ (r.pullTarget platform).toList.filter marks.contains
        = "//?=&=".toList ++ platform.elim [] (fun _ => "&=".toList)
      ∧ ∀ s' r' platform', parse s' = .ok r' → r'.pullTarget platform' = r.pullTarget platform →
          r'.repository = r.repository ∧ r'.pullTag = some asked
            ∧ platform'.map Platform.text = platform.map Platform.text := by
  obtain ⟨_, _, _, hholds⟩ := ofChars_eq_ok.mp h
  obtain ⟨asked, hasked, -⟩ := exists_pullTag hholds.asked
  refine ⟨asked, hasked, ofText?_pullTarget hasked platform, isWritten_pullTarget hasked platform,
    filter_marks_pullTarget hasked platform, ?_⟩
  intro s' r' platform' h' htarget
  obtain ⟨_, _, _, hholds'⟩ := ofChars_eq_ok.mp h'
  obtain ⟨asked', hasked', -⟩ := exists_pullTag hholds'.asked
  have hread := ofText?_pullTarget hasked' platform'
  rw [htarget, ofText?_pullTarget hasked platform, Option.some.injEq, Target.ofPull_inj] at hread
  obtain ⟨hrepository, hsame, hplatform⟩ := hread
  exact ⟨hrepository.symm, hsame ▸ hasked', hplatform.symm⟩

/-- The digest and the platform hold the characters that divide a target. -/
theorem pullTarget_asks_marked :
    let r : ImageRef := ⟨some "localhost:5000", "a.b//c", some "v-1", some "sha256:x@y:z"⟩
    let platform : Platform := .of "linux&tag=other" "é?#%2F " (some "=+")
    let target := "/images/create?fromImage=localhost%3A5000%2Fa.b%2F%2Fc&tag=sha256%3Ax%40y%3Az"
      ++ "&platform=linux%26tag%3Dother%2F%C3%A9%3F%23%252F%20%2F%3D%2B"
    parse " localhost:5000/a.b//c:v-1@sha256:x@y:z" = .ok r
      ∧ r.pullTarget platform = target
      ∧ Target.ofText? target = some
        { path := "/images/create"
          parameters := [("fromImage", "localhost:5000/a.b//c"), ("tag", "sha256:x@y:z"),
            ("platform", "linux&tag=other/é?#%2F /=+")] }
      ∧ IsWritten marks target.toList
      ∧ target.toList.filter marks.contains = "//?=&=&=".toList
      ∧ ∀ s' r' platform', parse s' = .ok r' → r'.pullTarget platform' = target →
          r'.repository = r.repository ∧ r'.pullTag = some "sha256:x@y:z"
            ∧ platform'.map Platform.text = some "linux&tag=other/é?#%2F /=+" := by
  intro r platform target
  have h : parse " localhost:5000/a.b//c:v-1@sha256:x@y:z" = .ok r := by decide +kernel
  have htarget : r.pullTarget platform = target := by decide +kernel
  obtain ⟨asked, hasked, hread, hwritten, hmarks, hunique⟩ := pullTarget_asks h (some platform)
  cases hasked
  rw [htarget] at hread hwritten hmarks hunique
  exact ⟨h, htarget, hread, hwritten, hmarks, hunique⟩

end ImageRef

end ImagePull
