import SpanReport.Proofs.Faults

/-!
# What a description is refused for

A description is refused for its first fault: that of its sources, then that of
its reports, each of them in order. `load_refused` says what the refusal is, from
the parts alone: nothing that comes after the fault plays a part.
-/

namespace SpanReport.Description

-- ---------------------------------------------------------------------------
-- The stages of a description
-- ---------------------------------------------------------------------------

namespace Stage

/-- A rule for one of the members of an object. -/
def entry (rule : Rule) (file : String × Json) : Stage where
  holds := rule.holds file.2
  finds fault := ∃ inner, rule.finds file.2 inner ∧ fault = inner.under (.member file.1)

end Stage

namespace Rule

def sources (disk : Disk) (base : Option Path) : Rule where
  holds := IsObject fun files => ∀ file ∈ files, IsSource disk base file.2
  finds := objectFinds "an object" (List.map (.entry (source disk base)))

def descriptionStages (disk : Disk) (base : Option Path) (members : List (String × Json)) :
    List Stage :=
  [.member "files" (sources disk base) members, .member "reports" (list "a list" report) members]

end Rule

section
variable {disk : Disk} {base : Option Path} {members : List (String × Json)} {v : Json}

/-- The first source at fault gives the fault of the sources. -/
theorem first_source (place : Place) (files : List (String × Json)) :
    First (fun file => IsSource disk base file.2)
        (fun file => source disk base (place ++ [.member file.1]) file.2 = .error (.refused r))
        files ↔
      ∃ fault, FirstFault (files.map (.entry (.source disk base))) fault ∧
        r = fault.refusal place := by
  simp only [(follows_source disk base).refuses, exists_refusal_under, first_exists, FirstFault,
    first_map]
  rfl

theorem decides_sources (disk : Disk) (base : Option Path) (members : List (String × Json)) :
    Decides [] (.member "files" (.sources disk base) members)
      (expectObject [.member "files"] "an object" (memberOr "files" (.object []) members) >>=
        fun files => (loadSources disk base .empty files).result) where
  ok := by
    simp only [exists_bind_ok, expectObject_ok, result_ok, loadSources_failure, Stage.member]
    rw [optionally_iff ⟨[], rfl, by simp⟩]
    rfl
  refused r := by
    cases hfiles : Json.member? "files" members with
    | none =>
      simp [memberOr, hfiles, expectObject, ok_bind, loadSources, Progress.result, Stage.member]
    | some v =>
      simp only [memberOr, Stage.member, hfiles, Option.getD_some, Option.some.injEq,
        exists_eq_left']
      rw [← exists_refusal_under]
      cases v with
      | object files =>
        simp only [expectObject, ok_bind, result_error, loadSources_error, Rule.sources,
          Rule.objectFinds]
        refine (first_source [.member "files"] files).trans ?_
        simp
      | _ =>
        simp [expectObject, refuse_bind, Rule.sources, Rule.objectFinds, Fault.refusal_cause,
          eq_comm]

/-- Reports are checked like the elements of any list. -/
theorem loadReports_result (d : Diagnostic) (listed : List (Json × Nat)) :
    (loadReports d listed).result = List.foldl Diagnostic.withReport d <$>
      listed.mapM fun (v, i) => report [.member "reports", .element i] v := by
  induction listed generalizing d with
  | nil => rfl
  | cons numbered listed ih =>
    obtain ⟨v, i⟩ := numbered
    rw [loadReports, List.mapM_cons]
    dsimp only
    cases report [.member "reports", .element i] v with
    | error failure => rfl
    | ok r => simp [ih, ok_bind]

theorem decides_reports (d : Diagnostic) (members : List (String × Json)) :
    Decides [] (.member "reports" (.list "a list" .report) members)
      (expectList [.member "reports"] "a list" (memberOr "reports" (.list []) members) >>=
        fun reports => (loadReports d reports.zipIdx).result) := by
  simp only [loadReports_result, ← map_bind]
  refine Decides.map ?_ _
  exact decides_member (follows_list follows_report _) ⟨[], rfl, by simp⟩

/-- Reports are loaded after the sources. -/
theorem load_object (disk : Disk) (base : Option Path) (members : List (String × Json)) :
    load disk base (.object members) =
      (expectObject [.member "files"] "an object" (memberOr "files" (.object []) members) >>=
        fun files => (loadSources disk base .empty files).result) >>= fun d =>
      expectList [.member "reports"] "a list" (memberOr "reports" (.list []) members) >>=
        fun reports => (loadReports d reports.zipIdx).result := by
  simp only [load, progress, expectObject]
  cases memberOr "files" (.object []) members with
  | object files =>
    simp only [ok_bind]
    cases hs : (loadSources disk base .empty files).failure with
    | some failure =>
      simp only [Progress.result, hs, Option.isSome_some, if_true]
      rfl
    | none =>
      simp only [Progress.result, hs, Option.isSome_none, Bool.false_eq_true, if_false, ok_bind]
      cases memberOr "reports" (.list []) members <;> rfl
  | _ => rfl

theorem meets_load (disk : Disk) (base : Option Path) (members : List (String × Json)) :
    Meets [] (Rule.descriptionStages disk base members) (load disk base (.object members)) := by
  rw [load_object]
  refine .bind (decides_sources disk base members) fun d _ => ?_
  rw [← bind_pure (expectList _ _ _ >>= _)]
  exact .bind (decides_reports d members) fun d _ => .ok d

-- ---------------------------------------------------------------------------
-- One report alone
-- ---------------------------------------------------------------------------

/-- A description of one report alone. -/
def alone (v : Json) : Json := .object [("reports", .list [v])]

theorem load_alone (disk : Disk) (base : Option Path) (v : Json) :
    load disk base (alone v) =
      Diagnostic.empty.withReport <$> report [.member "reports", .element 0] v := by
  have hload : load disk base (alone v) = (loadReports .empty [(v, 0)]).result := rfl
  rw [hload, loadReports]
  cases report [.member "reports", .element 0] v <;> rfl

theorem loads_alone : (∃ d, load disk base (alone v) = .ok d) ↔ IsReport v := by
  rw [load_alone, exists_map_ok, accepts_report]

theorem refused_alone : load disk base (alone v) = .error (.refused r) ↔
    ∃ fault, Rule.report.finds v fault ∧
      r = fault.refusal [.member "reports", .element 0] := by
  rw [load_alone, map_error, follows_report.refuses]

-- ---------------------------------------------------------------------------
-- The first refusal
-- ---------------------------------------------------------------------------

theorem Fault.refusal_inj {place : Place} {fault fault' : Fault}
    (h : fault.refusal place = fault'.refusal place) : fault = fault' := by
  obtain ⟨cause, inside⟩ := fault
  obtain ⟨cause', inside'⟩ := fault'
  simpa [refusal] using h

/-- What a description with some members is refused for: sources that are no
object, the first source at fault, and then reports that are no list, or the first
report that is refused alone, as it is refused then but for its number. -/
inductive FirstRefused (disk : Disk) (base : Option Path) (members : List (String × Json)) :
    Refusal → Prop
  | files {v : Json} (h : Json.member? "files" members = some v) (hv : ∀ files, v ≠ .object files) :
      FirstRefused disk base members { cause := .expected "an object" v, place := [.member "files"] }
  | source {v : Json} {fault : Fault}
      (h : Json.member? "files" members = some (.object (before ++ (name, v) :: after)))
      (hbefore : ∀ file ∈ before, IsSource disk base file.2)
      (hv : (Rule.source disk base).finds v fault) :
      FirstRefused disk base members (fault.refusal [.member "files", .member name])
  | reports {v : Json} (hfiles : Optionally "files" (Rule.sources disk base).holds members)
      (h : Json.member? "reports" members = some v) (hv : ∀ reports, v ≠ .list reports) :
      FirstRefused disk base members { cause := .expected "a list" v, place := [.member "reports"] }
  | report {v : Json} {fault : Fault}
      (hfiles : Optionally "files" (Rule.sources disk base).holds members)
      (h : Json.member? "reports" members = some (.list (before ++ v :: after)))
      (hbefore : ∀ x ∈ before, ∃ d, load disk base (alone x) = .ok d)
      (hv : load disk base (alone v) =
        .error (.refused (fault.refusal [.member "reports", .element 0]))) :
      FirstRefused disk base members
        (fault.refusal [.member "reports", .element before.length])

theorem refused_object : load disk base (.object members) = .error (.refused r) ↔
    FirstRefused disk base members r := by
  rw [meets_load]
  simp only [FirstFault, Rule.descriptionStages, first_cons, first_nil, and_false, or_false]
  constructor
  · rintro ⟨fault, hfiles | ⟨hfiles, hreports⟩, rfl⟩
    · obtain ⟨v, hv, inner, ⟨hobject, rfl⟩ | ⟨files, rfl, hfirst⟩, rfl⟩ := hfiles
      · exact .files hv hobject
      · obtain ⟨before, ⟨name, v⟩, after, rfl, hbefore, inner, hfault, rfl⟩ := first_map.mp hfirst
        exact .source hv hbefore hfault
    · obtain ⟨v, hv, inner, ⟨hlist, rfl⟩ | ⟨before, v, after, rfl, hbefore, inner, hfault, rfl⟩,
        rfl⟩ := hreports
      · exact .reports hfiles hv hlist
      · exact .report hfiles hv (fun x hx => loads_alone.mpr (hbefore x hx))
          (refused_alone.mpr ⟨inner, hfault, rfl⟩)
  · intro h
    cases h with
    | files h hv => exact ⟨_, .inl ⟨_, h, _, .inl ⟨hv, rfl⟩, rfl⟩, rfl⟩
    | source h hbefore hv =>
      exact ⟨_, .inl ⟨_, h, _, .inr ⟨_, rfl, first_map.mpr ⟨_, _, _, rfl, hbefore, _, hv, rfl⟩⟩, rfl⟩,
        rfl⟩
    | reports hfiles h hv => exact ⟨_, .inr ⟨hfiles, _, h, _, .inl ⟨hv, rfl⟩, rfl⟩, rfl⟩
    | report hfiles h hbefore hv =>
      obtain ⟨inner, hfault, hsame⟩ := refused_alone.mp hv
      obtain rfl := Fault.refusal_inj hsame
      exact ⟨_, .inr ⟨hfiles, _, h, _,
        .inr ⟨_, _, _, rfl, fun x hx => loads_alone.mp (hbefore x hx), _, hfault, rfl⟩, rfl⟩, rfl⟩

/-- Where a fault is inside of its value, as it is read after the value's place. -/
def Fault.rest (fault : Fault) : String :=
  String.join (fault.inside.map (PlaceStep.text false))

theorem place_text (name : String) (step : PlaceStep) (fault : Fault) :
    (fault.refusal [.member name, step]).place.text = name ++ step.text false ++ fault.rest := by
  simp [Fault.refusal, Fault.rest, Place.text, PlaceStep.text.eq_1, String.append_assoc]

theorem inFile_refused {failure : Failure} : failure.inFile path = .refused r ↔
    ∃ other, failure = .refused other ∧ r = { other with source := some path } := by
  cases failure <;> simp [Failure.inFile, eq_comm]

theorem refused_file : loadFile disk path = .error (.refused r) ↔
    ∃ other, r = { other with source := some path } ∧
      (fileValue disk path = .error (.refused other) ∨
        ∃ v, fileValue disk path = .ok v ∧
          load disk (some path.parent) v = .error (.refused other)) := by
  unfold loadFile fileProgress load
  cases fileValue disk path <;> simp [result_error, inFile_refused, and_comm]

/-- A description is refused for its first fault, and for nothing else. Before the
reports come the sources, each of them in order. A report is refused as it is alone,
for the first stage that it fails: its severity, its message, its markers, its hints,
as `Rule.reportStages` and `Rule.markerStages` list them. The place begins with the
part that is refused, and a file that is refused is the source of the refusal. -/
theorem load_refused (disk : Disk) (base : Option Path) :
    (∀ members r, load disk base (.object members) = .error (.refused r) ↔
      FirstRefused disk base members r) ∧
    (∀ v r, load disk base (alone v) = .error (.refused r) ↔
      ∃ fault, Rule.report.finds v fault ∧
        r = fault.refusal [.member "reports", .element 0]) ∧
    (∀ fault : Fault,
      (∀ name, (fault.refusal [.member "files", .member name]).place.text =
        "files." ++ name ++ fault.rest) ∧
      ∀ i, (fault.refusal [.member "reports", .element i]).place.text =
        "reports[" ++ Nat.repr i ++ "]" ++ fault.rest) ∧
    ∀ path r, loadFile disk path = .error (.refused r) ↔
      ∃ other, r = { other with source := some path } ∧
        (fileValue disk path = .error (.refused other) ∨
          ∃ v, fileValue disk path = .ok v ∧
            load disk (some path.parent) v = .error (.refused other)) := by
  refine ⟨fun members r => refused_object, fun v r => refused_alone, fun fault => ⟨?_, ?_⟩,
    fun path r => refused_file⟩
  · intro name
    rw [place_text, PlaceStep.text, if_neg Bool.false_ne_true, ← String.append_assoc]
    rfl
  · intro i
    rw [place_text, PlaceStep.text, ← String.append_assoc, ← String.append_assoc]
    rfl

-- The last member of the first marker at fault goes before the hints, and before
-- all of the next report.
example (disk : Disk) : load disk none (.object [("reports", .list [
    .object [("message", .text "m")],
    .object [("message", .text "m"), ("hints", .null), ("markers", .list [.object [
      ("file", .text "f"), ("begin", .list [.integer 1, .integer 1]),
      ("end", .list [.integer 1, .integer 2]), ("message", .bool true)]])],
    .null])]) =
    .error (.refused { cause := .expected "a string or a list of segments" (.bool true), place :=
      [.member "reports", .element 1, .member "markers", .element 0, .member "message"] }) := by
  rfl

end

end SpanReport.Description
