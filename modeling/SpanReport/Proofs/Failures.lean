import SpanReport.Proofs.Acceptance
import SpanReport.Proofs.Paths

/-!
# How loading fails

Loading stops at the first source or report that is not as it should be, and
fails as that one does. `load_cases`: it is refused, unless the first source
that cannot be used has a zero character in its path.
-/

namespace SpanReport.Description

-- ---------------------------------------------------------------------------
-- Checks that only refuse
-- ---------------------------------------------------------------------------

/-- The check succeeds, or it refuses the value. -/
inductive Refuses : Checked α → Prop
  | ok (a : α) : Refuses (.ok a)
  | refused (r : Refusal) : Refuses (.error (.refused r))

theorem refuses_refuse (place : Place) (cause : Cause) :
    Refuses (refuse place cause : Checked α) := .refused _

theorem Refuses.bind {x : Checked α} {f : α → Checked β} (hx : Refuses x)
    (hf : ∀ a, Refuses (f a)) : Refuses (x >>= f) := by
  cases hx with
  | ok a => exact hf a
  | refused r => exact .refused r

theorem Refuses.map {x : Checked α} (hx : Refuses x) (f : α → β) : Refuses (f <$> x) := by
  cases hx with
  | ok a => exact .ok (f a)
  | refused r => exact .refused r

theorem zero_iff {x : Checked α} (h : Refuses x ∧ ¬P ∨ x = .error .zeroInPath ∧ P) :
    x = .error .zeroInPath ↔ P := by
  rcases h with ⟨h, hp⟩ | ⟨h, hp⟩
  · refine iff_of_false (fun he => ?_) hp
    rw [he] at h
    cases h
  · exact iff_of_true h hp

theorem refuses_mapM {f : α → Checked β} (h : ∀ x, Refuses (f x)) (xs : List α) :
    Refuses (xs.mapM f) := by
  induction xs with
  | nil => exact .ok _
  | cons x xs ih =>
    rw [List.mapM_cons]
    exact (h x).bind fun y => ih.bind fun ys => .ok _

theorem refuses_expectObject (place : Place) (what : String) (v : Json) :
    Refuses (expectObject place what v) := by
  cases v with
  | object members => exact .ok members
  | _ => exact refuses_refuse _ _

theorem refuses_expectList (place : Place) (what : String) (v : Json) :
    Refuses (expectList place what v) := by
  cases v with
  | list elements => exact .ok elements
  | _ => exact refuses_refuse _ _

theorem refuses_expectText (place : Place) (v : Json) : Refuses (expectText place v) := by
  cases v with
  | text s => exact .ok s
  | _ => exact refuses_refuse _ _

theorem refuses_required (place : Place) (name : String) (members : List (String × Json)) :
    Refuses (required place name members) := by
  unfold required
  split
  · exact .ok _
  · exact refuses_refuse _ _

theorem refuses_eachElement {check : Place → Json → Checked α}
    (h : ∀ place v, Refuses (check place v)) (place : Place) (elements : List Json) :
    Refuses (eachElement place check elements) :=
  refuses_mapM (fun _ => h _ _) _

theorem refuses_styleName (aspect : Aspect) (place : Place) (v : Json) :
    Refuses (styleName aspect place v) := by
  unfold styleName
  split
  · split
    · exact .ok _
    · exact refuses_refuse _ _
  · exact refuses_refuse _ _

theorem refuses_styleName? (aspect : Aspect) (place : Place) (v : Json) :
    Refuses (styleName? aspect place v) := by
  unfold styleName?
  split
  · exact .ok _
  · exact (refuses_styleName aspect place v).map some

theorem refuses_segment (place : Place) (v : Json) : Refuses (segment place v) := by
  unfold segment
  split
  · exact .ok _
  · exact (refuses_expectObject ..).bind fun _ => (refuses_expectText ..).bind fun _ =>
      (refuses_styleName? ..).bind fun _ => (refuses_styleName? ..).bind fun _ =>
      (refuses_expectList ..).bind fun _ =>
      (refuses_eachElement (refuses_styleName _) ..).bind fun _ => Refuses.ok _

theorem refuses_message (place : Place) (v : Json) : Refuses (message place v) := by
  unfold message
  split
  · exact .ok _
  · exact (refuses_expectList ..).bind fun _ =>
      (refuses_eachElement refuses_segment ..).bind fun _ => Refuses.ok _

theorem refuses_point (place : Place) (v : Json) : Refuses (point place v) := by
  unfold point
  split
  · exact .ok _
  · exact refuses_refuse _ _

theorem refuses_word (place : Place) (ofText : String → Except UnknownWord α) (v : Json) :
    Refuses (word place ofText v) := by
  unfold word
  split
  · split
    · exact .ok _
    · exact refuses_refuse _ _
  · exact refuses_refuse _ _

theorem refuses_marker (place : Place) (v : Json) : Refuses (marker place v) := by
  refine (refuses_expectObject ..).bind fun members => ?_
  refine (refuses_required ..).bind fun file => ?_
  refine (refuses_required ..).bind fun start => ?_
  refine (refuses_required ..).bind fun stop => ?_
  refine (refuses_expectText ..).bind fun file => ?_
  refine (refuses_point ..).bind fun start => ?_
  refine (refuses_point ..).bind fun stop => ?_
  dsimp only
  split
  · exact (Refuses.ok _).bind fun _ => (refuses_word ..).bind fun _ =>
      (refuses_message ..).bind fun _ => Refuses.ok _
  · exact (refuses_refuse ..).bind fun _ => (refuses_word ..).bind fun _ =>
      (refuses_message ..).bind fun _ => Refuses.ok _

theorem refuses_report (place : Place) (v : Json) : Refuses (report place v) :=
  (refuses_expectObject ..).bind fun _ => (refuses_word ..).bind fun _ =>
    (refuses_required ..).bind fun _ => (refuses_message ..).bind fun _ =>
    (refuses_expectList ..).bind fun _ => (refuses_eachElement refuses_marker ..).bind fun _ =>
    (refuses_expectList ..).bind fun _ => (refuses_eachElement refuses_message ..).bind fun _ =>
    Refuses.ok _

-- ---------------------------------------------------------------------------
-- Sources
-- ---------------------------------------------------------------------------

/-- A source that is a file with a zero character in its path: in the name that
is given, or in the directory that a relative name starts at. -/
def NamesZero (base : Option Path) (v : Json) : Prop :=
  IsObject (Requires "path" (IsText fun name => '\x00' ∈ name.toList ∨
    (Path.parse name).isAbsolute = false ∧ ∃ directory ∈ base, directory.HasZero)) v

theorem hasZero_sourcePath (base : Option Path) (name : String) :
    (sourcePath base name).HasZero ↔ '\x00' ∈ name.toList ∨
      (Path.parse name).isAbsolute = false ∧ ∃ directory ∈ base, directory.HasZero := by
  cases base with
  | none => simp [sourcePath, Path.hasZero_parse]
  | some directory => simp [sourcePath, Path.hasZero_within, Path.hasZero_parse]

section
variable {disk : Disk} {base : Option Path} {place : Place} {v : Json} {failure : Failure}

theorem fileText_error {unreadable : DiskFault → Failure}
    {undecodable : Text.Utf8.Refusal → Failure}
    (h : fileText disk path unreadable undecodable = .error failure) :
    path.HasZero ∧ failure = .zeroInPath ∨
      ¬path.HasZero ∧ ((∃ fault, failure = unreadable fault) ∨
        ∃ reason, failure = undecodable reason) := by
  have hcontains : path.text.contains '\x00' = true ↔ path.HasZero := by simp [Path.HasZero]
  unfold fileText at h
  split at h
  · rename_i hzero
    cases h
    exact .inl ⟨hcontains.mp hzero, rfl⟩
  · rename_i hzero
    refine .inr ⟨fun hz => hzero (hcontains.mpr hz), ?_⟩
    split at h
    · cases h
      exact .inl ⟨_, rfl⟩
    · split at h
      · cases h
        exact .inr ⟨_, rfl⟩
      · cases h

theorem fileText_of_hasZero (h : path.HasZero) (disk : Disk) (unreadable : DiskFault → Failure)
    (undecodable : Text.Utf8.Refusal → Failure) :
    fileText disk path unreadable undecodable = .error .zeroInPath := by
  have hzero : path.text.contains '\x00' = true := by simpa [Path.HasZero] using h
  rw [fileText, if_pos hzero]

theorem namesZero_object {members : List (String × Json)} :
    NamesZero base (.object members) ↔
      ∃ name, Json.member? "path" members = some (.text name) ∧ (sourcePath base name).HasZero := by
  simp only [NamesZero, IsObject, Requires, IsText, Json.object.injEq, exists_eq_left',
    ← hasZero_sourcePath]
  constructor
  · rintro ⟨_, hpath, name, rfl, hz⟩
    exact ⟨name, hpath, hz⟩
  · rintro ⟨name, hpath, hz⟩
    exact ⟨_, hpath, name, rfl, hz⟩

/-- Only reading the file can do anything else than refuse the source. -/
theorem source_cases (disk : Disk) (base : Option Path) (place : Place) (v : Json) :
    Refuses (source disk base place v) ∧ ¬NamesZero base v ∨
      source disk base place v = .error .zeroInPath ∧ NamesZero base v := by
  cases v with
  | object members =>
    rw [namesZero_object]
    simp only [source, expectObject, ok_bind, required]
    cases Json.member? "path" members with
    | none => exact .inl ⟨.refused _, by simp⟩
    | some named =>
      cases named with
      | text name =>
        simp only [ok_bind, expectText]
        by_cases hz : (sourcePath base name).HasZero
        · rw [fileText_of_hasZero hz]
          exact .inr ⟨rfl, name, rfl, hz⟩
        · refine .inl ⟨?_, by simpa using hz⟩
          refine Refuses.bind ?_ fun text => .ok _
          generalize htext : fileText disk _ _ _ = text
          cases text with
          | ok text => exact .ok text
          | error failure =>
            rcases fileText_error htext with ⟨h, -⟩ | ⟨-, ⟨_, rfl⟩ | ⟨_, rfl⟩⟩
            · exact absurd h hz
            · exact .refused _
            · exact .refused _
      | _ => exact .inl ⟨.refused _, by simp⟩
  | text s =>
    refine .inl ⟨.ok s, ?_⟩
    rintro ⟨_, ⟨⟩, -⟩
  | _ =>
    refine .inl ⟨.refused _, ?_⟩
    rintro ⟨_, ⟨⟩, -⟩

theorem source_zero : source disk base place v = .error .zeroInPath ↔ NamesZero base v :=
  zero_iff (source_cases disk base place v)

-- ---------------------------------------------------------------------------
-- The first part that fails
-- ---------------------------------------------------------------------------

/-- Sources are loaded in order, up to the first one that cannot be used. -/
theorem loadSources_error {d : Diagnostic} {files : List (String × Json)} :
    (loadSources disk base d files).failure = some failure ↔
      First (fun file => IsSource disk base file.2)
        (fun file => source disk base [.member "files", .member file.1] file.2 = .error failure)
        files := by
  induction files generalizing d with
  | nil => exact iff_of_false nofun first_nil
  | cons file files ih =>
    rw [first_cons, ← accepts_source disk base [.member "files", .member file.1], loadSources]
    cases source disk base [.member "files", .member file.1] file.2 with
    | error other => simp
    | ok text => simp [ih]

theorem loadReports_error {d : Diagnostic} {listed : List (Json × Nat)} :
    (loadReports d listed).failure = some failure ↔
      First (fun numbered => IsReport numbered.1)
        (fun numbered =>
          report [.member "reports", .element numbered.2] numbered.1 = .error failure)
        listed := by
  induction listed generalizing d with
  | nil => exact iff_of_false nofun first_nil
  | cons numbered listed ih =>
    rw [first_cons, ← accepts_report [.member "reports", .element numbered.2], loadReports]
    cases report [.member "reports", .element numbered.2] numbered.1 with
    | error other => simp
    | ok r => simp [ih]

/-- The first source that cannot be used has a zero character in its path. -/
def MeetsZero (disk : Disk) (base : Option Path) (v : Json) : Prop :=
  IsObject (Requires "files" (IsObject
    (First (fun file => IsSource disk base file.2) fun file => NamesZero base file.2))) v

theorem first_namesZero (d : Diagnostic) (files : List (String × Json)) :
    First (fun file => IsSource disk base file.2) (fun file => NamesZero base file.2) files ↔
      (loadSources disk base d files).failure = some .zeroInPath := by
  simp only [loadSources_error, source_zero]

/-- Without sources none of them can fail. -/
theorem meetsZero_object {members : List (String × Json)} :
    MeetsZero disk base (.object members) ↔
      IsObject (First (fun file => IsSource disk base file.2) fun file => NamesZero base file.2)
        (memberOr "files" (.object []) members) := by
  unfold MeetsZero memberOr
  cases hfiles : Json.member? "files" members with
  | none => simp [IsObject, Requires, hfiles, first_nil]
  | some files => simp [IsObject, Requires, hfiles]

theorem loadSources_refuses {d : Diagnostic} {files : List (String × Json)}
    (h : (loadSources disk base d files).failure = some failure) (hz : failure ≠ .zeroInPath) :
    ∃ r, failure = .refused r := by
  obtain ⟨_, file, _, -, -, hfails⟩ := loadSources_error.mp h
  rcases source_cases disk base [.member "files", .member file.1] file.2 with ⟨hr, -⟩ | ⟨he, -⟩
  · rw [hfails] at hr
    cases hr
    exact ⟨_, rfl⟩
  · rw [hfails] at he
    cases he
    exact absurd rfl hz

theorem loadReports_refuses (d : Diagnostic) (listed : List (Json × Nat)) :
    Refuses (loadReports d listed).result := by
  cases hf : (loadReports d listed).failure with
  | none =>
    rw [Progress.result, hf]
    exact .ok _
  | some failure =>
    obtain ⟨_, numbered, _, -, -, hfails⟩ := loadReports_error.mp hf
    have hr := refuses_report [.member "reports", .element numbered.2] numbered.1
    rw [hfails] at hr
    rw [Progress.result, hf]
    cases hr
    exact .refused _

/-- A description is loaded or refused, but for a zero character in a path. -/
theorem load_cases (disk : Disk) (base : Option Path) (v : Json) :
    Refuses (load disk base v) ∧ ¬MeetsZero disk base v ∨
      load disk base v = .error .zeroInPath ∧ MeetsZero disk base v := by
  cases v with
  | object members =>
    rw [meetsZero_object]
    simp only [load, progress, expectObject]
    cases memberOr "files" (.object []) members with
    | object files =>
      simp only [IsObject, Json.object.injEq, exists_eq_left', first_namesZero .empty files]
      cases hs : (loadSources disk base .empty files).failure with
      | some failure =>
        simp only [Option.isSome_some, if_true, Progress.result, hs]
        by_cases hz : failure = .zeroInPath
        · subst hz
          exact .inr ⟨rfl, rfl⟩
        · obtain ⟨r, rfl⟩ := loadSources_refuses hs hz
          exact .inl ⟨.refused r, by simp⟩
      | none =>
        refine .inl ⟨?_, by simp⟩
        simp only [Option.isSome_none, Bool.false_eq_true, if_false]
        cases memberOr "reports" (.list []) members with
        | list reports => exact loadReports_refuses _ _
        | _ => exact .refused _
    | _ => exact .inl ⟨.refused _, by simp [IsObject]⟩
  | _ =>
    refine .inl ⟨.refused _, ?_⟩
    rintro ⟨_, ⟨⟩, -⟩

theorem load_zero : load disk base v = .error .zeroInPath ↔ MeetsZero disk base v :=
  zero_iff (load_cases disk base v)

-- ---------------------------------------------------------------------------
-- Descriptions in files
-- ---------------------------------------------------------------------------

theorem meetsZero_sourceNames (h : MeetsZero disk base v) :
    ∃ name ∈ sourceNames v, '\x00' ∈ name.toList ∨ ∃ directory ∈ base, directory.HasZero := by
  obtain ⟨members, rfl, _, hfiles, files, rfl, before, file, after, rfl, -, hzero⟩ := h
  obtain ⟨fields, hfields, _, hpath, name, rfl, hz⟩ := hzero
  refine ⟨name, ?_, hz.imp_right And.right⟩
  simp only [sourceNames, hfiles]
  refine List.mem_filterMap.mpr ⟨file, by simp, ?_⟩
  simp only [hfields, hpath]

theorem fileValue_error (h : fileValue disk path = .error failure) :
    (∃ r, failure = .refused r) ∨ (∃ fault, failure = .unreadable path fault) ∨
      failure = .zeroInPath ∧ path.HasZero := by
  unfold fileValue at h
  generalize htext : fileText disk path _ _ = text at h
  cases text with
  | error other =>
    cases h
    rcases fileText_error htext with ⟨hz, rfl⟩ | ⟨-, ⟨fault, rfl⟩ | ⟨_, rfl⟩⟩
    · exact .inr (.inr ⟨rfl, hz⟩)
    · exact .inr (.inl ⟨fault, rfl⟩)
    · exact .inl ⟨_, rfl⟩
  | ok text =>
    rw [ok_bind] at h
    split at h
    · cases h
    · cases h
      exact .inl ⟨_, rfl⟩

/-- How a description in a file fails: for what it says, since the file is not
read, or for a zero character in a path. -/
theorem loadFile_error (h : loadFile disk path = .error failure) :
    (∃ r, failure = .refused r) ∨ (∃ fault, failure = .unreadable path fault) ∨
      failure = .zeroInPath ∧ (path.HasZero ∨
        ∃ v, fileValue disk path = .ok v ∧ MeetsZero disk (some path.parent) v) := by
  unfold loadFile fileProgress at h
  cases hv : fileValue disk path with
  | error other =>
    simp only [hv, Progress.result] at h
    cases h
    rcases fileValue_error hv with ⟨r, rfl⟩ | ⟨fault, rfl⟩ | ⟨rfl, hz⟩
    · exact .inl ⟨_, rfl⟩
    · exact .inr (.inl ⟨fault, rfl⟩)
    · exact .inr (.inr ⟨rfl, .inl hz⟩)
  | ok v =>
    have hload := load_cases disk (some path.parent) v
    simp only [hv, Progress.result] at h
    unfold load Progress.result at hload
    cases hp : (progress disk (some path.parent) v).failure with
    | none => simp [hp] at h
    | some other =>
      simp only [hp, Option.map_some] at h hload
      cases h
      rcases hload with ⟨hr, -⟩ | ⟨he, hz⟩
      · cases hr
        exact .inl ⟨_, rfl⟩
      · cases he
        exact .inr (.inr ⟨rfl, .inr ⟨v, rfl, hz⟩⟩)

end

end SpanReport.Description
