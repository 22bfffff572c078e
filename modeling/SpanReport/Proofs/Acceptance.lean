import SpanReport.Description.WellFormed
import SpanReport.Proofs.Outcomes
import SpanReport.Proofs.Utf8

/-!
# Which descriptions are loaded

`load_accepts`: a diagnostic is loaded from a value exactly if the value is a
well-formed description. The proof follows the checks from the names of styles
up to the whole description; each lemma reads the success of one check as the
rule that it decides, and the place of the value plays no part in it.
-/

namespace SpanReport.Description

/-- A check succeeds exactly on the values that are as said, wherever they stand. -/
def Accepts (check : Place → Json → Checked α) (P : Json → Prop) : Prop :=
  ∀ place v, (∃ x, check place v = .ok x) ↔ P v

-- ---------------------------------------------------------------------------
-- Shapes
-- ---------------------------------------------------------------------------

@[simp] theorem refuse_ok : (refuse place cause : Checked α) = .ok x ↔ False := by
  simp [refuse]

theorem expectObject_ok : expectObject place what v = .ok members ↔ v = .object members := by
  cases v <;> simp [expectObject]

theorem expectList_ok : expectList place what v = .ok elements ↔ v = .list elements := by
  cases v <;> simp [expectList]

theorem expectText_ok : expectText place v = .ok s ↔ v = .text s := by
  cases v <;> simp [expectText]

theorem required_ok : required place name members = .ok v ↔ Json.member? name members = some v := by
  unfold required
  split <;> simp_all

/-- A member that may be absent is as good as its default then. -/
theorem optionally_iff {P : Json → Prop} (h : P absent) :
    Optionally name P members ↔ P (memberOr name absent members) := by
  unfold Optionally memberOr
  cases Json.member? name members <;> simp [h]

theorem accepts_memberOr {check : Place → Json → Checked α} (h : Accepts check P) (ha : P absent) :
    (∃ x, check place (memberOr name absent members) = .ok x) ↔ Optionally name P members := by
  rw [h, optionally_iff ha]

theorem accepts_text : Accepts expectText AnyText := by
  intro place v
  simp [expectText_ok, AnyText, IsText]

theorem forall_zipIdx (elements : List Json) (P : Json → Prop) :
    (∀ numbered ∈ elements.zipIdx, P numbered.1) ↔ ∀ v ∈ elements, P v := by
  conv_rhs => rw [← List.zipIdx_map_fst 0 elements]
  rw [List.forall_mem_map]

theorem accepts_eachElement {check : Place → Json → Checked α} (h : Accepts check P) :
    (∃ xs, eachElement place check elements = .ok xs) ↔ ∀ v ∈ elements, P v := by
  simp only [eachElement, exists_mapM_ok, h _ _]
  exact forall_zipIdx elements P

theorem accepts_list {check : Place → Json → Checked α} (h : Accepts check P) :
    (∃ elements, expectList place what v = .ok elements ∧
      ∃ xs, eachElement place check elements = .ok xs) ↔ IsList P v := by
  simp only [expectList_ok, accepts_eachElement h, IsList]

theorem accepts_memberList {check : Place → Json → Checked α} (h : Accepts check P) :
    (∃ elements, expectList place what (memberOr name (.list []) members) = .ok elements ∧
      ∃ xs, eachElement place check elements = .ok xs) ↔ Optionally name (IsList P) members := by
  rw [accepts_list h, optionally_iff ⟨[], rfl, by simp⟩]

-- ---------------------------------------------------------------------------
-- Messages
-- ---------------------------------------------------------------------------

theorem isSome_code? (aspect : Aspect) (name : String) :
    (aspect.code? name).isSome ↔ name ∈ aspect.names.map Prod.fst := by
  rw [Aspect.code?, List.lookup_isSome_iff, List.mem_map]
  simp only [beq_iff_eq]
  exact exists_congr fun named => and_congr_right fun _ => eq_comm

theorem accepts_styleName (aspect : Aspect) : Accepts (styleName aspect) (IsStyleName aspect) := by
  intro place v
  cases v with
  | text name =>
    simp only [styleName, IsStyleName, IsText, ← isSome_code?]
    split <;> simp_all
  | _ => simp [styleName, IsStyleName, IsText]

theorem accepts_styleName? (aspect : Aspect) :
    Accepts (styleName? aspect) (IsStyleName? aspect) := by
  intro place v
  cases v with
  | null => simp [styleName?, IsStyleName?]
  | _ => simp [styleName?, exists_map_ok, accepts_styleName aspect place _, IsStyleName?]

theorem accepts_segment : Accepts segment IsSegment := by
  intro place v
  cases v with
  | text s => simp [segment, IsSegment, AnyText, IsText]
  | object members =>
    have htext : AnyText (.text "") := ⟨"", rfl, trivial⟩
    have hnull (aspect : Aspect) : IsStyleName? aspect .null := .inl rfl
    simp only [segment, exists_bind_ok, expectObject_ok, Json.object.injEq, Except.ok.injEq,
      exists_eq_left', exists_eq', and_true, exists_and_right,
      accepts_memberOr accepts_text htext, accepts_memberOr (accepts_styleName? _) (hnull _),
      accepts_memberList (accepts_styleName _)]
    simp [IsSegment, IsObject, AnyText, IsText]
  | _ => simp [segment, IsSegment, AnyText, IsText, IsObject, expectObject, exists_bind_ok]

theorem accepts_message : Accepts message IsMessage := by
  intro place v
  cases v with
  | text s => simp [message, IsMessage, AnyText, IsText]
  | list elements =>
    simp only [message, exists_bind_ok, Except.ok.injEq, exists_eq', and_true,
      accepts_list accepts_segment]
    simp [IsMessage, AnyText, IsText]
  | _ => simp [message, IsMessage, AnyText, IsText, IsList, expectList, exists_bind_ok]

-- ---------------------------------------------------------------------------
-- Markers and reports
-- ---------------------------------------------------------------------------

theorem point_ok : point place v = .ok (line, column) ↔
    v = .list [.integer line, .integer column] := by
  unfold point
  split <;> simp_all

/-- Four numbers make a span if they are those of two points in order. -/
theorem ofCoordinates_ok :
    (∃ span, Span.ofCoordinates ⟨beginLine, beginColumn, endLine, endColumn⟩ file = .ok span) ↔
      ∃ start stop : Point, 1 ≤ start.line ∧ 1 ≤ start.column ∧ 1 ≤ stop.line ∧ 1 ≤ stop.column ∧
        start.Before stop ∧ beginLine = start.line ∧ beginColumn = start.column ∧
        endLine = stop.line ∧ endColumn = stop.column := by
  unfold Span.ofCoordinates
  constructor
  · rintro ⟨span, h⟩
    split at h
    · rename_i hone
      dsimp only at hone h
      split at h
      · rename_i ordered
        refine ⟨⟨beginLine.toNat, beginColumn.toNat⟩, ⟨endLine.toNat, endColumn.toNat⟩,
          ?_, ?_, ?_, ?_, ordered, ?_, ?_, ?_, ?_⟩ <;> dsimp only <;> omega
      · cases h
    · cases h
  · rintro ⟨start, stop, h₁, h₂, h₃, h₄, ordered, rfl, rfl, rfl, rfl⟩
    rw [dif_pos (by dsimp only; omega)]
    dsimp only
    rw [dif_pos (by simpa using ordered)]
    exact ⟨_, rfl⟩

theorem severity_ok :
    (∃ severity, Severity.ofText s = .ok severity) ↔ Text.keyword s ∈ ["error", "warning"] := by
  have hsome : (∃ severity, Severity.ofText s = .ok severity) ↔ (Severity.ofText? s).isSome := by
    unfold Severity.ofText
    cases Severity.ofText? s <;> simp
  rw [hsome, Severity.ofText?, List.find?_isSome]
  simp [Severity.label, @eq_comm _ (Text.keyword s)]

theorem role_ok :
    (∃ role, Role.ofText s = .ok role) ↔ Text.keyword s ∈
      ["primary", "this", "context", "where", "suggestion", "maybe"] := by
  have hsome : (∃ role, Role.ofText s = .ok role) ↔ (Role.ofText? s).isSome := by
    unfold Role.ofText
    cases Role.ofText? s <;> simp
  rw [hsome, Role.ofText?, List.find?_isSome]
  simp [Role.label, Role.otherName, @eq_comm _ (Text.keyword s), or_assoc]

theorem accepts_word {ofText : String → Except UnknownWord α}
    (h : ∀ s, (∃ x, ofText s = .ok x) ↔ P s) :
    Accepts (fun place => word place ofText) (IsText P) := by
  intro place v
  cases v with
  | text s =>
    simp only [IsText, Json.text.injEq, exists_eq_left', ← h, word]
    split <;> simp_all
  | _ => simp [word, IsText]

/-- What a marker is made of. -/
theorem marker_ok : marker place v = .ok (span, ⟨role, text⟩) ↔
    ∃ members file beginLine beginColumn endLine endColumn, v = .object members ∧
      Json.member? "file" members = some (.text file) ∧
      Json.member? "begin" members = some (.list [.integer beginLine, .integer beginColumn]) ∧
      Json.member? "end" members = some (.list [.integer endLine, .integer endColumn]) ∧
      Span.ofCoordinates ⟨beginLine, beginColumn, endLine, endColumn⟩ file = .ok span ∧
      word (place ++ [.member "role"]) Role.ofText (memberOr "role" (.text "primary") members) =
        .ok role ∧
      message (place ++ [.member "message"]) (memberOr "message" (.text "") members) =
        .ok text := by
  constructor
  · intro h
    simp only [marker, bind_ok, expectObject_ok, required_ok, expectText_ok, Prod.exists,
      point_ok] at h
    obtain ⟨members, rfl, _, hfile, _, hbegin, _, hend, file, rfl, beginLine, beginColumn, rfl,
      endLine, endColumn, rfl, h⟩ := h
    refine ⟨members, file, beginLine, beginColumn, endLine, endColumn, rfl, hfile, hbegin, hend, ?_⟩
    split at h
    · rename_i span hspan
      simp only [bind_ok] at h
      obtain ⟨_, ⟨⟩, _, hrole, _, hmessage, ⟨⟩⟩ := h
      exact ⟨hspan, hrole, hmessage⟩
    · simp only [bind_ok, refuse_ok, false_and, exists_false] at h
  · rintro ⟨members, file, beginLine, beginColumn, endLine, endColumn, rfl, hfile, hbegin, hend,
      hspan, hrole, hmessage⟩
    simp only [marker, bind_ok, expectObject_ok, required_ok, expectText_ok, Prod.exists,
      point_ok]
    refine ⟨members, rfl, _, hfile, _, hbegin, _, hend, file, rfl, beginLine, beginColumn, rfl,
      endLine, endColumn, rfl, ?_⟩
    simp only [hspan, bind_ok]
    exact ⟨_, rfl, _, hrole, _, hmessage, rfl⟩

theorem accepts_marker : Accepts marker IsMarker := by
  intro place v
  have hrole : IsText (fun s => Text.keyword s ∈
      ["primary", "this", "context", "where", "suggestion", "maybe"]) (.text "primary") :=
    ⟨"primary", rfl, by decide⟩
  have hmessage : IsMessage (.text "") := .inl ⟨"", rfl, trivial⟩
  constructor
  · rintro ⟨⟨span, role, text⟩, h⟩
    obtain ⟨members, file, _, _, _, _, rfl, hf, hb, he, hs, hr, hm⟩ := marker_ok.mp h
    obtain ⟨start, stop, h₁, h₂, h₃, h₄, ordered, rfl, rfl, rfl, rfl⟩ :=
      ofCoordinates_ok.mp ⟨span, hs⟩
    exact ⟨members, rfl, ⟨_, hf, file, rfl, trivial⟩,
      ⟨start, stop, h₁, h₂, h₃, h₄, ordered, ⟨_, hb, rfl⟩, ⟨_, he, rfl⟩⟩,
      (accepts_memberOr (accepts_word fun _ => role_ok) hrole).mp ⟨role, hr⟩,
      (accepts_memberOr accepts_message hmessage).mp ⟨text, hm⟩⟩
  · rintro ⟨members, rfl, ⟨_, hf, file, rfl, -⟩,
      ⟨start, stop, h₁, h₂, h₃, h₄, ordered, ⟨_, hb, rfl⟩, ⟨_, he, rfl⟩⟩, hr, hm⟩
    obtain ⟨span, hs⟩ := ofCoordinates_ok.mpr
      ⟨start, stop, h₁, h₂, h₃, h₄, ordered, rfl, rfl, rfl, rfl⟩
    obtain ⟨role, hr⟩ := (accepts_memberOr (accepts_word fun _ => role_ok) hrole).mpr hr
    obtain ⟨text, hm⟩ := (accepts_memberOr accepts_message hmessage).mpr hm
    exact ⟨_, marker_ok.mpr ⟨members, file, _, _, _, _, rfl, hf, hb, he, hs, hr, hm⟩⟩

theorem accepts_report : Accepts report IsReport := by
  intro place v
  cases v with
  | object members =>
    have hseverity : IsText (fun s => Text.keyword s ∈ ["error", "warning"]) (.text "error") :=
      ⟨"error", rfl, by decide⟩
    simp only [report, exists_bind_ok, expectObject_ok, Json.object.injEq, Except.ok.injEq,
      exists_eq_left', exists_eq', and_true, exists_and_right, required_ok,
      accepts_memberOr (accepts_word (fun _ => severity_ok)) hseverity, accepts_message _ _,
      accepts_memberList accepts_message]
    simp only [← and_assoc, exists_and_right, accepts_memberList accepts_marker]
    simp [IsReport, IsObject, Requires, and_assoc]
  | _ => simp [report, IsReport, IsObject, expectObject, exists_bind_ok]

-- ---------------------------------------------------------------------------
-- Sources
-- ---------------------------------------------------------------------------

theorem fileText_ok : fileText disk path unreadable undecodable = .ok text ↔
    '\x00' ∉ path.text.toList ∧
      ∃ raw, disk.read path = .ok (Text.Utf8.encode raw) ∧ Text.unifyBreaks raw = text := by
  unfold fileText
  constructor
  · intro h
    split at h
    · cases h
    · rename_i hzero
      split at h
      · cases h
      · rename_i bytes hread
        split at h
        · cases h
        · rename_i raw hdecode
          obtain rfl := Text.Utf8.decode_ok.mp hdecode
          cases h
          exact ⟨by simpa using hzero, raw, hread, rfl⟩
  · rintro ⟨hzero, raw, hread, rfl⟩
    have hdecode : Text.Utf8.decode (Text.Utf8.encode raw) = .ok raw := Text.Utf8.decode_ok.mpr rfl
    simp [hzero, hread, hdecode]

theorem accepts_source (disk : Disk) (base : Option Path) :
    Accepts (source disk base) (IsSource disk base) := by
  intro place v
  cases v with
  | text s => simp [source, IsSource, AnyText, IsText]
  | object members =>
    simp [source, exists_bind_ok, expectObject_ok, required_ok, expectText_ok, fileText_ok,
      IsSource, AnyText, IsText, IsObject, Requires, IsReadable]
  | _ => simp [source, IsSource, AnyText, IsText, IsObject, expectObject, exists_bind_ok]

-- ---------------------------------------------------------------------------
-- Whole descriptions
-- ---------------------------------------------------------------------------

theorem loadSources_failure (disk : Disk) (base : Option Path) (d : Diagnostic)
    (files : List (String × Json)) :
    (loadSources disk base d files).failure = none ↔ ∀ file ∈ files, IsSource disk base file.2 := by
  induction files generalizing d with
  | nil => simp [loadSources]
  | cons file files ih =>
    obtain ⟨name, v⟩ := file
    rw [List.forall_mem_cons, ← accepts_source disk base [.member "files", .member name] v]
    unfold loadSources
    split <;> simp_all

theorem loadReports_failure (d : Diagnostic) (listed : List (Json × Nat)) :
    (loadReports d listed).failure = none ↔ ∀ numbered ∈ listed, IsReport numbered.1 := by
  induction listed generalizing d with
  | nil => simp [loadReports]
  | cons numbered listed ih =>
    obtain ⟨v, i⟩ := numbered
    rw [List.forall_mem_cons, ← accepts_report [.member "reports", .element i] v]
    unfold loadReports
    split <;> simp_all

theorem result_eq_ok {p : Progress} : p.result = .ok d ↔ p.failure = none ∧ p.diagnostic = d := by
  unfold Progress.result
  split <;> simp_all

theorem result_ok (p : Progress) : (∃ d, p.result = .ok d) ↔ p.failure = none := by
  simp [result_eq_ok]

theorem result_error {p : Progress} {failure : Failure} :
    p.result = .error failure ↔ p.failure = some failure := by
  unfold Progress.result
  split <;> simp_all

/-- A description in a file is loaded as what the file holds. -/
theorem loadFile_ok : loadFile disk path = .ok d ↔
    ∃ v, fileValue disk path = .ok v ∧ load disk (some path.parent) v = .ok d := by
  unfold loadFile fileProgress load
  cases fileValue disk path <;> simp [result_eq_ok]

/-- The parts of a description, each of them empty if it is absent. -/
theorem wellFormed_object : WellFormed disk base (.object members) ↔
    IsObject (fun files => ∀ file ∈ files, IsSource disk base file.2)
      (memberOr "files" (.object []) members) ∧
    IsList IsReport (memberOr "reports" (.list []) members) := by
  have hfiles : Optionally "files" (IsObject fun files => ∀ file ∈ files, IsSource disk base file.2)
      members ↔ _ := optionally_iff ⟨[], rfl, by simp⟩
  have hreports : Optionally "reports" (IsList IsReport) members ↔ _ :=
    optionally_iff ⟨[], rfl, by simp⟩
  rw [← hfiles, ← hreports]
  simp [WellFormed, IsObject]

/-- Reports are looked at only if no source is refused. -/
theorem progress_failure : (progress disk base (.object members)).failure = none ↔
    WellFormed disk base (.object members) := by
  rw [wellFormed_object]
  simp only [progress, expectObject]
  cases memberOr "files" (.object []) members with
  | object files =>
    have hobject : IsObject (fun files => ∀ file ∈ files, IsSource disk base file.2)
        (.object files) ↔ (loadSources disk base .empty files).failure = none := by
      simp only [IsObject, Json.object.injEq, exists_eq_left', loadSources_failure]
    rw [hobject]
    cases hs : (loadSources disk base .empty files).failure with
    | some failure => simp [hs]
    | none =>
      cases memberOr "reports" (.list []) members with
      | list reports =>
        simp only [hs, Option.isSome_none, Bool.false_eq_true, if_false, expectList,
          loadReports_failure, forall_zipIdx]
        simp [IsList]
      | _ => simp [hs, expectList, refuse, IsList]
  | _ => simp [refuse, IsObject]

/-- A diagnostic is loaded from a value exactly if the value is a well-formed
description: an object whose sources are texts or name files that hold UTF-8,
and whose reports have the parts that they need, each in its shape. Nothing is
asked of the disk but what the sources name. -/
theorem load_accepts (disk : Disk) (base : Option Path) (v : Json) :
    (∃ d, load disk base v = .ok d) ↔ WellFormed disk base v := by
  rw [load, result_ok]
  cases v with
  | object members => exact progress_failure
  | _ => simp [progress, expectObject, WellFormed, IsObject, refuse]

end SpanReport.Description
