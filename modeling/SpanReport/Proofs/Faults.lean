import SpanReport.Proofs.Failures

/-!
# The first fault of a value

A check goes through stages, and what it refuses a value for is the fault of the
first stage that does not hold. The stages of each check are listed here, in order
and apart from the checks; a fault says why a value is refused and where in it.
`follows_report` and `follows_source`: the checks find just these faults, at the
place where the value stands.
-/

namespace SpanReport.Description

-- ---------------------------------------------------------------------------
-- Faults and stages
-- ---------------------------------------------------------------------------

structure Fault where
  cause : Cause
  inside : Place := []

/-- The fault of a part, as one of the whole. -/
def Fault.under (step : PlaceStep) (fault : Fault) : Fault :=
  { fault with inside := step :: fault.inside }

/-- The refusal of a value that stands at a place. -/
def Fault.refusal (place : Place) (fault : Fault) : Refusal :=
  { cause := fault.cause, place := place ++ fault.inside }

theorem Fault.refusal_under (place : Place) (step : PlaceStep) (fault : Fault) :
    (fault.under step).refusal place = fault.refusal (place ++ [step]) := by
  simp [refusal, under]

structure Stage where
  holds : Prop
  finds : Fault → Prop

/-- The fault is found in the first stage that does not hold. -/
def FirstFault (stages : List Stage) (fault : Fault) : Prop :=
  First Stage.holds (fun stage => stage.finds fault) stages

structure Rule where
  holds : Json → Prop
  finds : Json → Fault → Prop

namespace Stage

def present (name : String) (members : List (String × Json)) : Stage where
  holds := ∃ v, Json.member? name members = some v
  finds fault := Json.member? name members = none ∧ fault = { cause := .missing name }

/-- A rule for a member, if it is there. -/
def member (name : String) (rule : Rule) (members : List (String × Json)) : Stage where
  holds := Optionally name rule.holds members
  finds fault := ∃ v, Json.member? name members = some v ∧
    ∃ inner, rule.finds v inner ∧ fault = inner.under (.member name)

end Stage

namespace Rule

/-- A rule that gives one cause for all that break it. -/
def plain (P : Json → Prop) (cause : Json → Cause) : Rule where
  holds := P
  finds v fault := ¬P v ∧ fault = { cause := cause v }

/-- Each element follows a rule, the earlier ones first. -/
def list (what : String) (rule : Rule) : Rule where
  holds := IsList rule.holds
  finds v fault := (∀ elements, v ≠ .list elements) ∧ fault = { cause := .expected what v } ∨
    ∃ before x after, v = .list (before ++ x :: after) ∧ (∀ y ∈ before, rule.holds y) ∧
      ∃ inner, rule.finds x inner ∧ fault = inner.under (.element before.length)

/-- The faults of what is an object and goes through stages. -/
def objectFinds (what : String) (stages : List (String × Json) → List Stage) (v : Json)
    (fault : Fault) : Prop :=
  (∀ members, v ≠ .object members) ∧ fault = { cause := .expected what v } ∨
    ∃ members, v = .object members ∧ FirstFault (stages members) fault

def text : Rule := plain AnyText (.expected "a string")

def styleName (aspect : Aspect) : Rule := plain (IsStyleName aspect) .unknownStyle

def styleName? (aspect : Aspect) : Rule := plain (IsStyleName? aspect) .unknownStyle

def point : Rule :=
  plain (fun v => ∃ line column, v = .list [.integer line, .integer column]) fun _ => .notPoint

/-- A text that is one of some words. -/
def word (P : String → Prop) (unknown : String → UnknownWord) : Rule where
  holds := IsText P
  finds v fault := ¬AnyText v ∧ fault = { cause := .notText v } ∨
    ∃ s, v = .text s ∧ ¬P s ∧ fault = { cause := .unknownWord (unknown s) }

def segmentStages (members : List (String × Json)) : List Stage :=
  [.member "text" text members, .member "color" (styleName? .foreground) members,
   .member "on_color" (styleName? .background) members,
   .member "attrs" (list "a list" (styleName .attribute)) members]

def segment : Rule where
  holds := IsSegment
  finds v fault := ¬AnyText v ∧ objectFinds "a string or an object" segmentStages v fault

def message : Rule where
  holds := IsMessage
  finds v fault := ¬AnyText v ∧ (list "a string or a list of segments" segment).finds v fault

def role : Rule :=
  word (fun s => Text.keyword s ∈ ["primary", "this", "context", "where", "suggestion", "maybe"])
    .role

def severity : Rule := word (fun s => Text.keyword s ∈ ["error", "warning"]) .severity

/-- The file and the coordinates that a marker gives. -/
def Gives (members : List (String × Json)) (file : String) (c : Coordinates) : Prop :=
  Json.member? "file" members = some (.text file) ∧
    Json.member? "begin" members = some (.list [.integer c.beginLine, .integer c.beginColumn]) ∧
    Json.member? "end" members = some (.list [.integer c.endLine, .integer c.endColumn])

/-- The coordinates make a span. -/
def spanStage (members : List (String × Json)) : Stage where
  holds := ∃ file c, Gives members file c ∧ ∃ span, Span.ofCoordinates c file = .ok span
  finds fault := ∃ file c, Gives members file c ∧
    ∃ e, Span.ofCoordinates c file = .error e ∧ fault = { cause := .invalidSpan e }

def markerStages (members : List (String × Json)) : List Stage :=
  [.present "file" members, .present "begin" members, .present "end" members,
   .member "file" text members, .member "begin" point members, .member "end" point members,
   spanStage members, .member "role" role members, .member "message" message members]

def marker : Rule where
  holds := IsMarker
  finds := objectFinds "an object" markerStages

def reportStages (members : List (String × Json)) : List Stage :=
  [.member "severity" severity members, .present "message" members,
   .member "message" message members, .member "markers" (list "a list" marker) members,
   .member "hints" (list "a list" message) members]

def report : Rule where
  holds := IsReport
  finds := objectFinds "an object" reportStages

/-- The file that is named can be read. A path with a zero character is no fault
of the value: it is not refused. -/
def fileStage (disk : Disk) (base : Option Path) (members : List (String × Json)) : Stage where
  holds := ∃ name, Json.member? "path" members = some (.text name) ∧
    IsReadable disk (sourcePath base name)
  finds fault := ∃ name, Json.member? "path" members = some (.text name) ∧
    ¬(sourcePath base name).HasZero ∧
    ((∃ problem, disk.read (sourcePath base name) = .error problem ∧
        fault = { cause := .unreadable (sourcePath base name) problem }) ∨
      ∃ bytes reason, disk.read (sourcePath base name) = .ok bytes ∧
        Text.Utf8.decode bytes = .error reason ∧
        fault = { cause := .undecodable (sourcePath base name) reason })

def sourceStages (disk : Disk) (base : Option Path) (members : List (String × Json)) :
    List Stage :=
  [.present "path" members, .member "path" text members, fileStage disk base members]

def source (disk : Disk) (base : Option Path) : Rule where
  holds := IsSource disk base
  finds v fault := ¬AnyText v ∧ objectFinds "a string or an object" (sourceStages disk base) v fault

end Rule

-- ---------------------------------------------------------------------------
-- Checks and their stages
-- ---------------------------------------------------------------------------

/-- A check accepts what a rule says, and finds the faults that it says. -/
structure Follows (check : Place → Json → Checked α) (rule : Rule) : Prop where
  accepts : Accepts check rule.holds
  refuses : ∀ place v r, check place v = .error (.refused r) ↔
    ∃ fault, rule.finds v fault ∧ r = fault.refusal place

/-- A computation at a place decides one stage. -/
structure Decides (place : Place) (stage : Stage) (x : Checked α) : Prop where
  ok : (∃ a, x = .ok a) ↔ stage.holds
  refused : ∀ r, x = .error (.refused r) ↔ ∃ fault, stage.finds fault ∧ r = fault.refusal place

/-- A computation at a place is refused for the first fault of some stages. -/
def Meets (place : Place) (stages : List Stage) (x : Checked α) : Prop :=
  ∀ r, x = .error (.refused r) ↔ ∃ fault, FirstFault stages fault ∧ r = fault.refusal place

section
variable {place : Place} {stage : Stage} {stages : List Stage}

theorem Decides.map {x : Checked α} (h : Decides place stage x) (f : α → β) :
    Decides place stage (f <$> x) where
  ok := by rw [exists_map_ok, h.ok]
  refused r := by rw [map_error, h.refused r]

theorem Meets.ok (a : α) : Meets place [] (.ok a) := by
  intro r
  refine iff_of_false nofun ?_
  rintro ⟨fault, hfault, -⟩
  exact first_nil hfault

/-- A stage goes before those of the computation that follows it. -/
theorem Meets.bind {x : Checked α} {f : α → Checked β} (hx : Decides place stage x)
    (hf : ∀ a, x = .ok a → Meets place stages (f a)) : Meets place (stage :: stages) (x >>= f) := by
  intro r
  simp only [FirstFault, first_cons]
  cases x with
  | error failure =>
    -- The failure need not be a refusal: then neither side holds.
    have hnot : ¬stage.holds := fun h => nomatch hx.ok.mpr h
    have hbind : ((.error failure : Checked α) >>= f) = .error failure := rfl
    simp only [hnot, false_and, or_false, hbind, Except.error.injEq] at hx ⊢
    simpa using hx.refused r
  | ok a =>
    have hholds : stage.holds := hx.ok.mp ⟨a, rfl⟩
    have hnone : ∀ fault, ¬stage.finds fault := by
      intro fault hfault
      exact nomatch (hx.refused _).mpr ⟨fault, hfault, rfl⟩
    simp only [hholds, hnone, true_and, false_or, ok_bind]
    exact hf a rfl r

end

-- ---------------------------------------------------------------------------
-- Members and elements
-- ---------------------------------------------------------------------------

section
variable {place : Place} {stages : List Stage} {rule : Rule} {v absent : Json} {name what : String}
  {members : List (String × Json)} {elements : List Json}

@[simp] theorem refuse_error :
    (refuse place cause : Checked α) = .error (.refused r) ↔ { cause, place } = r := by
  simp [refuse]

theorem refuse_bind (place : Place) (cause : Cause) (f : α → Checked β) :
    (refuse place cause >>= f) = refuse place cause := rfl

theorem Fault.refusal_cause (place : Place) (cause : Cause) :
    Fault.refusal place { cause } = { cause, place } := by
  simp [refusal]

theorem decides_required (place : Place) (name : String) (members : List (String × Json)) :
    Decides place (.present name members) (required place name members) where
  ok := by simp only [required_ok, Stage.present]
  refused r := by
    unfold required Stage.present
    cases Json.member? name members <;> simp [Fault.refusal_cause, eq_comm]

/-- A rule finds no fault where it holds. -/
theorem Follows.not_finds_of_holds {check : Place → Json → Checked α} (h : Follows check rule)
    (hv : rule.holds v) : ¬rule.finds v fault := by
  intro hfault
  obtain ⟨a, ha⟩ := (h.accepts [] v).mpr hv
  have hr := (h.refuses [] v _).mpr ⟨fault, hfault, rfl⟩
  rw [ha] at hr
  cases hr

/-- The faults of a part are refused as faults of the whole. -/
theorem exists_refusal_under {finds : Fault → Prop} {step : PlaceStep} :
    (∃ fault, finds fault ∧ r = fault.refusal (place ++ [step])) ↔
      ∃ fault, (∃ inner, finds inner ∧ fault = inner.under step) ∧ r = fault.refusal place := by
  constructor
  · rintro ⟨inner, hinner, rfl⟩
    exact ⟨_, ⟨inner, hinner, rfl⟩, (Fault.refusal_under ..).symm⟩
  · rintro ⟨_, ⟨inner, hinner, rfl⟩, rfl⟩
    exact ⟨inner, hinner, Fault.refusal_under ..⟩

/-- A member that is there is checked at its own place. -/
theorem decides_given {check : Place → Json → Checked α} (h : Follows check rule)
    (hv : Json.member? name members = some v) :
    Decides place (.member name rule members) (check (place ++ [.member name]) v) where
  ok := by simp only [h.accepts _ v, Stage.member, Optionally, hv, Option.some.injEq, forall_eq']
  refused r := by
    simp only [h.refuses, exists_refusal_under, Stage.member, hv, Option.some.injEq, exists_eq_left']

/-- A member that may be absent is checked in the shape of its default then. -/
theorem decides_member {check : Place → Json → Checked α} (h : Follows check rule)
    (habsent : rule.holds absent) :
    Decides place (.member name rule members)
      (check (place ++ [.member name]) (memberOr name absent members)) where
  ok := accepts_memberOr h.accepts habsent
  refused r := by
    unfold memberOr
    cases hv : Json.member? name members with
    | none =>
      simp only [Option.getD_none, h.refuses, h.not_finds_of_holds habsent, Stage.member, hv]
      simp
    | some v => exact (decides_given h hv).refused r

/-- The elements of a list are checked up to the first that breaks the rule. -/
theorem follows_list {check : Place → Json → Checked α} (h : Follows check rule) (what : String) :
    Follows (fun place v => expectList place what v >>= eachElement place check)
      (.list what rule) where
  accepts place v := by
    simp only [exists_bind_ok, accepts_list h.accepts, Rule.list]
  refuses place v r := by
    cases v with
    | list elements =>
      simp only [expectList, ok_bind, eachElement, mapM_error, first_zipIdx, h.refuses,
        exists_refusal_under, h.accepts _ _, forall_zipIdx, Rule.list]
      constructor
      · rintro ⟨before, x, after, rfl, hbefore, fault, hfault, rfl⟩
        exact ⟨fault, .inr ⟨before, x, after, rfl, hbefore, hfault⟩, rfl⟩
      · rintro ⟨fault, ⟨hlist, -⟩ | ⟨before, x, after, hlist, hbefore, hfault⟩, rfl⟩
        · exact absurd rfl (hlist elements)
        · cases hlist
          exact ⟨before, x, after, rfl, hbefore, fault, hfault, rfl⟩
    | _ => simp [expectList, refuse_bind, Rule.list, Fault.refusal_cause, eq_comm]

/-- An object is what goes through the stages. -/
theorem refuses_object {body : List (String × Json) → Checked α}
    {stages : List (String × Json) → List Stage} (what : String)
    (h : ∀ members, Meets place (stages members) (body members)) :
    expectObject place what v >>= body = .error (.refused r) ↔
      ∃ fault, Rule.objectFinds what stages v fault ∧ r = fault.refusal place := by
  cases v with
  | object members => simp [expectObject, ok_bind, h members r, Rule.objectFinds]
  | _ => simp [expectObject, refuse_bind, Rule.objectFinds, Fault.refusal_cause, eq_comm]

theorem Meets.bind_list {stage : Stage} {check : Place → Json → Checked α}
    {f : List α → Checked β} {inside : Place}
    (h : Decides place stage (expectList inside what v >>= eachElement inside check))
    (hf : ∀ xs, Meets place stages (f xs)) :
    Meets place (stage :: stages)
      (expectList inside what v >>= fun listed => eachElement inside check listed >>= f) := by
  rw [← bind_assoc]
  exact .bind h fun xs _ => hf xs

-- ---------------------------------------------------------------------------
-- Messages
-- ---------------------------------------------------------------------------

theorem follows_plain {check : Place → Json → Checked α} {P : Json → Prop} {cause : Json → Cause}
    (haccepts : Accepts check P)
    (hrefuses : ∀ place v, ¬P v → check place v = refuse place (cause v)) :
    Follows check (.plain P cause) where
  accepts := haccepts
  refuses place v r := by
    by_cases hv : P v
    · obtain ⟨a, ha⟩ := (haccepts place v).mpr hv
      simp [ha, Rule.plain, hv]
    · simp [hrefuses place v hv, Rule.plain, hv, Fault.refusal_cause, eq_comm]

theorem follows_text : Follows expectText .text := by
  refine follows_plain accepts_text ?_
  intro place v hv
  cases v with
  | text s => exact absurd ⟨s, rfl, trivial⟩ hv
  | _ => rfl

theorem styleName_refused (hv : ¬IsStyleName aspect v) (place : Place) :
    styleName aspect place v = refuse place (.unknownStyle v) := by
  cases v with
  | text name =>
    rw [styleName, if_neg]
    intro hcode
    exact hv ⟨name, rfl, (isSome_code? aspect name).mp hcode⟩
  | _ => rfl

theorem follows_styleName (aspect : Aspect) : Follows (styleName aspect) (.styleName aspect) :=
  follows_plain (accepts_styleName aspect) fun place _ hv => styleName_refused hv place

theorem follows_styleName? (aspect : Aspect) :
    Follows (styleName? aspect) (.styleName? aspect) := by
  refine follows_plain (accepts_styleName? aspect) ?_
  intro place v hv
  have hname : ¬IsStyleName aspect v := fun h => hv (.inr h)
  cases v with
  | null => exact absurd (.inl rfl) hv
  | _ =>
    simp only [styleName?, styleName_refused hname]
    rfl

theorem not_anyText (hv : ∀ s, v = .text s → False) : ¬AnyText v := by
  rintro ⟨s, rfl, -⟩
  exact hv s rfl

theorem follows_segment : Follows segment .segment where
  accepts := accepts_segment
  refuses place v r := by
    unfold segment
    split
    · simp [Rule.segment, AnyText, IsText]
    · rename_i hv
      simp only [Rule.segment, not_anyText hv, not_false_eq_true, true_and]
      refine refuses_object _ fun members => ?_
      refine .bind (decides_member follows_text ⟨"", rfl, trivial⟩) fun content _ => ?_
      refine .bind (decides_member (follows_styleName? _) (.inl rfl)) fun foreground _ => ?_
      refine .bind (decides_member (follows_styleName? _) (.inl rfl)) fun background _ => ?_
      refine .bind_list (decides_member (follows_list (follows_styleName _) _)
        ⟨[], rfl, by simp⟩) fun attributes => ?_
      exact .ok _

theorem follows_message : Follows message .message where
  accepts := accepts_message
  refuses place v r := by
    unfold message
    split
    · simp [Rule.message, AnyText, IsText]
    · rename_i hv
      simp only [Rule.message, not_anyText hv, not_false_eq_true, true_and]
      rw [← bind_assoc, bind_pure_error]
      exact (follows_list follows_segment _).refuses ..

-- ---------------------------------------------------------------------------
-- Markers and reports
-- ---------------------------------------------------------------------------

theorem follows_point : Follows point .point := by
  refine follows_plain ?_ ?_
  · intro place v
    simp [point_ok]
  · intro place v hv
    unfold point
    split
    · exact absurd ⟨_, _, rfl⟩ hv
    · rfl

theorem follows_word {ofText : String → Except UnknownWord α} {P : String → Prop}
    {unknown : String → UnknownWord} (hok : ∀ s, (∃ x, ofText s = .ok x) ↔ P s)
    (herror : ∀ s e, ofText s = .error e → e = unknown s) :
    Follows (fun place => word place ofText) (.word P unknown) where
  accepts := accepts_word hok
  refuses place v r := by
    cases v with
    | text s =>
      simp only [word, Rule.word]
      by_cases hs : P s
      · obtain ⟨x, hx⟩ := (hok s).mpr hs
        simp [hx, AnyText, IsText, hs]
      · obtain ⟨e, he⟩ := exists_error.mpr (mt (hok s).mp hs)
        obtain rfl := herror s e he
        simp [he, AnyText, IsText, hs, Fault.refusal_cause, eq_comm]
    | _ => simp [word, Rule.word, AnyText, IsText, Fault.refusal_cause, eq_comm]

theorem follows_role : Follows (fun place => word place Role.ofText) .role := by
  refine follows_word (fun _ => role_ok) ?_
  intro s e h
  unfold Role.ofText at h
  split at h <;> cases h
  rfl

theorem follows_severity : Follows (fun place => word place Severity.ofText) .severity := by
  refine follows_word (fun _ => severity_ok) ?_
  intro s e h
  unfold Severity.ofText at h
  split at h <;> cases h
  rfl

theorem Rule.Gives.unique (h : Gives members file c) (h' : Gives members file' c') :
    file' = file ∧ c' = c := by
  obtain ⟨hfile, hbegin, hend⟩ := h
  obtain ⟨hfile', hbegin', hend'⟩ := h'
  simp only [hfile, hbegin, hend, Option.some.injEq, Json.text.injEq, Json.list.injEq,
    List.cons.injEq, Json.integer.injEq, and_true] at hfile' hbegin' hend'
  cases c
  cases c'
  simp_all

theorem exists_gives {P : String → Coordinates → Prop} (h : Rule.Gives members file c) :
    (∃ file' c', Rule.Gives members file' c' ∧ P file' c') ↔ P file c := by
  constructor
  · rintro ⟨file', c', h', hp⟩
    obtain ⟨rfl, rfl⟩ := h.unique h'
    exact hp
  · intro hp
    exact ⟨file, c, h, hp⟩

theorem decides_span (h : Rule.Gives members file c) (place : Place) :
    Decides place (Rule.spanStage members) (match Span.ofCoordinates c file with
      | .ok span => (.ok span : Checked Span)
      | .error e => refuse place (.invalidSpan e)) where
  ok := by
    simp only [Rule.spanStage, exists_gives h]
    cases Span.ofCoordinates c file <;> simp
  refused r := by
    simp only [Rule.spanStage, exists_gives h]
    cases Span.ofCoordinates c file <;> simp [Fault.refusal_cause, eq_comm]

theorem follows_marker : Follows marker .marker where
  accepts := accepts_marker
  refuses place v r := by
    refine refuses_object _ fun members => ?_
    refine .bind (decides_required ..) fun file hfile => ?_
    refine .bind (decides_required ..) fun first hfirst => ?_
    refine .bind (decides_required ..) fun last hlast => ?_
    rw [required_ok] at hfile hfirst hlast
    refine .bind (decides_given follows_text hfile) fun name hname => ?_
    refine .bind (decides_given follows_point hfirst) fun start hstart => ?_
    refine .bind (decides_given follows_point hlast) fun stop hstop => ?_
    obtain ⟨beginLine, beginColumn⟩ := start
    obtain ⟨endLine, endColumn⟩ := stop
    rw [expectText_ok] at hname
    rw [point_ok] at hstart hstop
    subst hname hstart hstop
    have hspan := decides_span (c := ⟨beginLine, beginColumn, endLine, endColumn⟩)
      ⟨hfile, hfirst, hlast⟩ place
    -- What follows the span stands in both branches of its match.
    dsimp only
    generalize Span.ofCoordinates _ name = outcome at hspan ⊢
    cases outcome with
    | error e => exact .bind hspan fun span h => absurd h (by simp)
    | ok span =>
      refine .bind hspan fun span _ => ?_
      refine .bind (decides_member follows_role ⟨"primary", rfl, by decide⟩) fun role _ => ?_
      refine .bind (decides_member follows_message (.inl ⟨"", rfl, trivial⟩)) fun text _ => ?_
      exact .ok _

theorem follows_report : Follows report .report where
  accepts := accepts_report
  refuses place v r := by
    refine refuses_object _ fun members => ?_
    refine .bind (decides_member follows_severity ⟨"error", rfl, by decide⟩) fun severity _ => ?_
    refine .bind (decides_required ..) fun text htext => ?_
    rw [required_ok] at htext
    refine .bind (decides_given follows_message htext) fun title _ => ?_
    refine .bind_list (decides_member (follows_list follows_marker _) ⟨[], rfl, by simp⟩)
      fun entries => ?_
    refine .bind_list (decides_member (follows_list follows_message _) ⟨[], rfl, by simp⟩)
      fun hints => ?_
    exact .ok _

-- ---------------------------------------------------------------------------
-- Sources
-- ---------------------------------------------------------------------------

theorem decides_file (disk : Disk) (base : Option Path) {name : String}
    (h : Json.member? "path" members = some (.text name)) (place : Place) :
    Decides place (Rule.fileStage disk base members)
      (fileText disk (sourcePath base name)
        (fun fault => .refused ⟨.unreadable (sourcePath base name) fault, place, none⟩)
        fun reason => .refused ⟨.undecodable (sourcePath base name) reason, place, none⟩) where
  ok := by simp [fileText_ok, Rule.fileStage, h, IsReadable]
  refused r := by
    simp only [Rule.fileStage, h, Option.some.injEq, Json.text.injEq, exists_eq_left']
    -- A zero character in the path fails the stage and is no fault of it.
    by_cases hz : (sourcePath base name).HasZero
    · simp [fileText_of_hasZero hz, hz]
    · have hzero : (sourcePath base name).text.contains '\x00' = false := by
        simpa [Path.HasZero] using hz
      simp only [fileText, hzero, hz]
      cases disk.read (sourcePath base name) with
      | error problem => simp [Fault.refusal_cause, eq_comm]
      | ok bytes =>
        cases hdecode : Text.Utf8.decode bytes <;> simp [hdecode, Fault.refusal_cause, eq_comm]

theorem follows_source (disk : Disk) (base : Option Path) :
    Follows (source disk base) (.source disk base) where
  accepts := accepts_source disk base
  refuses place v r := by
    unfold source
    split
    · simp [Rule.source, AnyText, IsText]
    · rename_i hv
      simp only [Rule.source, not_anyText hv, not_false_eq_true, true_and]
      refine refuses_object _ fun members => ?_
      refine .bind (decides_required ..) fun named hnamed => ?_
      rw [required_ok] at hnamed
      refine .bind (decides_given follows_text hnamed) fun name hname => ?_
      rw [expectText_ok] at hname
      subst hname
      exact .bind (decides_file disk base hnamed place) fun text _ => .ok _

end

end SpanReport.Description
