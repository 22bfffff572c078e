import SpanReport.Description.Raising
import SpanReport.Proofs.Failures

/-!
# What loading can raise

`load_eq`: the checks that raise give what the checks of a description say.
`load_raises`: a refusal is all that gets past their handlers, but for a source
whose path has a zero character.
-/

namespace SpanReport.Description.Raising

-- ---------------------------------------------------------------------------
-- What gets past the handlers
-- ---------------------------------------------------------------------------

def ofFailure : Failure → Raised
  | .refused r => .refused r
  | .unreadable _ fault => .unreadable fault
  | .zeroInPath => .zeroInPath

def lift (x : Checked α) : Attempt α := x.mapError ofFailure

theorem lift_ok (a : α) : lift (.ok a) = .ok a := rfl

theorem lift_bind (x : Checked α) (f : α → Checked β) :
    lift (x >>= f) = lift x >>= fun a => lift (f a) := by
  cases x <;> rfl

theorem lift_map (x : Checked α) (f : α → β) : lift (f <$> x) = f <$> lift x := by
  cases x <;> rfl

theorem bind_lift {x : Attempt α} {y : Checked α} {f : α → Attempt β} {g : α → Checked β}
    (hx : x = lift y) (h : ∀ a, f a = lift (g a)) : x >>= f = lift (y >>= g) := by
  rw [hx, lift_bind]
  exact bind_congr h

theorem lift_mapM (f : α → Checked β) (xs : List α) :
    lift (xs.mapM f) = xs.mapM fun x => lift (f x) := by
  induction xs with
  | nil => rfl
  | cons x xs ih =>
    rw [List.mapM_cons, List.mapM_cons, lift_bind]
    refine bind_congr fun y => ?_
    rw [lift_bind, ih]
    rfl

theorem textAt_eq (place : Place) (v : Json) : textAt place v = lift (expectText place v) := by
  cases v <;> rfl

theorem listAt_eq (place : Place) (what : String) (v : Json) :
    listAt place what v = lift (expectList place what v) := by
  cases v <;> rfl

theorem eachElement_eq {check : Place → Json → Attempt α} {checked : Place → Json → Checked α}
    (h : ∀ place v, check place v = lift (checked place v)) (place : Place)
    (elements : List Json) :
    eachElement place check elements = lift (Description.eachElement place checked elements) := by
  simp only [eachElement, Description.eachElement, lift_mapM, h]

theorem styleName_eq (aspect : Aspect) (place : Place) (v : Json) :
    styleName aspect place v = lift (Description.styleName aspect place v) := by
  cases v with
  | text name =>
    simp only [styleName, isText, isKnown, Description.styleName, if_true, ok_bind, characters]
    split <;> rfl
  | _ => rfl

theorem styleName?_eq (aspect : Aspect) (place : Place) (v : Json) :
    styleName? aspect place v = lift (Description.styleName? aspect place v) := by
  cases v with
  | null => rfl
  | _ => simp only [styleName?, Description.styleName?, lift_map, styleName_eq]

theorem segment_eq (place : Place) (v : Json) :
    segment place v = lift (Description.segment place v) := by
  cases v with
  | object members =>
    simp only [segment, isText, Bool.false_eq_true, if_false, expect, isObject, if_true, get,
      ok_bind, Description.segment, expectObject, lift_bind, lift_ok, textAt_eq, styleName?_eq,
      listAt_eq, eachElement_eq (styleName_eq .attribute)]
  | _ => rfl

theorem message_eq (place : Place) (v : Json) :
    message place v = lift (Description.message place v) := by
  cases v with
  | text s => rfl
  | _ => simp only [message, isText, Bool.false_eq_true, if_false, Description.message, lift_bind,
      lift_ok, listAt_eq, eachElement_eq segment_eq]

theorem handle_ok (place : Place) (catches : Raised → Option Cause) (a : α) :
    handle place catches (.ok a) = .ok a := rfl

theorem word_eq (place : Place) (ofText : String → Except UnknownWord α) (v : Json) :
    handle place catchWord (spoken ofText v) = lift (word place ofText v) := by
  cases v with
  | text s =>
    simp only [spoken, word]
    cases ofText s <;> rfl
  | _ => rfl

/-- Two parts that are integers are all that a point is made of. -/
theorem point_bind {f : Json × Json → Attempt α} {g : Int × Int → Checked α}
    (h : ∀ line column, f (.integer line, .integer column) = lift (g (line, column)))
    (place : Place) (v : Json) :
    (point place v >>= f) = lift (Description.point place v >>= g) := by
  cases v with
  | list parts =>
    rcases parts with _ | ⟨line, _ | ⟨column, _ | ⟨third, rest⟩⟩⟩
    · rfl
    · cases line <;> rfl
    · cases line with
      | integer line =>
        cases column with
        | integer column => exact h line column
        | _ => rfl
      | _ => cases column <;> rfl
    · have hlength : ¬(line :: column :: third :: rest).length = 2 := by simp
      simp only [point, isList, if_true, elements, ok_bind, hlength, false_and, if_false]
      cases line <;> cases column <;> rfl
  | _ => rfl

theorem require_bind {members : List (String × Json)} {f : Attempt α} {g : Json → Checked α}
    (h : ∀ v, Json.member? name members = some v → f = lift (g v)) (place : Place) :
    (require place (.object members) name >>= fun _ => f) =
      lift (required place name members >>= g) := by
  simp only [require, has, required, ok_bind]
  cases hv : Json.member? name members with
  | none => rfl
  | some v => exact h v hv

theorem expectText_bind {v : Json} {f : Attempt α} {g : String → Checked α}
    (h : ∀ s, v = .text s → f = lift (g s)) (place : Place) :
    (expect isText place "a string" v >>= fun _ => f) = lift (expectText place v >>= g) := by
  cases v with
  | text s => exact h s rfl
  | _ => rfl

theorem item_eq (h : Json.member? name members = some v) : item name (.object members) = .ok v := by
  simp only [item, h]

theorem marker_eq (place : Place) (v : Json) :
    marker place v = lift (Description.marker place v) := by
  cases v with
  | object members =>
    refine require_bind (fun file hfile => ?_) place
    refine require_bind (fun start hstart => ?_) place
    refine require_bind (fun stop hstop => ?_) place
    rw [item_eq hfile, ok_bind]
    refine expectText_bind (fun file hfile => ?_) _
    subst hfile
    rw [item_eq hstart, ok_bind]
    refine point_bind (fun beginLine beginColumn => ?_) _ _
    rw [item_eq hstop, ok_bind]
    refine point_bind (fun endLine endColumn => ?_) _ _
    simp only [spanOf, number, characters, ok_bind]
    cases Span.ofCoordinates ⟨beginLine, beginColumn, endLine, endColumn⟩ file with
    | error e => rfl
    | ok span =>
      simp only [Except.mapError, handle_ok, get, ok_bind, word_eq, message_eq, lift_bind, lift_ok]
  | _ => rfl

theorem report_eq (place : Place) (v : Json) :
    report place v = lift (Description.report place v) := by
  cases v with
  | object members =>
    simp only [report, expect, isObject, if_true, get, Description.report, expectObject, ok_bind]
    refine bind_lift (word_eq _ _ _) fun severity => ?_
    refine require_bind (fun title htitle => ?_) place
    simp only [item_eq htitle, ok_bind, message_eq, listAt_eq, eachElement_eq marker_eq,
      eachElement_eq message_eq, lift_bind, lift_ok]
  | _ => rfl

theorem readText_eq (disk : Disk) (path : Path) (place : Place) :
    handle place (catchFile path) (readText disk path) =
      lift (fileText disk path (fun fault => .refused ⟨.unreadable path fault, place, none⟩)
        fun reason => .refused ⟨.undecodable path reason, place, none⟩) := by
  unfold readText fileText
  split
  · rfl
  · cases disk.read path with
    | error fault => rfl
    | ok bytes =>
      dsimp only
      cases Text.Utf8.decode bytes <;> rfl

theorem source_eq (disk : Disk) (base : Option Path) (place : Place) (v : Json) :
    source disk base place v = lift (Description.source disk base place v) := by
  cases v with
  | object members =>
    refine require_bind (fun named hnamed => ?_) place
    simp only [item_eq hnamed, ok_bind, textAt_eq, readText_eq, lift_bind, lift_ok]
  | _ => rfl

theorem addSources_eq (disk : Disk) (base : Option Path) (d : Diagnostic)
    (files : List (String × Json)) :
    files.foldlM (addSource disk base) d = lift (loadSources disk base d files).result := by
  induction files generalizing d with
  | nil => rfl
  | cons file files ih =>
    rw [List.foldlM_cons, addSource, source_eq, loadSources]
    cases Description.source disk base [.member "files", .member file.1] file.2 with
    | error failure => rfl
    | ok text => exact ih (d.withText file.1 text)

theorem addReports_eq (d : Diagnostic) (listed : List (Json × Nat)) :
    listed.foldlM addReport d = lift (loadReports d listed).result := by
  induction listed generalizing d with
  | nil => rfl
  | cons numbered listed ih =>
    rw [List.foldlM_cons, addReport, report_eq, loadReports]
    cases Description.report [.member "reports", .element numbered.2] numbered.1 with
    | error failure => rfl
    | ok r => exact ih (d.withReport r)

theorem load_eq (disk : Disk) (base : Option Path) (v : Json) :
    load disk base v = lift (Description.load disk base v) := by
  cases v with
  | object members =>
    simp only [load, expect, isObject, if_true, ok_bind, get, Description.load, progress,
      expectObject]
    cases memberOr "files" (.object []) members with
    | object files =>
      simp only [if_true, ok_bind, items, addSources_eq]
      cases hs : (loadSources disk base .empty files).failure with
      | some failure => simp only [Progress.result, hs, Option.isSome_some, if_true]; rfl
      | none =>
        simp only [Progress.result, hs, lift_ok, ok_bind, listAt_eq]
        cases memberOr "reports" (.list []) members with
        | list reports => exact addReports_eq _ _
        | _ => rfl
    | _ => rfl
  | _ => rfl

/-- Whatever the value is, loading gives what the checks give and raises nothing
but refusals, unless the first source that cannot be used has a zero character
in its path. The error that this raises gets past all handlers. -/
theorem load_raises (disk : Disk) (base : Option Path) (v : Json) :
    ¬MeetsZero disk base v ∧
        ((∃ d, load disk base v = .ok d ∧ Description.load disk base v = .ok d) ∨
          ∃ r, load disk base v = .error (.refused r) ∧
            Description.load disk base v = .error (.refused r)) ∨
      MeetsZero disk base v ∧ load disk base v = .error .zeroInPath := by
  rw [load_eq]
  rcases load_cases disk base v with ⟨h, hv⟩ | ⟨h, hv⟩
  · refine .inl ⟨hv, ?_⟩
    generalize Description.load disk base v = loaded at h
    cases h with
    | ok d => exact .inl ⟨d, rfl, rfl⟩
    | refused r => exact .inr ⟨r, rfl, rfl⟩
  · rw [h]
    exact .inr ⟨hv, rfl⟩

def zeroPath : Json :=
  .object [("files", .object [("a", .object [("path", .text "x\x00")])])]

/-- No file has such a path, and yet the description is not refused. -/
theorem load_zeroPath : load {} none zeroPath = .error .zeroInPath := by
  have h : MeetsZero {} none zeroPath :=
    ⟨_, rfl, _, rfl, _, rfl, [], _, [], rfl, List.forall_mem_nil _, _, rfl, _, rfl, _, rfl,
      .inl (by decide)⟩
  rw [load_eq, load_zero.mpr h]
  rfl

end SpanReport.Description.Raising
