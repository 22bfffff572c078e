import SpanReport.Proofs.Acceptance
import SpanReport.Proofs.Guarded
import SpanReport.Proofs.Known

/-!
# Loaded diagnostics can be printed

`load_renders`: names of styles are checked as a description is loaded, so
every style of a loaded message has a code, and a loaded diagnostic is printed
in colour as well as without.
-/

namespace SpanReport.Description

-- ---------------------------------------------------------------------------
-- Messages
-- ---------------------------------------------------------------------------

theorem eachElement_ok {check : Place → Json → Checked α}
    (h : eachElement place check elements = .ok xs) (hx : x ∈ xs) : ∃ place v, check place v = .ok x := by
  obtain ⟨⟨v, i⟩, -, hv⟩ := ok_of_mem_mapM h hx
  exact ⟨_, v, hv⟩

theorem styleName_known (h : styleName aspect place v = .ok name) : (aspect.code? name).isSome := by
  unfold styleName at h
  split at h
  · split at h
    · cases h
      assumption
    · cases h
  · cases h

theorem styleName?_known (h : styleName? aspect place v = .ok name?) (hn : name ∈ name?) :
    (aspect.code? name).isSome := by
  cases v with
  | null =>
    cases h
    cases hn
  | _ =>
    obtain ⟨other, hother, rfl⟩ := map_ok.mp h
    cases hn
    exact styleName_known hother

theorem segment_known (h : segment place v = .ok f) : f.style.Known := by
  cases v with
  | text s =>
    cases h
    exact Layout.known_plain
  | object members =>
    simp only [segment, bind_ok, expectObject_ok] at h
    obtain ⟨_, -, _, -, foreground, hf, background, hb, _, -, attributes, ha, ⟨⟩⟩ := h
    intro named hnamed
    simp only [Style.names, List.mem_append, List.mem_map] at hnamed
    rcases hnamed with (⟨name, hn, rfl⟩ | ⟨name, hn, rfl⟩) | ⟨name, hn, rfl⟩
    · exact styleName?_known hf (Option.mem_toList.mp hn)
    · exact styleName?_known hb (Option.mem_toList.mp hn)
    · obtain ⟨_, _, hname⟩ := eachElement_ok ha hn
      exact styleName_known hname
  | _ => simp [segment, expectObject, bind_ok] at h

theorem message_known (h : message place v = .ok d) : d.Known := by
  cases v with
  | text s =>
    cases h
    exact List.forall_mem_singleton.mpr Layout.known_plain
  | list elements =>
    simp only [message, bind_ok] at h
    obtain ⟨_, -, fragments, hs, ⟨⟩⟩ := h
    intro f hf
    obtain ⟨_, _, hf⟩ := eachElement_ok hs hf
    exact segment_known hf
  | _ => simp [message, expectList, bind_ok] at h

-- ---------------------------------------------------------------------------
-- Reports
-- ---------------------------------------------------------------------------

theorem mem_put {put : Marker} (h : e ∈ Markers.put span put entries) :
    e = (span, put) ∨ e ∈ entries := by
  induction entries with
  | nil => exact .inl (List.mem_singleton.mp h)
  | cons entry rest ih =>
    unfold Markers.put at h
    split at h
    · rcases List.mem_cons.mp h with rfl | h
      · exact .inl rfl
      · exact .inr (List.mem_cons_of_mem _ h)
    · rcases List.mem_cons.mp h with rfl | h
      · exact .inr List.mem_cons_self
      · exact (ih h).imp_right (List.mem_cons_of_mem _)

theorem mem_insertAll {ms : Markers} {entries : List Entry}
    (h : e ∈ (entries.foldl (fun ms entry => ms.insert entry.1 entry.2) ms).entries) :
    e ∈ ms.entries ∨ e ∈ entries := by
  induction entries generalizing ms with
  | nil => exact .inl h
  | cons entry rest ih =>
    rcases ih h with h | h
    · rcases mem_put h with rfl | h
      · exact .inr List.mem_cons_self
      · exact .inl h
    · exact .inr (List.mem_cons_of_mem _ h)

theorem mem_ofList (h : e ∈ (Markers.ofList entries).entries) : e ∈ entries := by
  rcases mem_insertAll h with h | h
  · cases h
  · exact h

theorem marker_known (h : marker place v = .ok e) : e.2.message.Known := by
  obtain ⟨span, role, text⟩ := e
  obtain ⟨_, _, _, _, _, _, -, -, -, -, -, -, hmessage⟩ := marker_ok.mp h
  exact message_known hmessage

theorem report_known (h : report place v = .ok r) : Layout.KeepsKnown r := by
  simp only [report, bind_ok] at h
  obtain ⟨_, -, severity, -, _, -, title, ht, _, -, entries, he, _, -, hints, -, ⟨⟩⟩ := h
  refine ⟨message_known ht, fun e hm _ => ?_⟩
  obtain ⟨_, _, hmarker⟩ := eachElement_ok he (mem_ofList hm)
  exact marker_known hmarker

-- ---------------------------------------------------------------------------
-- Whole descriptions
-- ---------------------------------------------------------------------------

theorem loadSources_reports (disk : Disk) (base : Option Path) (d : Diagnostic)
    (files : List (String × Json)) :
    (loadSources disk base d files).diagnostic.reports = d.reports := by
  induction files generalizing d with
  | nil => rfl
  | cons file files ih =>
    obtain ⟨name, v⟩ := file
    unfold loadSources
    split
    · rfl
    · exact ih _

theorem loadReports_known (h : ∀ r ∈ d.reports, Layout.KeepsKnown r) (listed : List (Json × Nat)) :
    ∀ r ∈ (loadReports d listed).diagnostic.reports, Layout.KeepsKnown r := by
  induction listed generalizing d with
  | nil => exact h
  | cons numbered listed ih =>
    obtain ⟨v, i⟩ := numbered
    unfold loadReports
    split
    · exact h
    · rename_i r hr
      exact ih (List.forall_mem_append.mpr ⟨h, List.forall_mem_singleton.mpr (report_known hr)⟩)

theorem progress_known (disk : Disk) (base : Option Path) (v : Json) :
    ∀ r ∈ (progress disk base v).diagnostic.reports, Layout.KeepsKnown r := by
  unfold progress
  split
  · nofun
  split
  · nofun
  rename_i files _
  have hs : (loadSources disk base .empty files).diagnostic.reports = [] := loadSources_reports ..
  dsimp only
  split
  · simp [hs]
  split
  · simp [hs]
  · exact loadReports_known (by simp [hs]) _

theorem load_known (h : load disk base v = .ok d) : ∀ r ∈ d.reports, Layout.KeepsKnown r := by
  obtain ⟨-, rfl⟩ := result_eq_ok.mp h
  exact progress_known disk base v

theorem ending_known : Diagnostic.ending.Known := by
  intro f hf
  obtain rfl : f = { content := "\n" } := by simpa [Diagnostic.ending] using hf
  exact Layout.known_plain

/-- A diagnostic that is loaded is printed in both charsets, in colour and
without: all styles in its layout have codes, and the layout of each report
asks for no element that is not there. -/
theorem load_renders (h : load disk base v = .ok d) (charset : Charset) (colours : Bool) :
    (∀ f ∈ (d.layout charset).fragments, ∃ codes, f.style.codes = .ok codes) ∧
      (∀ r ∈ d.reports, Layout.Guarded.layout charset d.sources r =
        some (r.layout charset d.sources)) ∧
      ∃ text, d.render charset colours = .ok text := by
  have hknown : (d.layout charset).Known := by
    intro f hf
    obtain ⟨r, hr, hf⟩ := List.mem_flatMap.mp hf
    rcases List.mem_append.mp hf with hf | hf
    · exact Layout.layout_known (load_known h r hr) charset d.sources f hf
    · exact ending_known f hf
  refine ⟨fun f hf => ⟨_, Terminal.codes_of_known (hknown f hf)⟩, fun r _ => ?_, ?_⟩
  · exact Layout.Guarded.layout_eq charset d.sources r
  · exact Document.render_ok hknown colours

def styledWord : Json := .list [.object [("text", .text "no"), ("color", .text "red")], .text " x"]

def styledDescription : Json :=
  .object [("files", .object [("a.txt", .text "f x\ny")]),
    ("reports", .list [.object [("message", styledWord),
      ("markers", .list [.object [("file", .text "a.txt"),
        ("begin", .list [.integer 1, .integer 3]), ("end", .list [.integer 2, .integer 1]),
        ("message", styledWord)]])]])]

theorem load_renders_styled : ∃ d, load {} none styledDescription = .ok d ∧ d.reports.length = 1 ∧
    ∃ text, d.render .ascii true = .ok text := by
  have h : load {} none styledDescription = .ok _ := rfl
  exact ⟨_, h, rfl, (load_renders h .ascii true).2.2⟩

end SpanReport.Description
