import SpanReport.CommandLine.Run
import SpanReport.Proofs.Failures
import SpanReport.Proofs.Loaded
import SpanReport.Proofs.Printing

/-!
# The stages of a run

What each stage of a run comes to: descriptions are loaded up to the first one
that fails, errors are logged however little is shown, the output is opened if
it is a file that can be, options are found unless an encoding has to be asked
that cannot answer, and what is printed is written up to the first text that
the stream refuses.
-/

namespace SpanReport

namespace Disk

theorem node?_write (d : Disk) (l : Location) (bytes : List UInt8) :
    (d.write l bytes).node? l = some (.file bytes) := by
  simp [node?, write]

theorem lookup_write (d : Disk) (bytes : List UInt8) {l other : Location} (h : other ≠ l) :
    (d.write l bytes).nodes.lookup other = d.nodes.lookup other := by
  have hskip : (other == l) = false := beq_false_of_ne h
  rw [write, List.lookup_cons, hskip]
  induction d.nodes with
  | nil => rfl
  | cons node nodes ih =>
    obtain ⟨place, node⟩ := node
    by_cases hl : place = l
    · subst hl
      simpa [List.lookup_cons, hskip] using ih
    · simp only [List.filter_cons, bne_iff_ne, ne_eq, hl, not_false_eq_true, if_true,
        List.lookup_cons] at ih ⊢
      split
      · rfl
      · exact ih

end Disk

namespace Stream

variable {stream : Stream}

/-- No text is refused. -/
def Takes (stream : Stream) (texts : List String) : Prop :=
  ∀ text ∈ texts, stream.complaint? text = none

theorem write_takes (h : stream.Takes texts) : stream.write texts = .ok (String.join texts) := by
  induction texts with
  | nil => rfl
  | cons text rest ih =>
    obtain ⟨htext, hrest⟩ := List.forall_mem_cons.mp h
    rw [write, htext, ih hrest, String.join_cons]

theorem write_refused (h : stream.Takes before) (hc : stream.complaint? text = some complaint)
    (after : List String) :
    stream.write (before ++ text :: after) = .error ⟨String.join before, complaint⟩ := by
  induction before with
  | nil => rw [List.nil_append, write, hc, String.join_nil]
  | cons first rest ih =>
    obtain ⟨hfirst, hrest⟩ := List.forall_mem_cons.mp h
    rw [List.cons_append, write, hfirst, ih hrest, String.join_cons]

/-- A stream that takes ASCII alone has taken the label of a report before it refuses a
glyph. -/
example :
    Stream.write
        { complaint? := fun text =>
            if text.toList.all (·.toNat < 128) then none else some "no such character" }
        ["[error]", ": ", "│"] =
      .error ⟨"[error]: ", "no such character"⟩ := by decide

theorem takes_or_refused (stream : Stream) (texts : List String) : stream.Takes texts ∨
    ∃ before text after complaint, texts = before ++ text :: after ∧ stream.Takes before ∧
      stream.complaint? text = some complaint := by
  induction texts with
  | nil => exact .inl (List.forall_mem_nil _)
  | cons text rest ih =>
    cases htext : stream.complaint? text with
    | some complaint =>
      exact .inr ⟨[], text, rest, complaint, rfl, List.forall_mem_nil _, htext⟩
    | none =>
      obtain hrest | ⟨before, other, after, complaint, rfl, hbefore, hother⟩ := ih
      · exact .inl (List.forall_mem_cons.mpr ⟨htext, hrest⟩)
      · exact .inr ⟨text :: before, other, after, complaint, rfl,
          List.forall_mem_cons.mpr ⟨htext, hbefore⟩, hother⟩

end Stream

/-- A diagnostic whose messages have known styles is printed either way. -/
theorem Diagnostic.render_ok {d : Diagnostic} (h : ∀ r ∈ d.reports, Layout.KeepsKnown r)
    (charset : Charset) (colours : Bool) : ∃ text, d.render charset colours = .ok text := by
  refine Document.render_ok (fun f hf => ?_) colours
  obtain ⟨r, hr, hf⟩ := List.mem_flatMap.mp hf
  rcases List.mem_append.mp hf with hf | hf
  · exact Layout.layout_known (h r hr) charset d.sources f hf
  · exact Description.ending_known f hf

namespace CommandLine

-- ---------------------------------------------------------------------------
-- Loading
-- ---------------------------------------------------------------------------

/-- The diagnostic of the description that an argument names. -/
def loaded (disk : Disk) (argument : String) : Description.Checked Diagnostic :=
  Description.loadFile disk (Path.parse argument)

theorem loadAll_cons_ok {disk : Disk} (h : loaded disk f = .ok d) (rest : List String) :
    (loadAll disk (f :: rest)).2 = (loadAll disk rest).2.map (d :: ·) := by
  obtain ⟨hp, rfl⟩ := Description.result_eq_ok.mp h
  simp only [loadAll, hp]

theorem loadAll_cons_error {disk : Disk} {failure : Description.Failure}
    (h : loaded disk f = .error failure) (rest : List String) :
    (loadAll disk (f :: rest)).2 = .error (.ofFailure f failure) := by
  have hp := Description.result_error.mp h
  simp only [loadAll, hp]

theorem loadAll_ok {disk : Disk} {files : List String} :
    (loadAll disk files).2 = .ok ds ↔ files.mapM (loaded disk) = .ok ds := by
  induction files generalizing ds with
  | nil => simp [loadAll, pure, Except.pure]
  | cons f files ih =>
    rw [List.mapM_cons]
    cases hf : loaded disk f with
    | error failure =>
      rw [loadAll_cons_error hf]
      exact iff_of_false nofun nofun
    | ok d =>
      rw [loadAll_cons_ok hf, ok_bind, bind_ok]
      simp only [← ih]
      cases (loadAll disk files).2 with
      | error halt => exact iff_of_false nofun nofun
      | ok others => simp [Except.map, pure, Except.pure]

/-- The first description that fails ends the loading. -/
theorem loadAll_error {disk : Disk} {files : List String} :
    (loadAll disk files).2 = .error halt ↔
      First (fun f => ∃ d, loaded disk f = .ok d)
        (fun f => ∃ failure, loaded disk f = .error failure ∧ halt = .ofFailure f failure)
        files := by
  induction files with
  | nil => exact iff_of_false nofun first_nil
  | cons f files ih =>
    rw [first_cons, ← ih]
    cases hf : loaded disk f with
    | error failure =>
      rw [loadAll_cons_error hf]
      simp [eq_comm]
    | ok d =>
      rw [loadAll_cons_ok hf]
      cases (loadAll disk files).2 <;> simp [Except.map]

theorem loaded_known {disk : Disk} (h : loaded disk f = .ok d) :
    ∀ r ∈ d.reports, Layout.KeepsKnown r := by
  obtain ⟨v, -, hv⟩ := Description.loadFile_ok.mp h
  exact Description.load_known hv

-- ---------------------------------------------------------------------------
-- Lines of the log
-- ---------------------------------------------------------------------------

def Event.error? (e : Event) : Option String :=
  if e.level = .error then some e.message else none

def Notice.error? : Notice → Option String
  | .usage _ => none
  | .log e => Event.error? e

/-- The errors that a run reports. -/
def Outcome.errors (o : Outcome) : List String := o.notices.filterMap Notice.error?

/-- However little is shown, errors are. -/
theorem errors_shown (verbosity : Nat) (events : List Event) :
    (shown verbosity events).filterMap Notice.error? = events.filterMap Event.error? := by
  rw [shown, List.filterMap_map, List.filterMap_filter]
  refine List.filterMap_congr fun e _ => ?_
  by_cases he : e.level = .error
  · simp [Notice.error?, Event.isShown, he, Level.leastVerbosity]
  · simp [Notice.error?, Event.error?, he]

theorem errors_loadEvents (p : Description.Progress) :
    (loadEvents p).filterMap Event.error? = [] := by
  rw [List.filterMap_eq_nil_iff]
  intro e he
  simp only [loadEvents, List.mem_append, List.mem_map] at he
  rcases he with (⟨_, -, rfl⟩ | ⟨_, -, rfl⟩) | he
  · rfl
  · rfl
  · split at he
    · cases he
    · obtain rfl := List.mem_singleton.mp he
      rfl

theorem errors_loadAll (disk : Disk) (files : List String) :
    (loadAll disk files).1.filterMap Event.error? = [] := by
  induction files with
  | nil => rfl
  | cons f files ih =>
    rw [loadAll]
    dsimp only
    split
    · exact errors_loadEvents _
    · rw [List.filterMap_append, errors_loadEvents, ih]
      rfl

theorem errors_printEvents (options : OutputOptions) (ds : List Diagnostic) :
    (ds.flatMap (printEvents options)).filterMap Event.error? = [] := by
  rw [List.filterMap_eq_nil_iff]
  intro e he
  obtain ⟨d, -, he⟩ := List.mem_flatMap.mp he
  simp only [printEvents, List.mem_append, List.mem_cons, List.mem_map] at he
  rcases he with (rfl | rfl | he) | ⟨_, -, rfl⟩
  · rfl
  · rfl
  · cases he
  · rfl

-- ---------------------------------------------------------------------------
-- Opening the output
-- ---------------------------------------------------------------------------

theorem expand_error {homes : Homes} (h : homes.expand p = .error crash) (hz : ¬p.HasZero) :
    crash = .noHome := by
  unfold Homes.expand at h
  split at h
  · rename_i first rest habs hparts
    split at h
    · rename_i user huser
      split at h
      · rename_i hzero
        refine absurd ((Path.hasZero_iff p).mpr (.inr ⟨first, by simp [hparts], ?_⟩)) hz
        rw [huser]
        exact List.mem_cons_of_mem _ (by simpa using hzero)
      · split at h
        · cases h
        · cases h
          rfl
    · cases h
  · cases h

/-- Only a first part with a tilde in front stands for something else. -/
theorem expand_eq (homes : Homes) {p : Path}
    (h : ∀ first ∈ p.parts.head?, first.toList.head? ≠ some '~') : homes.expand p = .ok p := by
  unfold Homes.expand
  split
  · rename_i first rest habs hparts
    split
    · rename_i user huser
      refine absurd ?_ (h first (by simp [hparts]))
      rw [huser, List.head?_cons]
    · rfl
  · rfl

/-- Where the output goes: to the standard output if nothing else is named, or
else to a file that can be opened. -/
inductive Opens (w : World) : Option String → Sink → Prop
  | absent : Opens w none .standard
  | dash : Opens w (some "-") .standard
  | file (hd : name ≠ "-") (he : w.homes.expand (Path.parse name) = .ok path)
      (ho : w.disk.openForWriting path = .ok location) : Opens w (some name) (.file location)

section
variable {w : World} {output : Option String}
  (hz : ∀ name, output = some name → '\x00' ∉ name.toList)
include hz

theorem openSink_ok : openSink w.homes w.disk (.given output) = .ok sink ↔ Opens w output sink := by
  cases output with
  | none =>
    constructor
    · rintro ⟨⟩
      exact .absent
    · rintro ⟨⟩
      rfl
  | some name =>
    have hzero : name.contains '\x00' = false := by simpa using hz name rfl
    by_cases hd : name = "-"
    · subst hd
      constructor
      · rintro ⟨⟩
        exact .dash
      · rintro (_ | _ | ⟨hd, -, -⟩)
        · rfl
        · exact absurd rfl hd
    · simp only [openSink, hd, if_false, hzero, Bool.false_eq_true]
      constructor
      · intro h
        split at h
        · cases h
        · rename_i path he
          split at h
          · rename_i location ho
            cases h
            exact .file hd he ho
          · cases h
      · rintro (_ | _ | ⟨hd, he, ho⟩)
        · exact absurd rfl hd
        · simp only [he, ho]

/-- An output that cannot be opened is a file. -/
theorem openSink_error (h : openSink w.homes w.disk (.given output) = .error halt) :
    ∃ name, output = some name ∧ name ≠ "-" ∧
      ((w.homes.expand (Path.parse name) = .error .noHome ∧ halt = .crash .noHome) ∨
        ∃ path fault, w.homes.expand (Path.parse name) = .ok path ∧
          w.disk.openForWriting path = .error fault ∧
          halt = .trouble (.outputClosed name fault)) := by
  cases output with
  | none => cases h
  | some name =>
    have hzero : name.contains '\x00' = false := by simpa using hz name rfl
    have hpath : ¬(Path.parse name).HasZero := by
      rw [Path.hasZero_parse]
      exact hz name rfl
    by_cases hd : name = "-"
    · subst hd
      cases h
    · simp only [openSink, hd, if_false, hzero, Bool.false_eq_true] at h
      refine ⟨name, rfl, hd, ?_⟩
      split at h
      · rename_i crash he
        obtain rfl := expand_error he hpath
        cases h
        exact .inl ⟨he, rfl⟩
      · rename_i path he
        split at h
        · cases h
        · rename_i fault ho
          cases h
          exact .inr ⟨path, fault, he, ho, rfl⟩

end

/-- An encoding is asked for only if nothing else decides, and of a stream only
that has one. -/
theorem detect_error {env : Environment} {stream : Stream} {colours : Option Bool} :
    OutputOptions.detect env stream charset colours = .error fault ↔
      charset = none ∧ isSet env.asciiOnly = false ∧
        ∃ name, stream.encoding = some name ∧ name ≠ "" ∧
          Encoding.hasBoxes name = .error fault := by
  cases charset with
  | some charset => simp [OutputOptions.detect, bind, Except.bind]
  | none =>
    simp only [OutputOptions.detect, Environment.charset]
    cases isSet env.asciiOnly with
    | true => simp [bind, Except.bind]
    | false =>
      cases stream.encoding with
      | none => simp [bind, Except.bind]
      | some name =>
        by_cases hn : name = ""
        · simp [hn, bind, Except.bind]
        · cases hb : Encoding.hasBoxes name <;> simp [hn, hb, bind, Except.bind]

/-- Files take every character. -/
theorem detect_file (env : Environment) (charset : Option Charset) (colours : Option Bool)
    (standard : Stream) (location : Location) :
    ∃ options, OutputOptions.detect env ((Sink.file location).stream standard) charset colours =
      .ok options := by
  have hzero : "utf-8".contains '\x00' = false := by simp
  have hboxes : Encoding.hasBoxes "utf-8" = .ok true := by
    simp only [Encoding.hasBoxes, hzero]
    rfl
  cases h : OutputOptions.detect env ((Sink.file location).stream standard) charset colours with
  | ok options => exact ⟨options, rfl⟩
  | error fault =>
    obtain ⟨-, -, name, hname, -, hfault⟩ := detect_error.mp h
    cases hname
    rw [hboxes] at hfault
    cases hfault

-- ---------------------------------------------------------------------------
-- Printing
-- ---------------------------------------------------------------------------

/-- What diagnostics print is what they render to, one after the other. -/
theorem printout_renders {options : OutputOptions}
    (h : ds.mapM (fun d => d.render options.charset options.colours) = .ok texts) :
    String.join (printout options ds).texts = String.join texts ∧
      ∃ column, (printout options ds).reached = .ok column := by
  have hall := mapM_ok.mp h
  clear h
  induction hall with
  | nil => exact ⟨rfl, 1, rfl⟩
  | @cons d text ds texts hd _ ih =>
    obtain ⟨hjoin, hreached⟩ := ih
    rw [Diagnostic.render, Document.render_eq_print] at hd
    obtain ⟨column, hcolumn, rfl⟩ := map_ok.mp hd
    have hprint : printout options (d :: ds) =
        ⟨(d.print options.charset options.colours).texts ++ (printout options ds).texts,
          (printout options ds).reached⟩ := by
      rw [printout, Printout.andThen, Diagnostic.print, hcolumn]
    rw [hprint, String.join_cons, String.join_append, hjoin]
    exact ⟨rfl, hreached⟩

theorem printAll_takes {stream : Stream} {options : OutputOptions}
    (ht : stream.Takes (printout options ds).texts)
    (h : ds.mapM (fun d => d.render options.charset options.colours) = .ok texts) :
    printAll stream options ds = .ok (String.join texts) := by
  obtain ⟨hjoin, column, hcolumn⟩ := printout_renders h
  simp only [printAll, Stream.write_takes ht, hcolumn, hjoin]

theorem printAll_refused {stream : Stream} {options : OutputOptions}
    (ht : (printout options ds).texts = before ++ text :: after) (hb : stream.Takes before)
    (hc : stream.complaint? text = some complaint) :
    printAll stream options ds = .error (.crash (.unwritten ⟨String.join before, complaint⟩)) := by
  simp only [printAll, ht, Stream.write_refused hb hc]

end CommandLine

end SpanReport
