import SpanReport.Proofs.Stages

/-!
# How a run ends

`run_outcome`: a run whose descriptions cannot all be loaded reports the first
failure and leaves everything as it was. A run that loads them all prints each
of them in order to the one place that was asked for, unless that cannot be
opened. Such a run crashes in five cases: two dashes were to name the output,
or to be the word for colours; a home directory is not known; an encoding has a
name that cannot be used; or the standard output refuses a text. In the last case
what comes before that text has been printed, in the others nothing.
-/

namespace SpanReport.CommandLine

-- ---------------------------------------------------------------------------
-- What is said of a run
-- ---------------------------------------------------------------------------

/-- No path that the run is to follow has a zero character. -/
structure NoZero (disk : Disk) (r : Request) : Prop where
  files : ∀ f ∈ r.files, '\x00' ∉ f.toList
  sources : ∀ f ∈ r.files, ∀ v, Description.fileValue disk (Path.parse f) = .ok v →
    ∀ name ∈ Description.sourceNames v, '\x00' ∉ name.toList
  output : ∀ output, r.output = .given output → ∀ name, output = some name → '\x00' ∉ name.toList

/-- The run printed nothing and reported one error. -/
structure Outcome.Stopped (o : Outcome) (message : String) : Prop where
  exitCode : o.exitCode = 2
  output : o.output = ""
  errors : o.errors = [message]

/-- The text went to the one place, and nothing went anywhere else. -/
def Outcome.Sent (o : Outcome) (before : Disk) (text : String) : Sink → Prop
  | .standard => o.output = text ∧ o.disk = before
  | .file location => o.output = "" ∧
      o.disk.node? location = some (.file (Text.Utf8.encode text.toList)) ∧
      ∀ other, other ≠ location → o.disk.nodes.lookup other = before.nodes.lookup other

/-- The ways in which a run that has loaded everything crashes. -/
inductive Crashes (w : World) (r : Request) (ds : List Diagnostic) : Crash → Prop
  | output (ho : r.output = .lost) : Crashes w r ds .lostOutput
  | home (ho : r.output = .given (some name)) (hd : name ≠ "-")
      (he : w.homes.expand (Path.parse name) = .error .noHome) : Crashes w r ds .noHome
  | colours (ho : r.output = .given output) (hs : Opens w output sink) (hc : r.colours = .lost) :
      Crashes w r ds .lostColours
  | encoding {colours : Option Bool} (ho : r.output = .given output)
      (hs : Opens w output .standard) (hc : r.colours = .given colours) (hn : r.charset = none)
      (ha : isSet w.environment.asciiOnly = false)
      (hname : w.standardOutput.encoding = some name) (hne : name ≠ "")
      (hb : Encoding.hasBoxes name = .error fault) : Crashes w r ds (.encoding fault)
  | refused {colours : Option Bool} (ho : r.output = .given output)
      (hs : Opens w output .standard) (hc : r.colours = .given colours)
      (hd : OutputOptions.detect w.environment w.standardOutput r.charset colours = .ok options)
      (ht : (printout options ds).texts = before ++ text :: after)
      (hb : w.standardOutput.Takes before)
      (hm : w.standardOutput.complaint? text = some complaint) :
      Crashes w r ds (.unwritten ⟨String.join before, complaint⟩)

-- ---------------------------------------------------------------------------
-- From stage to stage
-- ---------------------------------------------------------------------------

section
variable {w : World} {r : Request} {ds : List Diagnostic}

theorem troubled_stopped (events : List Event) (h : events.filterMap Event.error? = [])
    (t : Trouble) : (troubled w r events t).Stopped t.message where
  exitCode := rfl
  output := rfl
  errors := by
    rw [Outcome.errors, troubled, errors_shown, List.filterMap_append, h]
    rfl

theorem run_of_parse (h : parse arguments = .ok r) : run w arguments = perform w r := by
  simp only [run, h]

theorem perform_trouble (h : (loadAll w.disk r.files).2 = .error (.trouble t)) :
    perform w r = .ok (troubled w r (loadAll w.disk r.files).1 t) := by
  rw [perform]
  simp only [h, Except.bind]

section
variable (hl : (loadAll w.disk r.files).2 = .ok ds)
include hl

theorem perform_ok (hf : finish w r (loadAll w.disk r.files).1 ds = .ok o) :
    perform w r = .ok o := by
  rw [perform]
  simp only [hl, Except.bind, hf]

theorem perform_stopped (hf : finish w r (loadAll w.disk r.files).1 ds = .error (.trouble t)) :
    perform w r = .ok (troubled w r (loadAll w.disk r.files).1 t) := by
  rw [perform]
  simp only [hl, Except.bind, hf]

theorem perform_error (hf : finish w r (loadAll w.disk r.files).1 ds = .error (.crash c)) :
    perform w r = .error c := by
  rw [perform]
  simp only [hl, Except.bind, hf]

end

theorem exitCode_eq (ds : List Diagnostic) :
    exitCode ds = if ∃ d ∈ ds, ∃ r ∈ d.reports, r.severity = .error then 1 else 0 := by
  have herror (r : Report) : r.isError = true ↔ r.severity = .error := by
    unfold Report.isError
    cases r.severity <;> simp [Severity.isError]
  simp only [exitCode, Diagnostic.hasErrors, List.any_eq_true, herror]

section
variable {events : List Event}

theorem finish_closed (hs : openSink w.homes w.disk r.output = .error halt) :
    finish w r events ds = .error halt := by
  rw [finish, hs]
  rfl

variable (hs : openSink w.homes w.disk r.output = .ok sink)
include hs

theorem finish_undecided
    (ho : r.options w.environment (sink.stream w.standardOutput) = .error halt) :
    finish w r events ds = .error halt := by
  simp only [finish, hs, ok_bind, ho]
  rfl

variable (ho : r.options w.environment (sink.stream w.standardOutput) = .ok options)
include ho

theorem finish_unprinted
    (hp : printAll (sink.stream w.standardOutput) options ds = .error halt) :
    finish w r events ds = .error halt := by
  simp only [finish, hs, ho, ok_bind, hp]
  rfl

theorem finish_ok (hp : printAll (sink.stream w.standardOutput) options ds = .ok text) :
    ∃ o, finish w r events ds = .ok o ∧ o.Sent w.disk text sink ∧
      o.errors = events.filterMap Event.error? ∧ o.exitCode = exitCode ds := by
  have herrors : (events ++ ds.flatMap (printEvents options)).filterMap Event.error? =
      events.filterMap Event.error? := by
    rw [List.filterMap_append, errors_printEvents, List.append_nil]
  simp only [finish, hs, ho, ok_bind, hp]
  cases sink with
  | standard => exact ⟨_, rfl, ⟨rfl, rfl⟩, (errors_shown _ _).trans herrors, rfl⟩
  | file location =>
    refine ⟨_, rfl, ⟨rfl, ?_, fun other h => Disk.lookup_write _ _ h⟩,
      (errors_shown _ _).trans herrors, rfl⟩
    rw [Disk.node?_write, Text.Utf8.toList_toUTF8]

end

theorem options_given {stream : Stream} {colours : Option Bool}
    (hc : r.colours = .given colours) (env : Environment) :
    r.options env stream =
      (OutputOptions.detect env stream r.charset colours).mapError
        fun e => .crash (.encoding e) := by
  rw [Request.options, hc]

theorem exists_renders (h : r.files.mapM (loaded w.disk) = .ok ds) (options : OutputOptions) :
    ∃ texts, ds.mapM (fun d => d.render options.charset options.colours) = .ok texts := by
  refine exists_mapM_ok.mpr fun d hd => ?_
  obtain ⟨f, -, hf⟩ := ok_of_mem_mapM h hd
  exact Diagnostic.render_ok (loaded_known hf) _ _

-- ---------------------------------------------------------------------------
-- Ends
-- ---------------------------------------------------------------------------

variable {failure : Description.Failure} (hzero : NoZero w.disk r)
include hzero

theorem loaded_ne_zero (hf : f ∈ r.files) (h : loaded w.disk f = .error failure) :
    (∃ refusal, failure = .refused refusal) ∨
      ∃ fault, failure = .unreadable (Path.parse f) fault := by
  have hpath : ¬(Path.parse f).HasZero := by
    rw [Path.hasZero_parse]
    exact hzero.files f hf
  rcases Description.loadFile_error h with hr | hu | ⟨-, hz | ⟨v, hv, hz⟩⟩
  · exact .inl hr
  · exact .inr hu
  · exact absurd hz hpath
  · obtain ⟨name, hn, hz | ⟨directory, hd, hz⟩⟩ := Description.meetsZero_sourceNames hz
    · exact absurd hz (hzero.sources f hf v hv name hn)
    · cases hd
      exact absurd (Path.hasZero_of_parent hz) hpath

theorem perform_refused (h : r.files = before ++ f :: after)
    (hb : ∀ g ∈ before, ∃ d, loaded w.disk g = .ok d) (hf : loaded w.disk f = .error failure) :
    ∃ o, perform w r = .ok o ∧ o.disk = w.disk ∧
      ((∃ refusal, failure = .refused refusal ∧ o.Stopped refusal.message) ∨
        ∃ fault, failure = .unreadable (Path.parse f) fault ∧
          o.Stopped ("cannot read " ++ f ++ ": " ++ fault.message)) := by
  have hall : (loadAll w.disk r.files).2 = .error (.ofFailure f failure) :=
    loadAll_error.mpr ⟨before, f, after, h, hb, failure, hf, rfl⟩
  have hquiet := errors_loadAll w.disk r.files
  rcases loaded_ne_zero hzero (by simp [h]) hf with ⟨refusal, rfl⟩ | ⟨fault, rfl⟩
  · exact ⟨_, perform_trouble hall, rfl, .inl ⟨refusal, rfl, troubled_stopped _ hquiet _⟩⟩
  · exact ⟨_, perform_trouble hall, rfl, .inr ⟨fault, rfl, troubled_stopped _ hquiet _⟩⟩

theorem openSink_of_opens (ho : r.output = .given output) (hs : Opens w output sink) :
    openSink w.homes w.disk r.output = .ok sink := by
  rw [ho]
  exact (openSink_ok (hzero.output _ ho)).mpr hs

variable (hloaded : r.files.mapM (loaded w.disk) = .ok ds)
include hloaded

theorem perform_closed (ho : r.output = .given (some name)) (hd : name ≠ "-")
    (he : w.homes.expand (Path.parse name) = .ok path)
    (hopen : w.disk.openForWriting path = .error fault) :
    ∃ o, perform w r = .ok o ∧
      o.Stopped ("cannot open output " ++ name ++ ": " ++ fault.message) := by
  have hcontains : name.contains '\x00' = false := by simpa using hzero.output _ ho name rfl
  have hs : openSink w.homes w.disk r.output = .error (.trouble (.outputClosed name fault)) := by
    simp only [ho, openSink, hd, if_false, he, hcontains, Bool.false_eq_true, hopen]
  exact ⟨_, perform_stopped (loadAll_ok.mpr hloaded) (finish_closed hs),
    troubled_stopped _ (errors_loadAll w.disk r.files) _⟩

theorem perform_printed {colours : Option Bool} (ho : r.output = .given output)
    (hs : Opens w output sink) (hc : r.colours = .given colours)
    (hd : OutputOptions.detect w.environment (sink.stream w.standardOutput) r.charset colours =
      .ok options)
    (ht : (sink.stream w.standardOutput).Takes (printout options ds).texts) :
    ∃ texts o, ds.mapM (fun d => d.render options.charset options.colours) = .ok texts ∧
      perform w r = .ok o ∧ o.Sent w.disk (String.join texts) sink ∧ o.errors = [] ∧
      o.exitCode = if ∃ d ∈ ds, ∃ r ∈ d.reports, r.severity = .error then 1 else 0 := by
  have hopen := openSink_of_opens hzero ho hs
  have hoptions : r.options w.environment (sink.stream w.standardOutput) = .ok options := by
    rw [options_given hc, hd]
    rfl
  obtain ⟨texts, hr⟩ := exists_renders hloaded options
  obtain ⟨o, hf, hsent, herrors, hcode⟩ := finish_ok hopen hoptions (printAll_takes ht hr)
  exact ⟨texts, o, hr, perform_ok (loadAll_ok.mpr hloaded) hf, hsent,
    herrors.trans (errors_loadAll w.disk r.files), hcode.trans (exitCode_eq ds)⟩

theorem perform_of_crashes (h : Crashes w r ds crash) : perform w r = .error crash := by
  refine perform_error (loadAll_ok.mpr hloaded) ?_
  cases h with
  | output ho => exact finish_closed (by rw [ho, openSink])
  | home ho hd he => exact finish_closed (by simp only [ho, openSink, hd, if_false, he])
  | colours ho hs hc =>
    exact finish_undecided (openSink_of_opens hzero ho hs) (by rw [Request.options, hc])
  | encoding ho hs hc hn ha hname hne hb =>
    refine finish_undecided (openSink_of_opens hzero ho hs) ?_
    rw [options_given hc, Sink.stream, detect_error.mpr ⟨hn, ha, _, hname, hne, hb⟩]
    rfl
  | refused ho hs hc hd ht hb hm =>
    refine finish_unprinted (openSink_of_opens hzero ho hs) ?_ (printAll_refused ht hb hm)
    rw [options_given hc, Sink.stream, hd]
    rfl

/-- A run that has loaded everything ends, or it crashes in one of these ways. -/
theorem perform_ends : (∃ o, perform w r = .ok o) ∨ ∃ crash, Crashes w r ds crash := by
  cases ho : r.output with
  | lost => exact .inr ⟨_, .output ho⟩
  | given output =>
    cases hs : openSink w.homes w.disk (.given output) with
    | error halt =>
      obtain ⟨name, rfl, hd, ⟨he, rfl⟩ | ⟨path, fault, he, hf, rfl⟩⟩ :=
        openSink_error (hzero.output _ ho) hs
      · exact .inr ⟨_, .home ho hd he⟩
      · obtain ⟨o, h, -⟩ := perform_closed hzero hloaded ho hd he hf
        exact .inl ⟨o, h⟩
    | ok sink =>
      have hopens := (openSink_ok (hzero.output _ ho)).mp hs
      cases hc : r.colours with
      | lost => exact .inr ⟨_, .colours ho hopens hc⟩
      | given colours =>
        cases hdetect : OutputOptions.detect w.environment (sink.stream w.standardOutput)
            r.charset colours with
        | ok options =>
          obtain ht | ⟨before, text, after, complaint, ht, hb, hm⟩ :=
            (sink.stream w.standardOutput).takes_or_refused (printout options ds).texts
          · obtain ⟨_, o, -, h, -⟩ := perform_printed hzero hloaded ho hopens hc hdetect ht
            exact .inl ⟨o, h⟩
          · cases sink with
            | standard => exact .inr ⟨_, .refused ho hopens hc hdetect ht hb hm⟩
            | file location => cases hm
        | error fault =>
          cases sink with
          | standard =>
            obtain ⟨hn, ha, name, hname, hne, hb⟩ := detect_error.mp hdetect
            exact .inr ⟨_, .encoding ho hopens hc hn ha hname hne hb⟩
          | file location =>
            obtain ⟨options, hok⟩ := detect_file w.environment r.charset colours
              w.standardOutput location
            rw [hok] at hdetect
            cases hdetect

theorem perform_crash : perform w r = .error crash ↔ Crashes w r ds crash := by
  refine ⟨fun h => ?_, perform_of_crashes hzero hloaded⟩
  rcases perform_ends hzero hloaded with ⟨o, ho⟩ | ⟨other, hcrash⟩
  · rw [ho] at h
    cases h
  · rw [perform_of_crashes hzero hloaded hcrash] at h
    cases h
    exact hcrash

end

/-- How a run ends that was asked for in a way that can be understood. If some
description cannot be loaded, the first such one is complained about, nothing
is printed and no file changes. Else, if the output cannot be opened, that is
complained about and nothing is printed. Else, if the output takes every text, as
a file does, the reports of all descriptions are printed in order, as the options
and the stream ask, to the output alone, and the exit code tells whether some
report is an error. A run that has loaded everything crashes in the ways of
`Crashes` and in no other. -/
theorem run_outcome {w : World} {r : Request} (hparse : parse arguments = .ok r)
    (hzero : NoZero w.disk r) :
    (∀ before f after failure, r.files = before ++ f :: after →
      (∀ g ∈ before, ∃ d, loaded w.disk g = .ok d) → loaded w.disk f = .error failure →
      ∃ o, run w arguments = .ok o ∧ o.disk = w.disk ∧
        ((∃ refusal, failure = .refused refusal ∧ o.Stopped refusal.message) ∨
          ∃ fault, failure = .unreadable (Path.parse f) fault ∧
            o.Stopped ("cannot read " ++ f ++ ": " ++ fault.message))) ∧
    ∀ ds, r.files.mapM (loaded w.disk) = .ok ds →
      (∀ name path fault, r.output = .given (some name) → name ≠ "-" →
        w.homes.expand (Path.parse name) = .ok path → w.disk.openForWriting path = .error fault →
        ∃ o, run w arguments = .ok o ∧
          o.Stopped ("cannot open output " ++ name ++ ": " ++ fault.message)) ∧
      (∀ output sink colours options, r.output = .given output → Opens w output sink →
        r.colours = .given colours →
        OutputOptions.detect w.environment (sink.stream w.standardOutput) r.charset colours =
          .ok options →
        (sink.stream w.standardOutput).Takes (printout options ds).texts →
        ∃ texts o, ds.mapM (fun d => d.render options.charset options.colours) = .ok texts ∧
          run w arguments = .ok o ∧ o.Sent w.disk (String.join texts) sink ∧ o.errors = [] ∧
          o.exitCode = if ∃ d ∈ ds, ∃ r ∈ d.reports, r.severity = .error then 1 else 0) ∧
      ∀ crash, run w arguments = .error crash ↔ Crashes w r ds crash := by
  rw [run_of_parse hparse]
  refine ⟨fun before f after failure h hb hf => perform_refused hzero h hb hf, fun ds hds => ?_⟩
  exact ⟨fun name path fault ho hd he hf => perform_closed hzero hds ho hd he hf,
    fun output sink colours options ho hs hc hd ht => perform_printed hzero hds ho hs hc hd ht,
    fun crash => perform_crash hzero hds⟩

/-- One description on the disk, under the name `n.json`. -/
def worldOf (description : String) : World where
  environment := {}
  standardOutput := { encoding := some "utf-8" }
  homes := { own := ⟨"/", ["root"]⟩ }
  disk := { nodes := [(["n.json"], .file (Text.Utf8.encode description.toList))] }

def oneReport : String := "\x7b\"reports\": [\x7b\"message\": \"no\"\x7d]\x7d"

def nothing : String := "\x7b\x7d"

theorem fileValue_worldOf (h : Json.read (Text.unifyBreaks description.toList) = .ok v) :
    Description.fileValue (worldOf description).disk (Path.parse "n.json") = .ok v := by
  have htext (unreadable undecodable) : Description.fileText (worldOf description).disk
      (Path.parse "n.json") unreadable undecodable = .ok (Text.unifyBreaks description.toList) :=
    Description.fileText_ok.mpr ⟨by decide, description.toList, rfl, rfl⟩
  simp only [Description.fileValue, htext, ok_bind, h]

theorem mapM_loaded_worldOf (h : Json.read (Text.unifyBreaks description.toList) = .ok v)
    (hd : Description.load (worldOf description).disk (some (Path.parse "n.json").parent) v =
      .ok d) : ["n.json"].mapM (loaded (worldOf description).disk) = .ok [d] := by
  have hloaded : loaded (worldOf description).disk "n.json" = .ok d :=
    Description.loadFile_ok.mpr ⟨v, fileValue_worldOf h, hd⟩
  rw [List.mapM_cons, hloaded]
  rfl

theorem run_outcome_written : parse ["n.json", "-o", "out/a.txt"] =
      .ok { files := ["n.json"], output := .given (some "out/a.txt") } ∧
    NoZero (worldOf oneReport).disk
      { files := ["n.json"], output := .given (some "out/a.txt") } ∧
    ∃ text o, run (worldOf oneReport) ["n.json", "-o", "out/a.txt"] = .ok o ∧ o.exitCode = 1 ∧
      o.Sent (worldOf oneReport).disk text (.file ["out", "a.txt"]) := by
  have hparse : parse ["n.json", "-o", "out/a.txt"] =
      .ok { files := ["n.json"], output := .given (some "out/a.txt") } := rfl
  have hvalue : Description.fileValue (worldOf oneReport).disk (Path.parse "n.json") =
      .ok (.object [("reports", .list [.object [("message", .text "no")]])]) :=
    fileValue_worldOf rfl
  have hloaded : ["n.json"].mapM (loaded (worldOf oneReport).disk) =
      .ok [{ reports := [{ severity := .error, message := .ofText "no" }] }] :=
    mapM_loaded_worldOf rfl rfl
  have hzero : NoZero (worldOf oneReport).disk
      { files := ["n.json"], output := .given (some "out/a.txt") } := by
    refine ⟨by decide, fun f hf v hv => ?_, ?_⟩
    · obtain rfl := List.mem_singleton.mp hf
      rw [hvalue] at hv
      cases hv
      exact List.forall_mem_nil _
    · rintro _ ⟨⟩ name ⟨⟩
      decide
  have hexpand : (worldOf oneReport).homes.expand (Path.parse "out/a.txt") =
      .ok (Path.parse "out/a.txt") := expand_eq _ (by decide)
  have hopens : Opens (worldOf oneReport) (some "out/a.txt") (.file ["out", "a.txt"]) :=
    .file (by decide) hexpand rfl
  obtain ⟨options, hd⟩ := detect_file {} none none { encoding := some "utf-8" } ["out", "a.txt"]
  obtain ⟨texts, o, -, hrun, hsent, -, hcode⟩ :=
    ((run_outcome hparse hzero).2 _ hloaded).2.1 _ _ none options rfl hopens rfl hd fun _ _ => rfl
  exact ⟨hparse, hzero, _, o, hrun, hcode.trans (by decide), hsent⟩

/-- Two dashes as the word for colours are lost on the way, and no exit code comes
of it. -/
theorem run_lostColours : parse ["n.json", "--color=--"] =
      .ok { files := ["n.json"], colours := .lost } ∧
    ["n.json"].mapM (loaded (worldOf nothing).disk) = .ok [{}] ∧
    run (worldOf nothing) ["n.json", "--color=--"] = .error .lostColours := by
  have hloaded : ["n.json"].mapM (loaded (worldOf nothing).disk) = .ok [{}] :=
    mapM_loaded_worldOf rfl rfl
  have hparse : parse ["n.json", "--color=--"] =
      .ok { files := ["n.json"], colours := .lost } := by decide +kernel
  refine ⟨hparse, hloaded, (run_of_parse hparse).trans ?_⟩
  exact perform_error (loadAll_ok.mpr hloaded) rfl

end SpanReport.CommandLine
