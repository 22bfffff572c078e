import SpanReport.Proofs.FirstRefusal
import SpanReport.Proofs.Session

/-!
# Sources in files

A file is read as the text that it encodes, with a line feed for each break of a
line. `load_inline`: a description that names a file is loaded with the same outcome
as one that has that text in its place, so the lines of such a source hold no break
of either kind.
-/

namespace SpanReport

-- ---------------------------------------------------------------------------
-- Breaks
-- ---------------------------------------------------------------------------

namespace Text

/-- Every break as a line feed: a carriage return together with the line feed that
follows it, and a carriage return alone. -/
def onlyFeeds : List Char → List Char
  | [] => []
  | '\r' :: '\n' :: rest => '\n' :: onlyFeeds rest
  | '\r' :: rest => '\n' :: onlyFeeds rest
  | c :: rest => c :: onlyFeeds rest

/-- The flag of a step tells whether the text behind it begins with a line feed. -/
theorem foldr_unifyStep (text : List Char) :
    text.foldr unifyStep ([], false) = (onlyFeeds text, text.head? == some '\n') := by
  fun_induction onlyFeeds text with
  | case1 => rfl
  | case2 rest ih => simp [unifyStep, ih]
  | case3 rest hrest ih =>
    have hhead : (rest.head? == some '\n') = false := by
      cases rest with
      | nil => rfl
      | cons d more => simpa using fun hd => hrest more (by rw [hd])
    simp [unifyStep, ih, hhead]
  | case4 c rest _ hc ih =>
    have hne : c ≠ '\r' := hc
    simp [unifyStep, ih, hne]

theorem unifyBreaks_eq (text : List Char) : unifyBreaks text = onlyFeeds text :=
  congrArg Prod.fst (foldr_unifyStep text)

theorem return_not_mem_onlyFeeds (text : List Char) : '\r' ∉ onlyFeeds text := by
  fun_induction onlyFeeds text with
  | case1 => exact List.not_mem_nil
  | case2 rest ih => simpa using ih
  | case3 rest _ ih => simpa using ih
  | case4 c rest _ hc ih => simpa [eq_comm] using ⟨hc, ih⟩

theorem onlyFeeds_eq_self (h : '\r' ∉ text) : onlyFeeds text = text := by
  fun_induction onlyFeeds text with
  | case1 => rfl
  | case2 rest _ => simp at h
  | case3 rest _ _ => simp at h
  | case4 c rest _ _ ih => rw [ih fun hm => h (List.mem_cons_of_mem c hm)]

end Text

namespace Description

/-- The source that a text is when it is read from a file. -/
def unbroken (text : String) : String := String.ofList (Text.onlyFeeds text.toList)

/-- The lines of a text that is read from a file hold no break. -/
theorem not_mem_textLines_unbroken (h : line ∈ Diagnostic.textLines (unbroken text)) :
    '\r' ∉ line.toList ∧ '\n' ∉ line.toList := by
  obtain ⟨characters, hm, rfl⟩ := List.mem_map.mp h
  rw [unbroken, String.toList_ofList] at hm
  rw [String.toList_ofList]
  exact ⟨fun hreturn => Text.return_not_mem_onlyFeeds _ (Text.mem_of_mem_line hm hreturn),
    Text.newline_not_mem_line hm⟩

-- ---------------------------------------------------------------------------
-- Files
-- ---------------------------------------------------------------------------

/-- The file at a path holds a text. No file has a zero character in its path. -/
structure Holds (disk : Disk) (path : Path) (text : String) : Prop where
  zero_free : '\x00' ∉ path.text.toList
  read : disk.read path = .ok text.toUTF8.toList

section
variable {disk : Disk} {base : Option Path} {members fields : List (String × Json)} {name : String}

theorem source_of_holds (hpath : Json.member? "path" fields = some (.text file))
    (hfile : Holds disk (sourcePath base file) text) (place : Place) :
    source disk base place (.object fields) = .ok (unbroken text) := by
  have hread (unreadable : DiskFault → Failure) (undecodable : Text.Utf8.Refusal → Failure) :
      fileText disk (sourcePath base file) unreadable undecodable =
        .ok (Text.onlyFeeds text.toList) := by
    refine fileText_ok.mpr ⟨hfile.zero_free, text.toList, ?_, Text.unifyBreaks_eq _⟩
    rw [hfile.read, Text.Utf8.toList_toUTF8]
  simp only [source, expectObject, required, hpath, expectText, ok_bind, hread]
  rfl

-- ---------------------------------------------------------------------------
-- Sources one after the other
-- ---------------------------------------------------------------------------

theorem loadSources_cons (d : Diagnostic) (file : String × Json) (rest : List (String × Json)) :
    (loadSources disk base d (file :: rest)).result = (do
      let text ← source disk base [.member "files", .member file.1] file.2
      (loadSources disk base (d.withText file.1 text) rest).result) := by
  rw [loadSources]
  cases source disk base [.member "files", .member file.1] file.2 <;> rfl

theorem loadSources_append (d : Diagnostic) (first second : List (String × Json)) :
    (loadSources disk base d (first ++ second)).result = (do
      let d ← (loadSources disk base d first).result
      (loadSources disk base d second).result) := by
  induction first generalizing d with
  | nil => rfl
  | cons file first ih => simp only [List.cons_append, loadSources_cons, ih, bind_assoc]

/-- A source may be put in the place of another one that is as good. -/
theorem loadSources_congr {v w : Json}
    (h : ∀ place, source disk base place v = source disk base place w) (d : Diagnostic)
    (before after : List (String × Json)) :
    (loadSources disk base d (before ++ (name, v) :: after)).result =
      (loadSources disk base d (before ++ (name, w) :: after)).result := by
  simp only [loadSources_append, loadSources_cons, h]

theorem lookup_loadSources {files : List (String × Json)} (hname : name ∉ files.map Prod.fst)
    (h : (loadSources disk base d files).result = .ok loaded) :
    loaded.sources.lookup name = d.sources.lookup name := by
  induction files generalizing d with
  | nil =>
    cases h
    rfl
  | cons file files ih =>
    rw [List.map_cons, List.mem_cons, not_or] at hname
    obtain ⟨text, -, h⟩ := bind_ok.mp (loadSources_cons d file files ▸ h)
    have hlookup : (d.withText file.1 text).sources.lookup name = _ :=
      Diagnostic.lookup_register name file.1 _ d.sources
    rw [ih hname.2 h, hlookup, List.lookup_cons, beq_eq_false_iff_ne.mpr hname.1]

/-- Of the sources of one name, the last one is what is registered. -/
theorem lookup_loaded {v : Json} (hv : ∀ place, source disk base place v = .ok text)
    (hname : name ∉ after.map Prod.fst)
    (h : (loadSources disk base d (before ++ (name, v) :: after)).result = .ok loaded) :
    loaded.sources.lookup name = some (Diagnostic.textLines text) := by
  rw [loadSources_append] at h
  obtain ⟨d, -, h⟩ := bind_ok.mp h
  rw [loadSources_cons, hv, ok_bind] at h
  rw [lookup_loadSources hname h]
  exact (Diagnostic.lookup_register name name _ d.sources).trans List.lookup_cons_self

theorem loadReports_sources (h : (loadReports d listed).result = .ok loaded) :
    loaded.sources = d.sources := by
  rw [loadReports_result] at h
  obtain ⟨reports, -, rfl⟩ := map_ok.mp h
  clear h
  induction reports generalizing d with
  | nil => rfl
  | cons r reports ih => exact ih

-- ---------------------------------------------------------------------------
-- Whole descriptions
-- ---------------------------------------------------------------------------

/-- A description with these sources in the place of its own. -/
def withSources (files members : List (String × Json)) : Json :=
  .object (Json.setMember "files" (.object files) members)

theorem load_files {files : List (String × Json)}
    (h : Json.member? "files" members = some (.object files)) :
    load disk base (.object members) = (do
      let d ← (loadSources disk base .empty files).result
      let reports ← expectList [.member "reports"] "a list" (memberOr "reports" (.list []) members)
      (loadReports d reports.zipIdx).result) := by
  rw [load_object, memberOr, h]
  rfl

/-- Other sources that are loaded alike change nothing. -/
theorem load_withSources {files others : List (String × Json)}
    (h : Json.member? "files" members = some (.object files))
    (hsame : (loadSources disk base .empty files).result =
      (loadSources disk base .empty others).result) :
    load disk base (.object members) = load disk base (withSources others members) := by
  have hreports : memberOr "reports" (.list []) (Json.setMember "files" (.object others) members) =
      memberOr "reports" (.list []) members := by
    rw [memberOr, Json.member?_setMember, if_neg (by decide), memberOr]
  rw [withSources, load_files h, load_files (by rw [Json.member?_setMember, if_pos rfl]), hreports,
    hsame]

/-- A source that names a file is as good as the text in it with a line feed for each
break, whatever else the description says: both load the same diagnostic, or are
refused alike. For a text without carriage returns this is the text itself. The lines
that are registered for the file, unless a later source has its name, hold neither line
feeds nor carriage returns. -/
theorem load_inline {text : String} (hfiles : Json.member? "files" members =
      some (.object (before ++ (name, .object fields) :: after)))
    (hpath : Json.member? "path" fields = some (.text file))
    (hfile : Holds disk (sourcePath base file) text) :
    load disk base (.object members) =
        load disk base (withSources (before ++ (name, .text (unbroken text)) :: after) members) ∧
      ('\r' ∉ text.toList → load disk base (.object members) =
        load disk base (withSources (before ++ (name, .text text) :: after) members)) ∧
      ∀ d, load disk base (.object members) = .ok d → name ∉ after.map Prod.fst →
        d.sources.lookup name = some (Diagnostic.textLines (unbroken text)) ∧
          ∀ line ∈ Diagnostic.textLines (unbroken text), '\r' ∉ line.toList ∧ '\n' ∉ line.toList := by
  have hsource := source_of_holds hpath hfile
  have hinline : load disk base (.object members) =
      load disk base (withSources (before ++ (name, .text (unbroken text)) :: after) members) := by
    refine load_withSources hfiles (loadSources_congr (fun place => ?_) _ before after)
    rw [hsource, source]
  refine ⟨hinline, fun hfree => ?_, fun d hd hname => ⟨?_, fun line => not_mem_textLines_unbroken⟩⟩
  · have hsame : unbroken text = text := by
      rw [unbroken, Text.onlyFeeds_eq_self hfree, String.ofList_toList]
    rw [hinline, hsame]
  · rw [load_files hfiles] at hd
    obtain ⟨d', hd', hd⟩ := bind_ok.mp hd
    obtain ⟨_, -, hd⟩ := bind_ok.mp hd
    rw [loadReports_sources hd]
    exact lookup_loaded hsource hname hd'

end

/-- A disk with one file, whose breaks are of two kinds. -/
def mixedDisk : Disk where
  nodes := [(["src", "a.txt"], .file [0xC3, 0xA9, 0x0D, 0x0A, 0x79, 0x0D])]

def mixedMembers : List (String × Json) :=
  [("files", .object [("b.txt", .text "x\r"), ("a.txt", .object [("path", .text "./a.txt")])])]

theorem load_inline_mixed :
    Json.member? "files" mixedMembers = some (.object ([("b.txt", .text "x\r")] ++
      ("a.txt", .object [("path", .text "./a.txt")]) :: [])) ∧
    Holds mixedDisk (sourcePath (some (Path.parse "src")) "./a.txt") "é\r\ny\r" ∧
    load mixedDisk (some (Path.parse "src")) (.object mixedMembers) =
      load mixedDisk (some (Path.parse "src"))
        (.object [("files", .object [("b.txt", .text "x\r"), ("a.txt", .text "é\ny\n")])]) := by
  have hfiles : Json.member? "files" mixedMembers = some (.object ([("b.txt", .text "x\r")] ++
      ("a.txt", .object [("path", .text "./a.txt")]) :: [])) := rfl
  have hfile : Holds mixedDisk (sourcePath (some (Path.parse "src")) "./a.txt") "é\r\ny\r" :=
    ⟨by decide, by rw [Text.Utf8.toList_toUTF8]; decide⟩
  exact ⟨hfiles, hfile, (load_inline hfiles rfl hfile).1⟩

end Description

end SpanReport
