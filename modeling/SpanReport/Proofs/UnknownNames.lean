import SpanReport.Document
import SpanReport.Proofs.Outcomes

/-!
# Names without a code

Names are looked up only for a text that has something to colour.
`render_unknown`: printing in colour fails at the first fragment with an unknown name
that prints more than line feeds, be it only the blanks of its indent, and it fails
with the first unknown name of that fragment. Printing without colours never fails.
-/

namespace SpanReport

-- ---------------------------------------------------------------------------
-- Styles
-- ---------------------------------------------------------------------------

namespace Style

/-- Some name of the style has no code. -/
def Unknown (s : Style) : Prop :=
  (∃ name, s.foreground = some name ∧ Aspect.foreground.code? name = none) ∨
  (∃ name, s.background = some name ∧ Aspect.background.code? name = none) ∨
  ∃ name ∈ s.attributes, Aspect.attribute.code? name = none

/-- The foreground is looked up first, then the background, then the attributes as
they are listed. -/
inductive FirstUnknown (s : Style) (name : String) : Prop
  | foreground (h : s.foreground = some name) (hn : Aspect.foreground.code? name = none)
  | background (hf : ∀ colour, s.foreground = some colour → (Aspect.foreground.code? colour).isSome)
      (h : s.background = some name) (hn : Aspect.background.code? name = none)
  | attribute (hf : ∀ colour, s.foreground = some colour → (Aspect.foreground.code? colour).isSome)
      (hb : ∀ colour, s.background = some colour → (Aspect.background.code? colour).isSome)
      (h : First (fun other => (Aspect.attribute.code? other).isSome)
        (fun other => Aspect.attribute.code? other = none ∧ other = name) s.attributes)

theorem code_ok : (∃ n, code named = .ok n) ↔ (named.1.code? named.2).isSome := by
  cases h : named.1.code? named.2 <;> simp [code, h]

theorem code_error : code named = .error ⟨name⟩ ↔
    named.1.code? named.2 = none ∧ named.2 = name := by
  cases h : named.1.code? named.2 <;> simp [code, h]

theorem codes_error {s : Style} : s.codes = .error ⟨name⟩ ↔ s.FirstUnknown name := by
  rw [codes, mapM_error, names]
  simp only [code_ok, code_error, first_append, first_map, first_toList, List.forall_mem_append,
    List.forall_mem_map, Option.mem_toList]
  constructor
  · rintro ((⟨other, h, hn, rfl⟩ | ⟨hf, other, h, hn, rfl⟩) | ⟨⟨hf, hb⟩, h⟩)
    · exact .foreground h hn
    · exact .background hf h hn
    · exact .attribute hf hb h
  · rintro (⟨h, hn⟩ | ⟨hf, h, hn⟩ | ⟨hf, hb, h⟩)
    · exact .inl (.inl ⟨name, h, hn, rfl⟩)
    · exact .inl (.inr ⟨hf, name, h, hn, rfl⟩)
    · exact .inr ⟨⟨hf, hb⟩, h⟩

theorem exists_codes_error {s : Style} : (∃ e, s.codes = .error e) ↔ s.Unknown := by
  rw [exists_error, codes, exists_mapM_ok]
  simp only [code_ok, names, List.forall_mem_append, List.forall_mem_map, Option.mem_toList,
    not_and_or, not_forall, Option.not_isSome_iff_eq_none, exists_prop, or_assoc]
  rfl

end Style

-- ---------------------------------------------------------------------------
-- Fragments
-- ---------------------------------------------------------------------------

/-- A text has something to colour once it has another character than line feeds, or
blanks behind them. -/
theorem Text.exists_mem_hang : (∃ c ∈ Text.hang indent text, c ≠ '\n') ↔
    (∃ c ∈ text, c ≠ '\n') ∨ 0 < indent ∧ '\n' ∈ text := by
  constructor
  · rintro ⟨c, hc, hne⟩
    obtain ⟨d, hd, hc⟩ := List.mem_flatMap.mp hc
    by_cases hnewline : d = '\n'
    · subst hnewline
      obtain hblank := (List.mem_cons.mp hc).resolve_left hne
      exact .inr ⟨Nat.pos_of_ne_zero (List.mem_replicate.mp hblank).1, hd⟩
    · exact .inl ⟨d, hd, hnewline⟩
  · rintro (⟨c, hc, hne⟩ | ⟨hpos, hc⟩)
    · exact ⟨c, List.mem_flatMap.mpr ⟨c, hc, by simp [hne]⟩, hne⟩
    · refine ⟨' ', List.mem_flatMap.mpr ⟨'\n', hc, ?_⟩, by decide⟩
      simp [Nat.pos_iff_ne_zero.mp hpos]

namespace Fragment

variable {f : Fragment} {column : Int}

/-- The fragment prints more than line feeds, in a style with an unknown name. -/
def Fails (f : Fragment) (column : Int) : Prop :=
  f.style.Unknown ∧ ((∃ c ∈ f.content.toList, c ≠ '\n') ∨
    f.hanging ∧ '\n' ∈ f.content.toList ∧ 1 < column)

theorem exists_mem_chars : (∃ c ∈ f.chars column, c ≠ '\n') ↔
    (∃ c ∈ f.content.toList, c ≠ '\n') ∨
      f.hanging ∧ '\n' ∈ f.content.toList ∧ 1 < column := by
  have hindent : 0 < f.indent column ↔ f.hanging ∧ 1 < column := by
    have hpos : 0 < (column - 1).toNat ↔ 1 < column := by omega
    by_cases hhanging : f.hanging
    · rw [indent, if_pos hhanging, hpos, and_iff_right hhanging]
    · rw [indent, if_neg hhanging]
      exact iff_of_false (Nat.lt_irrefl 0) fun h => hhanging h.1
  rw [chars, Text.exists_mem_hang, hindent, and_assoc, and_comm (a := 1 < column)]

theorem paints_iff (h : f.style.codes = .error e) :
    f.paints column ↔ ∃ c ∈ f.chars column, c ≠ '\n' := by
  have hstyle : f.style.isPlain = false := by
    rw [Style.isPlain, List.isEmpty_eq_false_iff]
    intro hnames
    rw [Style.codes, hnames] at h
    cases h
  simp [paints, hstyle]

theorem emitColoured_error :
    f.emitColoured column = .error e ↔ f.paints column ∧ f.style.codes = .error e := by
  rw [emitColoured]
  cases f.paints column with
  | false => exact iff_of_false nofun (by simp)
  | true => cases f.style.codes <;> simp [bind, Except.bind]

theorem emitColoured_fails :
    f.emitColoured column = .error ⟨name⟩ ↔ f.Fails column ∧ f.style.FirstUnknown name := by
  rw [emitColoured_error, Fails, ← exists_mem_chars, ← Style.exists_codes_error,
    ← Style.codes_error]
  constructor
  · rintro ⟨hpaints, hcodes⟩
    exact ⟨⟨⟨_, hcodes⟩, (paints_iff hcodes).mp hpaints⟩, hcodes⟩
  · rintro ⟨⟨-, hchars⟩, hcodes⟩
    exact ⟨(paints_iff hcodes).mpr hchars, hcodes⟩

theorem exists_emitColoured_error : (∃ e, f.emitColoured column = .error e) ↔ f.Fails column := by
  simp only [emitColoured_error, Fails, ← exists_mem_chars, ← Style.exists_codes_error]
  constructor
  · rintro ⟨e, hpaints, hcodes⟩
    exact ⟨⟨e, hcodes⟩, (paints_iff hcodes).mp hpaints⟩
  · rintro ⟨⟨e, hcodes⟩, hchars⟩
    exact ⟨e, (paints_iff hcodes).mpr hchars, hcodes⟩

theorem exists_emitColoured_ok :
    (∃ text, f.emitColoured column = .ok text) ↔ ¬f.Fails column := by
  rw [← exists_emitColoured_error, exists_error, not_not]

end Fragment

-- ---------------------------------------------------------------------------
-- Documents
-- ---------------------------------------------------------------------------

namespace Document

theorem renderColoured_error {d : Document} : d.render true = .error e ↔
    (d.placed.mapM fun p => p.2.emitColoured p.1) = .error e := by
  have hrender : d.render true =
      String.join <$> d.placed.mapM fun p => p.2.emitColoured p.1 := bind_pure_comp String.join _
  rw [hrender]
  cases d.placed.mapM fun p => p.2.emitColoured p.1 <;> simp [Functor.map, Except.map]

/-- Without colours no document fails. In colour one fails just if one of its fragments
does at the column where it is printed, and then with the first unknown name of the
first such fragment. -/
theorem render_unknown (d : Document) :
    (∃ text, d.render false = .ok text) ∧
    ((∃ e, d.render true = .error e) ↔ ∃ p ∈ d.placed, p.2.Fails p.1) ∧
    ∀ name, d.render true = .error ⟨name⟩ ↔
      First (fun p => ¬p.2.Fails p.1)
        (fun p => p.2.Fails p.1 ∧ p.2.style.FirstUnknown name) d.placed := by
  refine ⟨⟨_, rfl⟩, ?_, fun name => ?_⟩
  · simp only [renderColoured_error, exists_error, exists_mapM_ok]
    simp only [Fragment.exists_emitColoured_ok, not_forall, not_not, exists_prop]
  · simp only [renderColoured_error, mapM_error, Fragment.exists_emitColoured_ok,
      Fragment.emitColoured_fails]

/-- An indent of no blanks leaves nothing to colour. -/
example : let feed : Fragment := ⟨"\n", { foreground := some "pink" }, true⟩
    render true ⟨[feed]⟩ = .ok "\n" ∧ render true ⟨[⟨"a", {}, false⟩, feed]⟩ = .error ⟨"pink"⟩ :=
  ⟨rfl, rfl⟩

end Document

end SpanReport
