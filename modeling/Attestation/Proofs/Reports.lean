import Attestation.Proofs.Faithfulness
import Attestation.Proofs.LineIndex
import Attestation.Proofs.Positions

/-!
# Every outcome has a report

A report fails if a position has the number of no source, or if the look-up of its line fails. The
first does not happen, since every position comes from a text that was registered
(`Request.shows_of_mem_positions`). The second does not happen in sources of less than 4 GiB
(`SourceText.lineCol?_eq`, `SourceText.lineText?_eq`), whatever the front end took for the range of a
span: it may end behind the text or before its start, or begin inside a character. So the outcome of
a compilation can always be reported: `Request.report_of_compile`.
-/

namespace Attestation

open Syntax

theorem exists_mapM_eq_some {α β : Type} {f : α → Option β} {l : List α}
    (h : ∀ a ∈ l, ∃ b, f a = some b) : ∃ bs, l.mapM f = some bs := by
  induction l with
  | nil => exact ⟨[], rfl⟩
  | cons a l ih =>
    obtain ⟨b, hb⟩ := h a List.mem_cons_self
    obtain ⟨bs, hbs⟩ := ih fun c hc => h c (List.mem_cons_of_mem _ hc)
    exact ⟨b :: bs, by simp [hb, hbs]⟩

/-- A position is in a source of less than 4 GiB. -/
def SourceMap.Shows (sources : SourceMap) (p : Position) : Prop :=
  ∃ source, sources.source? p = some source ∧ source.size < UInt32.size

theorem SourceMap.Shows.source_lt {sources : SourceMap} {p : Position} (h : sources.Shows p) :
    p.source < sources.size := by
  obtain ⟨source, hsource, -⟩ := h
  exact (Array.getElem?_eq_some_iff.1 hsource).1

namespace Report

variable {sources : SourceMap} {p : Position}

theorem exists_place? (h : sources.Shows p) : ∃ text, place? sources p = some text := by
  obtain ⟨source, hsource, hsize⟩ := h
  unfold place?
  rw [hsource, Option.bind_eq_bind, Option.bind_some, SourceText.lineCol?_eq hsize]
  exact ⟨_, rfl⟩

theorem exists_excerpt? (h : sources.Shows p) : ∃ text, excerpt? sources p = some text := by
  obtain ⟨source, hsource, hsize⟩ := h
  unfold excerpt?
  rw [hsource, Option.bind_eq_bind, Option.bind_some, SourceText.lineCol?_eq hsize,
    Option.bind_eq_bind, Option.bind_some]
  dsimp only
  rw [SourceText.lineText?_eq hsize]
  exact ⟨_, rfl⟩

theorem exists_pointer? {p? : Option Position} (h : ∀ p ∈ p?, sources.Shows p) :
    ∃ text, pointer? sources p? = some text := by
  cases p? with
  | none => exact ⟨_, rfl⟩
  | some p =>
    obtain ⟨place, hplace⟩ := exists_place? (h p rfl)
    obtain ⟨excerpt, hexcerpt⟩ := exists_excerpt? (h p rfl)
    refine ⟨s!"  --> {place}\n{excerpt}", ?_⟩
    simp [pointer?, hplace, hexcerpt]

theorem exists_label? {label : Diagnostic.Label} (h : ∀ p ∈ label.position, sources.Shows p) :
    ∃ text, label? sources label = some text := by
  unfold label?
  split_ifs
  · exact ⟨_, rfl⟩
  · cases hposition : label.position with
    | none => exact ⟨_, rfl⟩
    | some p =>
      obtain ⟨place, hplace⟩ := exists_place? (h p hposition)
      simp [hplace]

end Report

namespace Diagnostic

variable {sources : SourceMap}

/-- A diagnostic can be reported if its positions are in sources that are not too large. -/
theorem exists_report? {d : Diagnostic} (h : ∀ p ∈ d.positions, sources.Shows p) :
    ∃ text, d.report? sources = some text := by
  have hlabel : ∀ label ∈ d.labels, ∀ p ∈ label.position, sources.Shows p :=
    fun label hlabel p hp => h p (List.mem_filterMap.2 ⟨label, hlabel, hp⟩)
  have hfirst : ∀ p ∈ d.position?, sources.Shows p := by
    intro p hp
    obtain ⟨label, hmem, hposition⟩ := List.exists_of_findSome?_eq_some hp
    exact hlabel label hmem p hposition
  obtain ⟨pointer, hpointer⟩ := Report.exists_pointer? hfirst
  obtain ⟨labels, hlabels⟩ := exists_mapM_eq_some fun label hmem =>
    Report.exists_label? (hlabel label hmem)
  exact ⟨_, by rw [report?, hpointer, hlabels]; rfl⟩

theorem exists_reportAll? {ds : List Diagnostic}
    (h : ∀ d ∈ ds, ∀ p ∈ d.positions, sources.Shows p) :
    ∃ text, reportAll? sources ds = some text := by
  obtain ⟨reports, hreports⟩ := exists_mapM_eq_some fun d hd => exists_report? (h d hd)
  exact ⟨_, by rw [reportAll?, hreports]; rfl⟩

end Diagnostic

namespace Request

variable {request : Request}

/-- Every position in the outcome is in one of the sources that come with it. -/
theorem shows_of_mem_positions (h : ∀ source ∈ request.sources, source.size < UInt32.size)
    {outcome : Except Failure Compilation} (houtcome : request.compile? = some outcome)
    {p : Position} (hp : p ∈ positionsOf outcome) : (sourcesOf outcome).Shows p := by
  obtain ⟨id, text, hgiven⟩ := exists_given_of_mem_positions houtcome hp
  have hheld : ∃ source, request.sources[id]? = some source := by
    rcases hgiven.getElem?_sources with hheld | ⟨_, _, _, _, _, _, _, _, hheld⟩
    · exact ⟨_, hheld⟩
    · exact ⟨_, hheld⟩
  obtain ⟨source, hheld⟩ := hheld
  refine ⟨source, ?_, h source (Array.mem_of_getElem? hheld)⟩
  rw [sourcesOf_eq houtcome, SourceMap.source?, hgiven.source_eq, hheld]

/-- **The outcome of every compilation can be reported**, if no source has 4 GiB or more: all
positions in its diagnostics are in sources that come with it, and no look-up fails. There is an
outcome as long as the sources fit. -/
theorem report_of_compile (request : Request)
    (h : ∀ source ∈ request.sources, source.size < UInt32.size) :
    (request.Fits → ∃ outcome, request.compile? = some outcome) ∧
    (∀ c, request.compile? = some (.ok c) →
      (∀ d ∈ c.warnings, ∀ p ∈ d.positions, p.source < c.sources.size) ∧
        ∃ text, c.report? = some text) ∧
    ∀ failure, request.compile? = some (.error failure) →
      (∀ d ∈ failure.warnings ++ [failure.error], ∀ p ∈ d.positions,
        p.source < failure.sources.size) ∧ ∃ text, failure.report? = some text := by
  refine ⟨fun hfits => ⟨_, compile?_eq_some_iff.2 ⟨hfits, rfl⟩⟩, ?_, ?_⟩
  · intro c hcompile
    have hshows : ∀ d ∈ c.warnings, ∀ p ∈ d.positions, c.sources.Shows p := fun d hd p hp =>
      shows_of_mem_positions h hcompile
        (List.mem_append_right _ (List.mem_flatMap.2 ⟨d, hd, hp⟩))
    exact ⟨fun d hd p hp => (hshows d hd p hp).source_lt, Diagnostic.exists_reportAll? hshows⟩
  · intro failure hcompile
    have hshows : ∀ d ∈ failure.warnings ++ [failure.error], ∀ p ∈ d.positions,
        failure.sources.Shows p := fun d hd p hp =>
      shows_of_mem_positions h hcompile (List.mem_flatMap.2 ⟨d, hd, hp⟩)
    exact ⟨fun d hd p hp => (hshows d hd p hp).source_lt, Diagnostic.exists_reportAll? hshows⟩

/-- A request with spans as no front end should report them: one begins inside a character and ends
before it begins, one is behind the end of the text. -/
def oddRequest (name : String) : Request where
  name := "odd"
  statement :=
    ⟨"odd", "ÄÖ\nü", [⟨⟨"alice", ⟨1, 0, 0⟩⟩, ⟨"member", noSpan⟩, .witness⟩,
      ⟨⟨"bob", ⟨4294967295, 4294967295, 0⟩⟩, ⟨"member", noSpan⟩, .witness⟩],
      [.equality (.identifier name ⟨["age"]⟩ ⟨6, 1, 9⟩) (number 30) noSpan]⟩
  premises := []
  schemas := [("member", memberSchema)]
  witness := []
  disclosed := []
  cap := 10

theorem report_of_compile_odd :
    (∃ c, (oddRequest "alice").compile? = some (.ok c) ∧ c.warnings ≠ [] ∧
      ∃ text, c.report? = some text) ∧
    ∃ failure, (oddRequest "carol").compile? = some (.error failure) ∧
      ∃ text, failure.report? = some text := by
  have hunused : ∃ c ∈ (oddRequest "alice").compilation?, c.warnings ≠ [] := by decide +kernel
  have hundeclared : ∃ failure ∈ (oddRequest "carol").failure?, failure.warnings = [] := by
    decide +kernel
  obtain ⟨c, hc, hwarnings⟩ := hunused
  obtain ⟨failure, hfailure, -⟩ := hundeclared
  rw [Option.mem_def, compilation?_eq_some_iff] at hc
  rw [Option.mem_def, failure?_eq_some_iff] at hfailure
  exact ⟨⟨c, hc, hwarnings, ((report_of_compile _ (by decide +kernel)).2.1 c hc).2⟩, failure,
    hfailure, ((report_of_compile _ (by decide +kernel)).2.2 failure hfailure).2⟩

end Request

end Attestation
