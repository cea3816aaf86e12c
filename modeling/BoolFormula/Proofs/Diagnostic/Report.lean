import BoolFormula.Proofs.Diagnostic.Excerpt
import BoolFormula.Proofs.Formula.Recursion
import BoolFormula.Proofs.Reading

/-! The ways of reading a text agree. Whether the error is asked for as a value, as a report or as a
report in color, a text is accepted or refused alike, and the report is drawn at the place that the
error names. Color only adds its escape sequences: none of them starts another or occurs in a text
without escapes, and taking them out again gives the report without color. -/

namespace BoolFormula

/-! ### Taking out sequences -/

namespace Text

/-- The list from `n` places on, without any occurrence of the sequences. -/
def withoutFrom (seqs : List (List Char)) : Nat → List Char → List Char
  | _, [] => []
  | n + 1, _ :: xs => withoutFrom seqs n xs
  | 0, x :: xs =>
    match seqs.find? (·.isPrefixOf (x :: xs)) with
    | none => x :: withoutFrom seqs 0 xs
    | some seq => withoutFrom seqs (seq.length - 1) xs

/-- The list without any occurrence of the sequences, from the left. -/
def without (seqs : List (List Char)) (xs : List Char) : List Char := withoutFrom seqs 0 xs

variable {seqs : List (List Char)} {seq u : List Char} {esc : Char} (xs : List Char)

theorem withoutFrom_append (u : List Char) :
    withoutFrom seqs u.length (u ++ xs) = without seqs xs := by
  induction u with
  | nil => rfl
  | cons x u ih => exact ih

/-- A sequence is taken out, if no other starts it. -/
theorem without_append_seq (hfree : ∀ s ∈ seqs, ∀ t ∈ seqs, s <+: t → s = t) (hseq : seq ∈ seqs)
    (hne : seq ≠ []) : without seqs (seq ++ xs) = without seqs xs := by
  obtain ⟨x, u, rfl⟩ := List.exists_cons_of_ne_nil hne
  have hpre : x :: u <+: x :: (u ++ xs) := List.prefix_append (x :: u) xs
  have hfind : seqs.find? (·.isPrefixOf (x :: (u ++ xs))) = some (x :: u) := by
    cases hf : seqs.find? (·.isPrefixOf (x :: (u ++ xs))) with
    | none =>
      exact absurd (List.isPrefixOf_iff_prefix.2 hpre) (List.find?_eq_none.1 hf _ hseq)
    | some t =>
      have ht := List.mem_of_find?_eq_some hf
      have htpre := List.isPrefixOf_iff_prefix.1
        (List.find?_some (p := fun s => List.isPrefixOf s (x :: (u ++ xs))) hf)
      rcases List.prefix_or_prefix_of_prefix htpre hpre with h | h
      · rw [hfree t ht _ hseq h]
      · rw [hfree _ hseq t ht h]
  rw [without, List.cons_append, withoutFrom, hfind]
  exact withoutFrom_append xs u

/-- What does not start a sequence stays. -/
theorem without_append (hesc : ∀ s ∈ seqs, s.head? = some esc) (hu : esc ∉ u) :
    without seqs (u ++ xs) = u ++ without seqs xs := by
  induction u with
  | nil => rfl
  | cons x u ih =>
    rw [List.mem_cons, not_or] at hu
    have hfind : seqs.find? (·.isPrefixOf (x :: (u ++ xs))) = none := by
      rw [List.find?_eq_none]
      intro t ht hpre
      obtain ⟨rest, hrest⟩ := List.isPrefixOf_iff_prefix.1 hpre
      have hhead := hesc t ht
      cases t with
      | nil => cases hhead
      | cons y t =>
        cases hhead
        exact hu.1 (List.cons.inj hrest).1
    rw [without, List.cons_append, withoutFrom, hfind]
    exact congrArg (x :: ·) (ih hu.2)

end Text

/-! ### Color -/

/-- A part of a report: what the style writes there, or text. -/
inductive Part
  | code (select : Style → String)
  | plain (text : List Char)

/-- The part in a style. -/
def Part.chars (style : Style) : Part → List Char
  | code select => (select style).toList
  | plain text => text

/-- All that a style writes. -/
def codes : List (Style → String) :=
  [Style.lineNumber, Style.separator, Style.marker, Style.position, Style.plain]

/-- The escape sequences of a colored report. -/
def colors : List (List Char) := codes.map fun select => (select .colored).toList

/-- The parts of a report with a caret. -/
def reportParts (c : Cursor) (message : String) : List Part :=
  [.code Style.lineNumber, .plain (toString c.line ++ " ").toList, .code Style.separator,
    .plain ['|'], .code Style.plain, .plain (' ' :: (c.shownBefore ++ c.shownFrom ++ ['\n'])),
    .plain (List.replicate (gutter c.line ++ c.shownBefore).length ' '), .code Style.marker,
    .plain (marker true c.shownFrom.length), .code Style.plain, .plain ['\n'],
    .code Style.position, .plain ("[" ++ toString c.line ++ ":" ++ toString c.col ++ "]").toList,
    .code Style.plain, .plain (" " ++ message).toList]

theorem report_eq_parts {style : Style} (hs : style.caret = true) (c : Cursor) (message : String) :
    (report style c message).toList = (reportParts c message).flatMap (Part.chars style) := by
  simp only [report, excerpt, hs, String.toList_append, String.toList_ofList, reportParts,
    List.flatMap_cons, List.flatMap_nil, Part.chars, List.append_assoc, List.length_append,
    length_gutter]
  simp

/-- Without the escape sequences, colored parts are plain. -/
theorem without_parts {ps : List Part} (hcode : ∀ select, .code select ∈ ps → select ∈ codes)
    (hplain : ∀ u, .plain u ∈ ps → '\x1b' ∉ u) :
    Text.without colors (ps.flatMap (Part.chars .colored)) =
      ps.flatMap (Part.chars .monochrome) := by
  induction ps with
  | nil => rfl
  | cons q ps ih =>
    have hrest := ih (fun select h => hcode select (List.mem_cons_of_mem q h))
      fun u h => hplain u (List.mem_cons_of_mem q h)
    rw [List.flatMap_cons, List.flatMap_cons]
    cases q with
    | code select =>
      have hmem := hcode select List.mem_cons_self
      have hne : ∀ seq ∈ colors, seq ≠ [] := by decide
      have hempty : Part.chars .monochrome (.code select) = [] := by
        revert select
        simp [codes, Part.chars, Style.monochrome]
      rw [Part.chars, Text.without_append_seq _ (by decide), hrest, hempty, List.nil_append]
      · exact List.mem_map_of_mem hmem
      · exact hne _ (List.mem_map_of_mem hmem)
    | plain u =>
      have hesc : ∀ seq ∈ colors, seq.head? = some '\x1b' := by decide
      rw [Part.chars, Text.without_append _ hesc (hplain u List.mem_cons_self), hrest]
      rfl

theorem without_colored_report (c : Cursor) (message : String) (hc : '\x1b' ∉ c.text.toList)
    (hm : '\x1b' ∉ message.toList) : Text.without colors (report .colored c message).toList =
      (report .monochrome c message).toList := by
  have hnumber := Text.notMem_toDigits (b := 10) (x := '\x1b') (by decide) (by decide) (by decide)
  have hbefore : '\x1b' ∉ c.shownBefore := fun h =>
    hc (List.mem_of_mem_take ((c.shownBefore_suffix.trans c.lineBefore_suffix).subset h))
  have hfrom : '\x1b' ∉ c.shownFrom := fun h =>
    hc (List.mem_of_mem_drop ((c.shownFrom_prefix.trans c.lineFrom_prefix).subset h))
  rw [report_eq_parts rfl, report_eq_parts rfl]
  apply without_parts
  · intro select h
    simp only [reportParts, List.mem_cons, List.not_mem_nil, or_false, reduceCtorEq, false_or,
      Part.code.injEq] at h
    rcases h with rfl | rfl | rfl | rfl | rfl | rfl | rfl <;> simp [codes]
  · intro u h
    simp only [reportParts, List.mem_cons, List.not_mem_nil, or_false, reduceCtorEq, false_or,
      Part.plain.injEq] at h
    rcases h with rfl | rfl | rfl | rfl | rfl | rfl | rfl | rfl <;>
      simp [hbefore, hfrom, hnumber, hm, marker]

/-! ### Entry points -/

section EntryPoints

open BoolFormula.Parser MonadAnswer

variable {α : Type}

theorem position_of_result {r : Reply α} {e : ParseError} (h : r.result = .error e) :
    e.position = r.rest.position := by
  unfold Reply.result at h
  split at h
  · cases h
    rfl
  · split at h
    · cases h
    · cases h
      rfl

/-- The report of `e` without color, on three lines: it is drawn at the place of `e`, and ends with
that place and what went wrong. -/
def Reports (text : List Char) (e : ParseError) (lines : List Char) : Prop :=
  ∃ first second, Drawn text e.position first second ∧
    '\n' ∉ placeLine e.position e.description ∧
    lines = first ++ '\n' :: (second ++ '\n' :: placeLine e.position e.description)

theorem reports_of_result {r : Reply α} {e : ParseError} (h : r.result = .error e) :
    Reports r.rest.text.toList e (report .monochrome r.rest e.description).toList := by
  have hplace := position_of_result h
  refine ⟨excerptLine r.rest, markerLine r.rest, hplace ▸ drawn_excerpt r.rest, ?_, ?_⟩
  · exact feed_notMem_placeLine _ (by cases e <;> simp [ParseError.description])
  · rw [hplace]
    exact report_monochrome r.rest e.description

/-- The entry points accept the same texts, with the same value. If a text is refused, the report
without color is drawn at the place that the error names, and if there is no escape in the text,
the report in color is the same but for its escape sequences. -/
theorem entry_points_agree {m : Type → Type} [Monad m] [MonadTrace m] [MonadAnswer m]
    (p : ParserT m α) (hp : Upholds p.silent) (text : String) :
    (∃ a, answer (parse p text) = .ok a ∧ ∀ color, answer (parseOrReport p color text) = .ok a) ∨
    ∃ e plain colored, answer (parse p text) = .error e ∧
      answer (parseOrReport p false text) = .error plain ∧
      answer (parseOrReport p true text) = .error colored ∧
      Reports text.toList e plain.toList ∧
      ('\x1b' ∉ text.toList → Text.without colors colored.toList = plain.toList) := by
  simp only [answer_parse, answer_parseOrReport, Reply.resultOrReport]
  have htext : (run p.silent (.ofString text)).rest.text.toList = text.toList := by
    rw [hp.text_rest]
    rfl
  generalize run p.silent (.ofString text) = r at htext ⊢
  cases h : r.result with
  | ok a => exact .inl ⟨a, rfl, fun _ => rfl⟩
  | error e =>
    refine .inr ⟨e, report .monochrome r.rest e.description, report .colored r.rest e.description,
      rfl, rfl, rfl, ?_, ?_⟩
    · rw [← htext]
      exact reports_of_result h
    · intro hesc
      rw [← htext] at hesc
      exact without_colored_report _ _ hesc (by cases e <;> simp [ParseError.description])

/-- A text with a conjunction that lacks its second operand, on its second line. -/
theorem entry_points_agree_operand :
    ∃ plain colored, Id.run (parse Rule.expression.parser "a\n& )") =
        .error (.trailingInput ⟨2, 2, 1⟩) ∧
      Id.run (parseOrReport Rule.expression.parser false "a\n& )") = .error plain ∧
      Id.run (parseOrReport Rule.expression.parser true "a\n& )") = .error colored ∧
      Reports "a\n& )".toList (.trailingInput ⟨2, 2, 1⟩) plain.toList ∧
      Text.without colors colored.toList = plain.toList := by
  have hparse : Id.run (parse Rule.expression.parser "a\n& )") =
      .error (.trailingInput ⟨2, 2, 1⟩) := by decide +kernel
  have hrule : Upholds (Rule.expression.parser : Parser Formula).silent := by
    rw [Grammar.silent_rule]
    exact Grammar.upholds_rule _
  rcases entry_points_agree (m := Id) Rule.expression.parser hrule "a\n& )" with
    ⟨a, ha, -⟩ | ⟨e, plain, colored, he, hplain, hcolored, hreports, hwithout⟩
  · cases hparse.symm.trans ha
  · cases hparse.symm.trans he
    exact ⟨plain, colored, hparse, hplain, hcolored, hreports, hwithout (by decide)⟩

end EntryPoints

end BoolFormula
