import BoolFormula.Diagnostic.Excerpt
import BoolFormula.Proofs.Cursor.Moves
import BoolFormula.Proofs.Text.Blank
import BoolFormula.Proofs.Text.Quoted

/-! What a report shows. Without color it has three lines: the part of the cursor's line that fits
the window, under its number, then the marker, then the place and the message. However the line is
cut and trimmed, the marker starts under the code point at the cursor, or behind all that is shown
if that leaves nothing to see. Color only adds its escape sequences, and taking them out again gives
the report without color. -/

namespace BoolFormula

variable (c : Cursor)

namespace Cursor

/-! ### The parts of a line -/

theorem lineBefore_eq : c.lineBefore = c.consumed.rtakeWhile (· != '\n') := by
  let p : Char → Bool := (· != '\n')
  let n := (c.consumed.reverse.takeWhile p).length
  have htake : c.consumed.reverse.takeWhile p = c.consumed.reverse.take n :=
    List.prefix_iff_eq_take.1 (List.takeWhile_prefix p)
  calc c.lineBefore
    _ = c.consumed.drop (c.offset - n) := by
      rw [lineBefore, col_eq, colAfter_eq, Nat.add_sub_add_right]
    _ = (c.consumed.reverse.take n).reverse := by
      rw [List.reverse_take, List.reverse_reverse, List.length_reverse, length_consumed]
    _ = c.consumed.rtakeWhile p := by rw [← htake, List.rtakeWhile]

theorem length_lineBefore : c.lineBefore.length = c.col - 1 := by
  rw [lineBefore_eq, col_eq, colAfter_eq, List.rtakeWhile, List.length_reverse]
  rfl

theorem lineBefore_suffix : c.lineBefore <:+ c.consumed := List.drop_suffix _ _

theorem lineFrom_prefix : c.lineFrom <+: c.remaining := List.takeWhile_prefix _

theorem feed_notMem_lineBefore : '\n' ∉ c.lineBefore := by
  rw [lineBefore_eq]
  intro h
  simpa using List.mem_rtakeWhile_imp h

theorem feed_notMem_lineFrom : '\n' ∉ c.lineFrom := by
  intro h
  simpa using List.mem_takeWhile_imp h

theorem shownBefore_suffix : c.shownBefore <:+ c.lineBefore := List.drop_suffix _ _

theorem length_shownBefore : c.shownBefore.length = min (windowWidth / 2) (c.col - 1) := by
  rw [shownBefore, List.length_drop, length_lineBefore]
  omega

theorem shownFrom_prefix : c.shownFrom <+: c.lineFrom :=
  (List.rdropWhile_prefix _ _).trans (List.take_prefix _ _)

theorem shownFrom_eq_nil_iff : c.shownFrom = [] ↔
    ∀ x ∈ c.lineFrom.take (windowWidth - c.shownBefore.length), Text.isBlank x = true := by
  rw [shownFrom, Text.dropBlankEnd_eq, List.rdropWhile_eq_nil_iff]

end Cursor

/-! ### The lines of a report -/

/-- The start of an excerpt's line. -/
def gutter (line : Nat) : List Char := (toString line ++ " | ").toList

/-- The part of a line that an excerpt may show from its place on. -/
def window (text : List Char) (place : Position) : List Char :=
  ((text.drop place.offset).takeWhile (· != '\n')).take
    (windowWidth - min (windowWidth / 2) (place.col - 1))

/-- The first line shows the text around the place under its number, and the second one points at it
with a caret: the text up to the place stands before the caret, and the text from the place on over
it and behind it. So the caret is under the code point at the place, unless the window holds only
blanks from there on, as it does at the end of a line: then it is behind all that is shown. -/
structure Drawn (text : List Char) (place : Position) (first second : List Char) : Prop where
  numbered : gutter place.line <+: first
  feed_notMem_first : '\n' ∉ first
  feed_notMem_second : '\n' ∉ second
  caret : ∃ k n, second = List.replicate k ' ' ++ '^' :: List.replicate n '-' ∧
    (∃ before, first.take k = gutter place.line ++ before ∧ before <:+ text.take place.offset) ∧
    first.drop k <+: text.drop place.offset ∧ k ≤ first.length ∧
    (k < first.length → first[k]? = text[place.offset]?) ∧
    (k = first.length ↔ ∀ x ∈ window text place, Text.isBlank x = true)

/-- The first line of an excerpt. -/
def excerptLine : List Char := gutter c.line ++ c.shownBefore ++ c.shownFrom

/-- The second line of an excerpt. -/
def markerLine : List Char :=
  List.replicate (gutter c.line ++ c.shownBefore).length ' ' ++ marker true c.shownFrom.length

/-- The second line of an excerpt that need not have a caret. -/
def underline (caret : Bool) : List Char :=
  List.replicate (gutter c.line ++ c.shownBefore).length ' ' ++ marker caret c.shownFrom.length

/-- The third line of a report. -/
def placeLine (place : Position) (message : String) : List Char :=
  ("[" ++ toString place.line ++ ":" ++ toString place.col ++ "] " ++ message).toList

theorem length_gutter (line : Nat) : (gutter line).length = (toString line).length + 3 := by
  rw [gutter, String.length_toList, String.length_append]
  rfl

theorem excerpt_monochrome (caret : Bool) : (excerpt { Style.monochrome with caret } c).toList =
    excerptLine c ++ '\n' :: underline c caret := by
  rw [excerptLine, underline, List.length_append, length_gutter]
  simp [excerpt, Style.monochrome, gutter]

theorem report_monochrome (message : String) : (report .monochrome c message).toList =
    excerptLine c ++ '\n' :: (markerLine c ++ '\n' :: placeLine c.position message) := by
  have hexcerpt : (excerpt .monochrome c).toList = excerptLine c ++ '\n' :: markerLine c :=
    excerpt_monochrome c true
  simp only [report, placeLine, String.toList_append, hexcerpt]
  simp [Style.monochrome, Cursor.position]

theorem feed_notMem_gutter (line : Nat) : '\n' ∉ gutter line := by
  have hdigits := Text.notMem_toDigits (b := 10) (x := '\n') (by decide) (by decide) (by decide) line
  simp [gutter, hdigits]

theorem feed_notMem_placeLine (place : Position) {message : String} (h : '\n' ∉ message.toList) :
    '\n' ∉ placeLine place message := by
  have hdigits := Text.notMem_toDigits (b := 10) (x := '\n') (by decide) (by decide) (by decide)
  simp [placeLine, hdigits, h]

theorem window_eq :
    window c.text.toList c.position = c.lineFrom.take (windowWidth - c.shownBefore.length) := by
  rw [Cursor.length_shownBefore]
  rfl

theorem drawn_excerpt : Drawn c.text.toList c.position (excerptLine c) (markerLine c) := by
  have hsuffix : c.shownBefore <:+ c.consumed := c.shownBefore_suffix.trans c.lineBefore_suffix
  have hprefix : c.shownFrom <+: c.remaining := c.shownFrom_prefix.trans c.lineFrom_prefix
  have hbefore : '\n' ∉ c.shownBefore := fun h =>
    c.feed_notMem_lineBefore (c.shownBefore_suffix.subset h)
  have hfrom : '\n' ∉ c.shownFrom := fun h =>
    c.feed_notMem_lineFrom (c.shownFrom_prefix.subset h)
  have hgutter := feed_notMem_gutter c.line
  constructor
  · rw [excerptLine, List.append_assoc]
    exact List.prefix_append _ _
  · simp [excerptLine, hgutter, hbefore, hfrom]
  · simp [markerLine, marker]
  · have hdrop : (excerptLine c).drop (gutter c.line ++ c.shownBefore).length = c.shownFrom :=
      List.drop_left
    refine ⟨(gutter c.line ++ c.shownBefore).length, c.shownFrom.length - 1, rfl,
      ⟨c.shownBefore, List.take_left, hsuffix⟩, hdrop ▸ hprefix, ?_, ?_, ?_⟩
    · simp [excerptLine]
    · intro hlt
      -- Something is shown behind the caret, and it starts as what comes at the place does.
      obtain ⟨rest, hrest⟩ := hprefix
      rw [← List.head?_drop, ← List.head?_drop, hdrop]
      change c.shownFrom.head? = c.remaining.head?
      cases hshown : c.shownFrom with
      | nil => simp [excerptLine, hshown] at hlt
      | cons x xs =>
        rw [← hrest, hshown]
        rfl
    · rw [window_eq, ← c.shownFrom_eq_nil_iff]
      simp [excerptLine]

end BoolFormula
