import BoolFormula.Proofs.Cursor.Lines
import BoolFormula.Proofs.Diagnostic.Window
import Mathlib.Data.Prod.Lex

/-! The line and the column as coordinates of a text. The cursors of a text are ordered by them as
they are by the offset, the line first. The offset follows from them too: it counts the lines above
with their line feeds, and what lies before the cursor on its own line. So the line of a cursor
starts behind the last line feed before it, or at the start of the text. -/

namespace BoolFormula

/-- The first `n` lines of the text, each with its line feed. -/
def firstLines (text : List Char) (n : Nat) : List Char :=
  ((text.splitOn '\n').take n).flatMap fun line => line ++ ['\n']

/-- The line feed at the index `i` is the last one before the offset. -/
structure IsLastFeed (text : List Char) (offset i : Nat) : Prop where
  lt_offset : i < offset
  feed : text[i]? = some '\n'
  last : ∀ j, i < j → j < offset → text[j]? ≠ some '\n'

/-! ### Lines -/

theorem length_splitOn (x : Char) (xs : List Char) : (xs.splitOn x).length = xs.count x + 1 := by
  induction xs with
  | nil => rw [List.splitOn_nil, List.count_nil, List.length_singleton]
  | cons y xs ih =>
    rw [List.splitOn_cons_eq_if_modifyHead, List.count_cons]
    split <;> simp [ih]

/-- The pieces and their separators make up the list. -/
theorem flatMap_splitOn (x : Char) (xs : List Char) :
    ((xs.splitOn x).flatMap fun l => l ++ [x]) = xs ++ [x] := by
  induction xs with
  | nil => rw [List.splitOn_nil, List.flatMap_singleton]
  | cons y xs ih =>
    rw [List.splitOn_cons_eq_if_modifyHead]
    split
    · next hy =>
      rw [List.flatMap_cons, ih, beq_iff_eq.1 hy]
      rfl
    · obtain ⟨l, ls, hls⟩ := List.exists_cons_of_ne_nil (List.splitOn_ne_nil x xs)
      rw [hls, List.flatMap_cons] at ih
      rw [hls, List.modifyHead_cons, List.flatMap_cons, List.cons_append, List.cons_append, ih]
      rfl

namespace LineCut

variable {text above before after below : List Char} {place : Position}
  (h : LineCut text place above before after below)
include h

theorem above_cases : above = [] ∨ ∃ lines, above = lines ++ ['\n'] := by
  cases hlast : above.getLast? with
  | none => exact .inl (List.getLast?_eq_none_iff.1 hlast)
  | some x =>
    obtain rfl := h.above_ends x hlast
    exact .inr (List.getLast?_eq_some_iff.1 hlast)

theorem start_eq : place.offset + 1 - place.col = above.length := by
  rw [h.offset_eq, h.col_eq, List.length_append]
  omega

theorem firstLines_eq : firstLines text (place.line - 1) = above := by
  rw [h.line_eq, Nat.add_sub_cancel, h.text_eq, firstLines]
  obtain rfl | ⟨lines, rfl⟩ := h.above_cases
  · rfl
  · have hcount : (lines ++ ['\n']).count '\n' = (lines.splitOn '\n').length := by
      rw [length_splitOn, List.count_append, List.count_singleton_self]
    rw [List.append_assoc, List.append_assoc, List.singleton_append, List.splitOn_append_cons_self,
      hcount, List.take_left, flatMap_splitOn]

/-- There is no line feed between the start of the line and the place. -/
theorem ne_feed {j : Nat} (hstart : above.length ≤ j) (hj : j < place.offset) :
    text[j]? ≠ some '\n' := by
  intro hfeed
  rw [h.offset_eq] at hj
  rw [h.text_eq, List.getElem?_append_left hj, List.getElem?_append_right hstart] at hfeed
  exact h.feed_notMem_before (List.mem_of_getElem? hfeed)

theorem start_cases :
    (∃ i, IsLastFeed text place.offset i ∧ place.offset + 1 - place.col = i + 1) ∨
      (∀ i < place.offset, text[i]? ≠ some '\n') ∧ place.offset + 1 - place.col = 0 := by
  rw [h.start_eq]
  obtain rfl | ⟨lines, rfl⟩ := h.above_cases
  · exact .inr ⟨fun i hi => h.ne_feed (Nat.zero_le i) hi, rfl⟩
  · have hlength : (lines ++ ['\n']).length = lines.length + 1 := by simp
    refine .inl ⟨lines.length, ⟨?_, ?_, fun j hj hlt => h.ne_feed ?_ hlt⟩, hlength⟩
    · rw [h.offset_eq, List.length_append, hlength]
      omega
    · rw [h.text_eq]
      simp
    · rw [hlength]
      exact hj

end LineCut

/-! ### Order -/

namespace Cursor

variable {c d : Cursor}

theorem offset_eq_iff (ht : d.text = c.text) :
    c.offset = d.offset ↔ (c.line, c.col) = (d.line, d.col) := by
  rw [Prod.mk.injEq]
  constructor
  · intro h
    rw [eq_of_offset ht h.symm]
    exact ⟨rfl, rfl⟩
  · rintro ⟨hline, hcol⟩
    rw [eq_of_line_col ht hline.symm hcol.symm]

theorem offset_lt_iff (ht : d.text = c.text) :
    c.offset < d.offset ↔ toLex (c.line, c.col) < toLex (d.line, d.col) := by
  refine ⟨fun h => Prod.Lex.toLex_lt_toLex.2 (line_lt_or_col_lt ht h), fun h => ?_⟩
  rcases Nat.lt_trichotomy c.offset d.offset with hlt | heq | hgt
  · exact hlt
  · rw [(offset_eq_iff ht).1 heq] at h
    exact absurd h (lt_irrefl _)
  · exact absurd (Prod.Lex.toLex_lt_toLex.2 (line_lt_or_col_lt ht.symm hgt)) (lt_asymm h)

/-- Of two cursors that are reached in a text, the one further on has the greater line, or the same
line and the greater column, and only one cursor has this line and this column. Its offset is the
length of the lines above, with their line feeds, and of what lies before it on its line. No line
starts before the text, and the line of a cursor starts behind the last line feed before it if there
is one, and otherwise at the start of the text. -/
theorem line_col_coordinates (text : String) (m n : Nat) :
    let c : Cursor := advance^[m] (ofString text)
    let d : Cursor := advance^[n] (ofString text)
    (c.offset < d.offset ↔ toLex (c.line, c.col) < toLex (d.line, d.col)) ∧
    (c.offset = d.offset ↔ (c.line, c.col) = (d.line, d.col)) ∧
    1 ≤ c.line ∧ 1 ≤ c.col ∧ c.offset = (firstLines text.toList (c.line - 1)).length + (c.col - 1) ∧
    c.col ≤ c.offset + 1 ∧
    ((∃ i, IsLastFeed text.toList c.offset i ∧ c.offset + 1 - c.col = i + 1) ∨
      (∀ i < c.offset, text.toList[i]? ≠ some '\n') ∧ c.offset + 1 - c.col = 0) := by
  intro c d
  have htext (k : Nat) : (advance^[k] (ofString text)).text = text.toList.toArray := by
    rw [iterate_advance]
    rfl
  have hd : d.text = c.text := (htext n).trans (htext m).symm
  have hcut := lineCut c
  rw [htext m, List.toList_toArray] at hcut
  have hline : 1 ≤ c.line := by
    rw [c.line_eq, lineAfter_eq]
    exact Nat.le_add_left _ _
  have hcol : 1 ≤ c.col := c.one_le_col
  have hstart : c.offset + 1 - c.col = (firstLines text.toList (c.line - 1)).length :=
    hcut.start_eq.trans (congrArg List.length hcut.firstLines_eq.symm)
  have hle := c.col_le
  exact ⟨offset_lt_iff hd, offset_eq_iff hd, hline, hcol, by omega, hle, hcut.start_cases⟩

end Cursor

end BoolFormula
