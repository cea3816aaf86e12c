import BoolFormula.Proofs.Cursor.Moves

/-! Lines and columns. Reading on adds the line feeds that are read to the line, and as long as
there are none of them, the code points to the column. So the line and the column, the line first,
grow with the offset, and the two of them name one place of a text. -/

namespace BoolFormula.Cursor

variable {c d : Cursor} {t : List Char}

theorem line_of_reads (h : Reads c t d) : d.line = c.line + t.count '\n' := by
  rw [line_eq, line_eq, lineAfter_eq, lineAfter_eq, h.consumed_eq, List.count_append]
  omega

theorem col_of_reads (h : Reads c t d) (ht : '\n' ∉ t) : d.col = c.col + t.length := by
  have hrun : ∀ x ∈ t.reverse, (x != '\n') = true := by
    intro x hx
    rw [bne_iff_ne]
    rintro rfl
    exact ht (List.mem_reverse.1 hx)
  rw [col_eq, col_eq, colAfter_eq, colAfter_eq, h.consumed_eq, List.reverse_append,
    List.takeWhile_append_of_pos hrun, List.length_append, List.length_reverse]
  omega

/-- A later place is on a later line, or further on the same one. -/
theorem line_lt_or_col_lt (ht : d.text = c.text) (h : c.offset < d.offset) :
    c.line < d.line ∨ c.line = d.line ∧ c.col < d.col := by
  obtain ⟨t, hr⟩ := exists_reads ht (Nat.le_of_lt h)
  have hline := line_of_reads hr
  by_cases hfeed : '\n' ∈ t
  · have := List.count_pos_iff.2 hfeed
    omega
  · have hcol := col_of_reads hr hfeed
    have hlen := hr.offset_eq
    rw [List.count_eq_zero_of_not_mem hfeed] at hline
    omega

/-- A cursor is known by its text and its offset. -/
theorem eq_of_offset (ht : d.text = c.text) (h : d.offset = c.offset) : d = c := by
  cases c
  cases d
  cases ht
  cases h
  rfl

/-- A line and a column name one place of a text. -/
theorem eq_of_line_col (ht : d.text = c.text) (hline : d.line = c.line) (hcol : d.col = c.col) :
    d = c := by
  refine eq_of_offset ht ?_
  rcases Nat.lt_trichotomy c.offset d.offset with hlt | heq | hgt
  · have := line_lt_or_col_lt ht hlt
    omega
  · exact heq.symm
  · have := line_lt_or_col_lt ht.symm hgt
    omega

end BoolFormula.Cursor
