import BoolFormula.Proofs.Diagnostic.Excerpt

/-! The layout of an excerpt without color. The line that the cursor is on is cut at the cursor. Of
its first part the end is shown, and of its second part as much as the window has room for, without
the blanks at the end. The marker lies under the second part and is as long as that, or stands alone
behind the first part if nothing is shown of the second. No difference on the way is below zero, and
no list is cut outside its bounds, so that the same computation with every such step checked always
gives the excerpt. -/

namespace BoolFormula

/-! ### Checked steps -/

/-- The difference of two numbers, unless it is below zero. -/
def difference? (m n : Nat) : Option Nat := if n ≤ m then some (m - n) else none

/-- The part of the list before an index, unless the list is too short. -/
def before? (n : Nat) (xs : List Char) : Option (List Char) :=
  if n ≤ xs.length then some (xs.take n) else none

/-- The part of the list from an index on, unless the list is too short. -/
def from? (n : Nat) (xs : List Char) : Option (List Char) :=
  if n ≤ xs.length then some (xs.drop n) else none

/-- The excerpt, with all steps checked that take a difference or cut a list at an index. -/
def excerpt? (style : Style) (c : Cursor) : Option String := do
  let consumed ← before? c.offset c.text.toList
  let remaining ← from? c.offset c.text.toList
  let lineStart ← difference? (c.offset + 1) c.col
  let lineBefore ← from? lineStart consumed
  let before ← from? (lineBefore.length - windowWidth / 2) lineBefore
  let width ← difference? lineBefore.length (lineBefore.length - windowWidth / 2)
  let room ← difference? windowWidth width
  let shown := Text.dropBlankEnd ((remaining.takeWhile (· != '\n')).take room)
  let number := toString c.line
  some (style.lineNumber ++ number ++ " " ++ style.separator ++ "|" ++ style.plain ++ " " ++
    String.ofList before ++ String.ofList shown ++ "\n" ++
    String.ofList (List.replicate (number.length + 3 + width) ' ') ++
    style.marker ++ String.ofList (marker style.caret shown.length) ++ style.plain)

variable {m n : Nat} {xs : List Char}

theorem difference?_eq_some (h : n ≤ m) : difference? m n = some (m - n) := if_pos h

theorem before?_eq_some (h : n ≤ xs.length) : before? n xs = some (xs.take n) := if_pos h

theorem from?_eq_some (h : n ≤ xs.length) : from? n xs = some (xs.drop n) := if_pos h

variable (c : Cursor)

theorem Cursor.one_le_col : 1 ≤ c.col := by
  rw [c.col_eq, colAfter_eq]
  exact Nat.le_add_left _ _

theorem Cursor.col_le : c.col ≤ c.offset + 1 := by
  have h := c.lineBefore_suffix.length_le
  rw [c.length_lineBefore, c.length_consumed] at h
  omega

theorem excerpt?_eq (style : Style) : excerpt? style c = some (excerpt style c) := by
  have hsize : c.offset ≤ c.text.toList.length := c.offset_le
  have hcol : 1 ≤ c.col := c.one_le_col
  have hstart : c.offset + 1 - c.col ≤ c.consumed.length := by rw [c.length_consumed]; omega
  have hskipped : c.lineBefore.length - windowWidth / 2 ≤ c.lineBefore.length := Nat.sub_le _ _
  have hwidth : c.lineBefore.length - (c.lineBefore.length - windowWidth / 2) =
      c.shownBefore.length := by rw [Cursor.shownBefore, List.length_drop]
  have hroom : c.shownBefore.length ≤ windowWidth := by
    rw [c.length_shownBefore, windowWidth]
    omega
  have hconsumed : before? c.offset c.text.toList = some c.consumed := before?_eq_some hsize
  have hremaining : from? c.offset c.text.toList = some c.remaining := from?_eq_some hsize
  have hline : from? (c.offset + 1 - c.col) c.consumed = some c.lineBefore := from?_eq_some hstart
  have hbefore : from? (c.lineBefore.length - windowWidth / 2) c.lineBefore =
      some c.shownBefore := from?_eq_some hskipped
  simp only [excerpt?, hconsumed, hremaining, difference?_eq_some c.col_le, hline, hbefore,
    difference?_eq_some hskipped, hwidth, difference?_eq_some hroom, Option.bind_eq_bind,
    Option.bind_some]
  rfl

/-! ### The two lines -/

/-- The line that a place of the text is on, in two parts: `before` lies before the place, and
`after` from it on. -/
structure LineCut (text : List Char) (place : Position) (above before after below : List Char) :
    Prop where
  text_eq : text = above ++ before ++ (after ++ below)
  offset_eq : place.offset = (above ++ before).length
  line_eq : place.line = above.count '\n' + 1
  col_eq : place.col = before.length + 1
  feed_notMem_before : '\n' ∉ before
  feed_notMem_after : '\n' ∉ after
  above_ends : ∀ x ∈ above.getLast?, x = '\n'
  below_starts : ∀ x ∈ below.head?, x = '\n'

/-- What a window shows of the two parts of a line: `left` of the first, and `right` of the second,
which is as much as there is room for but for the blanks at the end. -/
structure Windowed (before after left room right : List Char) : Prop where
  left_suffix : left <:+ before
  length_left : left.length = min 40 before.length
  room_prefix : room <+: after
  room_fits : left.length + room.length ≤ 80
  room_longest : ∀ run, run <+: after → left.length + run.length ≤ 80 → run <+: room
  right_prefix : right <+: room
  blank_of_mem : ∀ x ∈ room.drop right.length, Text.isBlank x = true
  right_ends : ∀ x ∈ right.getLast?, Text.isBlank x = false

/-- A marker under the last `shown` code points of the first line, or behind that line if there are
none: spaces up to it, then a caret or a dash, then dashes. -/
structure Underlined (caret : Bool) (shown : Nat) (first second : List Char) : Prop where
  shown_le : shown ≤ first.length
  second_eq : second = List.replicate (first.length - shown) ' ' ++
    (if caret then '^' else '-') :: List.replicate (max 1 shown - 1) '-'

theorem lineCut : LineCut c.text.toList c.position (c.consumed.rdropWhile (· != '\n')) c.lineBefore
    c.lineFrom (c.remaining.dropWhile (· != '\n')) := by
  have hconsumed : c.consumed.rdropWhile (· != '\n') ++ c.lineBefore = c.consumed := by
    rw [c.lineBefore_eq, List.rdropWhile_append_rtakeWhile]
  have hremaining : c.lineFrom ++ c.remaining.dropWhile (· != '\n') = c.remaining :=
    List.takeWhile_append_dropWhile
  constructor
  · rw [hconsumed, hremaining, c.consumed_append_remaining]
  · rw [hconsumed, c.length_consumed]
    rfl
  · have hcount := congrArg (List.count '\n') hconsumed
    rw [List.count_append, List.count_eq_zero_of_not_mem c.feed_notMem_lineBefore,
      Nat.add_zero] at hcount
    rw [hcount, ← lineAfter_eq]
    exact c.line_eq
  · rw [c.length_lineBefore]
    exact (Nat.sub_add_cancel c.one_le_col).symm
  · exact c.feed_notMem_lineBefore
  · exact c.feed_notMem_lineFrom
  · intro x hx
    obtain ⟨hne, rfl⟩ := List.mem_getLast?_eq_getLast hx
    simpa using List.rdropWhile_last_not (· != '\n') c.consumed hne
  · intro x hx
    have := List.head?_dropWhile_not (· != '\n') c.remaining
    rw [Option.mem_def.1 hx] at this
    simpa using this

theorem windowed : Windowed c.lineBefore c.lineFrom c.shownBefore
    (c.lineFrom.take (windowWidth - c.shownBefore.length)) c.shownFrom := by
  have hleft := c.length_shownBefore
  rw [← c.length_lineBefore] at hleft
  have hshown : c.shownFrom = (c.lineFrom.take (windowWidth - c.shownBefore.length)).rdropWhile
      Text.isBlank := rfl
  constructor
  · exact c.shownBefore_suffix
  · exact hleft
  · exact List.take_prefix _ _
  · rw [List.length_take, windowWidth]
    have : c.shownBefore.length ≤ 40 := hleft ▸ Nat.min_le_left _ _
    omega
  · intro run hrun hfits
    rw [List.prefix_iff_eq_take.1 hrun]
    exact List.take_prefix_take_left (by rw [windowWidth]; omega)
  · exact List.rdropWhile_prefix _ _
  · intro x hx
    rw [← List.rdropWhile_append_rtakeWhile (p := Text.isBlank)
      (l := c.lineFrom.take (windowWidth - c.shownBefore.length)), hshown, List.drop_left] at hx
    exact List.mem_rtakeWhile_imp hx
  · intro x hx
    rw [hshown] at hx
    obtain ⟨hne, rfl⟩ := List.mem_getLast?_eq_getLast hx
    simpa using List.rdropWhile_last_not Text.isBlank _ hne

theorem length_excerptLine : (excerptLine c).length =
    (gutter c.line ++ c.shownBefore).length + c.shownFrom.length := List.length_append

theorem underlined (caret : Bool) :
    Underlined caret c.shownFrom.length (excerptLine c) (underline c caret) := by
  constructor
  · rw [length_excerptLine]
    exact Nat.le_add_left _ _
  · have hmarker : max 1 c.shownFrom.length - 1 = c.shownFrom.length - 1 := by omega
    rw [length_excerptLine, Nat.add_sub_cancel, hmarker]
    rfl

/-- The marker is as long as what is shown above it, and one character if that is nothing. -/
theorem Underlined.length_second {caret : Bool} {shown : Nat} {first second : List Char}
    (h : Underlined caret shown first second) :
    second.length = first.length - shown + max 1 shown := by
  rw [h.second_eq, List.length_append, List.length_replicate, List.length_cons,
    List.length_replicate]
  omega

/-- What is shown from the cursor on starts with the code point at the cursor. -/
theorem getElem?_excerptLine (h : c.shownFrom ≠ []) :
    (excerptLine c)[(excerptLine c).length - c.shownFrom.length]? = c.peek? := by
  have hstart : (excerptLine c).length - c.shownFrom.length =
      (gutter c.line ++ c.shownBefore).length := by
    rw [length_excerptLine, Nat.add_sub_cancel]
  obtain ⟨rest, hrest⟩ := c.shownFrom_prefix.trans c.lineFrom_prefix
  rw [hstart, ← List.head?_drop, excerptLine, List.drop_left, c.peek?_eq_head?, ← hrest,
    List.head?_append_of_ne_nil _ h]

/-- An excerpt without color takes no difference below zero and makes no cut out of bounds. It has
two lines. The first is the line number, a bar, and what the window shows of the line before the
cursor and from it on. The second underlines the latter: it starts under the code point at the cursor
and ends under the last that is shown, or is one character behind the first line. -/
theorem excerpt_layout (caret : Bool) :
    excerpt? { Style.monochrome with caret } c =
      some (excerpt { Style.monochrome with caret } c) ∧
    ∃ above before after below left room right first second,
      LineCut c.text.toList c.position above before after below ∧
      Windowed before after left room right ∧
      first = (toString c.line ++ " | ").toList ++ left ++ right ∧
      Underlined caret right.length first second ∧
      (excerpt { Style.monochrome with caret } c).toList = first ++ '\n' :: second ∧
      '\n' ∉ first ∧ '\n' ∉ second ∧
      (right ≠ [] → first[first.length - right.length]? = c.peek? ∧
        second.length = first.length) ∧
      (right = [] → second.length = first.length + 1) := by
  have hunder := underlined c caret
  have hlength := hunder.length_second
  have hle := hunder.shown_le
  refine ⟨excerpt?_eq c _, _, _, _, _, _, _, _, excerptLine c, underline c caret, lineCut c,
    windowed c, rfl, hunder, excerpt_monochrome c caret, (drawn_excerpt c).feed_notMem_first, ?_,
    fun hne => ⟨getElem?_excerptLine c hne, ?_⟩, fun hnil => ?_⟩
  · cases caret <;> simp [underline, marker]
  · have := List.length_pos_iff.2 hne
    omega
  · rw [hlength, hnil]
    rfl

example : excerpt .monochrome ((Cursor.ofString "a )))").skip 2) = "1 | a )))\n      ^--" := by
  decide +kernel

end BoolFormula
