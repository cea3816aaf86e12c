import BoolFormula.Cursor
import Mathlib.Logic.Function.Iterate

/-! Moves of a cursor. `skip` goes on by a number of code points and `dropWhile` past the
longest run of a class of them. `Reads c t d` says that the text from `c` on starts with
`t`, and that `d` is the cursor behind it: readings compose, and a cursor and a text leave
one possible cursor behind. -/

namespace BoolFormula.Cursor

/-- The cursor `n` code points further, or at the end if fewer are left. -/
def skip (c : Cursor) (n : Nat) : Cursor :=
  ⟨c.text, min (c.offset + n) c.text.size, Nat.min_le_right _ _⟩

/-- The cursor after the longest run of code points that satisfy `p`. -/
def dropWhile (p : Char → Bool) (c : Cursor) : Cursor := c.skip (c.remaining.takeWhile p).length

@[simp] theorem skip_zero (c : Cursor) : c.skip 0 = c := by
  have : min (c.offset + 0) c.text.size = c.offset := by have := c.offset_le; omega
  cases c
  simp only [skip, mk.injEq, true_and]
  exact this

@[simp] theorem remaining_skip (c : Cursor) (n : Nat) :
    (c.skip n).remaining = c.remaining.drop n := by
  simp only [remaining, skip, List.drop_drop]
  by_cases h : c.offset + n ≤ c.text.size
  · rw [Nat.min_eq_left h]
  · rw [List.drop_eq_nil_of_le (by simp; omega), List.drop_eq_nil_of_le (by simp; omega)]

theorem skip_skip (c : Cursor) (m n : Nat) : (c.skip m).skip n = c.skip (m + n) := by
  simp only [skip, mk.injEq, true_and]
  omega

theorem advance_eq_skip (c : Cursor) : c.advance = c.skip 1 := by
  unfold advance
  split
  · simp only [skip, mk.injEq, true_and]
    omega
  · have := c.offset_le
    cases c
    simp only [skip, mk.injEq, true_and] at *
    omega

theorem iterate_advance (c : Cursor) (n : Nat) : advance^[n] c = c.skip n := by
  induction n with
  | zero => exact (skip_zero c).symm
  | succ n ih => rw [Function.iterate_succ_apply', ih, advance_eq_skip, skip_skip]

theorem atEnd_iff {c : Cursor} : c.atEnd = true ↔ c.remaining = [] := by
  rw [← List.length_eq_zero_iff, length_remaining, atEnd, beq_iff_eq]

@[simp] theorem offset_add_left (c : Cursor) : c.offset + c.left = c.text.size := by
  have := c.offset_le
  unfold left
  omega

theorem peek?_eq_some_iff {c : Cursor} {x : Char} :
    c.peek? = some x ↔ c.remaining = x :: c.advance.remaining := by
  rw [peek?_eq_head?, remaining_advance]
  cases c.remaining with
  | nil => simp
  | cons y r => simp [eq_comm]

theorem peek?_eq_none_iff {c : Cursor} : c.peek? = none ↔ c.remaining = [] := by
  rw [peek?_eq_head?, List.head?_eq_none_iff]

/-! ### Reading a text -/

/-- From `c` on comes `t`, and `d` is the cursor after it. -/
structure Reads (c : Cursor) (t : List Char) (d : Cursor) : Prop where
  text_eq : d.text = c.text
  remaining_eq : c.remaining = t ++ d.remaining

namespace Reads

variable {c d e : Cursor} {t u : List Char}

theorem refl (c : Cursor) : Reads c [] c := ⟨rfl, rfl⟩

theorem trans (h : Reads c t d) (k : Reads d u e) : Reads c (t ++ u) e :=
  ⟨k.text_eq.trans h.text_eq, by rw [h.remaining_eq, k.remaining_eq, List.append_assoc]⟩

theorem left_eq (h : Reads c t d) : c.left = t.length + d.left := by
  have := congrArg List.length h.remaining_eq
  simpa using this

theorem offset_eq (h : Reads c t d) : d.offset = c.offset + t.length := by
  have hl := h.left_eq
  have hc := offset_add_left c
  have hd := offset_add_left d
  rw [h.text_eq] at hd
  omega

theorem offset_le (h : Reads c t d) : c.offset ≤ d.offset := by
  rw [h.offset_eq]; exact Nat.le_add_right _ _

theorem left_le (h : Reads c t d) : d.left ≤ c.left := by
  rw [h.left_eq]; exact Nat.le_add_left _ _

theorem consumed_eq (h : Reads c t d) : d.consumed = c.consumed ++ t := by
  have hc := consumed_append_remaining c
  have hd := consumed_append_remaining d
  rw [h.text_eq, ← hc, h.remaining_eq, ← List.append_assoc] at hd
  exact List.append_cancel_right hd

theorem unique (h : Reads c t d) (k : Reads c t e) : d = e := by
  apply ext_views
  · rw [h.consumed_eq, k.consumed_eq]
  · have := h.remaining_eq.symm.trans k.remaining_eq
    exact List.append_cancel_left this

theorem text_unique (h : Reads c t d) (k : Reads c u d) : t = u :=
  List.append_cancel_right (h.remaining_eq.symm.trans k.remaining_eq)

end Reads

variable {c d : Cursor} {t u : List Char}

/-- Every start of what is left can be read. -/
theorem reads_skip (h : c.remaining = t ++ u) : Reads c t (c.skip t.length) :=
  ⟨rfl, by rw [remaining_skip, h, List.drop_left]⟩

theorem reads_advance {x : Char} (h : c.peek? = some x) : Reads c [x] c.advance :=
  ⟨text_advance c, peek?_eq_some_iff.1 h⟩

theorem reads_nil_iff : Reads c [] d ↔ d = c := by
  constructor
  · intro h
    exact h.unique (Reads.refl c)
  · rintro rfl
    exact Reads.refl _

theorem reads_cons_iff {x : Char} :
    Reads c (x :: t) d ↔ c.peek? = some x ∧ Reads c.advance t d := by
  constructor
  · intro h
    have hx : c.peek? = some x := by rw [peek?_eq_head?, h.remaining_eq]; rfl
    refine ⟨hx, h.text_eq.trans (text_advance c).symm, ?_⟩
    rw [remaining_advance, h.remaining_eq]
    rfl
  · rintro ⟨hx, h⟩
    exact (reads_advance hx).trans h

theorem reads_append_iff : Reads c (t ++ u) d ↔ ∃ b, Reads c t b ∧ Reads b u d := by
  constructor
  · intro h
    have hr : c.remaining = t ++ (u ++ d.remaining) := by rw [h.remaining_eq, List.append_assoc]
    have hb := reads_skip hr
    refine ⟨_, hb, h.text_eq, ?_⟩
    have := hb.remaining_eq
    rw [hr] at this
    exact (List.append_cancel_left this).symm
  · rintro ⟨b, h, k⟩
    exact h.trans k

/-- Between two cursors over one text lies what is read from the first to the second. -/
theorem exists_reads (ht : d.text = c.text) (h : c.offset ≤ d.offset) : ∃ t, Reads c t d := by
  refine ⟨c.remaining.take (d.offset - c.offset), ht, ?_⟩
  have : d.remaining = c.remaining.drop (d.offset - c.offset) := by
    simp only [remaining, ht, List.drop_drop]
    congr 1
    omega
  rw [this, List.take_append_drop]

/-! ### Runs of a class -/

section DropWhile

variable (p : Char → Bool)

theorem reads_dropWhile (c : Cursor) : Reads c (c.remaining.takeWhile p) (c.dropWhile p) :=
  reads_skip (List.takeWhile_append_dropWhile).symm

@[simp] theorem remaining_dropWhile (c : Cursor) :
    (c.dropWhile p).remaining = c.remaining.dropWhile p := by
  have h := (reads_dropWhile p c).remaining_eq
  exact List.append_cancel_left (h.symm.trans List.takeWhile_append_dropWhile.symm)

variable {p}

/-- A run is followed by no further code point of its class. -/
theorem not_of_peek?_dropWhile {x : Char} (h : (c.dropWhile p).peek? = some x) : p x = false := by
  rw [peek?_eq_head?, remaining_dropWhile] at h
  have := List.head?_dropWhile_not p c.remaining
  rw [h] at this
  simpa using this

/-- A run may be cut anywhere. -/
theorem dropWhile_of_reads (h : Reads c t d) (ht : ∀ x ∈ t, p x = true) :
    c.dropWhile p = d.dropWhile p := by
  have hd := reads_dropWhile p d
  have hc := h.trans hd
  refine (reads_dropWhile p c).unique ?_
  rwa [h.remaining_eq, List.takeWhile_append_of_pos ht]

theorem dropWhile_eq_self (h : ∀ x, c.peek? = some x → p x = false) : c.dropWhile p = c := by
  have : c.remaining.takeWhile p = [] := by
    cases hr : c.remaining with
    | nil => rfl
    | cons x r =>
      have hx : c.peek? = some x := by rw [peek?_eq_head?, hr]; rfl
      simp [h x hx]
  rw [dropWhile, this]
  exact skip_zero c

/-- Whatever run is read before a code point of another class is the longest. -/
theorem dropWhile_eq_of_reads (h : Reads c t d) (ht : ∀ x ∈ t, p x = true)
    (hd : ∀ x, d.peek? = some x → p x = false) : c.dropWhile p = d := by
  rw [dropWhile_of_reads h ht, dropWhile_eq_self hd]

theorem takeWhile_eq_of_reads (h : Reads c t d) (ht : ∀ x ∈ t, p x = true)
    (hd : ∀ x, d.peek? = some x → p x = false) : c.remaining.takeWhile p = t := by
  have hc := reads_dropWhile p c
  rw [dropWhile_eq_of_reads h ht hd] at hc
  exact hc.text_unique h

@[simp] theorem dropWhile_dropWhile (c : Cursor) : (c.dropWhile p).dropWhile p = c.dropWhile p :=
  dropWhile_eq_self fun _ => not_of_peek?_dropWhile

end DropWhile

end BoolFormula.Cursor
