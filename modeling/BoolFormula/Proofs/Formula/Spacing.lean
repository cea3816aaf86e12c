import BoolFormula.Proofs.Formula.Bisimulation
import BoolFormula.Proofs.Formula.LongestPrefix

/-! Spaces between tokens. Spaces that are put into a text at a place where they do not cut a word
change nothing about what is read of it: the two texts are read in step, and the cursors differ by
the spaces once these have been passed. That holds of all texts, also of those that are no
expression or go on behind one. -/

namespace BoolFormula

theorem isIdentifierChar_of_isSpace {a : Char} (h : isSpace a = true) :
    isIdentifierChar a = false := by
  rw [← Bool.not_eq_true, isIdentifierChar_iff]
  exact (isSpace_iff.1 h).not_wordChar

/-- No word goes on from the end of `x` into `z`. -/
def Breaks (x z : List Char) : Prop :=
  ∀ a b, x.getLast? = some a → z.head? = some b →
    ¬ (isIdentifierChar a = true ∧ isIdentifierChar b = true)

namespace Breaks

variable {a b : Char} {x y z w : List Char}

theorem nil (z : List Char) : Breaks [] z := fun _ _ h => nomatch h

theorem tail (h : Breaks (a :: x) z) : Breaks x z := by
  cases x with
  | nil => exact nil z
  | cons b x =>
    intro e f he hf
    exact h e f (by rwa [List.getLast?_cons_cons]) hf

/-- Spaces break every word. -/
theorem spaces (hw : ∀ a ∈ w, isSpace a = true) (h : Breaks x y) : Breaks x (w ++ y) := by
  cases w with
  | nil => exact h
  | cons s w =>
    rintro a b - hb ⟨-, hword⟩
    cases hb
    rw [isIdentifierChar_of_isSpace (hw s List.mem_cons_self)] at hword
    cases hword

/-- Behind a word, nothing is part of it. -/
theorem span_eq (h : Breaks [a] z) (ha : isIdentifierChar a = true) :
    z.takeWhile isIdentifierChar = [] ∧ z.dropWhile isIdentifierChar = z := by
  cases z with
  | nil => exact ⟨rfl, rfl⟩
  | cons b z =>
    have hb : isIdentifierChar b = false := by
      rw [← Bool.not_eq_true]
      exact fun hb => h a b rfl rfl ⟨ha, hb⟩
    simp [hb]

end Breaks

/-- What is left of two texts at one place of both, where the spaces `w` stand in front of `y` in
the second one only: from a place up to them, or from one behind them. -/
inductive Respaced (w y : List Char) : List Char → List Char → Prop
  | before {x : List Char} : Breaks x y → Respaced w y (x ++ y) (x ++ w ++ y)
  | behind {z : List Char} : z.length ≤ y.length → Respaced w y z z

/-- The same, but not at the very place of the spaces. -/
inductive InStep (w y : List Char) : List Char → List Char → Prop
  | before {a : Char} {x : List Char} : Breaks (a :: x) y →
    InStep w y (a :: x ++ y) (a :: x ++ w ++ y)
  | behind {z : List Char} : z.length ≤ y.length → InStep w y z z

variable {w y s t : List Char}

namespace InStep

theorem respaced (h : InStep w y s t) : Respaced w y s t := by
  cases h with
  | before hb => exact .before hb
  | behind hz => exact .behind hz

theorem head?_eq (h : InStep w y s t) : s.head? = t.head? := by
  cases h <;> rfl

theorem tail (h : InStep w y s t) : Respaced w y s.tail t.tail := by
  cases h with
  | before hb => exact .before hb.tail
  | behind hz =>
    refine .behind (Nat.le_trans ?_ hz)
    rw [List.length_tail]
    exact Nat.sub_le _ _

/-- The same word is read, since the spaces do not cut it. -/
theorem word (hw : ∀ a ∈ w, isSpace a = true) (h : InStep w y s t) :
    s.takeWhile isIdentifierChar = t.takeWhile isIdentifierChar ∧
      Respaced w y (s.dropWhile isIdentifierChar) (t.dropWhile isIdentifierChar) := by
  cases h with
  | behind hz =>
    exact ⟨rfl, .behind (Nat.le_trans (List.dropWhile_sublist _).length_le hz)⟩
  | @before a x hb =>
    -- The word may end in `x`, or reach its end, where neither `y` nor the spaces go on with it.
    induction x generalizing a with
    | nil =>
      cases ha : isIdentifierChar a with
      | false =>
        have hn : ¬ isIdentifierChar a = true := by simp [ha]
        simp only [List.cons_append, List.nil_append, List.takeWhile_cons_of_neg hn,
          List.dropWhile_cons_of_neg hn]
        exact ⟨trivial, .before hb⟩
      | true =>
        obtain ⟨hy, hy'⟩ := hb.span_eq ha
        obtain ⟨hwy, hwy'⟩ := (hb.spaces hw).span_eq ha
        simp only [List.cons_append, List.nil_append, List.takeWhile_cons_of_pos ha,
          List.dropWhile_cons_of_pos ha, hy, hy', hwy, hwy']
        exact ⟨trivial, .before (Breaks.nil y)⟩
    | cons b x ih =>
      cases ha : isIdentifierChar a with
      | false =>
        have hn : ¬ isIdentifierChar a = true := by simp [ha]
        simp only [List.cons_append, List.takeWhile_cons_of_neg hn, List.dropWhile_cons_of_neg hn]
        exact ⟨trivial, .before hb⟩
      | true =>
        obtain ⟨ht, hd⟩ := ih hb.tail
        simp only [List.cons_append] at ht hd
        simp only [List.cons_append, List.takeWhile_cons_of_pos ha, List.dropWhile_cons_of_pos ha,
          ht]
        exact ⟨trivial, hd⟩

end InStep

/-- Once the spaces are skipped, the texts are read in step. -/
theorem Respaced.inStep (hw : ∀ a ∈ w, isSpace a = true) (h : Respaced w y s t) :
    InStep w y (s.dropWhile isSpace) (t.dropWhile isSpace) := by
  cases h with
  | behind hz => exact .behind (Nat.le_trans (List.dropWhile_sublist _).length_le hz)
  | @before x hb =>
    induction x with
    | nil =>
      rw [List.nil_append, List.nil_append, List.dropWhile_append_of_pos hw]
      exact .behind (List.dropWhile_sublist _).length_le
    | cons a x ih =>
      cases ha : isSpace a with
      | false =>
        have hn : ¬ isSpace a = true := by simp [ha]
        simp only [List.cons_append, List.dropWhile_cons_of_neg hn]
        exact .before hb
      | true =>
        simp only [List.cons_append, List.dropWhile_cons_of_pos ha]
        exact ih hb.tail

/-! ### Runs of the rules -/

namespace Grammar

/-- A variable is the word that comes next behind the spaces. -/
theorem read?_variable_eq_word (c : Cursor) : Rule.variable.read? c =
    ((c.dropWhile isSpace).peek?.filter isIdentifierStart).map fun _ =>
      (.var (String.ofList ((c.dropWhile isSpace).remaining.takeWhile isIdentifierChar)),
        (c.dropWhile isSpace).dropWhile isIdentifierChar) := by
  rw [read?_variable]
  dsimp only
  cases hx : (c.dropWhile isSpace).peek? with
  | none => rfl
  | some x =>
    cases hs : isIdentifierStart x with
    | false => simp [Option.filter, hs]
    | true =>
      have hword : isIdentifierChar x = true := by simp [isIdentifierChar, hs]
      have hd := Cursor.dropWhile_of_reads (p := isIdentifierChar) (Cursor.reads_advance hx)
        (by simp [hword])
      simp [Option.filter, hs, hd, Cursor.peek?_eq_some_iff.1 hx, hword]

/-- No rule tells the spaces from none. -/
theorem bisimulation_respaced (hw : ∀ a ∈ w, isSpace a = true) :
    Bisimulation fun c d => Respaced w y c.remaining d.remaining := by
  have skip {c d : Cursor} (h : Respaced w y c.remaining d.remaining) :
      InStep w y (c.dropWhile isSpace).remaining (d.dropWhile isSpace).remaining := by
    rw [Cursor.remaining_dropWhile, Cursor.remaining_dropWhile]
    exact h.inStep hw
  refine ⟨fun h => (skip h).respaced, fun x c d h => ?_, fun {c d} h => ?_⟩
  · have hs := skip h
    simp only [Cursor.symbol?, Cursor.peek?_eq_head?, hs.head?_eq]
    split
    · refine .some ?_
      rw [Cursor.remaining_advance, Cursor.remaining_advance]
      exact hs.tail
    · exact .none
  · have hs := skip h
    obtain ⟨hword, hrest⟩ := hs.word hw
    rw [read?_variable_eq_word, read?_variable_eq_word, Cursor.peek?_eq_head?,
      Cursor.peek?_eq_head?, hs.head?_eq, hword]
    cases (d.dropWhile isSpace).remaining.head?.filter isIdentifierStart with
    | none => exact .none
    | some x =>
      rw [← Cursor.remaining_dropWhile, ← Cursor.remaining_dropWhile] at hrest
      exact .some ⟨rfl, hrest⟩

/-- An expression stops in front of the spaces, or takes them with it. -/
theorem rel_read?_expression (hw : ∀ a ∈ w, isSpace a = true) {c d : Cursor}
    (h : Respaced w y c.remaining d.remaining) :
    Option.Rel (Agree fun c d => InStep w y c.remaining d.remaining)
      (Rule.expression.read? c) (Rule.expression.read? d) := by
  rw [read?_expression, read?_expression]
  refine rel_map ((bisimulation_respaced hw).read? .disjunction h) ?_
  rintro ⟨f, b⟩ ⟨g, b'⟩ - ⟨hf, hb⟩
  refine ⟨hf, ?_⟩
  simp only [Cursor.remaining_dropWhile]
  exact hb.inStep hw

end Grammar

/-! ### Whole texts -/

/-- Where the offset `n` comes to lie once `k` code points are put into the text at the offset
`m`. What has been read up to there has taken them with it. -/
def shifted (m k n : Nat) : Nat := if m ≤ n then n + k else n

/-- The same answer to two texts. An error behind a formula has its offset mapped by `g`, and one at
the start of a text, where there is no formula, is at the start of both. -/
inductive SameReading (g : Nat → Nat) : Except ParseError Formula → Except ParseError Formula → Prop
  | ok (f : Formula) : SameReading g (.ok f) (.ok f)
  | noMatch (place : Position) : SameReading g (.error (.noMatch place)) (.error (.noMatch place))
  | trailingInput {place place' : Position} : place'.offset = g place.offset →
    SameReading g (.error (.trailingInput place)) (.error (.trailingInput place'))

open Grammar

theorem InStep.offset_eq {m : Nat} {c d : Cursor} (hc : c.text.size = m + y.length)
    (hd : d.text.size = m + w.length + y.length) (h : InStep w y c.remaining d.remaining) :
    d.offset = shifted m w.length c.offset := by
  have hco := c.offset_add_left
  have hdo := d.offset_add_left
  rw [← Cursor.length_remaining] at hco hdo
  generalize c.remaining = s at h hco
  generalize d.remaining = t at h hdo
  unfold shifted
  cases h with
  | before _ =>
    simp only [List.length_append, List.length_cons] at hco hdo
    rw [if_neg (by omega)]
    omega
  | behind _ =>
    rw [if_pos (by omega)]
    omega

theorem InStep.eq_nil_iff (h : InStep w y s t) : s = [] ↔ t = [] := by
  rw [← List.head?_eq_none_iff, ← List.head?_eq_none_iff, h.head?_eq]

/-- What is found at the start of a text with the spaces, and of the one without them. -/
theorem rel_read?_ofString {x y w : String} (hw : ∀ a ∈ w.toList, isSpace a = true)
    (hxy : Breaks x.toList y.toList) :
    Option.Rel (Agree fun c d => d.offset = shifted x.length w.length c.offset ∧
        (c.remaining = [] ↔ d.remaining = []))
      (Rule.expression.read? (.ofString (x ++ y)))
      (Rule.expression.read? (.ofString (x ++ w ++ y))) := by
  have h : Respaced w.toList y.toList (Cursor.ofString (x ++ y)).remaining
      (Cursor.ofString (x ++ w ++ y)).remaining := by
    simp only [remaining_ofString, String.toList_append]
    exact .before hxy
  have hrel := rel_read?_expression hw h
  obtain ⟨hc, hd⟩ | ⟨⟨f, c⟩, ⟨g, d⟩, hc, hd, hf, hs⟩ := eq_none_or_exists_of_rel hrel
  · rw [hc, hd]
    exact .none
  · rw [hc, hd]
    obtain ⟨t, ht⟩ := exists_reads hc
    obtain ⟨u, hu⟩ := exists_reads hd
    refine .some ⟨hf, InStep.offset_eq ?_ ?_ hs, hs.eq_nil_iff⟩
    · rw [size_of_reads ht, String.toList_append, List.length_append, String.length_toList]
    · rw [size_of_reads hu]
      simp only [String.toList_append, List.length_append, String.length_toList]

/-- Spaces between two tokens do not matter, in any text. Without them an expression fails where
it fails with them, and otherwise finds the same formula and stops at the same place, which lies
behind the spaces if it lies behind the first token. So the text is read as the same formula, or
refused for the same reason. -/
theorem read_insert_spaces (x y w : String) (hw : ∀ a ∈ w.toList, isSpace a = true)
    (hxy : ∀ a b, x.toList.getLast? = some a → y.toList.head? = some b →
      ¬ (isIdentifierChar a = true ∧ isIdentifierChar b = true)) :
    ((Parser.run Rule.expression.parser (.ofString (x ++ y))).value = none ↔
      (Parser.run Rule.expression.parser (.ofString (x ++ w ++ y))).value = none) ∧
    (∀ f c g d, Parser.run Rule.expression.parser (.ofString (x ++ y)) = .success f c →
      Parser.run Rule.expression.parser (.ofString (x ++ w ++ y)) = .success g d →
        f = g ∧ d.offset = shifted x.length w.length c.offset) ∧
    SameReading (shifted x.length w.length) (Formula.ofString (x ++ y))
      (Formula.ofString (x ++ w ++ y)) := by
  have hrel := rel_read?_ofString hw hxy
  unfold Rule.read? at hrel
  refine ⟨?_, fun f c g d hc hd => ?_, ?_⟩
  · rw [← Parser.read?_eq_none_iff_value, ← Parser.read?_eq_none_iff_value]
    obtain ⟨hc, hd⟩ | ⟨_, _, hc, hd, -⟩ := eq_none_or_exists_of_rel hrel <;> simp [hc, hd]
  · rw [Parser.read?_eq_some_iff.2 hc, Parser.read?_eq_some_iff.2 hd, Option.rel_some_some] at hrel
    obtain ⟨hf, ho, -⟩ := hrel
    exact ⟨hf, ho⟩
  · unfold Formula.ofString
    obtain ⟨hc, hd⟩ | ⟨⟨f, c⟩, ⟨g, d⟩, hc, hd, rfl, ho, hend⟩ := eq_none_or_exists_of_rel hrel
    · rw [run_parse_of_none (upholds_rule _) hc, run_parse_of_none (upholds_rule _) hd]
      exact .noMatch _
    · rw [run_parse_of_some hc, run_parse_of_some hd]
      by_cases h : c.remaining = []
      · rw [if_pos h, if_pos (hend.1 h)]
        exact .ok f
      · rw [if_neg h, if_neg (mt hend.2 h)]
        exact .trailingInput ho

/-- Spaces in front of an operand, where the next operand is a foreign code point. -/
theorem read_insert_spaces_operand :
    (∀ a ∈ " \t".toList, isSpace a = true) ∧
    (∀ a b, "a &".toList.getLast? = some a → "b&\x00)".toList.head? = some b →
      ¬ (isIdentifierChar a = true ∧ isIdentifierChar b = true)) ∧
    ∃ f c g d,
      Parser.run Rule.expression.parser (.ofString ("a &" ++ "b&\x00)")) = .success f c ∧
      Parser.run Rule.expression.parser (.ofString ("a &" ++ " \t" ++ "b&\x00)")) = .success g d ∧
      c.offset = 4 ∧ f = g ∧ d.offset = 6 := by
  have hw : ∀ a ∈ " \t".toList, isSpace a = true := by simp [isSpace]
  have hxy : ∀ a b, "a &".toList.getLast? = some a → "b&\x00)".toList.head? = some b →
      ¬ (isIdentifierChar a = true ∧ isIdentifierChar b = true) := by
    rintro a b ha - ⟨hword, -⟩
    cases (show a = '&' by simpa using ha.symm)
    revert hword
    decide
  have hc : Parser.run Rule.expression.parser (.ofString ("a &" ++ "b&\x00)")) =
      .success (.conj (.var "a") (.var "b")) ⟨"a &b&\x00)".toList.toArray, 4, by decide⟩ := rfl
  have hd : Parser.run Rule.expression.parser (.ofString ("a &" ++ " \t" ++ "b&\x00)")) =
      .success (.conj (.var "a") (.var "b")) ⟨"a & \tb&\x00)".toList.toArray, 6, by decide⟩ := rfl
  have hread := (read_insert_spaces "a &" "b&\x00)" " \t" hw hxy).2.1 _ _ _ _ hc hd
  exact ⟨hw, hxy, _, _, _, _, hc, hd, rfl, hread⟩

end BoolFormula
