import BoolFormula.Proofs.Formula.Language
import Mathlib.Order.Bounds.Basic

/-! The longest start of a text that is an expression. Wherever a rule derives a start of what is
left, it finds something, and stops behind that start or at its end: an operand that cannot be
completed is given back as a whole, up to the operator in front of it. Since what is found is
derived, a rule finds the longest start that it derives, and the error of reading a text marks the
end of the longest start that is an expression. -/

namespace BoolFormula

namespace Grammar

variable {r : Rule} {c d : Cursor} {t w : List Char} {f : Formula}

/-- An operand only takes a chain further. -/
theorem offset_le_extend (join : Formula → Formula → Formula) (s : Rule) (x : Char) (f : Formula)
    (c : Cursor) : c.offset ≤ (f.extend join c (s.operand? x c)).2.offset := by
  cases h : s.operand? x c with
  | none => exact Nat.le_refl _
  | some gd =>
    obtain ⟨g, d⟩ := gd
    obtain ⟨b, hb, hd⟩ := operand?_eq_some_iff.1 h
    have hcb := Cursor.offset_lt_of_symbol? hb
    have hbd := offset_lt hd
    simp only [Formula.extend]
    omega

/-- Spaces behind a cursor are skipped from any earlier place among them too. -/
theorem offset_le_dropWhile {e : Cursor} (hw : ∀ x ∈ w, Space x) (hd : c.Reads w d)
    (ht : e.text = c.text) (he : c.offset ≤ e.offset) :
    d.offset ≤ (e.dropWhile isSpace).offset := by
  have hskip := (Cursor.reads_dropWhile isSpace e).offset_le
  by_cases hlt : e.offset < d.offset
  · obtain ⟨v, hv⟩ := Cursor.exists_reads ht he
    obtain ⟨u, hu⟩ := Cursor.exists_reads (hd.text_eq.trans ht.symm) (Nat.le_of_lt hlt)
    have hvu : w = v ++ u := hd.text_unique (hv.trans hu)
    have hs : ∀ x ∈ u, Space x := by
      intro x hx
      apply hw
      rw [hvu]
      exact List.mem_append_right v hx
    rw [dropWhile_of_spaces hu hs]
    exact (Cursor.reads_dropWhile isSpace d).offset_le
  · omega

/-- Every start of what is left that a rule derives is reached by it, or passed. -/
theorem exists_read?_of_derives (h : Derives r t f) (hr : c.Reads t d) :
    ∃ g e, r.read? c = some (g, e) ∧ d.offset ≤ e.offset := by
  induction h generalizing c d with
  | expression _ hw ih =>
    obtain ⟨b, hb, hd⟩ := Cursor.reads_append_iff.1 hr
    obtain ⟨g, e, he, hle⟩ := ih hb
    obtain ⟨v, hv⟩ := exists_reads he
    refine ⟨g, _, read?_expression_eq_some_iff.2 ⟨e, he, rfl⟩, ?_⟩
    exact offset_le_dropWhile hw hd (hv.text_eq.trans hb.text_eq.symm) hle
  | disjunction _ ih =>
    obtain ⟨g, e, he, hle⟩ := ih hr
    rw [read?_disjunction, he]
    refine ⟨_, _, rfl, Nat.le_trans hle ?_⟩
    apply offset_le_extend
  | or hf hw _ _ ih =>
    obtain ⟨b, e, hb, hop, hu⟩ := exists_symbol_of_reads (by decide) hw hr
    obtain ⟨g, a, ha, hle⟩ := ih hu
    have hb := read?_of_derives hf hb (.of_or hop)
    exact ⟨_, a, read?_disjunction_of_symbol? hb hop ha, hle⟩
  | conjunction _ ih =>
    obtain ⟨g, e, he, hle⟩ := ih hr
    rw [read?_conjunction, he]
    refine ⟨_, _, rfl, Nat.le_trans hle ?_⟩
    apply offset_le_extend
  | and hf hw _ _ ih =>
    obtain ⟨b, e, hb, hop, hu⟩ := exists_symbol_of_reads (by decide) hw hr
    obtain ⟨g, a, ha, hle⟩ := ih hu
    have hb := read?_of_derives hf hb (.of_and hop)
    exact ⟨_, a, read?_conjunction_of_symbol? hb hop ha, hle⟩
  | negation h ih =>
    obtain ⟨g, e, he, hle⟩ := ih hr
    exact ⟨g, e, read?_negation_eq_some_iff.2 (.inl ⟨symbol?_atom h hr, he⟩), hle⟩
  | not hw _ ih =>
    obtain ⟨b, hb, hd⟩ := Cursor.reads_append_iff.1 hr
    have hop := symbol?_of_reads (by decide) hw hb
    obtain ⟨g, e, he, hle⟩ := ih hd
    exact ⟨_, e, read?_negation_eq_some_iff.2 (.inr ⟨b, g, hop, he, rfl⟩), hle⟩
  | atom _ ih =>
    obtain ⟨g, e, he, hle⟩ := ih hr
    exact ⟨g, e, read?_atom_eq_some_iff.2 (.inl he), hle⟩
  | parens hw h hv _ => exact ⟨_, d, read?_parens hw hv (read?_of_derives h) hr, Nat.le_refl _⟩
  | var hw hx hxs =>
    obtain ⟨hp, hd⟩ := dropWhile_of_reads_cons hw hx.not_space hr
    refine ⟨_, _, read?_variable_eq_some_iff.2
      ⟨_, hp, isIdentifierStart_iff.2 hx, rfl, rfl⟩, ?_⟩
    rw [Cursor.dropWhile_of_reads hd fun y hy => isIdentifierChar_iff.2 (hxs y hy)]
    exact (Cursor.reads_dropWhile isIdentifierChar d).offset_le

end Grammar

open Grammar

/-- The start of the text with `n` code points, or the whole text if it has fewer. -/
def front (text : String) (n : Nat) : String := String.ofList (text.toList.take n)

/-- The lengths of the starts of the text that are expressions. -/
def accepted (text : String) : Set Nat :=
  {n | n ≤ text.toList.length ∧ ∃ f, Formula.ofString (front text n) = .ok f}

section Text

variable {text : String} {n : Nat} {f : Formula} {d : Cursor}

theorem ofString_front_eq_ok_iff :
    Formula.ofString (front text n) = .ok f ↔ Derives .expression (text.toList.take n) f := by
  unfold Formula.ofString front
  rw [run_parse_rule_eq_ok_iff, String.toList_ofList]

theorem remaining_ofString (text : String) : (Cursor.ofString text).remaining = text.toList :=
  Cursor.remaining_ofList _

theorem reads_front (hn : n ≤ text.toList.length) :
    ∃ d, (Cursor.ofString text).Reads (text.toList.take n) d ∧ d.offset = n := by
  have hr : (Cursor.ofString text).remaining = text.toList.take n ++ text.toList.drop n := by
    rw [remaining_ofString, List.take_append_drop]
  have hd := Cursor.reads_skip hr
  refine ⟨_, hd, ?_⟩
  rw [hd.offset_eq, List.length_take, Nat.min_eq_left hn]
  exact Nat.zero_add n

/-- What is read of a text is its start up to the cursor. -/
theorem eq_take_of_reads {t : List Char} (h : (Cursor.ofString text).Reads t d) :
    t = text.toList.take d.offset := by
  have hr := h.remaining_eq
  have ho := h.offset_eq
  rw [remaining_ofString] at hr
  rw [hr, ho]
  exact (List.take_left' (by simp [Cursor.ofString, Cursor.ofList])).symm

theorem size_of_reads {t : List Char} (h : (Cursor.ofString text).Reads t d) :
    d.text.size = text.toList.length := by
  rw [h.text_eq]
  exact List.size_toArray

/-- A text with a start that is an expression is read, at least as far. -/
theorem exists_read?_of_mem_accepted (h : n ∈ accepted text) :
    ∃ g e, Rule.expression.read? (.ofString text) = some (g, e) ∧ n ≤ e.offset := by
  obtain ⟨hn, f, hf⟩ := h
  obtain ⟨d, hd, ho⟩ := reads_front hn
  obtain ⟨g, e, he, hle⟩ := exists_read?_of_derives (ofString_front_eq_ok_iff.1 hf) hd
  exact ⟨g, e, he, ho ▸ hle⟩

/-- What is found at the start of a text is the longest start that is an expression. -/
theorem isGreatest_accepted (h : Rule.expression.read? (.ofString text) = some (f, d)) :
    IsGreatest (accepted text) d.offset ∧ Formula.ofString (front text d.offset) = .ok f := by
  obtain ⟨t, ht, hder⟩ := exists_derives h
  have hf : Formula.ofString (front text d.offset) = .ok f :=
    ofString_front_eq_ok_iff.2 (eq_take_of_reads ht ▸ hder)
  have hle : d.offset ≤ text.toList.length := by
    rw [← size_of_reads ht]
    exact d.offset_le
  refine ⟨⟨⟨hle, f, hf⟩, ?_⟩, hf⟩
  intro n hn
  obtain ⟨g, e, he, hne⟩ := exists_read?_of_mem_accepted hn
  cases h.symm.trans he
  exact hne

/-- An expression leaves no space behind it, and is not empty. -/
theorem stop_of_expression (h : Rule.expression.read? (.ofString text) = some (f, d)) :
    0 < d.offset ∧ ∀ x, text.toList[d.offset]? = some x → isSpace x = false := by
  obtain ⟨t, ht⟩ := exists_reads h
  have hpos := offset_lt h
  refine ⟨by omega, ?_⟩
  obtain ⟨b, -, rfl⟩ := read?_expression_eq_some_iff.1 h
  intro x hx
  refine Cursor.not_of_peek?_dropWhile (c := b) ?_
  rw [Cursor.peek?, ht.text_eq, ← hx]
  simp [Cursor.ofString, Cursor.ofList]

/-- No start of a text is an expression if nothing is found at its start, and only then. -/
theorem read?_eq_none_iff_accepted :
    Rule.expression.read? (.ofString text) = none ↔
      ∀ n ≤ text.toList.length, ∀ f, Formula.ofString (front text n) ≠ .ok f := by
  constructor
  · intro h n hn f hf
    obtain ⟨g, e, he, -⟩ := exists_read?_of_mem_accepted ⟨hn, f, hf⟩
    rw [h] at he
    cases he
  · intro h
    cases hd : Rule.expression.read? (.ofString text) with
    | none => rfl
    | some fd =>
      obtain ⟨⟨⟨hle, _⟩, _⟩, hf⟩ := isGreatest_accepted hd
      exact absurd hf (h _ hle _)

/-- The cursor behind the longest start that is an expression is where the expression stops. -/
theorem exists_read?_of_isGreatest (h : IsGreatest (accepted text) n) :
    ∃ f d, Rule.expression.read? (.ofString text) = some (f, d) ∧ d.offset = n := by
  obtain ⟨f, d, hd, -⟩ := exists_read?_of_mem_accepted h.1
  exact ⟨f, d, hd, (isGreatest_accepted hd).1.unique h⟩

theorem position_of_reads {t : List Char} (h : (Cursor.ofString text).Reads t d) :
    d.position = ⟨d.offset, (text.toList.take d.offset).count '\n' + 1,
      ((text.toList.take d.offset).reverse.takeWhile (· != '\n')).length + 1⟩ := by
  have hc : d.consumed = text.toList.take d.offset := by
    unfold Cursor.consumed
    rw [h.text_eq]
    rfl
  unfold Cursor.position
  rw [Cursor.line_eq, Cursor.col_eq, hc, lineAfter_eq, colAfter_eq]

theorem remaining_ne_nil_iff {t : List Char} (h : (Cursor.ofString text).Reads t d) :
    d.remaining ≠ [] ↔ d.offset < text.toList.length := by
  rw [ne_eq, ← List.length_eq_zero_iff, Cursor.length_remaining, Cursor.left, size_of_reads h]
  omega

/-- The errors of reading a text as an expression. The first one is given if no start of the
text is an expression; the second one marks the end of the longest start that is. That one is not
empty and has no space behind it, and it is what the parser found before it was told of the rest. -/
theorem ofString_error_iff (text : String) :
    (∀ place, Formula.ofString text = .error (.noMatch place) ↔
      place = ⟨0, 1, 1⟩ ∧
        ∀ n ≤ text.toList.length, ∀ f, Formula.ofString (front text n) ≠ .ok f) ∧
    (∀ place, Formula.ofString text = .error (.trailingInput place) ↔
      IsGreatest (accepted text) place.offset ∧ place.offset < text.toList.length ∧
        place.line = (text.toList.take place.offset).count '\n' + 1 ∧
        place.col =
          ((text.toList.take place.offset).reverse.takeWhile (· != '\n')).length + 1) ∧
    (∀ n, IsGreatest (accepted text) n → n < text.toList.length →
      0 < n ∧ (∃ x, text.toList[n]? = some x ∧ isSpace x = false) ∧
        ∃ f d, Parser.run Rule.expression.parser (.ofString text) = .success f d ∧
          d.offset = n ∧ Formula.ofString (front text n) = .ok f) := by
  refine ⟨fun place => ?_, fun place => ?_, fun n hn hlt => ?_⟩
  · unfold Formula.ofString
    rw [run_parse_eq_noMatch_iff (upholds_rule _), and_comm]
    exact and_congr_right fun _ => read?_eq_none_iff_accepted
  · unfold Formula.ofString
    rw [run_parse_eq_trailingInput_iff (upholds_rule _)]
    constructor
    · rintro ⟨f, d, hd, hne, rfl⟩
      obtain ⟨t, ht⟩ := exists_reads hd
      rw [position_of_reads ht]
      exact ⟨(isGreatest_accepted hd).1, (remaining_ne_nil_iff ht).1 hne, rfl, rfl⟩
    · rintro ⟨hgr, hlt, hline, hcol⟩
      obtain ⟨f, d, hd, ho⟩ := exists_read?_of_isGreatest hgr
      obtain ⟨t, ht⟩ := exists_reads hd
      refine ⟨f, d, hd, (remaining_ne_nil_iff ht).2 (ho ▸ hlt), ?_⟩
      rw [position_of_reads ht, ho, ← hline, ← hcol]
  · obtain ⟨f, d, hd, rfl⟩ := exists_read?_of_isGreatest hn
    obtain ⟨hpos, hstop⟩ := stop_of_expression hd
    have hx := List.getElem?_eq_getElem hlt
    exact ⟨hpos, ⟨_, hx, hstop _ hx⟩, f, d, Parser.read?_eq_some_iff.1 hd, rfl,
      (isGreatest_accepted hd).2⟩

/-- An operand that cannot be completed is not part of the longest start. -/
theorem ofString_error_iff_unclosed :
    IsGreatest (accepted "a & (b") 2 ∧ 2 < "a & (b".toList.length ∧
      ∃ f d, Parser.run Rule.expression.parser (.ofString "a & (b") = .success f d ∧
        d.offset = 2 ∧ Formula.ofString (front "a & (b" 2) = .ok f := by
  have he : Formula.ofString "a & (b" = .error (.trailingInput ⟨2, 1, 3⟩) := by rfl
  obtain ⟨hg, hlt, -⟩ := ((ofString_error_iff "a & (b").2.1 ⟨2, 1, 3⟩).1 he
  exact ⟨hg, hlt, ((ofString_error_iff "a & (b").2.2 2 hg hlt).2.2⟩

end Text

end BoolFormula
