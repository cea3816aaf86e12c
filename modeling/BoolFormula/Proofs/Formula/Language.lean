import BoolFormula.Proofs.Formula.Derivation
import BoolFormula.Proofs.Reading

/-! The language of the rules. On a text that it derives a rule is not led astray by what it takes
greedily: a word, the operators that follow and the spaces in front of them are taken only where
the derivation takes them too, unless the text goes on in a way that `Stops` excludes. The end of
a text always stops a rule, so a rule reads exactly the texts that it derives, and the grammar is
unambiguous. -/

namespace BoolFormula.Grammar

variable {r : Rule} {c d : Cursor} {t w : List Char} {f : Formula}

/-- Nothing that the rule derives goes on at `c` with what is left there. -/
structure Stops (r : Rule) (c : Cursor) : Prop where
  word : ∀ x, c.peek? = some x → ¬ WordChar x
  and : r = .conjunction ∨ r = .disjunction ∨ r = .expression → c.symbol? '&' = none
  or : r = .disjunction ∨ r = .expression → c.symbol? '|' = none

/-- Where the rule stops if what it derives ends at `c`: an expression takes spaces with it. -/
def past : Rule → Cursor → Cursor
  | .expression, c => c.dropWhile isSpace
  | _, c => c

theorem dropWhile_of_spaces (h : c.Reads w d) (hw : ∀ x ∈ w, Space x) :
    c.dropWhile isSpace = d.dropWhile isSpace :=
  Cursor.dropWhile_of_reads h fun x hx => isSpace_iff.2 (hw x hx)

theorem symbol?_of_spaces (x : Char) (h : c.Reads w d) (hw : ∀ x ∈ w, Space x) :
    c.symbol? x = d.symbol? x := by
  simp only [Cursor.symbol?, dropWhile_of_spaces h hw]

theorem symbol?_of_reads {x : Char} (hx : isSpace x = false) (hw : ∀ y ∈ w, Space y)
    (h : c.Reads (w ++ [x]) d) : c.symbol? x = some d :=
  Cursor.symbol?_of_reads hx (fun y hy => isSpace_iff.2 (hw y hy)) h

/-- Before a symbol that is no part of a word, a word stops. -/
theorem not_wordChar_of_symbol? {x y : Char} (h : c.symbol? x = some d) (hx : ¬ WordChar x)
    (hy : c.peek? = some y) : ¬ WordChar y := by
  obtain ⟨hp, -⟩ := Cursor.symbol?_eq_some_iff.1 h
  cases hs : isSpace y with
  | true => exact (isSpace_iff.1 hs).not_wordChar
  | false =>
    have : c.dropWhile isSpace = c := by
      refine Cursor.dropWhile_eq_self fun z hz => ?_
      cases hy.symm.trans hz
      exact hs
    rw [this, hy] at hp
    cases hp
    exact hx

theorem Stops.of_and (h : c.symbol? '&' = some d) : Stops .negation c :=
  ⟨fun _ => not_wordChar_of_symbol? h (by decide), by simp, by simp⟩

theorem Stops.of_or (h : c.symbol? '|' = some d) : Stops .conjunction c :=
  ⟨fun _ => not_wordChar_of_symbol? h (by decide), fun _ => Cursor.symbol?_eq_none h (by decide),
    by simp⟩

theorem Stops.of_close (h : c.symbol? ')' = some d) : Stops .expression c :=
  ⟨fun _ => not_wordChar_of_symbol? h (by decide), fun _ => Cursor.symbol?_eq_none h (by decide),
    fun _ => Cursor.symbol?_eq_none h (by decide)⟩

/-- An expression takes the spaces that follow a disjunction. -/
theorem Stops.of_spaces (h : c.Reads w d) (hw : ∀ x ∈ w, Space x) (hs : Stops .expression d) :
    Stops .disjunction c := by
  refine ⟨fun x hx => ?_, fun _ => ?_, fun _ => ?_⟩
  · cases w with
    | nil =>
      rw [Cursor.reads_nil_iff] at h
      exact hs.word x (h ▸ hx)
    | cons y w =>
      cases hx.symm.trans (Cursor.reads_cons_iff.1 h).1
      exact (hw x List.mem_cons_self).not_wordChar
  · rw [symbol?_of_spaces _ h hw]
    exact hs.and (by simp)
  · rw [symbol?_of_spaces _ h hw]
    exact hs.or (by simp)

theorem stops_of_remaining (r : Rule) (h : c.remaining = []) : Stops r c := by
  have hd (x : Char) : c.symbol? x = none := by
    rw [Cursor.symbol?_eq_none_iff, Cursor.peek?_eq_head?, Cursor.remaining_dropWhile, h]
    simp
  refine ⟨fun x hx => ?_, fun _ => hd _, fun _ => hd _⟩
  rw [Cursor.peek?_eq_none_iff.2 h] at hx
  cases hx

/-- The code point behind a run of spaces. -/
theorem dropWhile_of_reads_cons {x : Char} (hw : ∀ y ∈ w, Space y) (hx : isSpace x = false)
    (h : c.Reads (w ++ x :: t) d) :
    (c.dropWhile isSpace).peek? = some x ∧ (c.dropWhile isSpace).advance.Reads t d := by
  obtain ⟨b, hb, hd⟩ := Cursor.reads_append_iff.1 h
  obtain ⟨hp, hd⟩ := Cursor.reads_cons_iff.1 hd
  have : c.dropWhile isSpace = b := by
    rw [dropWhile_of_spaces hb hw]
    refine Cursor.dropWhile_eq_self fun y hy => ?_
    cases hp.symm.trans hy
    exact hx
  rw [this]
  exact ⟨hp, hd⟩

/-- A text with an operator in it. -/
theorem exists_symbol_of_reads {x : Char} {u : List Char} (hx : isSpace x = false)
    (hw : ∀ y ∈ w, Space y) (h : c.Reads (t ++ w ++ [x] ++ u) d) :
    ∃ b e, c.Reads t b ∧ b.symbol? x = some e ∧ e.Reads u d := by
  obtain ⟨e, he, hu⟩ := Cursor.reads_append_iff.1 h
  rw [List.append_assoc] at he
  obtain ⟨b, hb, he⟩ := Cursor.reads_append_iff.1 he
  exact ⟨b, e, hb, symbol?_of_reads hx hw he, hu⟩

/-- An atom starts with a letter or a parenthesis. -/
theorem atom_start (h : Derives .atom t f) :
    ∃ w x u, t = w ++ x :: u ∧ (∀ y ∈ w, Space y) ∧ (Letter x ∨ x = '(') := by
  cases h with
  | atom h =>
    cases h with
    | var hw hx hxs => exact ⟨_, _, _, rfl, hw, .inl hx⟩
  | @parens w t v _ hw _ _ =>
    exact ⟨w, '(', t ++ v ++ [')'], by simp, hw, .inr rfl⟩

theorem symbol?_atom (h : Derives .atom t f) (hr : c.Reads t d) : c.symbol? '!' = none := by
  obtain ⟨w, x, u, rfl, hw, hx⟩ := atom_start h
  have hs : isSpace x = false := hx.elim Letter.not_space fun h => h ▸ rfl
  rw [Cursor.symbol?_eq_none_iff, (dropWhile_of_reads_cons hw hs hr).1]
  rintro ⟨⟩
  revert hx
  decide

theorem read?_variable_of_derives (h : Derives .variable t f) (hr : c.Reads t d)
    (hs : Stops .variable d) : Rule.variable.read? c = some (f, d) := by
  cases h with
  | var hw hx hxs =>
    obtain ⟨hp, hd⟩ := dropWhile_of_reads_cons hw hx.not_space hr
    have hall := fun y hy => isIdentifierChar_iff.2 (hxs y hy)
    have hend : ∀ y, d.peek? = some y → isIdentifierChar y = false := fun y hy => by
      rw [← Bool.not_eq_true, isIdentifierChar_iff]
      exact hs.word y hy
    refine read?_variable_eq_some_iff.2 ⟨_, hp, isIdentifierStart_iff.2 hx, ?_, ?_⟩
    · rw [Cursor.takeWhile_eq_of_reads hd hall hend]
    · exact Cursor.dropWhile_eq_of_reads hd hall hend

/-- A parenthesis is no variable. -/
theorem read?_variable_of_symbol? (h : c.symbol? '(' = some d) : Rule.variable.read? c = none := by
  obtain ⟨hp, -⟩ := Cursor.symbol?_eq_some_iff.1 h
  simp only [read?_variable, hp]
  rfl

/-- What stands between parentheses is read up to the closing one, whatever comes after it. -/
theorem read?_parens {v : List Char} (hw : ∀ x ∈ w, Space x) (hv : ∀ x ∈ v, Space x)
    (ht : ∀ {b e : Cursor}, b.Reads t e → Stops .expression e →
      Rule.expression.read? b = some (f, past .expression e))
    (hr : c.Reads (w ++ ['('] ++ t ++ v ++ [')']) d) : Rule.atom.read? c = some (f, d) := by
  rw [List.append_assoc] at hr
  obtain ⟨e, he, hd⟩ := Cursor.reads_append_iff.1 hr
  obtain ⟨b, hb, he⟩ := Cursor.reads_append_iff.1 he
  have hopen := symbol?_of_reads (by decide) hw hb
  have hclose := symbol?_of_reads (by decide) hv hd
  have hin := ht he (.of_close hclose)
  refine read?_atom_eq_some_iff.2 (.inr ⟨read?_variable_of_symbol? hopen, b, _, hopen, hin, ?_⟩)
  rwa [past, Cursor.symbol?_dropWhile]

/-- On a text that the rule derives the rule finds what it derives, provided that nothing the rule
derives goes on behind the text. -/
theorem read?_of_derives (h : Derives r t f) (hr : c.Reads t d) (hs : Stops r d) :
    r.read? c = some (f, past r d) := by
  induction h generalizing c d with
  | expression _ hw ih =>
    obtain ⟨b, hb, hd⟩ := Cursor.reads_append_iff.1 hr
    refine read?_expression_eq_some_iff.2 ⟨b, ih hb (.of_spaces hd hw hs), ?_⟩
    exact dropWhile_of_spaces hd hw
  | disjunction _ ih =>
    have hno : Rule.disjunction.operand? '|' d = none := by
      rw [Rule.operand?, hs.or (by simp)]
      rfl
    have hc := ih hr ⟨hs.word, fun _ => hs.and (by simp), by simp⟩
    exact read?_disjunction_eq_some_iff.2 ⟨_, d, hc, .inl ⟨hno, rfl, rfl⟩⟩
  | or _ hw _ ih₁ ih₂ =>
    obtain ⟨b, e, hb, hop, hu⟩ := exists_symbol_of_reads (by decide) hw hr
    exact read?_disjunction_of_symbol? (ih₁ hb (.of_or hop)) hop (ih₂ hu hs)
  | conjunction _ ih =>
    have hno : Rule.conjunction.operand? '&' d = none := by
      rw [Rule.operand?, hs.and (by simp)]
      rfl
    have hc := ih hr ⟨hs.word, by simp, by simp⟩
    exact read?_conjunction_eq_some_iff.2 ⟨_, d, hc, .inl ⟨hno, rfl, rfl⟩⟩
  | and _ hw _ ih₁ ih₂ =>
    obtain ⟨b, e, hb, hop, hu⟩ := exists_symbol_of_reads (by decide) hw hr
    exact read?_conjunction_of_symbol? (ih₁ hb (.of_and hop)) hop (ih₂ hu hs)
  | negation h ih =>
    have ha := ih hr ⟨hs.word, by simp, by simp⟩
    exact read?_negation_eq_some_iff.2 (.inl ⟨symbol?_atom h hr, ha⟩)
  | not hw _ ih =>
    obtain ⟨b, hb, hd⟩ := Cursor.reads_append_iff.1 hr
    have hop := symbol?_of_reads (by decide) hw hb
    exact read?_negation_eq_some_iff.2 (.inr ⟨b, _, hop, ih hd hs, rfl⟩)
  | atom h _ =>
    have hv := read?_variable_of_derives h hr ⟨hs.word, by simp, by simp⟩
    exact read?_atom_eq_some_iff.2 (.inl hv)
  | parens hw _ hv ih => exact read?_parens hw hv (fun {_ _} => ih) hr
  | var hw hx hxs => exact read?_variable_of_derives (.var hw hx hxs) hr hs

theorem run_parse_of_derives {text : String} (h : Derives r text.toList f) :
    Id.run (parse r.parser text) = .ok f := by
  have hr : (Cursor.ofString text).remaining = text.toList ++ [] := by simp [Cursor.ofString]
  have ht := Cursor.reads_skip hr
  have hend : ((Cursor.ofString text).skip text.toList.length).remaining = [] := by
    rw [Cursor.remaining_skip, hr]
    simp
  refine (run_parse_eq_ok_iff (upholds_rule r)).2
    ⟨_, read?_of_derives h ht (stops_of_remaining r hend), ?_⟩
  cases r <;> simp only [past, Cursor.remaining_dropWhile, hend, List.dropWhile_nil]

theorem run_parse_rule_eq_ok_iff {text : String} :
    Id.run (parse r.parser text) = .ok f ↔ Derives r text.toList f := by
  refine ⟨fun h => ?_, run_parse_of_derives⟩
  obtain ⟨d, hf, hd⟩ := (run_parse_eq_ok_iff (upholds_rule r)).1 h
  obtain ⟨t, ht, hder⟩ := exists_derives hf
  have : text.toList = t := by simpa [Cursor.ofString, hd] using ht.remaining_eq
  exact this ▸ hder

/-- No text is derived in two ways that differ in the formula. -/
theorem derives_unique {g : Formula} (hf : Derives r t f) (hg : Derives r t g) : f = g := by
  obtain ⟨text, rfl⟩ : ∃ text : String, text.toList = t := ⟨String.ofList t, String.toList_ofList⟩
  have hr : Id.run (parse r.parser text) = .ok f := run_parse_of_derives hf
  rw [run_parse_of_derives hg] at hr
  exact (Except.ok.inj hr).symm

/-- Reading a text by a rule yields the formula that the rule derives from the whole text, if there
is one, and there is no second. -/
theorem parse_eq_ok_iff_derives :
    (∀ (r : Rule) (text : String) (f : Formula),
      Id.run (parse r.parser text) = .ok f ↔ Derives r text.toList f) ∧
    ∀ (r : Rule) (t : List Char) (f g : Formula), Derives r t f → Derives r t g → f = g :=
  ⟨fun _ _ _ => run_parse_rule_eq_ok_iff, fun _ _ _ _ => derives_unique⟩

theorem parse_eq_ok_iff_derives_not_and :
    Derives .expression "!a & b".toList (.conj (.neg (.var "a")) (.var "b")) ∧
      ∀ f, Derives .expression "!a & b".toList f → f = .conj (.neg (.var "a")) (.var "b") := by
  have h : Derives .expression "!a & b".toList (.conj (.neg (.var "a")) (.var "b")) :=
    (parse_eq_ok_iff_derives.1 .expression "!a & b" _).1 rfl
  exact ⟨h, fun f hf => parse_eq_ok_iff_derives.2 _ _ _ _ hf h⟩

end BoolFormula.Grammar
