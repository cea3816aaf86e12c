import BoolFormula.Proofs.Formula.Rules

/-! The grammar as a derivation of whole texts, free of any order of choices. Whatever a rule finds
it derives from the text that it consumes. -/

namespace BoolFormula

/-! ### Classes of code points -/

/-- `[ \t\n\r]` -/
def Space (x : Char) : Prop := x = ' ' ∨ x = '\t' ∨ x = '\n' ∨ x = '\r'

/-- `[a-zA-Z_]` -/
def Letter (x : Char) : Prop := ('a' ≤ x ∧ x ≤ 'z') ∨ ('A' ≤ x ∧ x ≤ 'Z') ∨ x = '_'

/-- `[a-zA-Z0-9_]` -/
def WordChar (x : Char) : Prop := Letter x ∨ ('0' ≤ x ∧ x ≤ '9')

instance : DecidablePred Space := fun _ => inferInstanceAs (Decidable (_ ∨ _))

instance : DecidablePred Letter := fun _ => inferInstanceAs (Decidable (_ ∨ _))

instance : DecidablePred WordChar := fun _ => inferInstanceAs (Decidable (_ ∨ _))

theorem isSpace_iff {x : Char} : isSpace x = true ↔ Space x := by
  simp only [isSpace, Space, Bool.or_eq_true, beq_iff_eq, or_assoc]

theorem isIdentifierStart_iff {x : Char} : isIdentifierStart x = true ↔ Letter x := by
  delta isIdentifierStart Letter Char.isAlpha Char.isUpper Char.isLower
  simp only [Char.le_def, Bool.or_eq_true, beq_iff_eq, Bool.and_eq_true, decide_eq_true_eq]
  grind

theorem isIdentifierChar_iff {x : Char} : isIdentifierChar x = true ↔ WordChar x := by
  simp only [isIdentifierChar, WordChar, Bool.or_eq_true, isIdentifierStart_iff, Char.isDigit,
    Char.le_def, Bool.and_eq_true, decide_eq_true_eq]

theorem Space.not_wordChar {x : Char} (h : Space x) : ¬ WordChar x := by
  rcases h with rfl | rfl | rfl | rfl <;> decide

theorem Letter.not_space {x : Char} (h : Letter x) : isSpace x = false := by
  rw [← Bool.not_eq_true, isSpace_iff]
  exact fun hs => hs.not_wordChar (.inl h)

/-- What the rule `r` derives, as a context-free grammar of whole texts. The marks of a negation
are derived one by one. -/
inductive Derives : Rule → List Char → Formula → Prop
  | expression {t w : List Char} {f : Formula} :
    Derives .disjunction t f → (∀ x ∈ w, Space x) → Derives .expression (t ++ w) f
  | disjunction {t : List Char} {f : Formula} : Derives .conjunction t f → Derives .disjunction t f
  | or {t w u : List Char} {f g : Formula} :
    Derives .conjunction t f → (∀ x ∈ w, Space x) → Derives .disjunction u g →
      Derives .disjunction (t ++ w ++ ['|'] ++ u) (.disj f g)
  | conjunction {t : List Char} {f : Formula} : Derives .negation t f → Derives .conjunction t f
  | and {t w u : List Char} {f g : Formula} :
    Derives .negation t f → (∀ x ∈ w, Space x) → Derives .conjunction u g →
      Derives .conjunction (t ++ w ++ ['&'] ++ u) (.conj f g)
  | negation {t : List Char} {f : Formula} : Derives .atom t f → Derives .negation t f
  | not {w t : List Char} {f : Formula} :
    (∀ x ∈ w, Space x) → Derives .negation t f → Derives .negation (w ++ ['!'] ++ t) (.neg f)
  | atom {t : List Char} {f : Formula} : Derives .variable t f → Derives .atom t f
  | parens {w t v : List Char} {f : Formula} :
    (∀ x ∈ w, Space x) → Derives .expression t f → (∀ x ∈ v, Space x) →
      Derives .atom (w ++ ['('] ++ t ++ v ++ [')']) f
  | var {w xs : List Char} {x : Char} :
    (∀ y ∈ w, Space y) → Letter x → (∀ y ∈ xs, WordChar y) →
      Derives .variable (w ++ x :: xs) (.var (String.ofList (x :: xs)))

/-- An expression need not end with spaces. -/
theorem Derives.of_disjunction {t : List Char} {f : Formula} (h : Derives .disjunction t f) :
    Derives .expression t f := by
  simpa using Derives.expression (w := []) h (by simp)

namespace Grammar

variable {r : Rule} {c d : Cursor} {t w : List Char} {f : Formula}

theorem derives_ne_nil (h : Derives r t f) : t ≠ [] := by
  induction h <;> simp_all

theorem exists_spaces_reads (c : Cursor) :
    ∃ w, (∀ x ∈ w, Space x) ∧ c.Reads w (c.dropWhile isSpace) := by
  refine ⟨_, fun x hx => ?_, Cursor.reads_dropWhile isSpace c⟩
  exact isSpace_iff.1 (List.all_eq_true.1 List.all_takeWhile x hx)

theorem exists_symbol_reads {x : Char} (h : c.symbol? x = some d) :
    ∃ w, (∀ y ∈ w, Space y) ∧ c.Reads (w ++ [x]) d := by
  obtain ⟨w, hw, hr⟩ := Cursor.exists_reads_of_symbol? h
  exact ⟨w, fun y hy => isSpace_iff.1 (hw y hy), hr⟩

theorem exists_derives_variable (h : Rule.variable.read? c = some (f, d)) :
    ∃ t, c.Reads t d ∧ Derives .variable t f := by
  obtain ⟨x, hx, hs, rfl, rfl⟩ := read?_variable_eq_some_iff.1 h
  obtain ⟨w, hw, hr⟩ := exists_spaces_reads c
  have hb := (Cursor.reads_advance hx).trans (Cursor.reads_dropWhile isIdentifierChar _)
  refine ⟨_, hr.trans hb, .var hw (isIdentifierStart_iff.1 hs) fun y hy => ?_⟩
  exact isIdentifierChar_iff.1 (List.all_eq_true.1 List.all_takeWhile y hy)

/-- A rule consumes a text that it derives, by induction on the depth of the rule. -/
theorem exists_derives (h : r.read? c = some (f, d)) : ∃ t, c.Reads t d ∧ Derives r t f := by
  induction r, c using Rule.depth_induction generalizing f d with
  | step r c lower later =>
    have operand {s : Rule} {x b t k e} (ht : c.Reads t b) (h : s.operand? x b = some (k, e)) :
        ∃ w u, (∀ y ∈ w, Space y) ∧ c.Reads (t ++ w ++ [x] ++ u) e ∧ Derives s u k := by
      obtain ⟨a, ha, hk⟩ := operand?_eq_some_iff.1 h
      obtain ⟨w, hw, hr⟩ := exists_symbol_reads ha
      have hl := Nat.lt_of_lt_of_le (Cursor.left_lt_of_symbol? ha) ht.left_le
      obtain ⟨u, hu, hd⟩ := later _ _ hl hk
      refine ⟨w, u, hw, ?_, hd⟩
      rw [List.append_assoc t]
      exact (ht.trans hr).trans hu
    cases r with
    | expression =>
      obtain ⟨b, hb, rfl⟩ := read?_expression_eq_some_iff.1 h
      obtain ⟨t, ht, hd⟩ := lower _ _ (by decide) (Nat.le_refl _) hb
      obtain ⟨w, hw, hr⟩ := exists_spaces_reads b
      exact ⟨_, ht.trans hr, .expression hd hw⟩
    | disjunction =>
      obtain ⟨g, b, hb, ⟨-, rfl, rfl⟩ | ⟨k, hk, rfl⟩⟩ := read?_disjunction_eq_some_iff.1 h
      · obtain ⟨t, ht, hd⟩ := lower _ _ (by decide) (Nat.le_refl _) hb
        exact ⟨t, ht, .disjunction hd⟩
      · obtain ⟨t, ht, hd⟩ := lower _ _ (by decide) (Nat.le_refl _) hb
        obtain ⟨w, u, hw, hu, hd'⟩ := operand ht hk
        exact ⟨_, hu, .or hd hw hd'⟩
    | conjunction =>
      obtain ⟨g, b, hb, ⟨-, rfl, rfl⟩ | ⟨k, hk, rfl⟩⟩ := read?_conjunction_eq_some_iff.1 h
      · obtain ⟨t, ht, hd⟩ := lower _ _ (by decide) (Nat.le_refl _) hb
        exact ⟨t, ht, .conjunction hd⟩
      · obtain ⟨t, ht, hd⟩ := lower _ _ (by decide) (Nat.le_refl _) hb
        obtain ⟨w, u, hw, hu, hd'⟩ := operand ht hk
        exact ⟨_, hu, .and hd hw hd'⟩
    | negation =>
      obtain ⟨-, ha⟩ | ⟨b, g, hb, hg, rfl⟩ := read?_negation_eq_some_iff.1 h
      · obtain ⟨t, ht, hd⟩ := lower _ _ (by decide) (Nat.le_refl _) ha
        exact ⟨t, ht, .negation hd⟩
      · obtain ⟨w, hw, hr⟩ := exists_symbol_reads hb
        obtain ⟨t, ht, hd⟩ := later _ _ (Cursor.left_lt_of_symbol? hb) hg
        exact ⟨_, hr.trans ht, .not hw hd⟩
    | atom =>
      obtain hv | ⟨-, a, b, ha, hb, he⟩ := read?_atom_eq_some_iff.1 h
      · obtain ⟨t, ht, hd⟩ := lower _ _ (by decide) (Nat.le_refl _) hv
        exact ⟨t, ht, .atom hd⟩
      · obtain ⟨w, hw, hr⟩ := exists_symbol_reads ha
        obtain ⟨t, ht, hd⟩ := later _ _ (Cursor.left_lt_of_symbol? ha) hb
        obtain ⟨v, hv, hs⟩ := exists_symbol_reads he
        refine ⟨_, (hr.trans ht).trans hs, ?_⟩
        rw [← List.append_assoc]
        exact .parens hw hd hv
    | «variable» => exact exists_derives_variable h

/-- No rule matches without consuming. -/
theorem offset_lt (h : r.read? c = some (f, d)) : c.offset < d.offset := by
  obtain ⟨t, ht, hder⟩ := exists_derives h
  have hpos := List.length_pos_iff.2 (derives_ne_nil hder)
  rw [ht.offset_eq]
  omega

end Grammar

end BoolFormula
