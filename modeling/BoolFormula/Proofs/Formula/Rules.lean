import BoolFormula.Proofs.Formula.Recursion

/-! What each rule finds, in terms of the rules it refers to: one equation for each rule. Later
proofs go by these equations and by induction on the depth of a rule. -/

namespace BoolFormula

/-- The formula that the rule finds at `c`, with the cursor after it. -/
def Rule.read? (r : Rule) (c : Cursor) : Option (Formula × Cursor) := Parser.read? r.parser c

/-- The operand that the rule finds behind the operator `op`, if that comes next. -/
def Rule.operand? (r : Rule) (op : Char) (c : Cursor) : Option (Formula × Cursor) :=
  (c.symbol? op).bind r.read?

/-- A formula that has been read, with the operand after it if there is one. -/
def Formula.extend (join : Formula → Formula → Formula) (f : Formula) (c : Cursor) :
    Option (Formula × Cursor) → Formula × Cursor
  | none => (f, c)
  | some (g, d) => (join f g, d)

theorem Formula.extend_eq_iff {join : Formula → Formula → Formula} {f g : Formula} {c d : Cursor}
    {o : Option (Formula × Cursor)} : f.extend join c o = (g, d) ↔
      (o = none ∧ f = g ∧ c = d) ∨ ∃ h, o = some (h, d) ∧ join f h = g := by
  cases o with
  | none => simp [extend]
  | some hd =>
    obtain ⟨h, e⟩ := hd
    simp only [extend, Prod.mk.injEq, reduceCtorEq, false_and, false_or, Option.some.injEq]
    grind

theorem Formula.negate_succ (n : Nat) (f : Formula) : f.negate (n + 1) = (f.negate n).neg := by
  induction n generalizing f with
  | zero => rfl
  | succ n ih => rw [negate, ih, negate]

namespace Grammar

open ParserT BoolFormula.Parser

variable (c : Cursor)

theorem read?_rule (r : Rule) : Parser.read? r.parser c = r.read? c := rfl

theorem read?_eq_body (r : Rule) :
    r.read? c = Parser.read? (body (fun s => s.parser) r) c := by
  unfold Rule.read?
  rw [parser_eq, step, read?_traced]

theorem read?_operand {op : String} {x : Char} (hop : op.toList = [x]) (r : Rule) :
    Parser.read? ((token op).pair r.parser).snd c = r.operand? x c := by
  simp only [read?_snd, read?_pair, read?_token _ _ hop, read?_rule, Rule.operand?]
  cases c.symbol? x with
  | none => rfl
  | some d =>
    simp only [Option.map_some, Option.bind_some]
    cases r.read? d <;> rfl

/-- A chain finds an operand, with the rest of the chain where there is one. -/
theorem read?_chain {op : String} {x : Char} (hop : op.toList = [x]) (r s : Rule)
    (build : Formula → Option Formula → Formula) (join : Formula → Formula → Formula)
    (hn : ∀ f, build f none = f) (hs : ∀ f g, build f (some g) = join f g) :
    Parser.read? ((r.parser.pair ((token op).pair s.parser).snd.optional).map
      fun (lhs, rhs) => build lhs rhs) c =
    (r.read? c).map fun (f, d) => f.extend join d (s.operand? x d) := by
  simp only [read?_map, read?_pair, read?_optional, read?_operand _ hop, read?_rule]
  cases r.read? c with
  | none => rfl
  | some fd =>
    obtain ⟨f, d⟩ := fd
    simp only [Option.bind_some, Option.map_some]
    cases s.operand? x d <;> simp [Formula.extend, hn, hs]

theorem read?_expression : Rule.expression.read? c =
    (Rule.disjunction.read? c).map fun (f, d) => (f, d.dropWhile isSpace) := by
  rw [read?_eq_body]
  simp only [body, read?_fst, read?_pair, read?_spaces, read?_rule]
  cases Rule.disjunction.read? c <;> rfl

theorem read?_disjunction : Rule.disjunction.read? c = (Rule.conjunction.read? c).map
    fun (f, d) => f.extend .disj d (Rule.disjunction.operand? '|' d) := by
  rw [read?_eq_body]
  exact read?_chain c rfl _ _ Formula.disjoin _ (fun _ => rfl) fun _ _ => rfl

theorem read?_conjunction : Rule.conjunction.read? c = (Rule.negation.read? c).map
    fun (f, d) => f.extend .conj d (Rule.conjunction.operand? '&' d) := by
  rw [read?_eq_body]
  exact read?_chain c rfl _ _ Formula.conjoin _ (fun _ => rfl) fun _ _ => rfl

/-- The marks in front of an atom, one by one. -/
theorem read?_exclamationMarks : Parser.read? exclamationMarks c =
    match c.symbol? '!' with
    | none => some (0, c)
    | some d => (Parser.read? exclamationMarks d).map fun (n, e) => (n + 1, e) := by
  simp only [exclamationMarks, read?_map]
  rw [read?_many (upholds_token _), read?_token _ _ (x := '!') rfl]
  cases h : c.symbol? '!' with
  | none => rfl
  | some d =>
    have := Cursor.offset_lt_of_symbol? h
    have hd : d.offset ≠ c.offset := by omega
    simp only [Option.map_some, if_neg hd, Option.map_map]
    rfl

theorem read?_negation_eq : Rule.negation.read? c =
    (Parser.read? exclamationMarks c).bind fun (n, d) =>
      (Rule.atom.read? d).map fun (f, e) => (f.negate n, e) := by
  rw [read?_eq_body]
  simp only [body, read?_map, read?_pair, read?_rule]
  cases Parser.read? exclamationMarks c with
  | none => rfl
  | some nd =>
    obtain ⟨n, d⟩ := nd
    simp only [Option.bind_some, Option.map_map]
    rfl

/-- A mark and a negation after it, or else an atom. -/
theorem read?_negation : Rule.negation.read? c =
    match c.symbol? '!' with
    | none => Rule.atom.read? c
    | some d => (Rule.negation.read? d).map fun (f, e) => (f.neg, e) := by
  rw [read?_negation_eq, read?_exclamationMarks]
  cases c.symbol? '!' with
  | none => simp [Formula.negate]
  | some d =>
    dsimp only
    rw [read?_negation_eq]
    cases Parser.read? exclamationMarks d with
    | none => rfl
    | some nd => simp [Function.comp_def, Formula.negate_succ]

theorem read?_atom : Rule.atom.read? c = (Rule.variable.read? c).or
    ((c.symbol? '(').bind fun d => (Rule.expression.read? d).bind fun (f, e) =>
      (e.symbol? ')').map fun b => (f, b)) := by
  rw [read?_eq_body]
  have hl : Parser.read? (token "(") c = (c.symbol? '(').map fun d => ("(", d) :=
    read?_token _ c rfl
  have hr (d : Cursor) : Parser.read? (token ")") d = (d.symbol? ')').map fun e => (")", e) :=
    read?_token _ d rfl
  simp only [body, read?_orElse, read?_snd, read?_fst, read?_pair, read?_rule, hl, hr]
  congr 1
  cases c.symbol? '(' with
  | none => rfl
  | some d =>
    simp only [Option.map_some, Option.bind_some]
    cases Rule.expression.read? d with
    | none => rfl
    | some fe =>
      simp only [Option.map_some, Option.bind_some, Option.map_map]
      rfl

theorem read?_variable : Rule.variable.read? c =
    let d := c.dropWhile isSpace
    (d.peek?.filter isIdentifierStart).map fun x =>
      (.var (String.ofList (x :: d.advance.remaining.takeWhile isIdentifierChar)),
        d.advance.dropWhile isIdentifierChar) := by
  rw [read?_eq_body]
  simp only [body, read?_map, read?_afterSpaces, identifier, read?_several, Option.map_map]
  rfl

/-! ### Steps forward -/

variable {c} {d : Cursor} {r : Rule} {f : Formula}

theorem exists_reads (h : r.read? c = some (f, d)) : ∃ t, c.Reads t d :=
  (upholds_rule r).exists_reads h

theorem left_le (h : r.read? c = some (f, d)) : d.left ≤ c.left := (upholds_rule r).left_le h

theorem operand?_eq_some_iff {x : Char} : r.operand? x c = some (f, d) ↔
    ∃ b, c.symbol? x = some b ∧ r.read? b = some (f, d) := by
  simp only [Rule.operand?, Option.bind_eq_some_iff]

theorem read?_expression_eq_some_iff : Rule.expression.read? c = some (f, d) ↔
    ∃ b, Rule.disjunction.read? c = some (f, b) ∧ b.dropWhile isSpace = d := by
  simp only [read?_expression, Option.map_eq_some_iff, Prod.exists, Prod.mk.injEq]
  constructor
  · rintro ⟨_, b, hb, rfl, rfl⟩
    exact ⟨b, hb, rfl⟩
  · rintro ⟨b, hb, rfl⟩
    exact ⟨f, b, hb, rfl, rfl⟩

theorem read?_disjunction_eq_some_iff : Rule.disjunction.read? c = some (f, d) ↔
    ∃ g b, Rule.conjunction.read? c = some (g, b) ∧
      ((Rule.disjunction.operand? '|' b = none ∧ g = f ∧ b = d) ∨
        ∃ h, Rule.disjunction.operand? '|' b = some (h, d) ∧ .disj g h = f) := by
  simp only [read?_disjunction, Option.map_eq_some_iff, Prod.exists, Formula.extend_eq_iff]

theorem read?_conjunction_eq_some_iff : Rule.conjunction.read? c = some (f, d) ↔
    ∃ g b, Rule.negation.read? c = some (g, b) ∧
      ((Rule.conjunction.operand? '&' b = none ∧ g = f ∧ b = d) ∨
        ∃ h, Rule.conjunction.operand? '&' b = some (h, d) ∧ .conj g h = f) := by
  simp only [read?_conjunction, Option.map_eq_some_iff, Prod.exists, Formula.extend_eq_iff]

/-- A disjunction of which both operands are found. -/
theorem read?_disjunction_of_symbol? {b e : Cursor} {g : Formula}
    (hf : Rule.conjunction.read? c = some (f, b)) (hop : b.symbol? '|' = some e)
    (hg : Rule.disjunction.read? e = some (g, d)) :
    Rule.disjunction.read? c = some (.disj f g, d) := by
  refine read?_disjunction_eq_some_iff.2 ⟨f, b, hf, .inr ⟨g, ?_, rfl⟩⟩
  exact operand?_eq_some_iff.2 ⟨e, hop, hg⟩

/-- A conjunction of which both operands are found. -/
theorem read?_conjunction_of_symbol? {b e : Cursor} {g : Formula}
    (hf : Rule.negation.read? c = some (f, b)) (hop : b.symbol? '&' = some e)
    (hg : Rule.conjunction.read? e = some (g, d)) :
    Rule.conjunction.read? c = some (.conj f g, d) := by
  refine read?_conjunction_eq_some_iff.2 ⟨f, b, hf, .inr ⟨g, ?_, rfl⟩⟩
  exact operand?_eq_some_iff.2 ⟨e, hop, hg⟩

theorem read?_negation_eq_some_iff : Rule.negation.read? c = some (f, d) ↔
    (c.symbol? '!' = none ∧ Rule.atom.read? c = some (f, d)) ∨
      ∃ b g, c.symbol? '!' = some b ∧ Rule.negation.read? b = some (g, d) ∧ .neg g = f := by
  rw [read?_negation]
  cases c.symbol? '!' with
  | none => simp
  | some b => simp [Option.map_eq_some_iff]

theorem read?_atom_eq_some_iff : Rule.atom.read? c = some (f, d) ↔
    Rule.variable.read? c = some (f, d) ∨ (Rule.variable.read? c = none ∧
      ∃ a b, c.symbol? '(' = some a ∧ Rule.expression.read? a = some (f, b) ∧
        b.symbol? ')' = some d) := by
  rw [read?_atom, Option.or_eq_some_iff]
  simp only [Option.bind_eq_some_iff, Option.map_eq_some_iff, Prod.exists, Prod.mk.injEq]
  constructor
  · rintro (h | ⟨hv, a, ha, _, b, hb, _, he, rfl, rfl⟩)
    · exact .inl h
    · exact .inr ⟨hv, a, b, ha, hb, he⟩
  · rintro (h | ⟨hv, a, b, ha, hb, he⟩)
    · exact .inl h
    · exact .inr ⟨hv, a, ha, f, b, hb, d, he, rfl, rfl⟩

theorem read?_variable_eq_some_iff : Rule.variable.read? c = some (f, d) ↔
    ∃ x, (c.dropWhile isSpace).peek? = some x ∧ isIdentifierStart x = true ∧
      .var (String.ofList (x :: (c.dropWhile isSpace).advance.remaining.takeWhile
        isIdentifierChar)) = f ∧ (c.dropWhile isSpace).advance.dropWhile isIdentifierChar = d := by
  simp only [read?_variable, Option.map_eq_some_iff, Option.filter_eq_some_iff, Prod.mk.injEq,
    and_assoc]

end Grammar

end BoolFormula
