import BoolFormula.Proofs.Formula.Rules

/-! The grammar as plain ordered choices. There a chain is an operand, the operator and the rest of
the chain, or else the operand alone, and a negation is a mark and a negation, or else an atom. So
an operand is read once more where no operator follows it, or where what follows the operator cannot
be read. The rules, which read it once and then look for an operator, give the same answers, and
there is no other family of parsers that satisfies the equations of the plain grammar. -/

namespace BoolFormula

namespace Grammar

open ParserT BoolFormula.Parser

/-- Two operands with the operator `op` between them, or else the first one alone. -/
def joined (op : String) (join : Formula → Formula → Formula) (lhs rhs : Parser Formula) :
    Parser Formula :=
  ParserT.orElse (((lhs.pair (token op)).pair rhs).map fun ((f, _), g) => join f g) lhs

/-- Each rule as an ordered choice, in terms of all of them. -/
def choices (rule : Rule → Parser Formula) : Rule → Parser Formula
  | .expression => ((rule .disjunction).pair spaces).fst
  | .disjunction => joined "|" .disj (rule .conjunction) (rule .disjunction)
  | .conjunction => joined "&" .conj (rule .negation) (rule .conjunction)
  | .negation =>
    ParserT.orElse (((token "!").pair (rule .negation)).map fun (_, f) => .neg f) (rule .atom)
  | .atom =>
    ParserT.orElse (rule .variable)
      (((token "(").pair (rule .expression)).pair (token ")")).fst.snd
  | .variable => (afterSpaces identifier).map .var

end Grammar

/-- The parser of a rule of the plain grammar. -/
def Rule.plain (r : Rule) : Parser Formula := Grammar.solve Grammar.choices r

namespace Grammar

open ParserT BoolFormula.Parser

variable {F G : Rule → Parser Formula} {r : Rule} {c d : Cursor}

/-! ### What the choices find -/

theorem read?_joined {op : String} {x : Char} (hop : op.toList = [x])
    (join : Formula → Formula → Formula) (r s : Rule) (c : Cursor) :
    Parser.read? (joined op join r.parser s.parser) c =
      (r.read? c).map fun (f, d) => f.extend join d (s.operand? x d) := by
  simp only [joined, read?_orElse, read?_map, read?_pair, read?_token _ _ hop, read?_rule,
    Rule.operand?]
  cases r.read? c with
  | none => rfl
  | some fd =>
    obtain ⟨f, d⟩ := fd
    simp only [Option.bind_some, Option.map_some]
    cases d.symbol? x with
    | none => rfl
    | some e =>
      -- The operand is there or not; if it is not, the second alternative reads the first again.
      simp only [Option.map_some, Option.bind_some]
      cases s.read? e <;> rfl

/-- No atom starts with a mark, so behind a mark that no negation follows the second alternative
of a negation fails too. -/
theorem read?_atom_of_mark (h : c.symbol? '!' = some d) : Rule.atom.read? c = none := by
  refine Option.eq_none_iff_forall_ne_some.2 fun ⟨f, e⟩ he => ?_
  obtain hv | ⟨-, a, b, ha, -, -⟩ := read?_atom_eq_some_iff.1 he
  · obtain ⟨x, hx, hs, -, -⟩ := read?_variable_eq_some_iff.1 hv
    obtain ⟨hm, -⟩ := Cursor.symbol?_eq_some_iff.1 h
    cases hx.symm.trans hm
    revert hs
    decide
  · rw [Cursor.symbol?_eq_none h (by decide)] at ha
    cases ha

theorem read?_choices_negation (c : Cursor) :
    Parser.read? (choices (fun s => s.parser) .negation) c = Rule.negation.read? c := by
  have hm : Parser.read? (token "!") c = (c.symbol? '!').map fun d => ("!", d) := read?_token _ c rfl
  rw [read?_negation]
  simp only [choices, read?_orElse, read?_map, read?_pair, read?_rule, hm]
  cases h : c.symbol? '!' with
  | none => rfl
  | some d =>
    rw [read?_atom_of_mark h]
    simp only [Option.map_some, Option.bind_some, Option.map_map, Option.or_none]
    rfl

theorem read?_choices (r : Rule) (c : Cursor) :
    Parser.read? (choices (fun s => s.parser) r) c = r.read? c := by
  cases r with
  | disjunction => exact (read?_joined rfl _ _ _ c).trans (read?_disjunction c).symm
  | conjunction => exact (read?_joined rfl _ _ _ c).trans (read?_conjunction c).symm
  | negation => exact read?_choices_negation c
  | expression | atom | «variable» => rw [read?_eq_body]; rfl

/-! ### The equations -/

theorem upholds_joined {p q : Parser Formula} (op : String) (join : Formula → Formula → Formula)
    (hp : Upholds p) (hq : Upholds q) : Upholds (joined op join p q) :=
  upholds_orElse (upholds_map _ (upholds_pair (upholds_pair hp (upholds_token op)) hq)) hp

theorem upholds_choices (h : ∀ s, Upholds (F s)) (r : Rule) : Upholds (choices F r) := by
  cases r with
  | expression => exact upholds_fst (upholds_pair (h _) upholds_spaces)
  | disjunction | conjunction => exact upholds_joined _ _ (h _) (h _)
  | negation => exact upholds_orElse (upholds_map _ (upholds_pair (upholds_token _) (h _))) (h _)
  | atom =>
    refine upholds_orElse (h _) (upholds_snd (upholds_fst ?_))
    exact upholds_pair (upholds_pair (upholds_token _) (h _)) (upholds_token _)
  | «variable» => exact upholds_map _ (upholds_afterSpaces upholds_identifier)

/-- The rules satisfy the equations of the plain grammar. -/
theorem parser_eq_choices (r : Rule) : r.parser = choices (fun s => s.parser) r := by
  funext c
  exact (upholds_rule r).run_eq (upholds_choices upholds_rule r) (read?_choices r c).symm

/-- What a choice refers to, at the cursors where it does, is of a lesser depth. -/
theorem choices_congr (hG : ∀ s, Upholds (G s))
    (h : ∀ s d, s.depth d < r.depth c → F s d = G s d) : choices F r c = choices G r c := by
  have lower {s : Rule} (hs : s.rank < r.rank) : F s c = G s c :=
    h s c (Rule.depth_lt_of_rank (Nat.le_refl _) hs)
  have later (s : Rule) {d : Cursor} (hd : d.left < c.left) : F s d = G s d :=
    h s d (Rule.depth_lt_of_left r s hd)
  have behind (s : Rule) {op : String} {x : Char} {t : String} {d : Cursor} (hop : op.toList = [x])
      (hd : Parser.read? (token op) c = some (t, d)) : F s d = G s d :=
    later s (left_lt_of_token hop hd)
  have joined_congr (s t : Rule) {op : String} {x : Char} (join : Formula → Formula → Formula)
      (hop : op.toList = [x]) (hs : s.rank < r.rank) :
      joined op join (F s) (F t) c = joined op join (G s) (G t) c := by
    refine ParserT.orElse_congr (ParserT.map_congr _ ?_) (lower hs)
    refine ParserT.pair_congr (ParserT.pair_congr (lower hs) fun _ _ _ => rfl) fun b e he => ?_
    obtain ⟨⟨f, a⟩, ha, hb⟩ := Option.bind_eq_some_iff.1 ((read?_pair _ _ c).symm.trans he)
    obtain ⟨⟨u, e⟩, hu, heq⟩ := Option.map_eq_some_iff.1 hb
    cases heq
    exact later t (Nat.lt_of_lt_of_le (left_lt_of_token hop hu) ((hG s).left_le ha))
  cases r with
  | expression =>
    exact ParserT.map_congr _ (ParserT.pair_congr (lower (by decide)) fun _ _ _ => rfl)
  | disjunction => exact joined_congr _ _ _ rfl (by decide)
  | conjunction => exact joined_congr _ _ _ rfl (by decide)
  | negation =>
    refine ParserT.orElse_congr (ParserT.map_congr _ ?_) (lower (by decide))
    exact ParserT.pair_congr rfl fun _ _ hd => behind _ rfl hd
  | atom =>
    refine ParserT.orElse_congr (lower (by decide)) ?_
    refine ParserT.map_congr _ (ParserT.map_congr _ (ParserT.pair_congr ?_ fun _ _ _ => rfl))
    exact ParserT.pair_congr rfl fun _ _ hd => behind _ rfl hd
  | «variable» => rfl

theorem guarded_choices : Guarded choices := ⟨upholds_choices, choices_congr⟩

theorem plain_eq (r : Rule) : r.plain = r.parser :=
  (guarded_choices.eq_solve (funext fun s => (parser_eq_choices s).symm) r).symm

/-- The equations of the plain grammar have one solution, at which its parsers arrive, and the rules
answer as these parsers do: with the same value and the same cursor, or with a failure that hands
back the same cursor. -/
theorem run_eq_run_plain :
    (∀ F : Rule → Parser Formula, (∀ r, F r = choices F r) ↔ ∀ r, F r = r.plain) ∧
    ∀ (r : Rule) (c : Cursor), Parser.run r.parser c = Parser.run r.plain c := by
  refine ⟨fun F => ⟨fun h r => ?_, fun h r => ?_⟩, fun r c => by rw [plain_eq]⟩
  · exact guarded_choices.eq_solve (funext fun s => (h s).symm) r
  · have hF : F = Rule.plain := funext h
    rw [hF]
    exact guarded_choices.solve_eq r

/-- Marks that no atom follows, behind an operator: the chain stops in front of the operator. -/
example : Parser.run Rule.disjunction.plain (.ofString "a & b | !!") =
    .success (.conj (.var "a") (.var "b")) ⟨"a & b | !!".toList.toArray, 5, by decide⟩ := rfl

end Grammar

end BoolFormula
