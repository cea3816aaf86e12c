import BoolFormula.Proofs.Formula.Derivation
import BoolFormula.Proofs.Parser.Events

/-! What the rules tell under a trace: what the rules that they call tell, each at the place where
it is called, and then of themselves. A rule is called again for an operand or inside parentheses,
behind the symbol that announces it. The parsers that the body of a rule refers to need not be those
of the rules, as long as they answer like them. -/

namespace BoolFormula

/-- The events of a traced run of the rule at `c`. -/
def Rule.told (r : Rule) (c : Cursor) : List Event := ParserT.told r.parser c

/-- What the rule finds at `c`, written out, and the number of code points it takes. -/
def Rule.outcome (r : Rule) (c : Cursor) : Option (String × Nat) :=
  (r.read? c).map fun (f, d) => (f.describe, d.offset - c.offset)

/-- The rules that the rule calls at `c`, in order, each with the place where it does. -/
def Rule.calls (r : Rule) (c : Cursor) : List (Rule × Cursor) :=
  match r with
  | expression => [(disjunction, c)]
  | disjunction => (conjunction, c) ::
      (((conjunction.read? c).bind fun (_, d) => d.symbol? '|').map (disjunction, ·)).toList
  | conjunction => (negation, c) ::
      (((negation.read? c).bind fun (_, d) => d.symbol? '&').map (conjunction, ·)).toList
  | negation => ((Parser.read? Grammar.exclamationMarks c).map fun (_, d) => (atom, d)).toList
  | atom => (.variable, c) ::
      if (Rule.variable.read? c).isSome then [] else ((c.symbol? '(').map (expression, ·)).toList
  | .variable => []

namespace Grammar

open ParserT BoolFormula.Parser

/-! ### What the body of a rule tells -/

section Body

theorem flatMap_toList (f : Rule → Cursor → List Event) (s : Rule) (o : Option Cursor) :
    ((o.map (s, ·)).toList.flatMap fun x => f x.1 x.2) = o.elim [] (f s) := by
  cases o <;> simp

/-- Behind a token the parser is run. -/
theorem told_token_pair {op : String} {x : Char} (hop : op.toList = [x])
    (p : ParserT Traced Formula) (c : Cursor) :
    ((token op).pair p).told c = (c.symbol? x).elim [] p.told := by
  rw [told_pair, quiet_token, List.nil_append, silent_token, read?_token _ _ hop]
  cases c.symbol? x <;> rfl

variable {F : Rule → ParserT Traced Formula} (hF : ∀ s, silent (F s) = s.parser) (c : Cursor)
include hF

theorem read?_silent (r : Rule) : Parser.read? (silent (F r)) c = r.read? c := by
  rw [hF, read?_rule]

theorem told_chain {op : String} {x : Char} (hop : op.toList = [x]) (r s : Rule)
    (build : Formula × Option Formula → Formula) :
    (((F r).pair ((token op).pair (F s)).snd.optional).map build).told c =
      (F r).told c ++ ((r.read? c).bind fun (_, d) => d.symbol? x).elim [] (F s).told := by
  rw [told_map, told_pair, read?_silent hF]
  cases r.read? c with
  | none => rfl
  | some fd => simp only [Option.elim_some, told_optional, told_snd, told_token_pair hop,
      Option.bind_some]

theorem told_body (r : Rule) :
    (body F r).told c = (r.calls c).flatMap fun x => (F x.1).told x.2 := by
  cases r with
  | expression =>
    rw [body, told_fst, told_pair_of_quiet quiet_spaces]
    exact (List.append_nil _).symm
  | disjunction => rw [body, told_chain hF c (x := '|') rfl, Rule.calls, List.flatMap_cons,
      flatMap_toList fun s => (F s).told]
  | conjunction => rw [body, told_chain hF c (x := '&') rfl, Rule.calls, List.flatMap_cons,
      flatMap_toList fun s => (F s).told]
  | negation =>
    rw [body, told_map, told_pair, silent_exclamationMarks, exclamationMarks,
      quiet_map _ (quiet_many (quiet_token _)), List.nil_append, Rule.calls, exclamationMarks]
    cases Parser.read? ((token "!").many.map List.length) c <;> simp
  | atom =>
    rw [body, told_orElse, read?_silent hF, told_snd, told_fst,
      told_pair_of_quiet (quiet_token _), told_token_pair (x := '(') rfl, Rule.calls, List.flatMap_cons]
    split
    · rfl
    · rw [flatMap_toList fun s => (F s).told]
  | «variable» =>
    rw [body, told_map, quiet_afterSpaces quiet_identifier]
    rfl

/-- A rule tells of itself after those that it calls. -/
theorem told_step (r : Rule) : (step F r).told c =
    ((r.calls c).flatMap fun x => (F x.1).told x.2) ++ [.attempt r.name c (r.outcome c)] := by
  have hbody : silent (body F r) = body (fun s => silent (F s)) r := by cases r <;> simp [body]
  rw [step, told_traced, told_body hF, hbody, funext hF, ← read?_eq_body]
  rfl

end Body

/-! ### Where a rule is called -/

/-- A call at the same place or a later one, and at a lesser depth. -/
structure Below (r : Rule) (c : Cursor) (s : Rule) (d : Cursor) : Prop where
  text_eq : d.text = c.text
  offset_le : c.offset ≤ d.offset
  depth_lt : s.depth d < r.depth c

section Below

variable {r s : Rule} {c d e : Cursor} {t : List Char} {x : Char}

theorem below_of_rank (h : c.Reads t d) (hs : s.rank < r.rank) : Below r c s d :=
  ⟨h.text_eq, h.offset_le, Rule.depth_lt_of_rank h.left_le hs⟩

theorem below_of_symbol? (h : c.Reads t d) (he : d.symbol? x = some e) : Below r c s e := by
  obtain ⟨w, -, hw⟩ := Cursor.exists_reads_of_symbol? he
  have hlt := Cursor.left_lt_of_symbol? he
  have hle := h.left_le
  exact ⟨hw.text_eq.trans h.text_eq, Nat.le_trans h.offset_le hw.offset_le,
    Rule.depth_lt_of_left r s (by omega)⟩

theorem below_of_mem_chain {o : Option (Formula × Cursor)} (hs : s.rank < r.rank)
    (ho : ∀ f d, o = some (f, d) → ∃ t, c.Reads t d) {q : Rule × Cursor}
    (h : q ∈ (s, c) :: ((o.bind fun (_, d) => d.symbol? x).map (r, ·)).toList) :
    Below r c q.1 q.2 := by
  rcases List.mem_cons.1 h with rfl | h
  · exact below_of_rank (Cursor.Reads.refl c) hs
  · obtain ⟨e, he, rfl⟩ := Option.map_eq_some_iff.1 (Option.mem_toList.1 h)
    obtain ⟨⟨f, d⟩, hfd, he⟩ := Option.bind_eq_some_iff.1 he
    obtain ⟨t, ht⟩ := ho f d hfd
    exact below_of_symbol? ht he

theorem below_of_mem_calls {q : Rule × Cursor} (h : q ∈ r.calls c) : Below r c q.1 q.2 := by
  cases r with
  | expression =>
    cases List.mem_singleton.1 h
    exact below_of_rank (s := .disjunction) (Cursor.Reads.refl c) (by decide)
  | disjunction => exact below_of_mem_chain (by decide) (fun _ _ => exists_reads) h
  | conjunction => exact below_of_mem_chain (by decide) (fun _ _ => exists_reads) h
  | negation =>
    obtain ⟨⟨n, d⟩, hd, rfl⟩ := Option.map_eq_some_iff.1 (Option.mem_toList.1 h)
    obtain ⟨t, ht⟩ := upholds_exclamationMarks.exists_reads hd
    exact below_of_rank (s := .atom) ht (by decide)
  | atom =>
    rcases List.mem_cons.1 h with rfl | h
    · exact below_of_rank (s := .variable) (Cursor.Reads.refl c) (by decide)
    · split at h
      · cases h
      · obtain ⟨e, he, rfl⟩ := Option.map_eq_some_iff.1 (Option.mem_toList.1 h)
        exact below_of_symbol? (Cursor.Reads.refl c) he
  | «variable» => cases h

end Below

/-- Induction on calls: what holds of the rules that a rule calls, at the places where it does,
holds of the rule. -/
@[elab_as_elim]
theorem call_induction {P : Rule → Cursor → Prop}
    (step : ∀ r c, (∀ q ∈ r.calls c, P q.1 q.2) → P r c) (r : Rule) (c : Cursor) : P r c := by
  induction hn : r.depth c using Nat.strongRecOn generalizing r c with
  | ind n ih =>
    subst hn
    exact step r c fun q hq => ih _ (below_of_mem_calls hq).depth_lt _ _ rfl

/-! ### What a rule tells -/

section Told

variable (c : Cursor)

theorem told_eq (r : Rule) : r.told c =
    ((r.calls c).flatMap fun x => x.1.told x.2) ++ [.attempt r.name c (r.outcome c)] := by
  have h := told_step (F := fun s => s.parser) silent_rule c r
  rw [← parser_eq] at h
  exact h

theorem exists_told_expression : ∃ outcome, Rule.expression.told c =
    Rule.disjunction.told c ++ [.attempt Rule.expression.name c outcome] :=
  ⟨_, by rw [told_eq, Rule.calls, List.flatMap_singleton]⟩

theorem exists_told_disjunction : ∃ outcome, Rule.disjunction.told c =
    Rule.conjunction.told c ++ ((Rule.conjunction.read? c).bind fun (_, d) =>
      d.symbol? '|').elim [] Rule.disjunction.told ++
    [.attempt Rule.disjunction.name c outcome] :=
  ⟨_, by rw [told_eq, Rule.calls, List.flatMap_cons, flatMap_toList Rule.told]⟩

theorem exists_told_conjunction : ∃ outcome, Rule.conjunction.told c =
    Rule.negation.told c ++ ((Rule.negation.read? c).bind fun (_, d) =>
      d.symbol? '&').elim [] Rule.conjunction.told ++
    [.attempt Rule.conjunction.name c outcome] :=
  ⟨_, by rw [told_eq, Rule.calls, List.flatMap_cons, flatMap_toList Rule.told]⟩

/-- An atom is looked for behind the marks, if there are any. -/
theorem exists_told_negation : ∃ n d outcome, Parser.read? exclamationMarks c = some (n, d) ∧
    Rule.negation.told c = Rule.atom.told d ++ [.attempt Rule.negation.name c outcome] := by
  obtain ⟨marks, d, hm⟩ := exists_read?_many (upholds_token "!") c
  have hn : Parser.read? exclamationMarks c = some (marks.length, d) := by
    rw [exclamationMarks, read?_map, hm]
    rfl
  refine ⟨_, d, Rule.negation.outcome c, hn, ?_⟩
  rw [told_eq, Rule.calls, hn, Option.map_some, Option.toList_some, List.flatMap_singleton]

theorem exists_told_atom : ∃ outcome, Rule.atom.told c =
    Rule.variable.told c ++ (if (Rule.variable.read? c).isSome then [] else
      (c.symbol? '(').elim [] Rule.expression.told) ++
    [.attempt Rule.atom.name c outcome] := by
  refine ⟨Rule.atom.outcome c, ?_⟩
  rw [told_eq, Rule.calls, List.flatMap_cons]
  split
  · rfl
  · rw [flatMap_toList Rule.told]

theorem exists_told_variable : ∃ outcome, Rule.variable.told c =
    [.attempt Rule.variable.name c outcome] :=
  ⟨_, by rw [told_eq, Rule.calls, List.flatMap_nil, List.nil_append]⟩

end Told

end Grammar

end BoolFormula
