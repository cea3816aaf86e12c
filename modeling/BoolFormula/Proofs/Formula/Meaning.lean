import BoolFormula.Proofs.Formula.Language
import Mathlib.Logic.Function.Iterate

/-! The value of composed texts. Where two chains of one operator are put behind each other, the
tree of the first does not become part of the tree of the whole: the last operand of the first
chain takes the second one in. As the operators are associative, the value is still that of the two
values, however the operands of a chain are grouped. -/

namespace BoolFormula

/-- The operators between two operands. -/
inductive Connective
  | and | or
deriving DecidableEq, Repr

namespace Connective

def symbol : Connective → Char
  | and => '&'
  | or => '|'

/-- The rule for the operands of the operator. -/
def operand : Connective → Rule
  | and => .negation
  | or => .conjunction

/-- The rule for the chains of the operator. -/
def chain : Connective → Rule
  | and => .conjunction
  | or => .disjunction

def join : Connective → Formula → Formula → Formula
  | and => .conj
  | or => .disj

/-- The value of a formula from those of its operands. -/
def apply : Connective → Bool → Bool → Bool
  | and => Bool.and
  | or => Bool.or

/-- The value of a chain from those of its operands. -/
def combine : Connective → List Bool → Bool
  | and, values => values.all id
  | or, values => values.any id

theorem apply_assoc (k : Connective) (a b c : Bool) :
    k.apply (k.apply a b) c = k.apply a (k.apply b c) := by
  cases k
  · exact Bool.and_assoc a b c
  · exact Bool.or_assoc a b c

@[simp] theorem combine_singleton (k : Connective) (a : Bool) : k.combine [a] = a := by
  cases k <;> simp [combine]

theorem combine_append (k : Connective) (as bs : List Bool) :
    k.combine (as ++ bs) = k.apply (k.combine as) (k.combine bs) := by
  cases k
  · exact List.all_append
  · exact List.any_append

@[simp] theorem eval_join (k : Connective) (f g : Formula) (lookup : String → Option Bool) :
    (k.join f g).eval lookup = k.apply (f.eval lookup) (g.eval lookup) := by
  cases k <;> rfl

end Connective

/-- The text `t` is a chain of operands, and `f` is their formula, grouped to the right. -/
inductive Chain (k : Connective) : List Char → Formula → Prop
  | operand {t : List Char} {f : Formula} : Derives k.operand t f → Chain k t f
  | link {t w u : List Char} {f g : Formula} : Derives k.operand t f → (∀ x ∈ w, Space x) →
    Chain k u g → Chain k (t ++ w ++ [k.symbol] ++ u) (k.join f g)

namespace Chain

variable {k : Connective} {t u w : List Char} {f g : Formula}

theorem of_derives (h : Derives k.chain t f) : Chain k t f := by
  cases k with
  | and =>
    generalize hr : Connective.and.chain = r at h
    induction h with
    | conjunction h => exact .operand h
    | and h hw _ _ ih => exact .link (k := .and) h hw (ih hr)
    | _ => nomatch hr
  | or =>
    generalize hr : Connective.or.chain = r at h
    induction h with
    | disjunction h => exact .operand h
    | or h hw _ _ ih => exact .link (k := .or) h hw (ih hr)
    | _ => nomatch hr

theorem derives (h : Chain k t f) : Derives k.chain t f := by
  induction h with
  | operand h =>
    cases k with
    | and => exact .conjunction h
    | or => exact .disjunction h
  | link h hw _ ih =>
    cases k with
    | and => exact .and h hw ih
    | or => exact .or h hw ih

/-- One chain behind the other, by induction on the first one. Its last operand takes the second
chain in, so the value of the whole follows by associativity. -/
theorem append (h : Chain k t f) (hw : ∀ x ∈ w, Space x) (h' : Chain k u g) :
    ∃ m, Chain k (t ++ w ++ [k.symbol] ++ u) m ∧
      ∀ lookup, m.eval lookup = k.apply (f.eval lookup) (g.eval lookup) := by
  induction h with
  | operand h => exact ⟨_, .link h hw h', k.eval_join _ g⟩
  | @link s v t f f' h hv _ ih =>
    obtain ⟨m, hm, hval⟩ := ih
    refine ⟨k.join f m, ?_, fun lookup => ?_⟩
    · simpa using Chain.link h hv hm
    · rw [k.eval_join, k.eval_join, hval, k.apply_assoc]

end Chain

theorem Formula.eval_negate (n : Nat) (f : Formula) (lookup : String → Option Bool) :
    (f.negate n).eval lookup = not^[n] (f.eval lookup) := by
  induction n with
  | zero => rfl
  | succ n ih => rw [negate_succ, Function.iterate_succ_apply', ← ih, eval]

namespace Grammar

variable {k : Connective} {t u w v : List Char} {f g : Formula}

theorem derives_expression_iff : Derives .expression t f ↔
    ∃ s w, t = s ++ w ∧ (∀ x ∈ w, Space x) ∧ Derives .disjunction s f := by
  constructor
  · rintro (⟨h, hw⟩)
    exact ⟨_, _, rfl, hw, h⟩
  · rintro ⟨s, w, rfl, hw, h⟩
    exact .expression h hw

theorem derives_disjunction_of_chain (h : Derives k.chain t f) : Derives .disjunction t f := by
  cases k with
  | and => exact .disjunction h
  | or => exact h

/-- A negation is a chain of one operand. -/
theorem derives_chain_of_negation (k : Connective) (h : Derives .negation t f) :
    Derives k.chain t f := by
  cases k with
  | and => exact .conjunction h
  | or => exact .disjunction (.conjunction h)

/-- Parentheses make an operand of any operator of an expression. -/
theorem derives_parens (h : Derives .expression t f) :
    Derives .negation (['('] ++ t ++ [')']) f := by
  simpa using Derives.negation (.parens (w := []) (v := []) (by simp) h (by simp))

theorem derives_chain_append (hf : Derives k.chain t f) (hw : ∀ x ∈ w, Space x)
    (hg : Derives k.chain u g) : ∃ m, Derives k.chain (t ++ w ++ [k.symbol] ++ u) m ∧
      ∀ lookup, m.eval lookup = k.apply (f.eval lookup) (g.eval lookup) := by
  obtain ⟨m, hm, hval⟩ := (Chain.of_derives hf).append hw (Chain.of_derives hg)
  exact ⟨m, hm.derives, hval⟩

/-- Two expressions with the sign of the disjunction between them. The spaces at the end of the
first one come to stand in front of the sign. -/
theorem derives_expression_append (hf : Derives .expression t f) (hg : Derives .expression u g) :
    ∃ m, Derives .expression (t ++ ['|'] ++ u) m ∧
      ∀ lookup, m.eval lookup = (f.eval lookup || g.eval lookup) := by
  obtain ⟨t, w, rfl, hw, ht⟩ := derives_expression_iff.1 hf
  obtain ⟨u, v, rfl, hv, hu⟩ := derives_expression_iff.1 hg
  obtain ⟨m, hm, hval⟩ := derives_chain_append (k := .or) ht hw hu
  refine ⟨m, ?_, hval⟩
  rw [← List.append_assoc]
  exact .expression hm hv

theorem derives_conj_parens (hf : Derives .expression t f) (hg : Derives .expression u g) :
    Derives .expression (['('] ++ t ++ [')', '&', '('] ++ u ++ [')']) (.conj f g) := by
  have h := Derives.and (w := []) (derives_parens hf) (by simp) (.conjunction (derives_parens hg))
  simpa using h.disjunction.of_disjunction

theorem derives_negate (n : Nat) (h : Derives .negation t f) :
    Derives .negation (List.replicate n '!' ++ t) (f.negate n) := by
  induction n with
  | zero => exact h
  | succ n ih =>
    rw [Formula.negate_succ]
    exact .not (w := []) (by simp) ih

theorem derives_negate_parens (n : Nat) (h : Derives .expression t f) :
    Derives .expression (List.replicate n '!' ++ (['('] ++ t ++ [')'])) (f.negate n) := by
  have hn := derives_negate n (derives_parens h)
  exact hn.conjunction.disjunction.of_disjunction

end Grammar

/-- The rule reads the whole text, as a formula with this value. -/
def Rule.Means (r : Rule) (text : String) (value : (String → Option Bool) → Bool) : Prop :=
  ∃ f, Id.run (parse r.parser text) = .ok f ∧ ∀ lookup, f.eval lookup = value lookup

/-- `Grouped k fs text`: the text is the chain of the operands `fs`, in this order, with
parentheses around any parts of the chain. -/
inductive Grouped (k : Connective) : List Formula → String → Prop
  | operand {text : String} {f : Formula} : Id.run (parse k.chain.parser text) = .ok f →
    Grouped k [f] text
  | join {fs gs : List Formula} {t w u : String} : Grouped k fs t → (∀ x ∈ w.toList, Space x) →
    Grouped k gs u → Grouped k (fs ++ gs) (t ++ w ++ String.singleton k.symbol ++ u)
  | parens {fs : List Formula} {w t v : String} : (∀ x ∈ w.toList, Space x) → Grouped k fs t →
    (∀ x ∈ v.toList, Space x) → Grouped k fs (w ++ "(" ++ t ++ v ++ ")")

namespace Grammar

/-- The value of a chain is that of its operands, however they are grouped. -/
theorem exists_derives_grouped {k : Connective} {fs : List Formula} {text : String}
    (h : Grouped k fs text) : ∃ m, Derives k.chain text.toList m ∧
      ∀ lookup, m.eval lookup = k.combine (fs.map (·.eval lookup)) := by
  induction h with
  | operand h => exact ⟨_, run_parse_rule_eq_ok_iff.1 h, by simp⟩
  | join _ hw _ ih₁ ih₂ =>
    obtain ⟨f, hf, hfval⟩ := ih₁
    obtain ⟨g, hg, hgval⟩ := ih₂
    obtain ⟨m, hm, hval⟩ := derives_chain_append hf hw hg
    refine ⟨m, by simpa using hm, fun lookup => ?_⟩
    rw [hval, hfval, hgval, List.map_append, k.combine_append]
  | parens hw _ hv ih =>
    obtain ⟨f, hf, hval⟩ := ih
    have hp := Derives.parens hw (derives_disjunction_of_chain hf).of_disjunction hv
    exact ⟨f, by simpa using derives_chain_of_negation k hp.negation, hval⟩

theorem ofString_eq_ok_iff {text : String} {f : Formula} :
    Formula.ofString text = .ok f ↔ Derives .expression text.toList f := run_parse_rule_eq_ok_iff

theorem exists_ofString_grouped {k : Connective} {fs : List Formula} {text w : String}
    (h : Grouped k fs text) (hw : ∀ x ∈ w.toList, Space x) :
    ∃ m, Formula.ofString (text ++ w) = .ok m ∧
      ∀ lookup, m.eval lookup = k.combine (fs.map (·.eval lookup)) := by
  obtain ⟨m, hm, hval⟩ := exists_derives_grouped h
  refine ⟨m, ofString_eq_ok_iff.2 ?_, hval⟩
  rw [String.toList_append]
  exact .expression (derives_disjunction_of_chain hm) hw

/-- Three operands may be grouped into different trees. -/
theorem exists_grouped_ne (k : Connective) : ∃ fs t u f g, Grouped k fs t ∧ Grouped k fs u ∧
    Formula.ofString t = .ok f ∧ Formula.ofString u = .ok g ∧ f ≠ g := by
  have pair {fs gs : List Formula} {t u : String} (ht : Grouped k fs t) (hu : Grouped k gs u) :=
    Grouped.join (w := "") ht (by simp) hu
  have parens {fs : List Formula} {t : String} (ht : Grouped k fs t) :=
    Grouped.parens (w := "") (v := "") (by simp) ht (by simp)
  have ha : Grouped k [.var "a"] "a" := .operand (by cases k <;> rfl)
  have hb : Grouped k [.var "b"] "b" := .operand (by cases k <;> rfl)
  have hc : Grouped k [.var "c"] "c" := .operand (by cases k <;> rfl)
  have ht : Grouped k [.var "a", .var "b", .var "c"] _ := pair (parens (pair ha hb)) hc
  have hu : Grouped k [.var "a", .var "b", .var "c"] _ := pair ha (parens (pair hb hc))
  refine ⟨_, _, _, k.join (k.join (.var "a") (.var "b")) (.var "c"),
    k.join (.var "a") (k.join (.var "b") (.var "c")), ht, hu, ?_, ?_, ?_⟩
  · cases k <;> rfl
  · cases k <;> rfl
  · cases k <;> decide

/-- The value of composed texts. It is that of the parts, whatever their trees are: of two
expressions with a disjunction sign between them, without any parentheses; of two in parentheses
with a conjunction sign between them; of one in parentheses behind any number of marks; of two
conjunctions with the sign between them. Hence parentheses within a chain of one operator may
change the tree, but never the value. -/
theorem eval_composed_text :
    (∀ (e₁ e₂ : String) (f₁ f₂ : Formula), Formula.ofString e₁ = .ok f₁ →
      Formula.ofString e₂ = .ok f₂ →
        Rule.expression.Means (e₁ ++ "|" ++ e₂)
          (fun lookup => f₁.eval lookup || f₂.eval lookup) ∧
        Rule.expression.Means ("(" ++ e₁ ++ ")&(" ++ e₂ ++ ")")
          (fun lookup => f₁.eval lookup && f₂.eval lookup)) ∧
    (∀ (e : String) (f : Formula) (n : Nat), Formula.ofString e = .ok f →
      Rule.expression.Means (String.ofList (List.replicate n '!') ++ "(" ++ e ++ ")")
        fun lookup => not^[n] (f.eval lookup)) ∧
    (∀ (e₁ e₂ : String) (f₁ f₂ : Formula), Id.run (parse Rule.conjunction.parser e₁) = .ok f₁ →
      Id.run (parse Rule.conjunction.parser e₂) = .ok f₂ →
        Rule.conjunction.Means (e₁ ++ "&" ++ e₂)
          fun lookup => f₁.eval lookup && f₂.eval lookup) ∧
    (∀ (k : Connective) (fs : List Formula) (t u w v : String), Grouped k fs t → Grouped k fs u →
      (∀ x ∈ w.toList, Space x) → (∀ x ∈ v.toList, Space x) →
        ∃ f g, Formula.ofString (t ++ w) = .ok f ∧ Formula.ofString (u ++ v) = .ok g ∧
          ∀ lookup, f.eval lookup = g.eval lookup) ∧
    ∀ k : Connective, ∃ fs t u f g, Grouped k fs t ∧ Grouped k fs u ∧
      Formula.ofString t = .ok f ∧ Formula.ofString u = .ok g ∧ f ≠ g := by
  refine ⟨fun e₁ e₂ f₁ f₂ h₁ h₂ => ⟨?_, ?_⟩, fun e f n h => ?_, fun e₁ e₂ f₁ f₂ h₁ h₂ => ?_,
    fun k fs t u w v ht hu hw hv => ?_, exists_grouped_ne⟩
  · obtain ⟨m, hm, hval⟩ :=
      derives_expression_append (ofString_eq_ok_iff.1 h₁) (ofString_eq_ok_iff.1 h₂)
    exact ⟨m, run_parse_of_derives (by simpa using hm), hval⟩
  · have h := derives_conj_parens (ofString_eq_ok_iff.1 h₁) (ofString_eq_ok_iff.1 h₂)
    exact ⟨_, run_parse_of_derives (by simpa using h), fun _ => rfl⟩
  · have h := derives_negate_parens n (ofString_eq_ok_iff.1 h)
    exact ⟨_, run_parse_of_derives (by simpa using h), f.eval_negate n⟩
  · obtain ⟨m, hm, hval⟩ := derives_chain_append (k := .and) (w := [])
      (run_parse_rule_eq_ok_iff.1 h₁) (by simp) (run_parse_rule_eq_ok_iff.1 h₂)
    have hm : Derives .conjunction (e₁.toList ++ [] ++ ['&'] ++ e₂.toList) m := hm
    exact ⟨m, run_parse_of_derives (by simpa using hm), hval⟩
  · obtain ⟨f, hf, hfval⟩ := exists_ofString_grouped ht hw
    obtain ⟨g, hg, hgval⟩ := exists_ofString_grouped hu hv
    exact ⟨f, g, hf, hg, fun lookup => (hfval lookup).trans (hgval lookup).symm⟩

/-- The second expression goes on with the chain of the first one, whose tree is left behind. -/
theorem eval_composed_text_chain :
    let f : Formula := .disj (.var "a") (.disj (.var "b") (.var "c"))
    let g : Formula := .conj (.var "d") (.neg (.var "e"))
    Formula.ofString "a | b|c " = .ok f ∧ Formula.ofString "d& !e" = .ok g ∧
      Rule.expression.Means "a | b|c |d& !e" (fun lookup => f.eval lookup || g.eval lookup) ∧
      Formula.ofString "a | b|c |d& !e" ≠ .ok (.disj f g) := by
  intro f g
  have hf : Formula.ofString "a | b|c " = .ok f := rfl
  have hg : Formula.ofString "d& !e" = .ok g := rfl
  have hread : Formula.ofString "a | b|c |d& !e" =
      .ok (.disj (.var "a") (.disj (.var "b") (.disj (.var "c") g))) := rfl
  refine ⟨hf, hg, (eval_composed_text.1 _ _ f g hf hg).1, fun h => ?_⟩
  exact absurd (Except.ok.inj (hread.symm.trans h)) (by decide)

end Grammar

end BoolFormula
