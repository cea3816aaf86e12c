import BoolFormula.Proofs.Formula.Language

/-! Writing a formula, then reading it. A formula may be written in many ways, with any spaces in
front of a symbol or a name and any number of parentheses around a part, as long as there are some
where the operators would otherwise be taken together differently. All of these texts are read as
that formula. What a rule finds has names of the right form, so it may be written again in any of
these ways. -/

namespace BoolFormula

/-- `[a-zA-Z_][a-zA-Z0-9_]*` -/
def IsIdentifier (name : String) : Prop :=
  ∃ x xs, name.toList = x :: xs ∧ Letter x ∧ ∀ y ∈ xs, WordChar y

namespace Formula

/-- All variables have identifiers for names. -/
def WellNamed : Formula → Prop
  | var name => IsIdentifier name
  | neg inner => inner.WellNamed
  | conj lhs rhs => lhs.WellNamed ∧ rhs.WellNamed
  | disj lhs rhs => lhs.WellNamed ∧ rhs.WellNamed

def isBinary : Formula → Bool
  | conj _ _ => true
  | disj _ _ => true
  | _ => false

def isDisj : Formula → Bool
  | disj _ _ => true
  | _ => false

/-- `Written f n t`: the text `t` is the formula `f` in `n` pairs of parentheses. An operand stands
in parentheses where its operator would otherwise be taken with another operand: a conjunction binds
tighter than a disjunction and a negation tighter than both, and chains group to the right. -/
inductive Written : Formula → Nat → List Char → Prop
  | var {w : List Char} {name : String} : (∀ x ∈ w, Space x) →
    Written (.var name) 0 (w ++ name.toList)
  | neg {w t : List Char} {f : Formula} {n : Nat} : (∀ x ∈ w, Space x) → Written f n t →
    (f.isBinary → 0 < n) → Written (.neg f) 0 (w ++ ['!'] ++ t)
  | conj {t w u : List Char} {f g : Formula} {n k : Nat} : Written f n t → (∀ x ∈ w, Space x) →
    Written g k u → (f.isBinary → 0 < n) → (g.isDisj → 0 < k) →
      Written (.conj f g) 0 (t ++ w ++ ['&'] ++ u)
  | disj {t w u : List Char} {f g : Formula} {n k : Nat} : Written f n t → (∀ x ∈ w, Space x) →
    Written g k u → (f.isDisj → 0 < n) → Written (.disj f g) 0 (t ++ w ++ ['|'] ++ u)
  | parens {w t v : List Char} {f : Formula} {n : Nat} : (∀ x ∈ w, Space x) → Written f n t →
    (∀ x ∈ v, Space x) → Written f (n + 1) (w ++ ['('] ++ t ++ v ++ [')'])

/-- The text is a written form of the formula, with any spaces at its end. -/
def WrittenAs (f : Formula) (text : String) : Prop :=
  ∃ n t w, Written f n t ∧ (∀ x ∈ w, Space x) ∧ text.toList = t ++ w

theorem written_parens {f : Formula} {n : Nat} {t : List Char} (h : Written f n t) :
    Written f (n + 1) (['('] ++ t ++ [')']) := by
  simpa using Written.parens (w := []) (v := []) (by simp) h (by simp)

/-- Every formula can be written, with parentheses around each of its parts. -/
theorem exists_written (f : Formula) : ∃ t, Written f 1 t := by
  suffices ∃ t, Written f 0 t by
    obtain ⟨t, ht⟩ := this
    exact ⟨_, written_parens ht⟩
  induction f with
  | var name => exact ⟨_, .var (w := []) (by simp)⟩
  | neg inner ih =>
    obtain ⟨t, ht⟩ := ih
    exact ⟨_, .neg (w := []) (by simp) (written_parens ht) fun _ => Nat.one_pos⟩
  | conj lhs rhs ihl ihr =>
    obtain ⟨t, ht⟩ := ihl
    obtain ⟨u, hu⟩ := ihr
    exact ⟨_, .conj (w := []) (written_parens ht) (by simp) (written_parens hu)
      (fun _ => Nat.one_pos) fun _ => Nat.one_pos⟩
  | disj lhs rhs ihl ihr =>
    obtain ⟨t, ht⟩ := ihl
    obtain ⟨u, hu⟩ := ihr
    exact ⟨_, .disj (w := []) (written_parens ht) (by simp) (written_parens hu)
      fun _ => Nat.one_pos⟩

end Formula

namespace Grammar

open Formula (Written WrittenAs written_parens)

variable {r : Rule} {f : Formula} {n : Nat} {t : List Char}

/-- The rules that derive the text `t` of the formula `f` in `n` pairs of parentheses. -/
structure Fits (f : Formula) (n : Nat) (t : List Char) : Prop where
  disjunction : Derives .disjunction t f
  conjunction : (f.isDisj → 0 < n) → Derives .conjunction t f
  negation : (f.isBinary → 0 < n) → Derives .negation t f

theorem Fits.of_negation (h : Derives .negation t f) : Fits f n t :=
  ⟨.disjunction (.conjunction h), fun _ => .conjunction h, fun _ => h⟩

theorem fits_of_written (h : Written f n t) (hf : f.WellNamed) : Fits f n t := by
  induction h with
  | @var w name hw =>
    obtain ⟨x, xs, hname, hx, hxs⟩ := hf
    have hv := Derives.var hw hx hxs
    rw [← hname, String.ofList_toList] at hv
    exact .of_negation (.negation (.atom hv))
  | neg hw _ hn ih => exact .of_negation (.not hw ((ih hf).negation hn))
  | conj _ hw _ hn hk ihl ihr =>
    have hc := Derives.and ((ihl hf.1).negation hn) hw ((ihr hf.2).conjunction hk)
    exact ⟨.disjunction hc, fun _ => hc, fun h => absurd (h rfl) (Nat.lt_irrefl 0)⟩
  | disj _ hw _ hn ihl ihr =>
    have hd := Derives.or ((ihl hf.1).conjunction hn) hw (ihr hf.2).disjunction
    exact ⟨hd, fun h => absurd (h rfl) (Nat.lt_irrefl 0), fun h => absurd (h rfl) (Nat.lt_irrefl 0)⟩
  | parens hw _ hv ih =>
    exact .of_negation (.negation (.parens hw (ih hf).disjunction.of_disjunction hv))

/-- A written form is an expression. -/
theorem derives_of_writtenAs {text : String} (hf : f.WellNamed) (h : f.WrittenAs text) :
    Derives .expression text.toList f := by
  obtain ⟨n, t, w, ht, hw, htext⟩ := h
  rw [htext]
  exact .expression (fits_of_written ht hf).disjunction hw

/-- What is derived has identifiers for names. -/
theorem wellNamed_of_derives (h : Derives r t f) : f.WellNamed := by
  induction h with
  | var _ hx hxs => exact ⟨_, _, String.toList_ofList, hx, hxs⟩
  | or _ _ _ ihl ihr => exact ⟨ihl, ihr⟩
  | and _ _ _ ihl ihr => exact ⟨ihl, ihr⟩
  | not _ _ ih => exact ih
  | parens _ _ _ ih => exact ih
  | expression _ _ ih => exact ih
  | disjunction _ ih => exact ih
  | conjunction _ ih => exact ih
  | negation _ ih => exact ih
  | atom _ ih => exact ih

/-- Writing a formula and reading the text again gives the formula back, in whatever way it is
written. All names that are ever read are identifiers, so a formula that has been read may be
written anew in any of these ways, of which there is always one. -/
theorem read_writtenAs :
    (∀ (f : Formula) (text : String), f.WellNamed → f.WrittenAs text → ∃ d,
      Parser.run Rule.expression.parser (.ofString text) = .success f d ∧ d.atEnd = true) ∧
    (∀ (r : Rule) (c : Cursor) (f : Formula) (d : Cursor),
      Parser.run r.parser c = .success f d → f.WellNamed) ∧
    (∀ (text : String) (f : Formula), Formula.ofString text = .ok f →
      ∀ text' : String, f.WrittenAs text' → Formula.ofString text' = .ok f) ∧
    ∀ f : Formula, ∃ text : String, f.WrittenAs text := by
  refine ⟨fun f text hf h => ?_, fun r c f d h => ?_, fun text f h text' h' => ?_, fun f => ?_⟩
  · have hparse := run_parse_of_derives (derives_of_writtenAs hf h)
    obtain ⟨d, hd, hend⟩ := (run_parse_eq_ok_iff (upholds_rule _)).1 hparse
    exact ⟨d, Parser.read?_eq_some_iff.1 hd, Cursor.atEnd_iff.2 hend⟩
  · obtain ⟨t, -, ht⟩ := exists_derives (Parser.read?_eq_some_iff.2 h)
    exact wellNamed_of_derives ht
  · have hf := wellNamed_of_derives (run_parse_rule_eq_ok_iff.1 h)
    exact run_parse_of_derives (derives_of_writtenAs hf h')
  · obtain ⟨t, ht⟩ := f.exists_written
    exact ⟨String.ofList t, 1, t, [], ht, by simp, by simp⟩

/-- One pair of parentheses too many. -/
theorem read_writtenAs_redundant :
    let f : Formula := .conj (.disj (.var "a") (.var "b_1")) (.neg (.var "c"))
    f.WellNamed ∧ f.WrittenAs "((a |b_1)) &\t!c\n" ∧
      (∃ d, Parser.run Rule.expression.parser (.ofString "((a |b_1)) &\t!c\n") = .success f d ∧
        d.atEnd = true) ∧
      Formula.ofString "(a|b_1)&!c" = .ok f ∧ Formula.ofString "((a |b_1)) &\t!c\n" = .ok f := by
  intro f
  have hb1 : ∀ y ∈ ['_', '1'], WordChar y :=
    List.forall_mem_cons.2 ⟨by decide, List.forall_mem_singleton.2 (by decide)⟩
  have hf : f.WellNamed :=
    ⟨⟨⟨'a', [], rfl, by decide, by simp⟩, 'b', ['_', '1'], rfl, by decide, hb1⟩,
      'c', [], rfl, by decide, by simp⟩
  have ha : Written (.var "a") 0 ['a'] := .var (w := []) (by simp)
  have hb : Written (.var "b_1") 0 ['b', '_', '1'] := .var (w := []) (by simp)
  have hc : Written (.var "c") 0 ['c'] := .var (w := []) (by simp)
  have hab := Written.disj (w := [' ']) ha (by simp [Space]) hb (by decide)
  have hl := written_parens (written_parens hab)
  have hr := Written.neg (w := ['\t']) (by simp [Space]) hc (by decide)
  have hw : f.WrittenAs "((a |b_1)) &\t!c\n" :=
    ⟨0, _, ['\n'], .conj (w := [' ']) hl (by simp [Space]) hr (by decide) (by decide),
      by simp [Space], rfl⟩
  have hread : Formula.ofString "(a|b_1)&!c" = .ok f := rfl
  exact ⟨hf, hw, read_writtenAs.1 f _ hf hw, hread, read_writtenAs.2.2.1 _ f hread _ hw⟩

end Grammar

end BoolFormula
