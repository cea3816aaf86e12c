import BoolFormula.Proofs.Formula.Rules

/-! Runs on two texts. A rule sees no more of a cursor than the symbol and the word that come next
behind the spaces there. Two cursors that agree on these, and lead to two that agree again, are
therefore not told apart by any rule: it fails at both, or finds one formula at both. -/

namespace BoolFormula

section Related

variable {α β γ δ : Type} {R : α → β → Prop} {S : γ → δ → Prop} {o : Option α} {p : Option β}

/-- Two related answers are both missing or both there. -/
theorem eq_none_or_exists_of_rel (h : Option.Rel R o p) :
    (o = none ∧ p = none) ∨ ∃ a b, o = some a ∧ p = some b ∧ R a b := by
  cases h with
  | some h => exact .inr ⟨_, _, rfl, rfl, h⟩
  | none => exact .inl ⟨rfl, rfl⟩

theorem rel_bind {f : α → Option γ} {g : β → Option δ} (h : Option.Rel R o p)
    (hfg : ∀ a b, o = some a → R a b → Option.Rel S (f a) (g b)) :
    Option.Rel S (o.bind f) (p.bind g) := by
  cases h with
  | some h => exact hfg _ _ rfl h
  | none => exact .none

theorem rel_map {f : α → γ} {g : β → δ} (h : Option.Rel R o p)
    (hfg : ∀ a b, o = some a → R a b → S (f a) (g b)) : Option.Rel S (o.map f) (p.map g) := by
  cases h with
  | some h => exact .some (hfg _ _ rfl h)
  | none => exact .none

theorem rel_or {o' : Option α} {p' : Option β} (h : Option.Rel R o p) (h' : Option.Rel R o' p') :
    Option.Rel R (o.or o') (p.or p') := by
  cases h with
  | some h => exact .some h
  | none => exact h'

end Related

/-- The same formula, with related cursors after it. -/
def Agree (R : Cursor → Cursor → Prop) (p q : Formula × Cursor) : Prop := p.1 = q.1 ∧ R p.2 q.2

/-- Related cursors agree on what comes next, and lead to related ones. -/
structure Bisimulation (R : Cursor → Cursor → Prop) : Prop where
  spaces : ∀ {c d}, R c d → R (c.dropWhile isSpace) (d.dropWhile isSpace)
  symbol : ∀ (x : Char) {c d}, R c d → Option.Rel R (c.symbol? x) (d.symbol? x)
  word : ∀ {c d}, R c d → Option.Rel (Agree R) (Rule.variable.read? c) (Rule.variable.read? d)

namespace Bisimulation

open Grammar

variable {R : Cursor → Cursor → Prop} {c d : Cursor}

theorem agree_extend (join : Formula → Formula → Formula) (f : Formula)
    {o p : Option (Formula × Cursor)} (h : R c d) (ho : Option.Rel (Agree R) o p) :
    Agree R (f.extend join c o) (f.extend join d p) := by
  cases ho with
  | none => exact ⟨rfl, h⟩
  | some hab =>
    obtain ⟨hf, hd⟩ := hab
    exact ⟨congrArg (join f) hf, hd⟩

/-- At related cursors every rule finds the same, and stops at related ones. -/
theorem read? (hR : Bisimulation R) (r : Rule) (h : R c d) :
    Option.Rel (Agree R) (r.read? c) (r.read? d) := by
  induction r, c using Rule.depth_induction generalizing d with
  | step r c lower later =>
    -- An operand stands behind its symbol, so there is less of the text left for it, at `c`.
    -- Nothing is asked of how much is left at `d`: the induction is on the first run only.
    have operand (s : Rule) (x : Char) {b b' : Cursor} (hb : b.left ≤ c.left) (h : R b b') :
        Option.Rel (Agree R) (s.operand? x b) (s.operand? x b') := by
      refine rel_bind (hR.symbol x h) fun a a' ha haa' => later s a ?_ haa'
      exact Nat.lt_of_lt_of_le (Cursor.left_lt_of_symbol? ha) hb
    have chain (s s' : Rule) (x : Char) (join : Formula → Formula → Formula)
        (hs : s.rank < r.rank) : Option.Rel (Agree R)
          ((s.read? c).map fun fb => fb.1.extend join fb.2 (s'.operand? x fb.2))
          ((s.read? d).map fun fb => fb.1.extend join fb.2 (s'.operand? x fb.2)) := by
      refine rel_map (lower s c hs (Nat.le_refl _) h) ?_
      rintro ⟨f, b⟩ ⟨g, b'⟩ hfb ⟨rfl, hb⟩
      exact agree_extend join f hb (operand s' x (left_le hfb) hb)
    cases r with
    | expression =>
      rw [read?_expression, read?_expression]
      refine rel_map (lower _ c (by decide) (Nat.le_refl _) h) ?_
      rintro ⟨f, b⟩ ⟨g, b'⟩ - ⟨hf, hb⟩
      exact ⟨hf, hR.spaces hb⟩
    | disjunction =>
      rw [read?_disjunction, read?_disjunction]
      exact chain _ _ _ _ (by decide)
    | conjunction =>
      rw [read?_conjunction, read?_conjunction]
      exact chain _ _ _ _ (by decide)
    | negation =>
      rw [read?_negation, read?_negation]
      obtain ⟨hc, hd⟩ | ⟨b, b', hc, hd, hb⟩ := eq_none_or_exists_of_rel (hR.symbol '!' h)
      · rw [hc, hd]
        exact lower _ c (by decide) (Nat.le_refl _) h
      · rw [hc, hd]
        refine rel_map (later _ b (Cursor.left_lt_of_symbol? hc) hb) ?_
        rintro ⟨f, e⟩ ⟨g, e'⟩ - ⟨hf, he⟩
        exact ⟨congrArg Formula.neg hf, he⟩
    | atom =>
      rw [read?_atom, read?_atom]
      refine rel_or (lower _ c (by decide) (Nat.le_refl _) h) ?_
      refine rel_bind (hR.symbol '(' h) fun b b' hb hbb' => ?_
      refine rel_bind (later _ b (Cursor.left_lt_of_symbol? hb) hbb') ?_
      rintro ⟨f, e⟩ ⟨g, e'⟩ - ⟨hf, he⟩
      exact rel_map (hR.symbol ')' he) fun a a' _ ha => ⟨hf, ha⟩
    | «variable» => exact hR.word h

end Bisimulation

end BoolFormula
