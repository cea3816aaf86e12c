import BoolFormula.Proofs.Formula.Rendering
import BoolFormula.Proofs.Text.Quoted

/-! The display form is a prefix code. A name is written as it is, and may hold any operator, comma
or parenthesis, but where it has no quote in it, the quote behind it is the first one that follows.
So the display form of a formula tells the formula and where it ends, by induction on the tree: the
first operand ends where its own form does, whatever commas come before. All names that are ever
read are without quotes. -/

namespace BoolFormula

namespace Formula

/-- No name has a quote in it. -/
def Unquoted : Formula → Prop
  | var name => '\x27' ∉ name.toList
  | neg inner => inner.Unquoted
  | conj lhs rhs => lhs.Unquoted ∧ rhs.Unquoted
  | disj lhs rhs => lhs.Unquoted ∧ rhs.Unquoted

variable {f g : Formula} {s t : List Char}

/-- The display form of a formula tells the formula and where it ends. -/
theorem display_append_inj (hf : f.Unquoted) (hg : g.Unquoted)
    (h : f.display.toList ++ s = g.display.toList ++ t) : f = g ∧ s = t := by
  induction f generalizing g s t with
  | var a =>
    -- Formulas of two kinds differ in the first code point of their display forms.
    cases g with simp at h
    | var b =>
      obtain ⟨hab, hst⟩ := Text.append_cons_inj hf hg h
      exact ⟨congrArg var (String.toList_inj.1 hab), hst⟩
  | neg f ih =>
    cases g with simp at h
    | neg g =>
      obtain ⟨rfl, hrest⟩ := ih (g := g) hf hg h
      exact ⟨rfl, (List.cons.inj hrest).2⟩
  | conj f₁ f₂ ih₁ ih₂ =>
    cases g with simp at h
    | conj g₁ g₂ =>
      obtain ⟨rfl, hrest⟩ := ih₁ hf.1 hg.1 h
      obtain ⟨rfl, hend⟩ := ih₂ hf.2 hg.2 (List.cons.inj hrest).2
      exact ⟨rfl, (List.cons.inj hend).2⟩
  | disj f₁ f₂ ih₁ ih₂ =>
    cases g with simp at h
    | disj g₁ g₂ =>
      obtain ⟨rfl, hrest⟩ := ih₁ hf.1 hg.1 h
      obtain ⟨rfl, hend⟩ := ih₂ hf.2 hg.2 (List.cons.inj hrest).2
      exact ⟨rfl, (List.cons.inj hend).2⟩

theorem display_prefix_iff (hf : f.Unquoted) (hg : g.Unquoted) :
    f.display.toList <+: g.display.toList ↔ f = g := by
  refine ⟨fun ⟨s, hs⟩ => ?_, fun h => h ▸ List.prefix_refl _⟩
  rw [← List.append_nil g.display.toList] at hs
  exact (display_append_inj hf hg hs).1

/-- A quote is no part of an identifier. -/
theorem WellNamed.unquoted (h : f.WellNamed) : f.Unquoted := by
  induction f with
  | var name =>
    obtain ⟨x, xs, hname, hx, hxs⟩ := h
    have hquote : ¬ WordChar '\x27' := by decide
    rw [Unquoted, hname, List.mem_cons, not_or]
    exact ⟨fun heq => hquote (heq ▸ .inl hx), fun hmem => hquote (hxs _ hmem)⟩
  | neg inner ih => exact ih h
  | conj lhs rhs ihl ihr | disj lhs rhs ihl ihr => exact ⟨ihl h.1, ihr h.2⟩

end Formula

namespace Grammar

/-- The display form of a formula is no proper start of another one, and different formulas have
different display forms, provided that their names have no quotes in them. The names of what a rule
finds have none. -/
theorem display_prefix_free :
    (∀ f g : Formula, f.Unquoted → g.Unquoted →
      (f.display.toList <+: g.display.toList ↔ f = g) ∧ (f.display = g.display ↔ f = g)) ∧
    ∀ (r : Rule) (c : Cursor) (f : Formula) (d : Cursor),
      Parser.run r.parser c = .success f d → f.Unquoted := by
  refine ⟨fun f g hf hg => ?_, fun r c f d h => ?_⟩
  · have hstart := Formula.display_prefix_iff hf hg
    exact ⟨hstart, fun heq => hstart.1 (heq ▸ List.prefix_refl _), congrArg Formula.display⟩
  · obtain ⟨t, -, ht⟩ := exists_derives (Parser.read?_eq_some_iff.2 h)
    exact (wellNamed_of_derives ht).unquoted

/-- Names with commas and parentheses in them, and a formula that has been read. -/
theorem display_prefix_free_commas :
    let f : Formula := .conj (.var "a") (.var "b),(c")
    let g : Formula := .conj (.var "a,b)") (.var "(c")
    f.Unquoted ∧ g.Unquoted ∧ ¬ f.display.toList <+: g.display.toList ∧ f.display ≠ g.display ∧
      (Formula.neg (.var "x_1")).Unquoted := by
  intro f g
  have hf : f.Unquoted := by simp [f, Formula.Unquoted]
  have hg : g.Unquoted := by simp [g, Formula.Unquoted]
  have hne : f ≠ g := by decide
  have hread : Parser.run Rule.negation.parser (.ofString "!x_1") =
      .success (.neg (.var "x_1")) ((Cursor.ofString "!x_1").skip 4) := rfl
  obtain ⟨hstart, heq⟩ := display_prefix_free.1 f g hf hg
  exact ⟨hf, hg, fun h => hne (hstart.1 h), fun h => hne (heq.1 h),
    display_prefix_free.2 _ _ _ _ hread⟩

end Grammar

end BoolFormula
