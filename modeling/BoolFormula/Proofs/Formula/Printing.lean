import BoolFormula.Formula.Printing
import BoolFormula.Proofs.Text.Quoted

/-! Written formulas can be told apart. The constructor form starts with the name of the constructor
and its operands follow it one by one, so by induction on the tree it tells the formula and where it
ends, whatever is written behind it. -/

namespace BoolFormula.Formula

variable {f g : Formula} {s t : List Char}

/-- Is told by its constructor form, together with where that ends. -/
def Readable (f : Formula) : Prop :=
  ∀ {g : Formula} {s t : List Char},
    f.describe.toList ++ s = g.describe.toList ++ t → f = g ∧ s = t

/-- Two operands in parentheses are told if each of them is. -/
theorem Readable.operands {f₁ f₂ g₁ g₂ : Formula} (h₁ : f₁.Readable) (h₂ : f₂.Readable)
    (h : f₁.describe.toList ++ ',' :: ' ' :: (f₂.describe.toList ++ ')' :: s) =
      g₁.describe.toList ++ ',' :: ' ' :: (g₂.describe.toList ++ ')' :: t)) :
    f₁ = g₁ ∧ f₂ = g₂ ∧ s = t := by
  obtain ⟨rfl, hrest⟩ := h₁ h
  obtain ⟨rfl, hend⟩ := h₂ (List.cons.inj (List.cons.inj hrest).2).2
  exact ⟨rfl, rfl, (List.cons.inj hend).2⟩

theorem readable (f : Formula) : f.Readable := by
  induction f with
  | var a =>
    intro g s t h
    cases g with simp at h
    | var b =>
      obtain ⟨rfl, hrest⟩ := Text.quoted_append_inj h
      exact ⟨rfl, (List.cons.inj hrest).2⟩
  | neg f ih =>
    intro g s t h
    cases g with simp at h
    | neg g =>
      obtain ⟨rfl, hrest⟩ := ih h
      exact ⟨rfl, (List.cons.inj hrest).2⟩
  | conj f₁ f₂ ih₁ ih₂ =>
    intro g s t h
    cases g with simp at h
    | conj g₁ g₂ =>
      obtain ⟨rfl, rfl, hst⟩ := ih₁.operands ih₂ h
      exact ⟨rfl, hst⟩
  | disj f₁ f₂ ih₁ ih₂ =>
    intro g s t h
    cases g with simp at h
    | disj g₁ g₂ =>
      obtain ⟨rfl, rfl, hst⟩ := ih₁.operands ih₂ h
      exact ⟨rfl, hst⟩

/-- The constructor form of a formula tells the formula and where it ends. -/
theorem describe_append_inj (h : f.describe.toList ++ s = g.describe.toList ++ t) :
    f = g ∧ s = t := f.readable h

end BoolFormula.Formula
