import BoolFormula.Formula.TruthTable
import BoolFormula.Proofs.Formula.Variables
import Mathlib.Algebra.Ring.Nat

/-! The truth table decides the meaning of a formula. Only the variables of a formula matter for its
value, and its table has a row for each of their assignments, in the order of the binary numbers
that the assignments are. So the value under any lookup stands in the row with the number of the
values that are looked up, and formulas over the same variables have the same table if they have the
same value under every lookup, and only then. -/

namespace BoolFormula

/-- The number with the binary digits `bits`, the first one leading. -/
def ofBits : List Bool → Nat
  | [] => 0
  | b :: bits => b.toNat * 2 ^ bits.length + ofBits bits

theorem ofBits_lt (bits : List Bool) : ofBits bits < 2 ^ bits.length := by
  induction bits with
  | nil => exact Nat.one_pos
  | cons b bits ih =>
    rw [ofBits, List.length_cons, Nat.pow_succ]
    cases b <;> simp <;> omega

theorem length_assignments (names : List String) :
    (assignments names).length = 2 ^ names.length := by
  induction names with
  | nil => rfl
  | cons x names ih =>
    simp only [assignments, List.length_append, List.length_map, ih, List.length_cons, Nat.pow_succ]
    omega

/-- The assignment of the values stands at the number that they are. -/
theorem getElem?_assignments (value : String → Bool) (names : List String) :
    (assignments names)[ofBits (names.map value)]? = some (names.map fun x => (x, value x)) := by
  induction names with
  | nil => rfl
  | cons x names ih =>
    have hlt := ofBits_lt (names.map value)
    rw [List.length_map] at hlt
    simp only [assignments, List.map_cons, ofBits, List.length_map]
    cases value x with
    | false =>
      rw [List.getElem?_append_left (by simpa [length_assignments] using hlt)]
      simp [ih]
    | true =>
      rw [List.getElem?_append_right (by simp [length_assignments])]
      simp [length_assignments, ih]

theorem lookup_map_eq_some {value : String → Bool} {names : List String} {x : String}
    (h : x ∈ names) : (names.map fun y => (y, value y)).lookup x = some (value x) := by
  induction names with
  | nil => cases h
  | cons y names ih =>
    rw [List.map_cons, List.lookup_cons]
    by_cases hxy : x = y
    · simp [hxy]
    · have hb : (x == y) = false := beq_false_of_ne hxy
      rw [hb]
      exact ih ((List.mem_cons.1 h).resolve_left hxy)

/-- The number of the values that `lookup` has for the names, where a missing one counts as
false. -/
def rowNumber (lookup : String → Option Bool) (names : List String) : Nat :=
  ofBits (names.map fun x => (lookup x).getD false)

namespace Formula

theorem truthTable_eq_some {f : Formula} (h : f.«variables».length ≤ maxTableVariables) :
    f.truthTable = some ((assignments f.«variables»).map f.row) := if_pos h

/-- The row with the number of the values that are looked up has the value under the lookup. -/
theorem exists_row (f : Formula) (lookup : String → Option Bool) : ∃ row,
    ((assignments f.«variables»).map f.row)[rowNumber lookup f.«variables»]? = some row ∧
      row.value = f.eval lookup := by
  refine ⟨f.row (f.«variables».map fun x => (x, (lookup x).getD false)), ?_, ?_⟩
  · rw [List.getElem?_map, rowNumber, getElem?_assignments, Option.map_some]
  · refine eval_congr fun x hx => ?_
    rw [lookup_map_eq_some (mem_variables.2 hx), Option.getD_some]

theorem truthTable_eq_iff {f g : Formula} (hv : f.«variables» = g.«variables»)
    (h : f.«variables».length ≤ maxTableVariables) :
    f.truthTable = g.truthTable ↔ ∀ lookup, f.eval lookup = g.eval lookup := by
  rw [truthTable_eq_some h, truthTable_eq_some (hv ▸ h), Option.some.injEq, ← hv]
  constructor
  · intro heq lookup
    obtain ⟨row, hrow, hval⟩ := f.exists_row lookup
    obtain ⟨row', hrow', hval'⟩ := g.exists_row lookup
    rw [← hv, ← heq, hrow] at hrow'
    cases hrow'
    exact hval.symm.trans hval'
  · intro heq
    have hrow : f.row = g.row := by
      funext a
      rw [row, row, heq]
    rw [hrow]

/-- The truth table of a formula with few enough variables holds its value under every lookup, of
whatever names, in the row whose number is made of the values of the variables. So two formulas
over the same variables have the same table if and only if they have the same value under every
lookup. -/
theorem truthTable_eval :
    (∀ (f : Formula) (lookup : String → Option Bool),
      f.«variables».length ≤ maxTableVariables → ∃ rows row, f.truthTable = some rows ∧
        rows[rowNumber lookup f.«variables»]? = some row ∧ row.value = f.eval lookup) ∧
    ∀ f g : Formula, f.«variables» = g.«variables» →
      f.«variables».length ≤ maxTableVariables →
        (f.truthTable = g.truthTable ↔ ∀ lookup, f.eval lookup = g.eval lookup) := by
  refine ⟨fun f lookup h => ?_, fun f g hv h => truthTable_eq_iff hv h⟩
  obtain ⟨row, hrow, hval⟩ := f.exists_row lookup
  exact ⟨_, row, truthTable_eq_some h, hrow, hval⟩

/-- A lookup that knows only the first of two variables, and another name. -/
theorem truthTable_eval_missing :
    let f : Formula := .disj (.var "b") (.conj (.var "a") (.neg (.var "b")))
    let g : Formula := .disj (.var "a") (.var "b")
    let lookup : String → Option Bool := fun x => if x = "b" then none else some true
    f.«variables» = ["a", "b"] ∧ f.«variables» = g.«variables» ∧ rowNumber lookup ["a", "b"] = 2 ∧
      (∃ rows row, f.truthTable = some rows ∧ rows[2]? = some row ∧ row.value = f.eval lookup) ∧
      (f.truthTable = g.truthTable ↔ ∀ lookup, f.eval lookup = g.eval lookup) := by
  intro f g lookup
  have hf : f.«variables» = ["a", "b"] := by decide +kernel
  have hg : g.«variables» = ["a", "b"] := by decide +kernel
  have hfg : f.«variables» = g.«variables» := hf.trans hg.symm
  have hle : f.«variables».length ≤ maxTableVariables := by rw [hf]; decide
  have hrow := truthTable_eval.1 f lookup hle
  rw [hf] at hrow
  exact ⟨hf, hfg, rfl, hrow, truthTable_eval.2 f g hfg hle⟩

end Formula

end BoolFormula
