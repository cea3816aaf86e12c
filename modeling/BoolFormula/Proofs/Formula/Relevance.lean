import BoolFormula.Proofs.Formula.Enumeration

/-! Which names matter. The variables of a formula are the names on its leaves, and two lookups that
agree on them, where a missing name counts as false, give the formula the same value. So of a lookup
no more is needed than the map of those variables that it makes true. -/

namespace BoolFormula

/-- The map that makes true what `lookup` makes true among the names, and holds nothing else. -/
def trueMap (lookup : String → Option Bool) (names : List String) : Std.TreeMap String Bool :=
  .ofList ((names.filter fun x => lookup x == some true).map fun x => (x, true))

section TrueMap

variable {names : List String} {name : String}
  (h : names.Pairwise fun x y => x.toList < y.toList)
include h

theorem getElem?_trueMap (lookup : String → Option Bool) (name : String) :
    (trueMap lookup names)[name]? =
      if name ∈ names ∧ lookup name = some true then some true else none := by
  have hpairs : ((names.filter fun x => lookup x == some true).map fun x => (x, true)).Pairwise
      fun a b => a.1.toList < b.1.toList := List.pairwise_map.2 (h.filter _)
  have hmem : name ∈ names.filter (fun x => lookup x == some true) ↔
      name ∈ names ∧ lookup name = some true := by
    rw [List.mem_filter, beq_iff_eq]
  rw [trueMap, getElem?_ofList hpairs]
  split
  · next htrue => exact @lookup_map_eq_some (fun _ => true) _ name (hmem.2 htrue)
  · next htrue =>
    rw [List.lookup_eq_none_iff]
    intro pair hpair
    obtain ⟨x, hx, rfl⟩ := List.mem_map.1 hpair
    rw [bne_iff_ne]
    rintro rfl
    exact htrue (hmem.1 hx)

/-- On the names the map tells as much as the lookup. -/
theorem getD_getElem?_trueMap (lookup : String → Option Bool) (hname : name ∈ names) :
    (trueMap lookup names)[name]?.getD false = (lookup name).getD false := by
  rw [getElem?_trueMap h]
  rcases hvalue : lookup name with _ | _ | _ <;> simp [hname]

end TrueMap

namespace Formula

variable {f : Formula} {l m : String → Option Bool}

theorem eval_congr_variables
    (h : ∀ name ∈ f.«variables», (l name).getD false = (m name).getD false) :
    f.eval l = f.eval m :=
  eval_congr fun name hname => h name (mem_variables.2 hname)

/-- The variables are the names on the leaves, in ascending order and each once. No other name makes
a difference to the value, and among the variables a missing one is as good as a false one: so the
value under a lookup is the one under the map of the variables that the lookup makes true. -/
theorem variables_determine_value (f : Formula) :
    (f.«variables».Pairwise fun x y => x.toList < y.toList) ∧
    (∀ name, name ∈ f.«variables» ↔ f.Mentions name) ∧
    (∀ l m : String → Option Bool,
      (∀ name ∈ f.«variables», (l name).getD false = (m name).getD false) → f.eval l = f.eval m) ∧
    ∀ l : String → Option Bool,
      (∀ name, (trueMap l f.«variables»)[name]? =
        if name ∈ f.«variables» ∧ l name = some true then some true else none) ∧
      f.eval l = f.eval fun name => (trueMap l f.«variables»)[name]? := by
  have hsorted := f.pairwise_variables
  refine ⟨hsorted, fun _ => mem_variables, fun _ _ => eval_congr_variables, fun l => ⟨?_, ?_⟩⟩
  · exact getElem?_trueMap hsorted l
  · exact eval_congr_variables fun name hname => (getD_getElem?_trueMap hsorted l hname).symm

/-- One lookup knows a name that does not occur, the other one misses a variable that is false. -/
theorem variables_determine_value_missing :
    let f : Formula := .conj (.neg (.var "b")) (.disj (.var "a") (.var "b"))
    let l : String → Option Bool := fun x => if x = "a" ∨ x = "c" then some true else some false
    let m : String → Option Bool := fun x => if x = "a" then some true else none
    f.«variables» = ["a", "b"] ∧ f.eval l = f.eval m ∧ f.eval m = true := by
  intro f l m
  have hvariables : f.«variables» = ["a", "b"] := by decide +kernel
  refine ⟨hvariables, (variables_determine_value f).2.2.1 l m ?_, rfl⟩
  rw [hvariables]
  decide

end Formula

end BoolFormula
