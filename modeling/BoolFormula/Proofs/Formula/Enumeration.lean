import BoolFormula.Proofs.Formula.TruthTable
import Mathlib.Data.List.Sort
import Std.Data.TreeMap.Lemmas

/-! The rows of a truth table are counted in binary. The row with the number `n` gives each variable
a digit of `n`, the last variable the lowest one, so every assignment has one row and the rows
ascend. The same table comes from counting in machine words and collecting each row in an ordered
map, as long as every shift of a word is checked: with as few variables as a table may have, no
amount is below zero and none reaches the width of the word. -/

namespace BoolFormula

/-! ### Numbers of rows -/

/-- The assignment with the number `n`: each name has a digit of it, the last one the lowest. -/
def numbered (names : List String) (n : Nat) : List (String × Bool) :=
  names.mapIdx fun j x => (x, n.testBit (names.length - 1 - j))

variable {names : List String} {n : Nat}

theorem numbered_cons (x : String) (names : List String) (n : Nat) :
    numbered (x :: names) n = (x, n.testBit names.length) :: numbered names n := by
  simp only [numbered, List.mapIdx_cons, List.length_cons, Nat.add_sub_cancel, Nat.sub_zero,
    Nat.sub_sub, Nat.add_comm 1]

/-- A digit in front of those of the names does not matter for them. -/
theorem numbered_two_pow_add {k : Nat} (h : names.length ≤ k) (n : Nat) :
    numbered names (2 ^ k + n) = numbered names n := by
  induction names with
  | nil => rfl
  | cons x names ih =>
    rw [List.length_cons] at h
    rw [numbered_cons, numbered_cons, ih (by omega), Nat.testBit_two_pow_add_gt (by omega)]

/-- The assignments are counted up from zero, by induction on the names: the first name is false in
the lower half of the numbers and true in the upper one. -/
theorem assignments_eq (names : List String) :
    assignments names = (List.range (2 ^ names.length)).map (numbered names) := by
  induction names with
  | nil => rfl
  | cons x names ih =>
    have hlower : ∀ n ∈ List.range (2 ^ names.length),
        (x, false) :: numbered names n = numbered (x :: names) n := by
      intro n hn
      rw [numbered_cons, Nat.testBit_lt_two_pow (List.mem_range.1 hn)]
    have hupper : ∀ n ∈ List.range (2 ^ names.length),
        (x, true) :: numbered names n = numbered (x :: names) (2 ^ names.length + n) := by
      intro n hn
      rw [numbered_cons, Nat.testBit_two_pow_add_eq, Nat.testBit_lt_two_pow (List.mem_range.1 hn),
        numbered_two_pow_add (Nat.le_refl _)]
      rfl
    rw [assignments, ih, List.length_cons, Nat.pow_succ, Nat.mul_two, List.range_add,
      List.map_append, List.map_map, List.map_map, List.map_map]
    exact congrArg₂ _ (List.map_congr_left hlower) (List.map_congr_left hupper)

/-- The values ascend, the first one compared first and false before true. -/
theorem pairwise_assignments (names : List String) :
    (assignments names).Pairwise fun a b => a.map Prod.snd < b.map Prod.snd := by
  induction names with
  | nil => exact List.pairwise_singleton _ _
  | cons x names ih =>
    rw [assignments, List.pairwise_append, List.pairwise_map, List.pairwise_map]
    refine ⟨ih.imp List.Lex.cons, ih.imp List.Lex.cons, fun a ha b hb => ?_⟩
    obtain ⟨a, -, rfl⟩ := List.mem_map.1 ha
    obtain ⟨b, -, rfl⟩ := List.mem_map.1 hb
    exact List.Lex.rel rfl

theorem nodup_assignments (names : List String) : (assignments names).Nodup := by
  refine (pairwise_assignments names).imp fun {a b} h heq => ?_
  rw [heq] at h
  exact List.lt_irrefl _ h

/-- Every assignment of the names is there, and only once. -/
theorem count_assignments (names : List String) (value : String → Bool) :
    (assignments names).count (names.map fun x => (x, value x)) = 1 :=
  List.count_eq_one_of_mem (nodup_assignments names)
    (List.mem_of_getElem? (getElem?_assignments value names))

/-! ### Counting in machine words -/

/-- Why a table is not counted out. -/
inductive CountError
  | tooManyVariables
  /-- The number of rows is out of the range of a shift. -/
  | tooManyRows
  /-- A word is shifted by an amount below zero. -/
  | negativeShift
  /-- A word is shifted by its width or more. -/
  | excessiveShift
deriving DecidableEq, Repr

/-- The word `x` shifted to the left, unless the amount reaches the width of a word. -/
def shiftLeft? (x : UInt32) (amount : Nat) : Option UInt32 :=
  if amount < 32 then some (x <<< UInt32.ofNat amount) else none

/-- The lowest digit of the word `x` shifted to the right. -/
def digitAfter (x : UInt32) (amount : Int) : Except CountError Bool :=
  if amount < 0 then .error .negativeShift
  else if 32 ≤ amount then .error .excessiveShift
  else .ok ((x >>> UInt32.ofNat amount.toNat) &&& 1 == 1)

/-- The digits of the word `x` for the names, the last name having the lowest digit. -/
def digitsOf (names : List String) (x : UInt32) : Except CountError (List (String × Bool)) :=
  names.zipIdx.mapM fun (name, j) =>
    (digitAfter x ((names.length : Int) - 1 - j)).map fun value => (name, value)

/-- The row for the digits of the word `x`, collected in a map with ascending keys. -/
def countedRow (f : Formula) (names : List String) (x : UInt32) : Except CountError TruthRow := do
  let digits ← digitsOf names x
  let assignment := Std.TreeMap.ofList digits
  pure ⟨assignment.toList, f.eval fun name => assignment[name]?⟩

/-- The truth table, with all shifts checked. -/
def countedTable (f : Formula) : Except CountError (List TruthRow) :=
  let names := f.«variables»
  if maxTableVariables < names.length then .error .tooManyVariables
  else match shiftLeft? 1 names.length with
    | none => .error .tooManyRows
    | some count => (List.range count.toNat).mapM fun n => countedRow f names (UInt32.ofNat n)

theorem mapM_eq_ok {α β ε : Type} {g : α → Except ε β} {h : α → β} {xs : List α}
    (hg : ∀ x ∈ xs, g x = .ok (h x)) : xs.mapM g = .ok (xs.map h) := by
  induction xs with
  | nil => rfl
  | cons x xs ih =>
    rw [List.forall_mem_cons] at hg
    rw [List.mapM_cons, hg.1, ih hg.2]
    rfl

theorem shiftLeft?_one {k : Nat} (h : k < 32) :
    ∃ x, shiftLeft? 1 k = some x ∧ x.toNat = 2 ^ k := by
  refine ⟨_, if_pos h, ?_⟩
  have hpow : 2 ^ k < 2 ^ 32 := Nat.pow_lt_pow_right (by decide) h
  have hk : (UInt32.ofNat k).toNat = k := UInt32.toNat_ofNat_of_lt' (Nat.lt_trans h (by decide))
  rw [UInt32.toNat_shiftLeft, hk, Nat.mod_eq_of_lt h, Nat.shiftLeft_eq, UInt32.toNat_one,
    Nat.one_mul, Nat.mod_eq_of_lt hpow]

/-- A shift by a place of the word leaves the digit at that place. -/
theorem digitAfter_eq_ok {i : Nat} (hn : n < 2 ^ 32) (hi : i < 32) :
    digitAfter (UInt32.ofNat n) i = .ok (n.testBit i) := by
  have hword : (UInt32.ofNat n).toNat = n := UInt32.toNat_ofNat_of_lt' hn
  have hamount : (UInt32.ofNat i).toNat = i :=
    UInt32.toNat_ofNat_of_lt' (Nat.lt_trans hi (by decide))
  have hdigit : (UInt32.ofNat n >>> UInt32.ofNat i &&& 1 == 1) = n.testBit i := by
    rw [Bool.eq_iff_iff, beq_iff_eq, ← UInt32.toNat_inj, UInt32.toNat_and, UInt32.toNat_shiftRight,
      hword, hamount, Nat.mod_eq_of_lt hi, Nat.testBit_eq_decide_div_mod_eq, decide_eq_true_iff,
      Nat.shiftRight_eq_div_pow, UInt32.toNat_one, Nat.and_one_is_mod]
  rw [digitAfter, if_neg (by omega), if_neg (by omega), Int.toNat_natCast, hdigit]

/-! ### Ordered maps -/

section OrderedMap

variable {pairs : List (String × Bool)} (h : pairs.Pairwise fun a b => a.1.toList < b.1.toList)
include h

theorem getElem?_ofList_of_mem {name : String} {value : Bool} (hmem : (name, value) ∈ pairs) :
    (Std.TreeMap.ofList pairs)[name]? = some value := by
  have hself : compare name name = .eq := Std.ReflCmp.compare_self
  have hdistinct : pairs.Pairwise fun a b => ¬ compare a.1 b.1 = .eq := by
    refine h.imp fun {a b} hlt heq => ?_
    rw [← Formula.compare_eq_lt_iff, heq] at hlt
    cases hlt
  exact Std.TreeMap.getElem?_ofList_of_mem hself hdistinct hmem

/-- Nothing is lost or merged when pairs with ascending names are collected in a map. -/
theorem toList_ofList : (Std.TreeMap.ofList pairs).toList = pairs := by
  let r (a b : String × Bool) : Prop := a.1.toList < b.1.toList
  have : Std.Irrefl r := ⟨fun a => List.lt_irrefl a.1.toList⟩
  have : Std.Antisymm r := ⟨fun a b hab hba => absurd (List.lt_trans hab hba) (List.lt_irrefl _)⟩
  have hordered : (Std.TreeMap.ofList pairs).toList.Pairwise r :=
    Std.TreeMap.ordered_keys_toList.imp fun hlt => Formula.compare_eq_lt_iff.1 hlt
  -- Both lists ascend, so they are equal when they have the same members.
  refine hordered.eq_of_mem_iff h fun (name, value) => ?_
  rw [Std.TreeMap.mem_toList_iff_getElem?_eq_some]
  constructor
  · intro hget
    have hname : name ∈ pairs.map Prod.fst := by
      have := Std.TreeMap.isSome_getElem?_iff_mem.1 (Option.isSome_of_eq_some hget)
      simpa using Std.TreeMap.mem_ofList.1 this
    obtain ⟨⟨name', value'⟩, hmem, rfl⟩ := List.mem_map.1 hname
    rw [getElem?_ofList_of_mem h hmem] at hget
    exact Option.some.inj hget ▸ hmem
  · exact getElem?_ofList_of_mem h

/-- The map knows what the pairs tell. -/
theorem getElem?_ofList (name : String) :
    (Std.TreeMap.ofList pairs)[name]? = pairs.lookup name := by
  cases hlookup : pairs.lookup name with
  | none =>
    refine Std.TreeMap.getElem?_ofList_of_contains_eq_false (Bool.not_eq_true _ ▸ fun hname => ?_)
    obtain ⟨pair, hmem, rfl⟩ := List.mem_map.1 (List.contains_iff_mem.1 hname)
    simpa using List.lookup_eq_none_iff.1 hlookup pair hmem
  | some value =>
    obtain ⟨l, r, rfl, -⟩ := List.lookup_eq_some_iff.1 hlookup
    exact getElem?_ofList_of_mem h (List.mem_append_right l List.mem_cons_self)

end OrderedMap

/-! ### The count is the table -/

theorem digitsOf_eq_ok (hlen : names.length ≤ 32) (hn : n < 2 ^ 32) :
    digitsOf names (UInt32.ofNat n) = .ok (numbered names n) := by
  rw [numbered, List.mapIdx_eq_zipIdx_map]
  refine mapM_eq_ok fun (x, j) hxj => ?_
  have hj : j < names.length := by simpa using (List.mem_zipIdx hxj).2.1
  have hplace : (names.length : Int) - 1 - j = ((names.length - 1 - j : Nat) : Int) := by omega
  dsimp only
  rw [hplace, digitAfter_eq_ok hn (by omega)]
  rfl

theorem map_fst_numbered (names : List String) (n : Nat) :
    (numbered names n).map Prod.fst = names := by
  induction names with
  | nil => rfl
  | cons x names ih => rw [numbered_cons, List.map_cons, ih]

theorem countedRow_eq_ok {f : Formula} (hlen : f.«variables».length ≤ 32) (hn : n < 2 ^ 32) :
    countedRow f f.«variables» (UInt32.ofNat n) = .ok (f.row (numbered f.«variables» n)) := by
  have hnames := f.pairwise_variables
  rw [← map_fst_numbered f.«variables» n, List.pairwise_map] at hnames
  rw [countedRow, digitsOf_eq_ok hlen hn]
  simp only [Except.bind, bind, toList_ofList hnames, getElem?_ofList hnames]
  rfl

/-- Counting in words fails for no other reason than the number of variables. -/
theorem countedTable_eq (f : Formula) :
    countedTable f = f.truthTable.elim (.error .tooManyVariables) .ok := by
  unfold countedTable
  by_cases hlen : f.«variables».length ≤ maxTableVariables
  · have hmax : maxTableVariables = 16 := rfl
    obtain ⟨count, hcount, hrows⟩ := shiftLeft?_one (k := f.«variables».length) (by omega)
    rw [Formula.truthTable_eq_some hlen, Option.elim_some, assignments_eq, List.map_map, ← hrows]
    simp only [if_neg (Nat.not_lt.2 hlen), hcount]
    refine mapM_eq_ok fun n hn => countedRow_eq_ok (by omega) ?_
    exact Nat.lt_trans (List.mem_range.1 hn) count.toNat_lt
  · rw [Formula.truthTable, if_neg hlen, if_pos (Nat.lt_of_not_le hlen), Option.elim_none]

namespace Formula

/-- The rows are those of all assignments of the variables, in the order of their numbers. -/
structure Enumerates (f : Formula) (rows : List TruthRow) : Prop where
  length_eq : rows.length = 2 ^ f.«variables».length
  assignment_eq : ∀ (n : Nat) (row : TruthRow), rows[n]? = some row → row.assignment =
    f.«variables».mapIdx fun j x => (x, n.testBit (f.«variables».length - 1 - j))
  count_eq : ∀ value : String → Bool,
    (rows.map TruthRow.assignment).count (f.«variables».map fun x => (x, value x)) = 1
  ascending : rows.Pairwise fun r s => r.assignment.map Prod.snd < s.assignment.map Prod.snd
  value_eq : ∀ row ∈ rows, row.value = f.eval (row.assignment.lookup ·)

theorem enumerates_rows (f : Formula) : f.Enumerates ((assignments f.«variables»).map f.row) := by
  have hassignment : TruthRow.assignment ∘ f.row = id := rfl
  constructor
  · rw [List.length_map, length_assignments]
  · intro n row hrow
    rw [assignments_eq, List.map_map, List.getElem?_map] at hrow
    obtain ⟨m, hm, rfl⟩ := Option.map_eq_some_iff.1 hrow
    obtain ⟨-, rfl⟩ := List.getElem?_eq_some_iff.1 hm
    rw [List.getElem_range]
    rfl
  · intro value
    rw [List.map_map, hassignment, List.map_id, count_assignments]
  · exact List.pairwise_map.2 (pairwise_assignments _)
  · intro row hrow
    obtain ⟨a, -, rfl⟩ := List.mem_map.1 hrow
    rfl

/-- A formula has no truth table if and only if it has too many variables. Otherwise the table
enumerates the assignments of the variables, which are in ascending order. Counting in machine words
with all shifts checked gives the same table, or fails because of the number of variables. -/
theorem truthTable_enumerates (f : Formula) :
    (f.«variables».Pairwise fun x y => x.toList < y.toList) ∧
    (f.truthTable = none ↔ maxTableVariables < f.«variables».length) ∧
    (∀ rows, f.truthTable = some rows → f.Enumerates rows) ∧
    countedTable f = f.truthTable.elim (.error .tooManyVariables) .ok := by
  refine ⟨f.pairwise_variables, ?_, fun rows hrows => ?_, countedTable_eq f⟩
  · rw [truthTable, ← Nat.not_le]
    split <;> simp_all
  · rw [truthTable] at hrows
    split at hrows
    · cases hrows
      exact f.enumerates_rows
    · cases hrows

/-- Two names, of which the second one comes first in the formula. -/
theorem truthTable_enumerates_implication :
    let f : Formula := .disj (.neg (.var "b")) (.var "a")
    let rows : List TruthRow := [⟨[("a", false), ("b", false)], true⟩,
      ⟨[("a", false), ("b", true)], false⟩, ⟨[("a", true), ("b", false)], true⟩,
      ⟨[("a", true), ("b", true)], true⟩]
    f.truthTable = some rows ∧ f.Enumerates rows ∧ countedTable f = .ok rows := by
  intro f rows
  have hrows : f.truthTable = some rows := by decide +kernel
  obtain ⟨-, -, henum, hcount⟩ := truthTable_enumerates f
  exact ⟨hrows, henum rows hrows, hcount.trans (by rw [hrows]; rfl)⟩

end Formula

end BoolFormula
