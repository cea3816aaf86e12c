import BoolFormula.Formula.Grammar
import BoolFormula.Proofs.Parser.Answer
import Mathlib.Logic.Function.Iterate

/-! The recursion of the rules. A rule refers to a rule of lower rank at the same place, or to any
rule after it has consumed a symbol, so that chains of references are bounded by `depth`. Hence
the parsers of the rules satisfy the equations of the grammar at every cursor, and what lies below
that many references is never run. -/

namespace BoolFormula

/-- The place of a rule in the chain of those that refer to each other without consuming. -/
def Rule.rank : Rule → Nat
  | .variable => 1
  | .atom => 2
  | .negation => 3
  | .conjunction => 4
  | .disjunction => 5
  | .expression => 6

/-- A bound on the length of a chain of references that starts with the rule `r` at `c`. -/
def Rule.depth (r : Rule) (c : Cursor) : Nat := 6 * c.left + r.rank

theorem Rule.rank_pos (r : Rule) : 0 < r.rank := by cases r <;> decide

theorem Rule.rank_le (r : Rule) : r.rank ≤ 6 := by cases r <;> decide

theorem Rule.depth_le (r : Rule) (c : Cursor) : r.depth c ≤ 6 * (c.left + 1) := by
  have := r.rank_le
  unfold Rule.depth
  omega

/-- A reference at the same place or a later one, to a rule of lower rank. -/
theorem Rule.depth_lt_of_rank {r s : Rule} {c d : Cursor} (hd : d.left ≤ c.left)
    (h : s.rank < r.rank) : s.depth d < r.depth c := by
  unfold Rule.depth
  omega

/-- A reference after something has been consumed. -/
theorem Rule.depth_lt_of_left (r s : Rule) {c d : Cursor} (h : d.left < c.left) :
    s.depth d < r.depth c := by
  have := s.rank_le
  have := r.rank_pos
  unfold Rule.depth
  omega

/-- Induction on the depth: what holds of the rules below at the same place or a later one, and of
all rules after something has been consumed, holds of a rule. -/
@[elab_as_elim]
theorem Rule.depth_induction {P : Rule → Cursor → Prop}
    (step : ∀ r c, (∀ s d, s.rank < r.rank → d.left ≤ c.left → P s d) →
      (∀ s d, d.left < c.left → P s d) → P r c) (r : Rule) (c : Cursor) : P r c := by
  induction hn : r.depth c using Nat.strongRecOn generalizing r c with
  | ind n ih =>
    subst hn
    apply step
    · exact fun s d hs hd => ih _ (depth_lt_of_rank hd hs) s d rfl
    · exact fun s d hd => ih _ (depth_lt_of_left r s hd) s d rfl

namespace Grammar

open ParserT BoolFormula.Parser

/-! ### The contract -/

theorem upholds_exclamationMarks : Upholds exclamationMarks :=
  upholds_map _ (upholds_many (upholds_token _))

theorem upholds_step {rule : Rule → Parser Formula} (h : ∀ r, Upholds (rule r)) (r : Rule) :
    Upholds (step rule r) := by
  apply upholds_traced
  have operand (s : String) (r : Rule) : Upholds ((token s).pair (rule r)).snd.optional :=
    upholds_optional (upholds_snd (upholds_pair (upholds_token s) (h r)))
  cases r with
  | expression => exact upholds_fst (upholds_pair (h _) upholds_spaces)
  | disjunction => exact upholds_map _ (upholds_pair (h _) (operand _ _))
  | conjunction => exact upholds_map _ (upholds_pair (h _) (operand _ _))
  | negation => exact upholds_map _ (upholds_pair upholds_exclamationMarks (h _))
  | atom =>
    refine upholds_orElse (h _) (upholds_snd (upholds_fst ?_))
    exact upholds_pair (upholds_pair (upholds_token _) (h _)) (upholds_token _)
  | «variable» => exact upholds_map _ (upholds_afterSpaces upholds_identifier)

theorem upholds_unroll (n : Nat) (r : Rule) : Upholds (unroll step n r) := by
  induction n generalizing r with
  | zero => exact upholds_fail
  | succ n ih => exact upholds_step ih r

theorem upholds_rule (r : Rule) : Upholds r.parser := by
  intro c
  rw [run_rule]
  exact upholds_unroll _ r c

/-! ### Silence -/

variable {m : Type → Type} [Monad m] [MonadTrace m] [MonadAnswer m]

omit [MonadTrace m] in
@[simp] theorem silent_exclamationMarks :
    silent (exclamationMarks : ParserT m Nat) = exclamationMarks := by
  simp [exclamationMarks]

theorem silent_step (rule : Rule → ParserT m Formula) (r : Rule) :
    silent (step rule r) = step (fun s => silent (rule s)) r := by
  cases r <;> simp [step, body]

theorem silent_unroll (n : Nat) (r : Rule) :
    silent (unroll step n r : ParserT m Formula) = unroll step n r := by
  induction n generalizing r with
  | zero => exact silent_fail
  | succ n ih =>
    rw [unroll, silent_step, unroll]
    congr 1
    funext s
    exact ih s

/-- A rule answers the same under any trace. -/
@[simp] theorem silent_rule (r : Rule) : silent (r.parser : ParserT m Formula) = r.parser := by
  funext c
  rw [silent, Rule.parser, Rule.parser]
  generalize 6 * (c.left + 1) = n
  rw [← silent_unroll (m := m), silent]

/-! ### Depth -/

/-- A step whose references, at the cursors where it makes them, are of a lesser depth than the
rule. -/
structure Guarded (T : (Rule → ParserT m Formula) → Rule → ParserT m Formula) : Prop where
  upholds : ∀ {G : Rule → ParserT m Formula}, (∀ s, Upholds (silent (G s))) →
    ∀ r, Upholds (silent (T G r))
  congr : ∀ {F G : Rule → ParserT m Formula} {r : Rule} {c : Cursor},
    (∀ s, Upholds (silent (G s))) → (∀ s d, s.depth d < r.depth c → F s d = G s d) →
      T F r c = T G r c

omit [MonadTrace m] [MonadAnswer m] in
/-- The parsers that refer to each other by the step `T`, with room for the references of a guarded
step. -/
def solve (T : (Rule → ParserT m Formula) → Rule → ParserT m Formula) (r : Rule) :
    ParserT m Formula := fun c => unroll T (6 * (c.left + 1)) r c

namespace Guarded

variable {T : (Rule → ParserT m Formula) → Rule → ParserT m Formula} {F : Rule → ParserT m Formula}
  {n k : Nat} {r : Rule} {c : Cursor}

omit [MonadTrace m] in
theorem upholds_unroll (hT : Guarded T) (n : Nat) (r : Rule) : Upholds (silent (unroll T n r)) := by
  induction n generalizing r with
  | zero =>
    rw [unroll, silent_fail]
    exact upholds_fail
  | succ n ih => exact hT.upholds ih r

omit [MonadTrace m] in
/-- Whatever family the references are cut off with, beyond the depth of a rule it is not run. -/
theorem iterate_eq_unroll (hT : Guarded T) (F : Rule → ParserT m Formula) (hn : r.depth c ≤ n)
    (hk : r.depth c ≤ k) : T^[n] F r c = unroll T k r c := by
  induction n generalizing k r c with
  | zero =>
    have := r.rank_pos
    unfold Rule.depth at hn
    omega
  | succ n ih =>
    obtain ⟨k, rfl⟩ : ∃ j, k = j + 1 := by
      have := r.rank_pos
      unfold Rule.depth at hk
      exact ⟨k - 1, by omega⟩
    rw [Function.iterate_succ_apply', unroll]
    exact hT.congr (hT.upholds_unroll k) fun s d hd => ih (by omega) (by omega)

omit [MonadTrace m] in
theorem iterate_eq (hT : Guarded T) (F : Rule → ParserT m Formula) (hn : r.depth c ≤ n) :
    T^[n] F r c = solve T r c := hT.iterate_eq_unroll F hn (r.depth_le c)

omit [MonadTrace m] in
theorem upholds_solve (hT : Guarded T) (r : Rule) : Upholds (silent (solve T r)) :=
  fun c => hT.upholds_unroll _ r c

omit [MonadTrace m] in
/-- The parsers satisfy the equations that the step states. -/
theorem solve_eq (hT : Guarded T) (r : Rule) : solve T r = T (solve T) r := by
  funext c
  rw [← hT.iterate_eq (solve T) (Nat.le_succ_of_le (Nat.le_refl (r.depth c))),
    Function.iterate_succ_apply']
  exact hT.congr hT.upholds_solve fun s d hd => hT.iterate_eq _ (by omega)

omit [MonadTrace m] in
/-- No others do. -/
theorem eq_solve (hT : Guarded T) (hF : T F = F) (r : Rule) : F r = solve T r := by
  funext c
  rw [← hT.iterate_eq F (Nat.le_refl _), Function.iterate_fixed hF]

end Guarded

/-- What a rule refers to, at the cursors where it does, is of a lesser depth. -/
theorem step_congr {F G : Rule → ParserT m Formula} (hG : ∀ r, Upholds (silent (G r))) {r : Rule}
    {c : Cursor} (h : ∀ s d, s.depth d < r.depth c → F s d = G s d) :
    step F r c = step G r c := by
  have lower {s : Rule} (hs : s.rank < r.rank) : F s c = G s c :=
    h s c (Rule.depth_lt_of_rank (Nat.le_refl _) hs)
  have later (s : Rule) {d : Cursor} (hd : d.left < c.left) : F s d = G s d :=
    h s d (Rule.depth_lt_of_left r s hd)
  -- the operand after an operator, which is looked for behind the first operand
  have operand (s t : Rule) {op : String} {x : Char} (hop : op.toList = [x]) {a : Formula}
      {d : Cursor} (hd : read? (silent (G s)) c = some (a, d)) :
      ((token op).pair (F t)).snd.optional d = ((token op).pair (G t)).snd.optional d := by
    apply ParserT.optional_congr
    apply ParserT.map_congr
    refine ParserT.pair_congr rfl fun b e he => later t ?_
    rw [silent_token] at he
    exact Nat.lt_of_lt_of_le (left_lt_of_token hop he) ((hG s).left_le hd)
  apply ParserT.traced_congr
  cases r with
  | expression =>
    apply ParserT.map_congr
    exact ParserT.pair_congr (lower (by decide)) fun _ _ _ => rfl
  | disjunction =>
    apply ParserT.map_congr
    exact ParserT.pair_congr (lower (by decide)) fun a d hd => operand _ _ rfl hd
  | conjunction =>
    apply ParserT.map_congr
    exact ParserT.pair_congr (lower (by decide)) fun a d hd => operand _ _ rfl hd
  | negation =>
    apply ParserT.map_congr
    refine ParserT.pair_congr rfl fun n d hd => h _ _ (Rule.depth_lt_of_rank ?_ (by decide))
    rw [silent_exclamationMarks] at hd
    exact upholds_exclamationMarks.left_le hd
  | atom =>
    refine ParserT.orElse_congr (lower (by decide)) ?_
    apply ParserT.map_congr
    apply ParserT.map_congr
    refine ParserT.pair_congr ?_ fun _ _ _ => rfl
    refine ParserT.pair_congr rfl fun b d hd => later _ ?_
    rw [silent_token] at hd
    exact left_lt_of_token rfl hd
  | «variable» => rfl

theorem guarded_step : Guarded (step : (Rule → ParserT m Formula) → Rule → ParserT m Formula) where
  upholds h r := by
    rw [silent_step]
    exact upholds_step h r
  congr hG h := step_congr hG h

/-- The recursion of a rule ends within its depth: it is the same over any family below. -/
theorem iterate_step_eq (F : Rule → ParserT m Formula) {n : Nat} {r : Rule} {c : Cursor}
    (hn : r.depth c ≤ n) : step^[n] F r c = r.parser c := guarded_step.iterate_eq F hn

/-- The rules satisfy the equations of the grammar. -/
theorem parser_eq (r : Rule) :
    (r.parser : ParserT m Formula) = step (fun s => s.parser) r := guarded_step.solve_eq r

end Grammar

end BoolFormula
