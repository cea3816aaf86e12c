import BoolFormula.Proofs.Parser.Answer

/-! Repetition as a chain. In a chain every match starts where the one before it stops, and consumes
something, so a chain is no longer than what is left of the text. It ends where the parser fails or
finds something without consuming it. From a cursor there is one chain that ends, and any other is a
start of it: its values are what `many` finds, with the match that ends it, if there is one. -/

namespace BoolFormula

variable {α : Type}

namespace Parser

/-- Matches of `p` one after the other from a cursor on, none of them empty, with the cursor behind
the last. -/
inductive Chain (p : Parser α) : Cursor → List α → Cursor → Prop
  | nil (c : Cursor) : Chain p c [] c
  | cons {c d e : Cursor} {a : α} {as : List α} (step : p.run c = .success a d)
      (onward : c.offset < d.offset) (rest : Chain p d as e) : Chain p c (a :: as) e

/-- No match of `p` leads on from the cursor. What is still found there is in the list. -/
inductive Ends (p : Parser α) (c : Cursor) : List α → Prop
  | fails (h : p.run c = .failure c) : Ends p c []
  | stays (a : α) (h : p.run c = .success a c) : Ends p c [a]

variable {p : Parser α} {c d e : Cursor} {as bs last : List α}

theorem Ends.not_onward {a : α} (h : Ends p c last) (step : p.run c = .success a d) :
    ¬ c.offset < d.offset := by
  cases h with
  | fails h =>
    have := congrArg Reply.value (h.symm.trans step)
    cases this
  | stays b h =>
    have : c = d := congrArg Reply.rest (h.symm.trans step)
    rw [this]
    exact Nat.lt_irrefl _

theorem Ends.length_le (h : Ends p c last) : last.length ≤ 1 := by
  cases h <;> simp

namespace Chain

/-- Every match of a chain leaves less of the text. -/
theorem length_add_left_le (hp : Upholds p) (h : Chain p c as d) : as.length + d.left ≤ c.left := by
  induction h with
  | nil c => simp
  | cons step onward _ ih =>
    have := hp.left_lt (read?_eq_some_iff.2 step) (Nat.ne_of_gt onward)
    rw [List.length_cons]
    omega

/-- A chain that has ended has every other one as a start. -/
theorem prefix_of_ends (h : Chain p c as d) (hend : Ends p d last) (k : Chain p c bs e) :
    bs <+: as := by
  induction k generalizing as with
  | nil c => exact List.nil_prefix
  | cons step onward _ ih =>
    cases h with
    | nil => exact absurd onward (hend.not_onward step)
    | cons step' _ rest =>
      cases step.symm.trans step'
      exact (List.cons_prefix_cons).2 ⟨rfl, ih rest⟩

end Chain

end Parser

open BoolFormula.Parser MonadAnswer

variable {p : Parser α} {c d : Cursor} {as last : List α}

/-- A repetition goes through a chain to its end, by induction on the chain. -/
theorem read?_many_of_chain (hp : Upholds p) (h : Chain p c as d) (hend : Ends p d last) :
    read? p.many c = some (as ++ last, d) := by
  induction h with
  | nil c =>
    rw [ParserT.read?_many hp]
    cases hend with
    | fails h => rw [read?, h]; rfl
    | stays a h => simp [read?_eq_some_iff.2 h]
  | cons step onward _ ih =>
    rw [ParserT.read?_many hp, read?_eq_some_iff.2 step]
    simp only [if_neg (Nat.ne_of_gt onward), ih hend, Option.map_some, List.cons_append]

/-- From every cursor there is a chain that ends, by induction on what is left of the text. -/
theorem exists_chain (hp : Upholds p) (c : Cursor) : ∃ as d last, Chain p c as d ∧ Ends p d last := by
  induction hn : c.left using Nat.strongRecOn generalizing c with
  | ind n ih =>
    subst hn
    cases h : read? p c with
    | none => exact ⟨[], c, [], .nil c, .fails (hp.failure h)⟩
    | some ad =>
      obtain ⟨a, d⟩ := ad
      have hrun := read?_eq_some_iff.1 h
      obtain ⟨t, ht⟩ := hp.exists_reads h
      by_cases hd : d.offset = c.offset
      · -- Nothing lies between two cursors with one offset.
        have hnil : t = [] := List.length_eq_zero_iff.1 (by have := ht.offset_eq; omega)
        obtain rfl := Cursor.reads_nil_iff.1 (hnil ▸ ht)
        exact ⟨[], d, [a], .nil d, .stays a hrun⟩
      · obtain ⟨as, e, last, hchain, hend⟩ := ih d.left (hp.left_lt h hd) d rfl
        have := ht.offset_eq
        exact ⟨a :: as, e, last, .cons hrun (by omega) hchain, hend⟩

/-- A repetition succeeds with the values of the longest chain from its cursor, and stops where that
ends. An empty match found there is the last value, and the only one of its kind, so there is at most
one value more than code points are left. At the end a further repetition finds that match alone and
goes no further. The number of steps is bounded by what is left: allowing more makes no difference. -/
theorem many_longest_chain {m : Type → Type} [Monad m] [MonadAnswer m] (p : ParserT m α)
    (hp : Upholds p.silent) (c : Cursor) :
    ∃ values last d, answer (p.many c) = .success (values ++ last) d ∧
      Chain p.silent c values d ∧ Ends p.silent d last ∧
      (∀ others e, Chain p.silent c others e → others <+: values) ∧
      (values ++ last).length ≤ c.left + 1 ∧
      answer (p.many d) = .success last d ∧
      ∀ n, c.left < n → answer (p.manyFrom n [] c) = answer (p.many c) := by
  obtain ⟨values, d, last, hchain, hend⟩ := exists_chain hp c
  refine ⟨values, last, d, ?_, hchain, hend, fun _ _ h => hchain.prefix_of_ends hend h, ?_, ?_, ?_⟩
  · rw [ParserT.answer_apply p.many, ParserT.silent_many]
    exact read?_eq_some_iff.1 (read?_many_of_chain hp hchain hend)
  · have hleft := hchain.length_add_left_le hp
    have hlast := hend.length_le
    rw [List.length_append]
    omega
  · rw [ParserT.answer_apply p.many, ParserT.silent_many]
    exact read?_eq_some_iff.1 (read?_many_of_chain hp (.nil d) hend)
  · intro n hn
    rw [ParserT.answer_apply (p.manyFrom n []), ParserT.answer_apply p.many, ParserT.silent_manyFrom,
      ParserT.silent_many, ParserT.run_many]
    exact ParserT.run_manyFrom_depth [] hp hn (Nat.lt_succ_self _)

/-- Two matches, and an empty one in front of what does not match. -/
theorem many_longest_chain_empty_match :
    ∃ values last d, values ++ last = ["ab", "ab", ""] ∧ d.offset = 4 ∧
      Chain ((ParserT.string "ab").orElse (ParserT.string "")) (.ofString "ababa") values d ∧
      Ends ((ParserT.string "ab").orElse (ParserT.string "")) d last := by
  let p : Parser String := (ParserT.string "ab").orElse (ParserT.string "")
  have hp : Upholds p :=
    ParserT.upholds_orElse (ParserT.upholds_string "ab") (ParserT.upholds_string "")
  have hrun : Parser.run p.many (.ofString "ababa") =
      .success ["ab", "ab", ""] ⟨"ababa".toList.toArray, 4, by decide⟩ := by decide +kernel
  obtain ⟨values, last, d, hfound, hchain, hend, -⟩ := many_longest_chain (m := Id) p hp _
  have heq := hfound.symm.trans hrun
  refine ⟨values, last, d, ?_, ?_, hchain, hend⟩
  · exact Option.some.inj (congrArg Reply.value heq)
  · exact congrArg (fun r => r.rest.offset) heq

end BoolFormula
