import BoolFormula.Proofs.Parser.Contract

/-! Repetition. A step of a repetition fails, stays where it is or goes on, and then fewer code
points are left. So the number of steps that `many` allows is never reached, and `many` is the
repetition without bounds: nothing at all, one empty match, or a match with a repetition after
it. -/

namespace BoolFormula.ParserT

open BoolFormula.Parser (Upholds)

variable {α : Type} {p : Parser α} {c d : Cursor} {a : α} (n : Nat) (found : List α)

theorem run_manyFrom_of_none (h : p.read? c = none) :
    Parser.run (p.manyFrom (n + 1) found) c = .success found.reverse c := by
  rw [run_manyFrom_succ, Parser.read?_eq_none_iff_value.1 h]

theorem run_manyFrom_of_some (h : p.read? c = some (a, d)) :
    Parser.run (p.manyFrom (n + 1) found) c =
      if d.offset = c.offset then .success (a :: found).reverse c
      else Parser.run (p.manyFrom n (a :: found)) d := by
  rw [run_manyFrom_succ, Parser.read?_eq_some_iff.1 h]
  simp only [Reply.success, beq_iff_eq]

/-- A repetition succeeds, at the cursor where it stops: the one it is at, or a later one. -/
theorem exists_run_manyFrom (hp : Upholds p) (c : Cursor) :
    ∃ all d t, Parser.run (p.manyFrom n found) c = .success all d ∧ c.Reads t d := by
  induction n generalizing found c with
  | zero => exact ⟨_, c, [], run_manyFrom_zero p c found, Cursor.Reads.refl c⟩
  | succ n ih =>
    cases h : p.read? c with
    | none => exact ⟨_, c, [], run_manyFrom_of_none n found h, Cursor.Reads.refl c⟩
    | some ad =>
      obtain ⟨a, d⟩ := ad
      rw [run_manyFrom_of_some n found h]
      by_cases hd : d.offset = c.offset
      · exact ⟨_, c, [], if_pos hd, Cursor.Reads.refl c⟩
      · obtain ⟨t, ht⟩ := hp.exists_reads h
        obtain ⟨all, e, u, hr, hu⟩ := ih (a :: found) d
        exact ⟨all, e, t ++ u, by rw [if_neg hd, hr], ht.trans hu⟩

theorem upholds_many (hp : Upholds p) : Upholds p.many := by
  intro c
  obtain ⟨all, d, t, hr, ht⟩ := exists_run_manyFrom (c.left + 1) [] hp c
  rw [run_many, hr]
  exact Reply.fair_success all ht.text_eq ht.offset_le

/-- A repetition never fails. -/
theorem exists_read?_many (hp : Upholds p) (c : Cursor) :
    ∃ all d, Parser.read? p.many c = some (all, d) := by
  obtain ⟨all, d, _, hr, _⟩ := exists_run_manyFrom (c.left + 1) [] hp c
  exact ⟨all, d, Parser.read?_eq_some_iff.2 hr⟩

/-- The values found before are only handed on. -/
theorem run_manyFrom_found (c : Cursor) :
    Parser.run (p.manyFrom n found) c =
      (Parser.run (p.manyFrom n []) c).map (found.reverse ++ ·) := by
  induction n generalizing found c with
  | zero => simp [run_manyFrom_zero, Reply.map, Reply.success]
  | succ n ih =>
    cases h : p.read? c with
    | none => simp [run_manyFrom_of_none n _ h, Reply.map, Reply.success]
    | some ad =>
      obtain ⟨a, d⟩ := ad
      rw [run_manyFrom_of_some n found h, run_manyFrom_of_some n [] h]
      split
      · simp [Reply.map, Reply.success]
      · rw [ih (a :: found), ih [a]]
        simp [Reply.map, Function.comp_def]

/-- Any number of steps beyond what is left of the text is as good as any other. -/
theorem run_manyFrom_depth (hp : Upholds p) {n k : Nat} (hn : c.left < n) (hk : c.left < k) :
    Parser.run (p.manyFrom n found) c = Parser.run (p.manyFrom k found) c := by
  induction n generalizing k found c with
  | zero => omega
  | succ n ih =>
    obtain ⟨k, rfl⟩ : ∃ j, k = j + 1 := ⟨k - 1, by omega⟩
    cases h : p.read? c with
    | none => rw [run_manyFrom_of_none n _ h, run_manyFrom_of_none k _ h]
    | some ad =>
      obtain ⟨a, d⟩ := ad
      rw [run_manyFrom_of_some n found h, run_manyFrom_of_some k found h]
      split
      · rfl
      · next hd =>
        have := hp.left_lt h hd
        exact ih (a :: found) (by omega) (by omega)

/-- The equation of the repetition without bounds. -/
theorem read?_many (hp : Upholds p) (c : Cursor) : Parser.read? p.many c =
    match p.read? c with
    | none => some ([], c)
    | some (a, d) =>
      if d.offset = c.offset then some ([a], c)
      else (Parser.read? p.many d).map fun (as, e) => (a :: as, e) := by
  cases h : p.read? c with
  | none =>
    rw [Parser.read?_eq_some_iff, run_many]
    exact run_manyFrom_of_none _ [] h
  | some ad =>
    obtain ⟨a, d⟩ := ad
    have hr := run_manyFrom_of_some c.left [] h
    rw [← run_many] at hr
    dsimp only
    split
    · next hd =>
      rw [Parser.read?_eq_some_iff, hr, if_pos hd]
      rfl
    · next hd =>
      have hl := hp.left_lt h hd
      rw [if_neg hd, run_manyFrom_found c.left [a] d,
        run_manyFrom_depth [] hp hl (Nat.lt_succ_self d.left), ← run_many] at hr
      simp only [Parser.read?, hr, Reply.map, Option.map_map]
      rfl

end BoolFormula.ParserT
