import BoolFormula.Proofs.Formula.Calls
import Mathlib.Data.List.Perm.Subperm
import Mathlib.Data.List.ProdSigma

/-! Backtracking does not repeat work. A rule that matches has tried nothing from the place where it
stops on, unless an operator comes next there whose operand could not be read. Then, though, whoever
called the rule looks for another symbol and does not find it, so nothing is tried from there again.
Hence the attempts of a run differ in the rule or in the offset, and their number is linear in what
is left of the text. -/

namespace BoolFormula

/-- The parser that was attempted, by its name, and the offset where it was run. -/
def Event.target : Event → Option (String × Nat)
  | attempt name start _ => some (name, start.offset)
  | refusal _ _ => none

/-- The operators behind which the rule looks for an operand. -/
def Rule.operators : Rule → List Char
  | .expression => ['&', '|']
  | .disjunction => ['&', '|']
  | .conjunction => ['&']
  | _ => []

/-- All rules. -/
def Rule.all : List Rule := [.expression, .disjunction, .conjunction, .negation, .atom, .variable]

theorem Rule.mem_all (r : Rule) : r ∈ all := by cases r <;> decide

theorem Rule.eq_of_name_eq {r s : Rule} (h : r.name = s.name) : r = s := by
  cases r <;> cases s <;> simp_all [Rule.name]

namespace Grammar

/-- Everything was tried before `d`. -/
def Before (es : List Event) (d : Cursor) : Prop :=
  ∀ e ∈ es, ∀ name n, e.target = some (name, n) → n < d.offset

/-- Attempts of rules from `c` on, no two of them alike. At `c` itself no rule of a higher rank than
`r` is tried. -/
structure Thrifty (r : Rule) (c : Cursor) (es : List Event) : Prop where
  calls : ∀ e ∈ es, ∃ (s : Rule) (d : Cursor) (outcome : Option (String × Nat)),
    e = .attempt s.name d outcome ∧ d.text = c.text ∧ c.offset ≤ d.offset ∧
      (d.offset = c.offset → s.rank ≤ r.rank)
  once : (es.map Event.target).Nodup

variable {r s : Rule} {c d : Cursor} {es fs : List Event}

theorem Before.append (h : Before es d) (h' : Before fs d) : Before (es ++ fs) d := by
  intro e he
  rcases List.mem_append.1 he with he | he
  · exact h e he
  · exact h' e he

theorem Before.of_le {e : Cursor} (h : Before es d) (hd : d.offset ≤ e.offset) : Before es e :=
  fun x hx name n hn => Nat.lt_of_lt_of_le (h x hx name n hn) hd

theorem before_attempt (name : String) (outcome : Option (String × Nat))
    (hc : c.offset < d.offset) : Before [.attempt name c outcome] d := by
  intro e he _ n hn
  cases List.mem_singleton.1 he
  cases hn
  exact hc

namespace Thrifty

/-- A run at a later place, or of a lower rule. -/
theorem weaken (h : Thrifty s d es) (ht : d.text = c.text) (hd : c.offset ≤ d.offset)
    (hr : d.offset = c.offset → s.rank ≤ r.rank) : Thrifty r c es := by
  refine ⟨?_, h.once⟩
  intro e he
  obtain ⟨q, b, o, rfl, hb, hle, hq⟩ := h.calls e he
  refine ⟨q, b, o, rfl, hb.trans ht, by omega, ?_⟩
  intro ho
  have hlow := hq (by omega)
  have hhigh := hr (by omega)
  omega

/-- A run behind all that was tried before. -/
theorem append (h : Thrifty r c es) (h' : Thrifty s d fs) (ht : d.text = c.text)
    (hd : c.offset < d.offset) (hb : Before es d) : Thrifty r c (es ++ fs) := by
  have hf : Thrifty r c fs := h'.weaken ht (by omega) (by omega)
  constructor
  · intro e he
    rcases List.mem_append.1 he with he | he
    · exact h.calls e he
    · exact hf.calls e he
  · rw [List.map_append, List.nodup_append]
    refine ⟨h.once, h'.once, ?_⟩
    simp only [List.mem_map]
    rintro _ ⟨e, he, rfl⟩ _ ⟨e', he', rfl⟩ heq
    obtain ⟨q, b, o, rfl, -, hle, -⟩ := h'.calls e' he'
    have := hb e he _ _ heq
    omega

/-- The rule itself, after those of a lower rank. -/
theorem push (h : Thrifty s c es) (hs : s.rank < r.rank) (outcome : Option (String × Nat)) :
    Thrifty r c (es ++ [.attempt r.name c outcome]) := by
  constructor
  · intro e he
    rcases List.mem_append.1 he with he | he
    · obtain ⟨q, b, o, rfl, hb, hle, hq⟩ := h.calls e he
      refine ⟨q, b, o, rfl, hb, hle, ?_⟩
      intro ho
      have hlow := hq ho
      omega
    · cases List.mem_singleton.1 he
      exact ⟨r, c, outcome, rfl, rfl, Nat.le_refl _, fun _ => Nat.le_refl _⟩
  · rw [List.map_append, List.nodup_append]
    refine ⟨h.once, by simp, ?_⟩
    simp only [List.mem_map, List.mem_singleton]
    rintro _ ⟨e, he, rfl⟩ _ ⟨_, rfl, rfl⟩ heq
    obtain ⟨q, b, o, rfl, -, -, hq⟩ := h.calls e he
    simp only [Event.target, Option.some.injEq, Prod.mk.injEq] at heq
    cases Rule.eq_of_name_eq heq.1
    have hlow := hq heq.2
    omega

end Thrifty

/-- The run of the rule at `c` is thrifty, and if it matches, it has tried nothing from where it
stops on, unless an operator of the rule comes next. -/
structure Once (r : Rule) (c : Cursor) : Prop where
  thrifty : Thrifty r c (r.told c)
  settled : ∀ f d, r.read? c = some (f, d) →
    Before (r.told c) d ∨ ∃ x ∈ r.operators, d.symbol? x ≠ none

namespace Once

/-- A symbol that is no operator of the rule. -/
theorem before {x : Char} {e : Cursor} {f : Formula} (h : Once r c) (hx : x ∉ r.operators)
    (hd : r.read? c = some (f, d)) (he : d.symbol? x = some e) : Before (r.told c) d := by
  rcases h.settled f d hd with hb | ⟨y, hy, hn⟩
  · exact hb
  · refine absurd (Cursor.symbol?_eq_none he fun hxy => ?_) hn
    exact hx (hxy ▸ hy)

section Chain

variable {x : Char} {e : Cursor}

/-- The first operand of a chain has tried nothing from the operator on. -/
theorem before_operand (h : Once s c) (hx : x ∉ s.operators)
    (he : (s.read? c).bind (fun (_, d) => d.symbol? x) = some e) :
    Before (s.told c) e ∧ e.text = c.text ∧ c.offset < e.offset ∧ e.left < c.left := by
  obtain ⟨⟨f, d⟩, hf, hop⟩ := Option.bind_eq_some_iff.1 he
  obtain ⟨t, ht⟩ := exists_reads hf
  have hcd := ht.offset_le
  have hde := Cursor.offset_lt_of_symbol? hop
  have hleft := ht.left_le
  have hlt := Cursor.left_lt_of_symbol? hop
  refine ⟨(h.before hx hf hop).of_le (by omega), ?_, by omega, by omega⟩
  exact (Cursor.text_of_symbol? hop).trans ht.text_eq

/-- A chain is thrifty if its first operand and the rest of it are. -/
theorem thrifty_chain (hs : Once s c) (hr : ∀ d, d.left < c.left → Once r d)
    (hrank : s.rank < r.rank) (hxs : x ∉ s.operators) (outcome : Option (String × Nat)) :
    Thrifty r c (s.told c ++ ((s.read? c).bind fun (_, d) => d.symbol? x).elim [] r.told ++
      [.attempt r.name c outcome]) := by
  refine Thrifty.push ?_ hrank outcome
  cases ho : (s.read? c).bind fun (_, d) => d.symbol? x with
  | none =>
    rw [Option.elim_none, List.append_nil]
    exact hs.thrifty
  | some e =>
    obtain ⟨hb, ht, hlt, hleft⟩ := hs.before_operand hxs ho
    exact hs.thrifty.append (hr e hleft).thrifty ht hlt hb

/-- A chain stops behind what it has tried, or in front of an operator. -/
theorem settled_chain {join : Formula → Formula → Formula} {f : Formula} (hs : Once s c)
    (hr : ∀ d, d.left < c.left → Once r d) (hsub : ∀ y ∈ s.operators, y ∈ r.operators)
    (hx : x ∈ r.operators) (hxs : x ∉ s.operators)
    (hread : r.read? c = (s.read? c).map fun (f, d) => f.extend join d (r.operand? x d))
    (h : r.read? c = some (f, d)) (outcome : Option (String × Nat)) :
    Before (s.told c ++ ((s.read? c).bind fun (_, d) => d.symbol? x).elim [] r.told ++
        [.attempt r.name c outcome]) d ∨
      ∃ y ∈ r.operators, d.symbol? y ≠ none := by
  have hself := before_attempt r.name outcome (offset_lt h)
  rw [hread] at h
  obtain ⟨⟨g, b⟩, hg, hext⟩ := Option.map_eq_some_iff.1 h
  have ho : ((s.read? c).bind fun (_, d) => d.symbol? x) = b.symbol? x := by
    rw [hg, Option.bind_some]
  rw [ho]
  rcases Formula.extend_eq_iff.1 hext with ⟨-, -, rfl⟩ | ⟨k, hk, -⟩
  · cases hop : b.symbol? x with
    | some e => exact .inr ⟨x, hx, by simp [hop]⟩
    | none =>
      rcases hs.settled g b hg with hb | ⟨y, hy, hn⟩
      · refine .inl (Before.append ?_ hself)
        rwa [Option.elim_none, List.append_nil]
      · exact .inr ⟨y, hsub y hy, hn⟩
  · obtain ⟨e, hop, hrest⟩ := operand?_eq_some_iff.1 hk
    obtain ⟨hb, -, -, hleft⟩ := hs.before_operand hxs (ho.trans hop)
    have hed := offset_lt hrest
    rcases (hr e hleft).settled k d hrest with hb' | hnext
    · rw [hop, Option.elim_some]
      exact .inl (((hb.of_le (by omega)).append hb').append hself)
    · exact .inr hnext

theorem of_chain {join : Formula → Formula → Formula} (hs : Once s c)
    (hr : ∀ d, d.left < c.left → Once r d) (hrank : s.rank < r.rank)
    (hsub : ∀ y ∈ s.operators, y ∈ r.operators) (hx : x ∈ r.operators) (hxs : x ∉ s.operators)
    (htold : ∃ outcome, r.told c = s.told c ++
      ((s.read? c).bind fun (_, d) => d.symbol? x).elim [] r.told ++ [.attempt r.name c outcome])
    (hread : r.read? c = (s.read? c).map fun (f, d) => f.extend join d (r.operand? x d)) :
    Once r c := by
  obtain ⟨outcome, htold⟩ := htold
  constructor
  · rw [htold]
    exact thrifty_chain hs hr hrank hxs outcome
  · intro f d h
    rw [htold]
    exact settled_chain hs hr hsub hx hxs hread h outcome

end Chain

theorem of_variable (c : Cursor) : Once .variable c := by
  obtain ⟨outcome, htold⟩ := exists_told_variable c
  constructor
  · rw [htold]
    refine ⟨?_, by simp⟩
    intro e he
    cases List.mem_singleton.1 he
    exact ⟨.variable, c, outcome, rfl, rfl, Nat.le_refl _, fun _ => Nat.le_refl _⟩
  · intro f d h
    rw [htold]
    exact .inl (before_attempt _ _ (offset_lt h))

theorem before_variable (h : c.offset < d.offset) : Before (Rule.variable.told c) d := by
  obtain ⟨outcome, htold⟩ := exists_told_variable c
  exact htold ▸ before_attempt _ _ h

/-- An atom that looks for a variable only. -/
theorem of_atom_variable {outcome : Option (String × Nat)}
    (htold : Rule.atom.told c = Rule.variable.told c ++ [.attempt Rule.atom.name c outcome]) :
    Once .atom c := by
  constructor
  · rw [htold]
    exact (of_variable c).thrifty.push (by decide) outcome
  · intro f d h
    rw [htold]
    exact .inl ((before_variable (offset_lt h)).append (before_attempt _ _ (offset_lt h)))

/-- What is found inside parentheses is followed by the closing one, which is no operator. -/
theorem of_atom (he : ∀ d, d.left < c.left → Once .expression d) : Once .atom c := by
  obtain ⟨outcome, htold⟩ := exists_told_atom c
  cases hf : Rule.variable.read? c with
  | some fd =>
    rw [hf, Option.isSome_some, if_pos rfl, List.append_nil] at htold
    exact of_atom_variable htold
  | none =>
    rw [hf, Option.isSome_none, if_neg Bool.false_ne_true] at htold
    cases hp : c.symbol? '(' with
    | none =>
      rw [hp, Option.elim_none, List.append_nil] at htold
      exact of_atom_variable htold
    | some a =>
      rw [hp, Option.elim_some] at htold
      have hca := Cursor.offset_lt_of_symbol? hp
      have hx := he a (Cursor.left_lt_of_symbol? hp)
      have ht := Cursor.text_of_symbol? hp
      constructor
      · rw [htold]
        have hv := (of_variable c).thrifty.append hx.thrifty ht hca (before_variable hca)
        exact hv.push (by decide) outcome
      · intro f d h
        rcases read?_atom_eq_some_iff.1 h with hn | ⟨-, a', b, ha', hg, hclose⟩
        · cases hf.symm.trans hn
        · cases hp.symm.trans ha'
          have hbd := Cursor.offset_lt_of_symbol? hclose
          have hin : Before (Rule.expression.told a) d :=
            (hx.before (by decide) hg hclose).of_le (by omega)
          rw [htold]
          refine .inl (Before.append ?_ (before_attempt _ _ (offset_lt h)))
          exact (before_variable (offset_lt h)).append hin

theorem of_negation (ha : ∀ d, d.left ≤ c.left → Once .atom d) : Once .negation c := by
  obtain ⟨n, d, outcome, hd, htold⟩ := exists_told_negation c
  obtain ⟨t, ht⟩ := upholds_exclamationMarks.exists_reads hd
  have hx := ha d ht.left_le
  constructor
  · rw [htold]
    have hc := hx.thrifty.weaken ht.text_eq ht.offset_le fun _ => Nat.le_refl Rule.atom.rank
    exact hc.push (by decide) outcome
  · intro f e h
    have hce := offset_lt h
    rw [read?_negation_eq, hd] at h
    obtain ⟨⟨g, b⟩, hg, heq⟩ := Option.map_eq_some_iff.1 h
    cases heq
    rw [htold]
    rcases hx.settled g e hg with hb | ⟨x, hx, -⟩
    · exact .inl (hb.append (before_attempt _ _ hce))
    · cases hx

theorem of_expression (h : Once .disjunction c) : Once .expression c := by
  obtain ⟨outcome, htold⟩ := exists_told_expression c
  constructor
  · rw [htold]
    exact h.thrifty.push (by decide) outcome
  · intro f d hd
    obtain ⟨b, hb, rfl⟩ := read?_expression_eq_some_iff.1 hd
    have hle := (Cursor.reads_dropWhile isSpace b).offset_le
    rw [htold]
    rcases h.settled f b hb with hbef | ⟨x, hx, hn⟩
    · exact .inl ((hbef.of_le hle).append (before_attempt _ _ (offset_lt hd)))
    · exact .inr ⟨x, hx, by rwa [Cursor.symbol?_dropWhile]⟩

end Once

/-- Every run is thrifty, by induction on the depth of the rule. -/
theorem once (r : Rule) (c : Cursor) : Once r c := by
  induction r, c using Rule.depth_induction with
  | step r c lower later =>
    cases r with
    | expression => exact .of_expression (lower _ _ (by decide) (Nat.le_refl _))
    | disjunction =>
      exact .of_chain (lower _ _ (by decide) (Nat.le_refl _)) (later _) (by decide)
        (by simp [Rule.operators]) (by decide) (by decide) (exists_told_disjunction c)
        (read?_disjunction c)
    | conjunction =>
      exact .of_chain (lower _ _ (by decide) (Nat.le_refl _)) (later _) (by decide)
        (by simp [Rule.operators]) (by decide) (by decide) (exists_told_conjunction c)
        (read?_conjunction c)
    | negation => exact .of_negation fun d => lower _ d (by decide)
    | atom => exact .of_atom (later _)
    | «variable» => exact .of_variable c

/-- At most six rules are tried at each place. -/
theorem length_told_le (r : Rule) (c : Cursor) : (r.told c).length ≤ 6 * (c.left + 1) := by
  have hsub : (r.told c).map Event.target ⊆
      (Rule.all ×ˢ List.range' c.offset (c.left + 1)).map
        fun (s, n) => some (s.name, n) := by
    intro x hx
    obtain ⟨e, he, rfl⟩ := List.mem_map.1 hx
    obtain ⟨s, d, o, rfl, ht, hle, -⟩ := (once r c).thrifty.calls e he
    have hd := d.offset_le
    rw [ht] at hd
    refine List.mem_map.2 ⟨(s, d.offset), List.mem_product.2 ⟨s.mem_all, ?_⟩, rfl⟩
    rw [List.mem_range'_1, Cursor.left]
    omega
  have hlen := ((once r c).thrifty.once.subperm hsub).length_le
  rwa [List.length_map, List.length_map, List.length_product, List.length_range'] at hlen

/-- A run ends within a depth of six rules for each place, whatever lies below that depth. It tells
of attempts of rules only, from `c` on and in the same text, and of no two attempts of one rule at
one offset. So there are six of them for each place at most. -/
theorem no_rule_tried_twice (r : Rule) (c : Cursor) :
    (∀ (F : Rule → ParserT Traced Formula) (n : Nat), 6 * (c.left + 1) ≤ n →
      step^[n] F r c = r.parser c) ∧
    (∀ e ∈ Traced.events (r.parser c), ∃ (s : Rule) (d : Cursor) (outcome : Option (String × Nat)),
      e = .attempt s.name d outcome ∧ d.text = c.text ∧ c.offset ≤ d.offset) ∧
    ((Traced.events (r.parser c)).toList.map Event.target).Nodup ∧
    (Traced.events (r.parser c)).size ≤ 6 * (c.left + 1) := by
  refine ⟨fun F n hn => ?_, fun e he => ?_, (once r c).thrifty.once, ?_⟩
  · exact iterate_step_eq F (Nat.le_trans (r.depth_le c) hn)
  · obtain ⟨s, d, o, rfl, ht, hle, -⟩ := (once r c).thrifty.calls e (Array.mem_toList_iff.2 he)
    exact ⟨s, d, o, rfl, ht, hle⟩
  · rw [← Array.length_toList]
    exact length_told_le r c

/-- Parentheses that are never closed. -/
theorem no_rule_tried_twice_unclosed :
    step^[24] (fun _ => ParserT.fail) .expression (.ofString "((a") =
        (Rule.expression.parser (.ofString "((a") : Traced (Reply Formula)) ∧
      (Traced.events (Rule.expression.parser (.ofString "((a"))).size ≤ 24 := by
  obtain ⟨hdepth, -, -, hsize⟩ := no_rule_tried_twice .expression (.ofString "((a")
  exact ⟨hdepth _ 24 (by decide), hsize⟩

end Grammar

end BoolFormula
