import BoolFormula.Parser.Silent
import BoolFormula.Proofs.Cursor.Moves

/-! The contract of parsers. A parser that fails hands back the very cursor it was given, and one
that succeeds hands back a cursor over the same text, not before the one it was given. Every
combinator keeps the contract for parsers that keep it. Under the contract an answer is known from
what was found, if anything, and the cursor after it, which is what `read?` tells; the equations
of the combinators are short in these terms. -/

namespace BoolFormula

variable {α β : Type}

/-- The answer `r` of a parser to the cursor `c` is as the contract demands. -/
structure Reply.Fair (c : Cursor) (r : Reply α) : Prop where
  of_none : r.value = none → r.rest = c
  of_some : ∀ a, r.value = some a → r.rest.text = c.text ∧ c.offset ≤ r.rest.offset

theorem Reply.fair_failure (c : Cursor) : (Reply.failure c : Reply α).Fair c :=
  ⟨fun _ => rfl, fun _ => (nomatch ·)⟩

theorem Reply.fair_success {c d : Cursor} (a : α) (ht : d.text = c.text) (h : c.offset ≤ d.offset) :
    (Reply.success a d).Fair c :=
  ⟨(nomatch ·), fun _ _ => ⟨ht, h⟩⟩

namespace Parser

/-- Fails without consuming anything, and never goes back. -/
def Upholds (p : Parser α) : Prop := ∀ c, (p.run c).Fair c

/-- What is found at `c`, with the cursor after it. -/
def read? (p : Parser α) (c : Cursor) : Option (α × Cursor) :=
  (p.run c).value.map fun a => (a, (p.run c).rest)

variable {p : Parser α} {q : Parser β} {c d : Cursor} {a : α}

theorem read?_eq_some_iff : p.read? c = some (a, d) ↔ p.run c = .success a d := by
  simp only [read?, Reply.success]
  cases p.run c with
  | mk v e => cases v <;> simp

theorem read?_eq_none_iff_value : p.read? c = none ↔ (p.run c).value = none := by
  simp only [read?, Option.map_eq_none_iff]

namespace Upholds

theorem failure (hp : Upholds p) (h : p.read? c = none) : p.run c = .failure c := by
  have hv := read?_eq_none_iff_value.1 h
  have hr := (hp c).of_none hv
  cases hc : p.run c with
  | mk v e =>
    rw [hc] at hv hr
    cases hv
    cases hr
    rfl

/-- Under the contract an answer is known from what is found. -/
theorem run_eq {p' : Parser α} (hp : Upholds p) (hp' : Upholds p') (h : p.read? c = p'.read? c) :
    p.run c = p'.run c := by
  cases hc : p.read? c with
  | none => rw [hp.failure hc, hp'.failure (h ▸ hc)]
  | some ad => rw [read?_eq_some_iff.1 hc, read?_eq_some_iff.1 (h ▸ hc)]

theorem text_eq (hp : Upholds p) (h : p.read? c = some (a, d)) : d.text = c.text := by
  have hc := hp c
  rw [read?_eq_some_iff.1 h] at hc
  exact (hc.of_some a rfl).1

/-- Whether it matches or not, the parser stops somewhere in the text that it was given. -/
theorem text_rest (hp : Upholds p) (c : Cursor) : (p.run c).rest.text = c.text := by
  cases h : (p.run c).value with
  | none => rw [(hp c).of_none h]
  | some a => exact ((hp c).of_some a h).1

theorem offset_le (hp : Upholds p) (h : p.read? c = some (a, d)) : c.offset ≤ d.offset := by
  have hc := hp c
  rw [read?_eq_some_iff.1 h] at hc
  exact (hc.of_some a rfl).2

theorem exists_reads (hp : Upholds p) (h : p.read? c = some (a, d)) : ∃ t, c.Reads t d :=
  Cursor.exists_reads (hp.text_eq h) (hp.offset_le h)

theorem left_le (hp : Upholds p) (h : p.read? c = some (a, d)) : d.left ≤ c.left := by
  obtain ⟨t, ht⟩ := hp.exists_reads h
  exact ht.left_le

/-- A match that does not stay where it is leaves less of the text. -/
theorem left_lt (hp : Upholds p) (h : p.read? c = some (a, d)) (hd : d.offset ≠ c.offset) :
    d.left < c.left := by
  obtain ⟨t, ht⟩ := hp.exists_reads h
  have := ht.offset_eq
  have := ht.left_eq
  omega

/-- The contract in terms of what is found. -/
theorem of_read? (hn : ∀ c, p.read? c = none → p.run c = .failure c)
    (hs : ∀ c a d, p.read? c = some (a, d) → ∃ t, c.Reads t d) : Upholds p := by
  intro c
  cases h : p.read? c with
  | none => rw [hn c h]; exact Reply.fair_failure c
  | some ad =>
    obtain ⟨a, d⟩ := ad
    obtain ⟨t, ht⟩ := hs c a d h
    rw [read?_eq_some_iff.1 h]
    exact Reply.fair_success a ht.text_eq ht.offset_le

end Upholds

end Parser

namespace ParserT

open BoolFormula.Parser (Upholds)

section Found

/-! ### What a combinator finds -/

variable (p : Parser α) (q : Parser β) (c : Cursor)

@[simp] theorem read?_map (f : α → β) :
    Parser.read? (p.map f) c = (p.read? c).map fun (a, d) => (f a, d) := by
  simp only [Parser.read?, run_map, Reply.map, Option.map_map]
  rfl

@[simp] theorem read?_pair : Parser.read? (p.pair q) c =
    (p.read? c).bind fun (a, d) => (q.read? d).map fun (b, e) => ((a, b), e) := by
  simp only [Parser.read?, run_pair]
  cases (p.run c).value with
  | none => rfl
  | some a =>
    cases h : (q.run (p.run c).rest).value <;>
      simp only [Reply.failure, Reply.success, Option.map_none, Option.map_some, Option.bind_some,
        h]

@[simp] theorem read?_orElse (p q : Parser α) :
    Parser.read? (p.orElse q) c = (p.read? c).or (q.read? c) := by
  simp only [Parser.read?, run_orElse]
  split
  · next h =>
    obtain ⟨a, ha⟩ := Option.isSome_iff_exists.1 h
    simp [ha]
  · next h =>
    have hn : (p.run c).value = none := by simpa [Reply.isSuccess] using h
    simp [hn]

@[simp] theorem read?_optional : Parser.read? p.optional c =
    match p.read? c with
    | none => some (none, c)
    | some (a, d) => some (some a, d) := by
  simp only [Parser.read?, run_optional]
  cases (p.run c).value <;> rfl

@[simp] theorem read?_fst (p : Parser (α × β)) :
    Parser.read? p.fst c = (p.read? c).map fun (a, d) => (a.1, d) := read?_map p c Prod.fst

@[simp] theorem read?_snd (p : Parser (α × β)) :
    Parser.read? p.snd c = (p.read? c).map fun (a, d) => (a.2, d) := read?_map p c Prod.snd

@[simp] theorem read?_traced (name : String) (write : α → String) :
    Parser.read? (p.traced name write) c = p.read? c := by
  simp only [Parser.read?, run_traced]

end Found

/-! ### Combinators keep the contract -/

variable {p : Parser α} {q : Parser β}

theorem upholds_fail : Upholds (fail : Parser α) := Reply.fair_failure

theorem upholds_map (f : α → β) (hp : Upholds p) : Upholds (p.map f) := by
  intro c
  have hc := hp c
  rw [run_map]
  refine ⟨fun h => hc.of_none ?_, fun b h => ?_⟩
  · simpa [Reply.map] using h
  · obtain ⟨a, ha, -⟩ : ∃ a, (p.run c).value = some a ∧ f a = b := by simpa [Reply.map] using h
    exact hc.of_some a ha

theorem upholds_fst {p : Parser (α × β)} (hp : Upholds p) : Upholds p.fst :=
  upholds_map Prod.fst hp

theorem upholds_snd {p : Parser (α × β)} (hp : Upholds p) : Upholds p.snd :=
  upholds_map Prod.snd hp

theorem upholds_pair (hp : Upholds p) (hq : Upholds q) : Upholds (p.pair q) := by
  intro c
  rw [run_pair]
  cases h : (p.run c).value with
  | none => exact Reply.fair_failure c
  | some a =>
    obtain ⟨ht, ho⟩ := (hp c).of_some a h
    dsimp only
    cases k : (q.run (p.run c).rest).value with
    | none => exact Reply.fair_failure c
    | some b =>
      obtain ⟨kt, ko⟩ := (hq _).of_some b k
      exact Reply.fair_success _ (kt.trans ht) (Nat.le_trans ho ko)

theorem upholds_orElse {q : Parser α} (hp : Upholds p) (hq : Upholds q) :
    Upholds (p.orElse q) := by
  intro c
  rw [run_orElse]
  split
  · exact hp c
  · exact hq c

theorem upholds_optional (hp : Upholds p) : Upholds p.optional := by
  intro c
  rw [run_optional]
  cases h : (p.run c).value with
  | none => exact Reply.fair_success _ rfl (Nat.le_refl _)
  | some a =>
    obtain ⟨ht, ho⟩ := (hp c).of_some a h
    exact Reply.fair_success _ ht ho

theorem upholds_traced (name : String) (write : α → String) (hp : Upholds p) :
    Upholds (p.traced name write) := hp

end ParserT

end BoolFormula
