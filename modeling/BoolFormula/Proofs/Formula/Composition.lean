import BoolFormula.Proofs.Formula.Recursion
import BoolFormula.Proofs.Parser.Events

/-! Composed parsers. Whatever is put together from the parsers for code points and words, the
rules and the combinators keeps the contract, under a trace or without, as long as every parser
that is brought in from outside keeps it. This is what makes another try from the same place
possible, and what a traced parser relies on when it tells how much it has consumed. -/

namespace BoolFormula

open MonadAnswer (answer)

/-- Parsers that are composed from those that keep the contract, with any parameters. -/
inductive Composed {m : Type → Type} [Monad m] [MonadTrace m] [MonadAnswer m] :
    {α : Type} → ParserT m α → Prop
  | upholding {α : Type} {p : ParserT m α} : Parser.Upholds p.silent → Composed p
  | fail {α : Type} : Composed (ParserT.fail : ParserT m α)
  | satisfy (f : Char → Bool) : Composed (ParserT.satisfy f)
  | char (x : Char) : Composed (ParserT.char x)
  | string (s : String) : Composed (ParserT.string s)
  | several (f g : Char → Bool) : Composed (ParserT.several f g)
  | identifier : Composed ParserT.identifier
  | spaces : Composed ParserT.spaces
  | token (s : String) : Composed (ParserT.token s)
  | exclamationMarks : Composed Grammar.exclamationMarks
  | rule (r : Rule) : Composed r.parser
  | map {α β : Type} {p : ParserT m α} (f : α → β) : Composed p → Composed (p.map f)
  | pair {α β : Type} {p : ParserT m α} {q : ParserT m β} :
    Composed p → Composed q → Composed (p.pair q)
  | orElse {α : Type} {p q : ParserT m α} : Composed p → Composed q → Composed (p.orElse q)
  | many {α : Type} {p : ParserT m α} : Composed p → Composed p.many
  | optional {α : Type} {p : ParserT m α} : Composed p → Composed p.optional
  | fst {α β : Type} {p : ParserT m (α × β)} : Composed p → Composed p.fst
  | snd {α β : Type} {p : ParserT m (α × β)} : Composed p → Composed p.snd
  | afterSpaces {α : Type} {p : ParserT m α} : Composed p → Composed (ParserT.afterSpaces p)
  | traced {α : Type} {p : ParserT m α} (name : String) (write : α → String) :
    Composed p → Composed (p.traced name write)

open ParserT in
/-- Composed parsers keep the contract. -/
theorem Composed.upholds {m : Type → Type} [Monad m] [MonadTrace m] [MonadAnswer m] {α : Type}
    {p : ParserT m α} (h : Composed p) : Parser.Upholds p.silent := by
  induction h with
  | upholding h => exact h
  | fail => simpa using upholds_fail
  | satisfy f => simpa using upholds_satisfy f
  | char x => simpa using upholds_char x
  | string s => simpa using upholds_string s
  | several f g => simpa using upholds_several f g
  | identifier => simpa using upholds_identifier
  | spaces => simpa using upholds_spaces
  | token s => simpa using upholds_token s
  | exclamationMarks => simpa using Grammar.upholds_exclamationMarks
  | rule r => simpa using Grammar.upholds_rule r
  | map f _ ih => simpa using upholds_map f ih
  | pair _ _ ih₁ ih₂ => simpa using upholds_pair ih₁ ih₂
  | orElse _ _ ih₁ ih₂ => simpa using upholds_orElse ih₁ ih₂
  | many _ ih => simpa using upholds_many ih
  | optional _ ih => simpa using upholds_optional ih
  | fst _ ih => simpa using upholds_fst ih
  | snd _ ih => simpa using upholds_snd ih
  | afterSpaces _ ih => simpa using upholds_afterSpaces ih
  | traced name write _ ih => simpa using upholds_traced name write ih

/-- A composed parser that fails hands back the cursor it was given, and one that matches stops in
the same text, not before that cursor and not behind the end, so that what is consumed and what
remains are the whole text at any time. Under a trace the count that is told with a match leads
from where the parser was run to where it stopped. -/
theorem composed_contract :
    (∀ {m : Type → Type} [Monad m] [MonadTrace m] [MonadAnswer m] {α : Type} {p : ParserT m α},
      Composed p → ∀ c : Cursor, ∃ r : Reply α, answer (p c) = r ∧
        (r.value = none → r.rest = c) ∧
        (r.value ≠ none →
          r.rest.text = c.text ∧ c.offset ≤ r.rest.offset ∧ r.rest.offset ≤ c.text.size) ∧
        r.rest.consumed ++ r.rest.remaining = c.text.toList) ∧
    ∀ {α : Type} {p : ParserT Traced α}, Composed p →
      ∀ (name : String) (write : α → String) (c : Cursor), ∃ outcome,
        (p.traced name write c).events = (p c).events.push (.attempt name c outcome) ∧
        (outcome = none ↔ (p c).value.value = none) ∧
        ∀ written n, outcome = some (written, n) → c.offset + n = (p c).value.rest.offset := by
  constructor
  · intro m _ _ _ α p hp c
    have hc : (answer (p c)).Fair c := hp.upholds c
    have htext : (answer (p c)).rest.text = c.text := by
      cases h : (answer (p c)).value with
      | none => rw [hc.of_none h]
      | some a => exact (hc.of_some a h).1
    refine ⟨_, rfl, hc.of_none, fun h => ?_, ?_⟩
    · obtain ⟨a, ha⟩ := Option.ne_none_iff_exists'.1 h
      obtain ⟨-, hle⟩ := hc.of_some a ha
      exact ⟨htext, hle, htext ▸ (answer (p c)).rest.offset_le⟩
    · rw [Cursor.consumed_append_remaining, htext]
  · intro α p hp name write c
    have hc : (p c).value.Fair c := hp.upholds c
    refine ⟨_, ParserT.events_traced p c name write, by simp, fun written n h => ?_⟩
    obtain ⟨a, ha, h⟩ := Option.map_eq_some_iff.1 h
    cases h
    obtain ⟨-, hle⟩ := hc.of_some a ha
    omega

/-- Marks in front of an atom that is never closed. The marks alone match. -/
theorem composed_contract_unclosed :
    (Parser.run ((ParserT.token "!").many.pair Rule.atom.parser) (.ofString "! !(a")).rest =
        .ofString "! !(a" ∧
      ∃ written n, 0 + n = 3 ∧
        Traced.events ((ParserT.token "!").many.traced "marks" toString (.ofString "! !(a")) =
          #[.attempt "marks" (.ofString "! !(a") (some (written, n))] := by
  constructor
  · obtain ⟨r, hr, hnone, -⟩ := composed_contract.1
      (m := Id) (.pair (.many (.token "!")) (.rule .atom)) (.ofString "! !(a")
    subst hr
    exact hnone (by decide +kernel)
  · obtain ⟨outcome, hev, hnone, hcount⟩ := composed_contract.2
      (.many (.token "!")) "marks" toString (.ofString "! !(a")
    cases outcome with
    | none => exact absurd (hnone.1 rfl) (by decide +kernel)
    | some vn => exact ⟨vn.1, vn.2, hcount _ _ rfl, by rw [hev]; rfl⟩

end BoolFormula
