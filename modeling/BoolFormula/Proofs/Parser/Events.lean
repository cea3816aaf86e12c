import BoolFormula.Proofs.Parser.Answer

/-! What a traced run tells, in order. A combinator tells what its parts tell, at the cursors where
it runs them, and a traced parser tells of its own attempt after that. The parsers for code points
and words are quiet. -/

namespace BoolFormula.ParserT

open BoolFormula.Parser (read?)

variable {α β : Type}

/-- The events of a run at `c`, the earliest first. -/
def told (p : ParserT Traced α) (c : Cursor) : List Event := (p c).events.toList

/-- Tells nothing. -/
def Quiet (p : ParserT Traced α) : Prop := ∀ c, p.told c = []

section Told

variable (p : ParserT Traced α) (q : ParserT Traced β) (c : Cursor)

@[simp] theorem told_map (f : α → β) : (p.map f).told c = p.told c := by
  simp only [told, map, Traced.events_bind, Traced.events_pure, Array.append_empty]

@[simp] theorem told_fst (p : ParserT Traced (α × β)) : p.fst.told c = p.told c := told_map p c _

@[simp] theorem told_snd (p : ParserT Traced (α × β)) : p.snd.told c = p.told c := told_map p c _

/-- The second parser of a pair is run where the first one stops, if it matches. -/
theorem told_pair : (p.pair q).told c =
    p.told c ++ (read? p.silent c).elim [] fun (_, d) => q.told d := by
  simp only [told, pair, Traced.events_bind, Array.toList_append, read?, value_apply]
  cases (Parser.run p.silent c).value with
  | none => rfl
  | some a =>
    simp only [Option.map_some, Option.elim_some, Traced.events_bind, value_apply,
      Array.toList_append]
    cases (Parser.run q.silent (Parser.run p.silent c).rest).value <;> simp

theorem told_orElse (p q : ParserT Traced α) : (p.orElse q).told c =
    p.told c ++ if (read? p.silent c).isSome then [] else q.told c := by
  simp only [told, orElse, Traced.events_bind, Array.toList_append, value_apply, read?,
    Option.isSome_map, Reply.isSuccess]
  by_cases h : (Parser.run p.silent c).value.isSome = true <;> simp [h]

@[simp] theorem told_optional : p.optional.told c = p.told c := by
  simp only [told, optional, Traced.events_bind]
  cases (p c).value.value <;> simp

theorem events_traced (name : String) (write : α → String) :
    (p.traced name write c).events = (p c).events.push (.attempt name c
      ((p c).value.value.map fun a => (write a, (p c).value.rest.offset - c.offset))) := by
  simp [traced]

/-- A traced parser tells last of what it found itself. -/
theorem told_traced (name : String) (write : α → String) : (p.traced name write).told c =
    p.told c ++ [.attempt name c
      ((read? p.silent c).map fun (a, d) => (write a, d.offset - c.offset))] := by
  simp only [told, events_traced, Array.toList_push, read?, value_apply, Option.map_map]
  rfl

end Told

section Silence

variable {p : ParserT Traced α} {q : ParserT Traced β}

theorem quiet_map (f : α → β) (hp : Quiet p) : Quiet (p.map f) := fun c => by
  rw [told_map, hp]

theorem told_pair_of_quiet (hq : Quiet q) (c : Cursor) : (p.pair q).told c = p.told c := by
  rw [told_pair]
  cases read? p.silent c with
  | none => exact List.append_nil _
  | some ad =>
    have hd : q.told ad.2 = [] := hq ad.2
    simp [hd]

theorem quiet_pair (hp : Quiet p) (hq : Quiet q) : Quiet (p.pair q) := fun c => by
  rw [told_pair_of_quiet hq, hp]

theorem quiet_optional (hp : Quiet p) : Quiet p.optional := fun c => by rw [told_optional, hp]

theorem quiet_manyFrom (hp : Quiet p) (n : Nat) (found : List α) : Quiet (p.manyFrom n found) := by
  induction n generalizing found with
  | zero => exact fun _ => rfl
  | succ n ih =>
    intro c
    have hc : (p c).events.toList = [] := hp c
    simp only [told, manyFrom, Traced.events_bind, Array.toList_append, hc, List.nil_append]
    cases (p c).value.value with
    | none => rfl
    | some a =>
      dsimp only
      split
      · rfl
      · exact ih _ _

theorem quiet_many (hp : Quiet p) : Quiet p.many := fun c => quiet_manyFrom hp _ _ c

theorem quiet_satisfy (f : Char → Bool) : Quiet (satisfy f) := fun c => by
  unfold told satisfy
  cases c.peek? <;> rfl

theorem quiet_string (s : String) : Quiet (string s) := fun c => by
  unfold told string
  cases skipList s.toList c <;> rfl

theorem quiet_several (f g : Char → Bool) : Quiet (several f g) :=
  quiet_map _ (quiet_pair (quiet_satisfy f) (quiet_many (quiet_satisfy g)))

theorem quiet_spaces : Quiet spaces := quiet_map _ (quiet_optional (quiet_several _ _))

theorem quiet_afterSpaces (hp : Quiet p) : Quiet (afterSpaces p) :=
  quiet_map _ (quiet_pair quiet_spaces hp)

theorem quiet_identifier : Quiet identifier := quiet_several _ _

theorem quiet_token (s : String) : Quiet (token s) := quiet_afterSpaces (quiet_string s)

end Silence

end BoolFormula.ParserT
