import BoolFormula.Proofs.Parser.Lexical

/-! Answers under a trace. A computation in `Id` or in `Traced` has an answer, on which alone its
continuation depends. `silent` is the parser that gives the answers of another and tells nothing:
it commutes with all combinators, so that what holds of silent parsers holds of traced ones. The
lemmas on congruence say that a combinator runs its parts at certain cursors only. -/

namespace BoolFormula

/-- Monads whose computations have an answer, which is all that is passed on. -/
class MonadAnswer (m : Type → Type) [Monad m] where
  answer {α : Type} : m α → α
  answer_pure {α : Type} (a : α) : answer (pure a : m α) = a
  answer_bind {α β : Type} (x : m α) (f : α → m β) : answer (x >>= f) = answer (f (answer x))
  bind_eq_bind {α β : Type} {x : m α} {f g : α → m β} :
    f (answer x) = g (answer x) → x >>= f = x >>= g

instance : MonadAnswer Id where
  answer x := x
  answer_pure _ := rfl
  answer_bind _ _ := rfl
  bind_eq_bind h := h

instance : MonadAnswer Traced where
  answer x := x.value
  answer_pure _ := rfl
  answer_bind _ _ := rfl
  bind_eq_bind {_ _ x f g} h := by
    change Traced.mk (f x.value).value _ = Traced.mk (g x.value).value _
    rw [show f x.value = g x.value from h]

open MonadAnswer (answer answer_pure answer_bind bind_eq_bind)

namespace ParserT

variable {m : Type → Type} [Monad m] [MonadAnswer m] {α β : Type}

/-- The parser that answers as `p` does and tells nothing. -/
def silent (p : ParserT m α) : Parser α := fun c => answer (p c)

theorem answer_apply (p : ParserT m α) (c : Cursor) : answer (p c) = Parser.run p.silent c := rfl

@[simp] theorem value_apply (p : ParserT Traced α) (c : Cursor) :
    (p c).value = Parser.run p.silent c := rfl

section Commutes

variable (p : ParserT m α) (q : ParserT m β)

@[simp] theorem silent_fail : silent (fail : ParserT m α) = fail := by
  funext c
  exact answer_pure _

@[simp] theorem silent_map (f : α → β) : silent (p.map f) = p.silent.map f := by
  funext c
  simp only [silent, map, answer_bind, answer_pure]
  rfl

@[simp] theorem silent_pair : silent (p.pair q) = p.silent.pair q.silent := by
  funext c
  change answer (p.pair q c) = Parser.run (p.silent.pair q.silent) c
  simp only [run_pair, pair, answer_bind, answer_apply p]
  cases (Parser.run p.silent c).value with
  | none => exact answer_pure _
  | some a =>
    simp only [answer_bind, answer_apply q]
    cases (Parser.run q.silent (Parser.run p.silent c).rest).value <;> exact answer_pure _

@[simp] theorem silent_orElse (p q : ParserT m α) :
    silent (p.orElse q) = p.silent.orElse q.silent := by
  funext c
  change answer (p.orElse q c) = Parser.run (p.silent.orElse q.silent) c
  rw [run_orElse, orElse, answer_bind]
  change answer (if (Parser.run p.silent c).isSuccess then _ else _) = _
  split
  · exact answer_pure _
  · rfl

@[simp] theorem silent_optional : silent p.optional = p.silent.optional := by
  funext c
  change answer (p.optional c) = Parser.run p.silent.optional c
  simp only [run_optional, optional, answer_bind, answer_apply p]
  cases (Parser.run p.silent c).value <;> exact answer_pure _

@[simp] theorem silent_fst (p : ParserT m (α × β)) : silent p.fst = p.silent.fst :=
  silent_map p Prod.fst

@[simp] theorem silent_snd (p : ParserT m (α × β)) : silent p.snd = p.silent.snd :=
  silent_map p Prod.snd

theorem silent_manyFrom (n : Nat) (found : List α) :
    silent (p.manyFrom n found) = p.silent.manyFrom n found := by
  induction n generalizing found with
  | zero =>
    funext c
    exact answer_pure _
  | succ n ih =>
    funext c
    change answer (p.manyFrom (n + 1) found c) = Parser.run (p.silent.manyFrom (n + 1) found) c
    rw [run_manyFrom_succ]
    simp only [manyFrom, answer_bind, answer_apply p]
    cases (Parser.run p.silent c).value with
    | none => exact answer_pure _
    | some a =>
      dsimp only
      rw [← ih]
      change answer (if (Parser.run p.silent c).rest.offset == c.offset then _ else _) = _
      split
      · exact answer_pure _
      · rfl

@[simp] theorem silent_many : silent p.many = p.silent.many := by
  funext c
  exact congrFun (silent_manyFrom p (c.left + 1) []) c

@[simp] theorem silent_satisfy (f : Char → Bool) :
    silent (satisfy f : ParserT m Char) = satisfy f := by
  funext c
  change answer (satisfy f c) = Parser.run (satisfy f) c
  rw [run_satisfy, satisfy]
  cases c.peek? <;> exact answer_pure _

@[simp] theorem silent_char (x : Char) : silent (char x : ParserT m Char) = char x :=
  silent_satisfy _

@[simp] theorem silent_string (s : String) : silent (string s : ParserT m String) = string s := by
  funext c
  change answer (string s c) = Parser.run (string s) c
  rw [run_string, string]
  cases skipList s.toList c <;> exact answer_pure _

@[simp] theorem silent_several (f g : Char → Bool) :
    silent (several f g : ParserT m String) = several f g := by simp [several]

@[simp] theorem silent_identifier : silent (identifier : ParserT m String) = identifier :=
  silent_several _ _

@[simp] theorem silent_spaces : silent (spaces : ParserT m String) = spaces := by simp [spaces]

@[simp] theorem silent_afterSpaces : silent (afterSpaces p) = afterSpaces p.silent := by
  simp [afterSpaces]

@[simp] theorem silent_token (s : String) : silent (token s : ParserT m String) = token s := by
  simp [token]

@[simp] theorem silent_traced [MonadTrace m] (name : String) (write : α → String) :
    silent (p.traced name write) = p.silent.traced name write := by
  funext c
  simp only [silent, traced, answer_bind, answer_pure]
  rfl

end Commutes

/-! ### Congruence -/

variable {p p' : ParserT m α} {q q' : ParserT m β} {c : Cursor}

omit [MonadAnswer m] in
protected theorem map_congr (f : α → β) (h : p c = p' c) : p.map f c = p'.map f c := by
  simp only [map, h]

/-- The second parser of a pair is run where the first one stops. -/
protected theorem pair_congr (hp : p c = p' c)
    (hq : ∀ a d, Parser.read? p'.silent c = some (a, d) → q d = q' d) :
    p.pair q c = p'.pair q' c := by
  simp only [pair, hp]
  apply bind_eq_bind
  cases h : (answer (p' c)).value with
  | none => rfl
  | some a =>
    have hr : Parser.read? p'.silent c = some (a, (answer (p' c)).rest) := by
      simp only [Parser.read?, Parser.run, silent, h, Option.map_some]
    dsimp only
    rw [hq _ _ hr]

omit [MonadAnswer m] in
/-- The second of two alternatives is run where the first one fails. -/
protected theorem orElse_congr {q q' : ParserT m α} (hp : p c = p' c) (hq : q c = q' c) :
    p.orElse q c = p'.orElse q' c := by
  simp only [orElse, hp, hq]

omit [MonadAnswer m] in
protected theorem optional_congr (h : p c = p' c) : p.optional c = p'.optional c := by
  simp only [optional, h]

omit [MonadAnswer m] in
protected theorem traced_congr [MonadTrace m] (name : String) (write : α → String)
    (h : p c = p' c) :
    p.traced name write c = p'.traced name write c := by
  simp only [traced, h]

end ParserT

end BoolFormula
