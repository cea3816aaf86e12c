import BoolFormula.Proofs.Formula.Spacing

/-! What lies before the cursor does not matter. A parser is local if it answers as on the text from
the cursor on, but for the offset of where it stops, which counts from the start of the text. For a
parser that keeps the contract this means that two cursors with the same code points left, in
whatever texts and at whatever offsets, are not told apart. The parsers for code points and words
and the rules are local, and so is what is composed from local parsers that keep the contract. -/

namespace BoolFormula

open MonadAnswer (answer)

/-- Answers as on the text from the cursor on. Where it stops lies further by the offset of the
cursor. -/
def Parser.Local {α : Type} (p : Parser α) : Prop :=
  ∀ c : Cursor, (p.run c).value = (p.run (.ofList c.remaining)).value ∧
    (p.run c).rest.offset = c.offset + (p.run (.ofList c.remaining)).rest.offset

/-- A property of parsers that the primitive ones and the rules have, and that every combinator
keeps. -/
structure Compositional {m : Type → Type} [Monad m] [MonadTrace m]
    (P : {α : Type} → ParserT m α → Prop) : Prop where
  satisfy : ∀ f : Char → Bool, P (ParserT.satisfy f)
  char : ∀ x : Char, P (ParserT.char x)
  string : ∀ s : String, P (ParserT.string s)
  several : ∀ f g : Char → Bool, P (ParserT.several f g)
  identifier : P ParserT.identifier
  spaces : P ParserT.spaces
  token : ∀ s : String, P (ParserT.token s)
  exclamationMarks : P Grammar.exclamationMarks
  rule : ∀ r : Rule, P r.parser
  map : ∀ {α β : Type} {p : ParserT m α} (f : α → β), P p → P (p.map f)
  pair : ∀ {α β : Type} {p : ParserT m α} {q : ParserT m β}, P p → P q → P (p.pair q)
  orElse : ∀ {α : Type} {p q : ParserT m α}, P p → P q → P (p.orElse q)
  many : ∀ {α : Type} {p : ParserT m α}, P p → P p.many
  optional : ∀ {α : Type} {p : ParserT m α}, P p → P p.optional
  fst : ∀ {α β : Type} {p : ParserT m (α × β)}, P p → P p.fst
  snd : ∀ {α β : Type} {p : ParserT m (α × β)}, P p → P p.snd
  afterSpaces : ∀ {α : Type} {p : ParserT m α}, P p → P (ParserT.afterSpaces p)
  traced : ∀ {α : Type} {p : ParserT m α} (name : String) (write : α → String),
    P p → P (p.traced name write)

namespace Parser

variable {α β : Type} {p : Parser α} {q : Parser β} {c d : Cursor}

/-- The same value, with the same code points left after it. -/
def SameFound (x y : α × Cursor) : Prop := x.1 = y.1 ∧ x.2.remaining = y.2.remaining

/-- Does not tell two cursors apart that have the same code points left. -/
def Forward (p : Parser α) : Prop :=
  ∀ c d : Cursor, c.remaining = d.remaining → Option.Rel SameFound (p.read? c) (p.read? d)

/-- An answer stops in the same text, so its offset is known from what is left. -/
theorem Upholds.offset_add (hp : Upholds p) (c : Cursor) :
    (p.run c).rest.offset + (p.run c).rest.remaining.length = c.offset + c.remaining.length := by
  have hc := c.offset_add_left
  have hd := (p.run c).rest.offset_add_left
  rw [hp.text_rest] at hd
  rw [Cursor.length_remaining, Cursor.length_remaining]
  omega

theorem Forward.run_eq (hp : Upholds p) (h : Forward p) (hcd : c.remaining = d.remaining) :
    (p.run c).value = (p.run d).value ∧ (p.run c).rest.remaining = (p.run d).rest.remaining := by
  obtain ⟨hc, hd⟩ | ⟨⟨a, b⟩, ⟨_, e⟩, hc, hd, rfl, hbe⟩ := eq_none_or_exists_of_rel (h c d hcd)
  · rw [hp.failure hc, hp.failure hd]
    exact ⟨rfl, hcd⟩
  · rw [read?_eq_some_iff.1 hc, read?_eq_some_iff.1 hd]
    exact ⟨rfl, hbe⟩

theorem Forward.isLocal (hp : Upholds p) (h : Forward p) : p.Local := by
  intro c
  obtain ⟨hv, hrem⟩ := h.run_eq hp (Cursor.remaining_ofList c.remaining).symm
  have hc := hp.offset_add c
  have hd := hp.offset_add (.ofList c.remaining)
  have ho : (Cursor.ofList c.remaining).offset = 0 := rfl
  rw [← hrem, Cursor.remaining_ofList] at hd
  exact ⟨hv, by omega⟩

theorem Local.forward (hp : Upholds p) (h : p.Local) : Forward p := by
  intro c d hcd
  obtain ⟨hv, ho⟩ := h c
  obtain ⟨hv', ho'⟩ := h d
  rw [← hcd] at hv' ho'
  have hvalue : (p.run c).value = (p.run d).value := hv.trans hv'.symm
  cases hc : p.read? c with
  | none =>
    have hd : p.read? d = none := by
      rw [read?_eq_none_iff_value, ← hvalue, ← read?_eq_none_iff_value]
      exact hc
    rw [hd]
    exact .none
  | some ab =>
    obtain ⟨a, b⟩ := ab
    have hrun := read?_eq_some_iff.1 hc
    obtain ⟨e, hd⟩ : ∃ e, p.read? d = some (a, e) := by
      refine ⟨(p.run d).rest, ?_⟩
      rw [read?, ← hvalue, hrun]
      rfl
    rw [hd]
    obtain ⟨t, ht⟩ := hp.exists_reads hc
    obtain ⟨u, hu⟩ := hp.exists_reads hd
    -- Both go on by the same number of code points, of which the same are left.
    rw [hrun] at ho
    rw [read?_eq_some_iff.1 hd] at ho'
    have hlen : t.length = u.length := by
      have hb := ht.offset_eq
      have he := hu.offset_eq
      simp only [Reply.success] at ho ho'
      omega
    refine .some ⟨rfl, List.append_inj_right ?_ hlen⟩
    rw [← ht.remaining_eq, ← hu.remaining_eq, hcd]

/-- Under the contract the two notions are one. -/
theorem Upholds.local_iff (hp : Upholds p) : p.Local ↔ Forward p :=
  ⟨Local.forward hp, Forward.isLocal hp⟩

end Parser

namespace ParserT

open BoolFormula.Parser (Upholds Forward SameFound)

variable {α β : Type} {p : Parser α} {q : Parser β}

/-! ### Combinators -/

theorem forward_map (f : α → β) (hp : Forward p) : Forward (p.map f) := by
  intro c d h
  rw [read?_map, read?_map]
  exact rel_map (hp c d h) fun _ _ _ hab => ⟨congrArg f hab.1, hab.2⟩

theorem forward_pair (hp : Forward p) (hq : Forward q) : Forward (p.pair q) := by
  intro c d h
  rw [read?_pair, read?_pair]
  refine rel_bind (hp c d h) fun x y _ hxy => ?_
  exact rel_map (hq _ _ hxy.2) fun _ _ _ hab => ⟨Prod.ext hxy.1 hab.1, hab.2⟩

theorem forward_orElse {q : Parser α} (hp : Forward p) (hq : Forward q) :
    Forward (p.orElse q) := by
  intro c d h
  rw [read?_orElse, read?_orElse]
  exact rel_or (hp c d h) (hq c d h)

theorem forward_optional (hp : Forward p) : Forward p.optional := by
  intro c d h
  rw [read?_optional, read?_optional]
  obtain ⟨hc, hd⟩ | ⟨x, y, hc, hd, hxy⟩ := eq_none_or_exists_of_rel (hp c d h)
  · rw [hc, hd]
    exact .some ⟨rfl, h⟩
  · rw [hc, hd]
    exact .some ⟨congrArg some hxy.1, hxy.2⟩

/-- Whether a match stays where it is shows in what is left, so a repetition takes as many steps
from either cursor, by induction on what is left. -/
theorem forward_many (hu : Upholds p) (hp : Forward p) : Forward p.many := by
  intro c d h
  induction hn : c.left using Nat.strongRecOn generalizing c d with
  | ind n ih =>
    subst hn
    rw [read?_many hu, read?_many hu]
    obtain ⟨hc, hd⟩ | ⟨⟨a, b⟩, ⟨_, e⟩, hc, hd, rfl, hbe⟩ := eq_none_or_exists_of_rel (hp c d h)
    · rw [hc, hd]
      exact .some ⟨rfl, h⟩
    · rw [hc, hd]
      have hstay : b.offset = c.offset ↔ e.offset = d.offset := by
        have hb := hu.offset_add c
        have he := hu.offset_add d
        rw [Parser.read?_eq_some_iff.1 hc, h] at hb
        rw [Parser.read?_eq_some_iff.1 hd] at he
        have hlen := congrArg List.length (show b.remaining = e.remaining from hbe)
        simp only [Reply.success] at hb he
        omega
      dsimp only
      by_cases hbc : b.offset = c.offset
      · rw [if_pos hbc, if_pos (hstay.1 hbc)]
        exact .some ⟨rfl, h⟩
      · rw [if_neg hbc, if_neg (mt hstay.2 hbc)]
        refine rel_map (ih b.left (hu.left_lt hc hbc) b e hbe rfl) fun _ _ _ hab => ?_
        exact ⟨congrArg (a :: ·) hab.1, hab.2⟩

theorem forward_traced (name : String) (write : α → String) (hp : Forward p) :
    Forward (p.traced name write) := by
  intro c d h
  rw [read?_traced, read?_traced]
  exact hp c d h

/-! ### Code points and words -/

theorem forward_satisfy (f : Char → Bool) : Forward (satisfy f) := by
  intro c d h
  rw [read?_satisfy, read?_satisfy, Cursor.peek?_eq_head?, Cursor.peek?_eq_head?, h]
  cases d.remaining.head?.filter f with
  | none => exact .none
  | some x => exact .some ⟨rfl, by rw [Cursor.remaining_advance, Cursor.remaining_advance, h]⟩

theorem forward_string (s : String) : Forward (string s) := by
  have found {c d : Cursor} (h : c.remaining = d.remaining) {t : String} {e : Cursor}
      (he : Parser.read? (string s) c = some (t, e)) :
      ∃ e', Parser.read? (string s) d = some (t, e') ∧ e.remaining = e'.remaining := by
    obtain ⟨rfl, hr⟩ := read?_string_eq_some_iff.1 he
    have hd := Cursor.reads_skip (h ▸ hr.remaining_eq)
    refine ⟨_, read?_string_eq_some_iff.2 ⟨rfl, hd⟩, ?_⟩
    exact List.append_cancel_left (hr.remaining_eq.symm.trans (h.trans hd.remaining_eq))
  intro c d h
  cases hc : Parser.read? (string s) c with
  | some te =>
    obtain ⟨e', he', hrem⟩ := found h hc
    rw [he']
    exact .some ⟨rfl, hrem⟩
  | none =>
    cases hd : Parser.read? (string s) d with
    | none => exact .none
    | some te =>
      obtain ⟨e', he', -⟩ := found h.symm hd
      rw [hc] at he'
      cases he'

theorem forward_several (f g : Char → Bool) : Forward (several f g) := by
  have hg : Forward (satisfy g).many := forward_many (upholds_satisfy g) (forward_satisfy g)
  exact forward_map _ (forward_pair (forward_satisfy f) hg)

theorem forward_spaces : Forward spaces :=
  forward_map _ (forward_optional (forward_several isSpace isSpace))

theorem forward_afterSpaces (hp : Forward p) : Forward (afterSpaces p) :=
  forward_map _ (forward_pair forward_spaces hp)

theorem forward_token (s : String) : Forward (token s) := forward_afterSpaces (forward_string s)

end ParserT

namespace Grammar

open ParserT BoolFormula.Parser

/-! ### Rules -/

/-- No rule tells apart two cursors that have the same code points left. -/
theorem bisimulation_remaining : Bisimulation fun c d => c.remaining = d.remaining := by
  have skip {c d : Cursor} (h : c.remaining = d.remaining) :
      (c.dropWhile isSpace).remaining = (d.dropWhile isSpace).remaining := by
    rw [Cursor.remaining_dropWhile, Cursor.remaining_dropWhile, h]
  refine ⟨skip, fun x c d h => ?_, fun {c d} h => ?_⟩
  · simp only [Cursor.symbol?, Cursor.peek?_eq_head?, skip h]
    split
    · exact .some (by rw [Cursor.remaining_advance, Cursor.remaining_advance, skip h])
    · exact .none
  · rw [read?_variable_eq_word, read?_variable_eq_word, Cursor.peek?_eq_head?,
      Cursor.peek?_eq_head?, skip h]
    have hrest : ((c.dropWhile isSpace).dropWhile isIdentifierChar).remaining =
        ((d.dropWhile isSpace).dropWhile isIdentifierChar).remaining := by
      rw [Cursor.remaining_dropWhile, skip h, ← Cursor.remaining_dropWhile]
    cases (d.dropWhile isSpace).remaining.head?.filter isIdentifierStart with
    | none => exact .none
    | some x => exact .some ⟨rfl, hrest⟩

theorem forward_rule (r : Rule) : Forward r.parser := fun _ _ h => bisimulation_remaining.read? r h

theorem forward_exclamationMarks : Forward exclamationMarks :=
  forward_map _ (forward_many (upholds_token "!") (forward_token "!"))

end Grammar

theorem compositional_forward {m : Type → Type} [Monad m] [MonadTrace m] [MonadAnswer m] :
    Compositional fun {α : Type} (p : ParserT m α) =>
      Parser.Upholds p.silent ∧ Parser.Forward p.silent where
  satisfy f := by simpa using ⟨ParserT.upholds_satisfy f, ParserT.forward_satisfy f⟩
  char x := by simpa using ⟨ParserT.upholds_char x, ParserT.forward_satisfy _⟩
  string s := by simpa using ⟨ParserT.upholds_string s, ParserT.forward_string s⟩
  several f g := by simpa using ⟨ParserT.upholds_several f g, ParserT.forward_several f g⟩
  identifier := by simpa using ⟨ParserT.upholds_identifier, ParserT.forward_several _ _⟩
  spaces := by simpa using ⟨ParserT.upholds_spaces, ParserT.forward_spaces⟩
  token s := by simpa using ⟨ParserT.upholds_token s, ParserT.forward_token s⟩
  exclamationMarks := by
    simpa using ⟨Grammar.upholds_exclamationMarks, Grammar.forward_exclamationMarks⟩
  rule r := by simpa using ⟨Grammar.upholds_rule r, Grammar.forward_rule r⟩
  map f hp := by simpa using ⟨ParserT.upholds_map f hp.1, ParserT.forward_map f hp.2⟩
  pair hp hq := by
    simpa using ⟨ParserT.upholds_pair hp.1 hq.1, ParserT.forward_pair hp.2 hq.2⟩
  orElse hp hq := by
    simpa using ⟨ParserT.upholds_orElse hp.1 hq.1, ParserT.forward_orElse hp.2 hq.2⟩
  many hp := by simpa using ⟨ParserT.upholds_many hp.1, ParserT.forward_many hp.1 hp.2⟩
  optional hp := by simpa using ⟨ParserT.upholds_optional hp.1, ParserT.forward_optional hp.2⟩
  fst hp := by simpa using ⟨ParserT.upholds_fst hp.1, ParserT.forward_map _ hp.2⟩
  snd hp := by simpa using ⟨ParserT.upholds_snd hp.1, ParserT.forward_map _ hp.2⟩
  afterSpaces hp := by
    simpa using ⟨ParserT.upholds_afterSpaces hp.1, ParserT.forward_afterSpaces hp.2⟩
  traced name write hp := by
    simpa using ⟨ParserT.upholds_traced name write hp.1, ParserT.forward_traced name write hp.2⟩

/-- Being local is kept by composition, for parsers that keep the contract: so is every parser that
is put together from the primitive ones and the rules, under a trace or without. In particular a
rule that is run after `k` advances answers as on the text without its first `k` code points. -/
theorem compositional_local {m : Type → Type} [Monad m] [MonadTrace m] [MonadAnswer m] :
    Compositional (fun {α : Type} (p : ParserT m α) =>
      Parser.Upholds p.silent ∧ Parser.Local p.silent) ∧
    ∀ (r : Rule) (text : String) (k : Nat), ∃ x y : Reply Formula,
      answer ((r.parser : ParserT m Formula) (Cursor.advance^[k] (.ofString text))) = x ∧
      answer ((r.parser : ParserT m Formula) (.ofString (String.ofList (text.toList.drop k)))) = y ∧
      x.value = y.value ∧ x.rest.offset = min k text.length + y.rest.offset ∧
      x.rest.remaining = y.rest.remaining := by
  constructor
  · have heq : (fun {α : Type} (p : ParserT m α) =>
        Parser.Upholds p.silent ∧ Parser.Local p.silent) =
        fun {α : Type} p => Parser.Upholds p.silent ∧ Parser.Forward p.silent := by
      funext α p
      exact propext (and_congr_right fun hp => hp.local_iff)
    rw [heq]
    exact compositional_forward
  · intro r text k
    have hp := Grammar.upholds_rule r
    rw [Cursor.iterate_advance]
    have hrem : ((Cursor.ofString text).skip k).remaining =
        (Cursor.ofString (String.ofList (text.toList.drop k))).remaining := by
      rw [Cursor.remaining_skip, remaining_ofString, remaining_ofString, String.toList_ofList]
    have hoff : ((Cursor.ofString text).skip k).offset = min k text.length := by
      simp [Cursor.skip, Cursor.ofString, Cursor.ofList, String.length_toList]
    obtain ⟨hv, hrest⟩ := (Grammar.forward_rule r).run_eq hp hrem
    have hc := hp.offset_add ((Cursor.ofString text).skip k)
    have hd := hp.offset_add (.ofString (String.ofList (text.toList.drop k)))
    have hzero : (Cursor.ofString (String.ofList (text.toList.drop k))).offset = 0 := rfl
    rw [hoff, hrem, hrest] at hc
    refine ⟨_, _, rfl, rfl, ?_⟩
    simp only [ParserT.answer_apply, Grammar.silent_rule]
    exact ⟨hv, by omega, hrest⟩

/-- Marks and a negation that is not closed, behind a first operand and at the start of a text. -/
theorem compositional_local_marks :
    ∃ c : Cursor, c.offset = 3 ∧ c.remaining = "!!b|(a".toList ∧
      (Parser.run ((ParserT.token "!").many.pair Rule.disjunction.parser) c).value =
        (Parser.run ((ParserT.token "!").many.pair Rule.disjunction.parser)
          (.ofList "!!b|(a".toList)).value ∧
      (Parser.run ((ParserT.token "!").many.pair Rule.disjunction.parser) c).rest.offset =
        3 + (Parser.run ((ParserT.token "!").many.pair Rule.disjunction.parser)
          (.ofList "!!b|(a".toList)).rest.offset := by
  have hc := compositional_local (m := Id)
  have hp := hc.1.pair (hc.1.many (hc.1.token "!")) (hc.1.rule .disjunction)
  exact ⟨⟨"\x00 &!!b|(a".toList.toArray, 3, by decide⟩, rfl, rfl, hp.2 _⟩

end BoolFormula
