import BoolFormula.Proofs.Parser.Answer

/-! Exact matches. A string is matched where it is a start of what is left of the text, and nowhere
else, and a run of a class is matched up to its last code point. The end of the text is read as
U+0000, which a text may hold as well, and which a class or a string may ask for. What is matched
are code points of the text only: the end is never one of them. -/

namespace BoolFormula

open MonadAnswer (answer)

/-- The longest start of the code points `r` with all of it in the class `g`. -/
structure LongestRun (g : Char → Bool) (r t : List Char) : Prop where
  start : t <+: r
  inside : ∀ x ∈ t, g x = true
  longest : ∀ u, u <+: r → (∀ x ∈ u, g x = true) → u <+: t

namespace Reply

variable {α : Type} {c : Cursor} {P : Prop} {r : Reply α}

/-- A match of the code points `t`, which come next at `c`, with the value `a`. -/
structure Takes (c : Cursor) (t : List Char) (a : α) (r : Reply α) : Prop where
  value_eq : r.value = some a
  reads : c.Reads t r.rest
  offset_eq : r.rest.offset = c.offset + t.length

/-- A match exactly if `P` holds. A failure hands back the cursor. -/
structure Decides (c : Cursor) (P : Prop) (r : Reply α) : Prop where
  isSuccess_iff : r.isSuccess = true ↔ P
  failure : r.isSuccess = false → r = .failure c

theorem Decides.eq_failure (h : r.Decides c P) (hP : ¬P) : r = .failure c :=
  h.failure (Bool.eq_false_iff.2 (mt h.isSuccess_iff.1 hP))

end Reply

/-! ### Starts of what is left -/

theorem longestRun_takeWhile (g : Char → Bool) (r : List Char) :
    LongestRun g r (r.takeWhile g) where
  start := List.takeWhile_prefix g
  inside := List.all_eq_true.1 List.all_takeWhile
  longest u hu hg := by
    obtain ⟨v, rfl⟩ := hu
    rw [List.takeWhile_append_of_pos hg]
    exact List.prefix_append _ _

theorem Cursor.exists_reads_iff {c : Cursor} {t : List Char} :
    (∃ d, c.Reads t d) ↔ t <+: c.remaining := by
  constructor
  · rintro ⟨d, hd⟩
    exact ⟨d.remaining, hd.remaining_eq.symm⟩
  · rintro ⟨u, hu⟩
    exact ⟨_, Cursor.reads_skip hu.symm⟩

namespace Parser

variable {α : Type} {p : Parser α} {c d : Cursor} {a : α} {t : List Char} {P : Prop}

theorem takes_of_read? (h : p.read? c = some (a, d)) (hr : c.Reads t d) :
    (p.run c).Takes c t a := by
  rw [read?_eq_some_iff.1 h]
  exact ⟨rfl, hr, hr.offset_eq⟩

/-- Under the contract it is enough to know where something is found. -/
theorem Upholds.decides (hp : Upholds p) (h : (∃ a d, p.read? c = some (a, d)) ↔ P) :
    (p.run c).Decides c P := by
  cases hc : p.read? c with
  | none =>
    have hP : ¬P := fun hP => by simpa [hc] using h.2 hP
    rw [hp.failure hc]
    exact ⟨iff_of_false Bool.false_ne_true hP, fun _ => rfl⟩
  | some ad =>
    obtain ⟨a, d⟩ := ad
    rw [read?_eq_some_iff.1 hc]
    exact ⟨iff_of_true rfl (h.1 ⟨a, d, hc⟩), fun hfail => nomatch hfail⟩

end Parser

/-! ### What is matched -/

namespace ParserT

open BoolFormula.Parser (Upholds takes_of_read?)

variable {α : Type} {f g : Char → Bool} {c : Cursor} {x : Char} {rest : List Char} {s : String}

/-- A parser that asks for a first code point matches where there is one in the class. -/
theorem decides_of_filter {p : Parser α} {found : Char → α × Cursor} (hp : Upholds p)
    (h : p.read? c = (c.peek?.filter f).map found) :
    (p.run c).Decides c (∃ x rest, c.remaining = x :: rest ∧ f x = true) := by
  refine hp.decides ?_
  rw [h, Cursor.peek?_eq_head?]
  cases c.remaining with
  | nil => simp
  | cons x rest =>
    rw [List.head?_cons, Option.filter_some]
    cases hf : f x with
    | false => simp [hf]
    | true => exact iff_of_true ⟨_, _, rfl⟩ ⟨x, rest, rfl, hf⟩

theorem takes_satisfy (hr : c.remaining = x :: rest) (hf : f x = true) :
    (Parser.run (satisfy f) c).Takes c [x] x := by
  have hx : c.peek? = some x := by rw [Cursor.peek?_eq_head?, hr, List.head?_cons]
  exact takes_of_read? ((read?_satisfy_eq_some_iff f c).2 ⟨hx, hf, rfl⟩) (Cursor.reads_advance hx)

/-- Behind the first code point comes the longest run, which the end of the text cuts off. -/
theorem takes_several (g : Char → Bool) (hr : c.remaining = x :: rest) (hf : f x = true) :
    (Parser.run (several f g) c).Takes c (x :: rest.takeWhile g)
      (String.ofList (x :: rest.takeWhile g)) := by
  have hx : c.peek? = some x := by rw [Cursor.peek?_eq_head?, hr, List.head?_cons]
  have hrest : c.advance.remaining = rest := by rw [Cursor.remaining_advance, hr, List.tail_cons]
  have hread : Parser.read? (several f g) c =
      some (String.ofList (x :: rest.takeWhile g), c.advance.dropWhile g) := by
    rw [read?_several, hx, Option.filter_some, if_pos hf, Option.map_some, hrest]
  have hrun := Cursor.reads_dropWhile g c.advance
  rw [hrest] at hrun
  exact takes_of_read? hread ((Cursor.reads_advance hx).trans hrun)

theorem takes_spaces (c : Cursor) : (Parser.run spaces c).Takes c
    (c.remaining.takeWhile isSpace) (String.ofList (c.remaining.takeWhile isSpace)) :=
  takes_of_read? (read?_spaces c) (Cursor.reads_dropWhile isSpace c)

theorem run_spaces_of_end (hend : c.remaining = []) :
    Parser.run spaces c = .success "" c := by
  have hstay : c.dropWhile isSpace = c :=
    Cursor.dropWhile_eq_self (by simp [Cursor.peek?_eq_none_iff.2 hend])
  rw [← Parser.read?_eq_some_iff, read?_spaces, hstay, hend, List.takeWhile_nil, String.ofList_nil]

theorem decides_string (s : String) (c : Cursor) :
    (Parser.run (string s) c).Decides c (s.toList <+: c.remaining) := by
  refine (upholds_string s).decides ?_
  simp only [read?_string_eq_some_iff, ← Cursor.exists_reads_iff, exists_and_left, exists_eq_left]

theorem takes_string (h : s.toList <+: c.remaining) :
    (Parser.run (string s) c).Takes c s.toList s := by
  obtain ⟨d, hd⟩ := Cursor.exists_reads_iff.2 h
  exact takes_of_read? (read?_string_eq_some_iff.2 ⟨rfl, hd⟩) hd

theorem decides_token (s : String) (c : Cursor) :
    (Parser.run (token s) c).Decides c (s.toList <+: c.remaining.dropWhile isSpace) := by
  refine (upholds_token s).decides ?_
  simp only [read?_token_eq_some_iff, ← Cursor.remaining_dropWhile, ← Cursor.exists_reads_iff,
    exists_and_left, exists_eq_left]

theorem takes_token (h : s.toList <+: c.remaining.dropWhile isSpace) :
    (Parser.run (token s) c).Takes c (c.remaining.takeWhile isSpace ++ s.toList) s := by
  rw [← Cursor.remaining_dropWhile] at h
  obtain ⟨d, hd⟩ := Cursor.exists_reads_iff.2 h
  exact takes_of_read? (read?_token_eq_some_iff.2 ⟨rfl, hd⟩)
    ((Cursor.reads_dropWhile isSpace c).trans hd)

end ParserT

/-- The lexical parsers match exactly what comes next. A code point is matched if it is in the
class, and a word if its first code point is, up to the end of the longest run behind it. All spaces
that come next are matched, and there may be none. A string is matched if it is a start of what is
left, and a token if it is one behind the longest run of spaces, whatever the string is. A failure
hands back the cursor. At the end of the text, though it is read as U+0000, nothing is matched but
the empty string. -/
theorem lexical_exact {m : Type → Type} [Monad m] [MonadAnswer m] (c : Cursor) :
    (∀ f : Char → Bool, ∃ r, answer (ParserT.satisfy (m := m) f c) = r ∧
      r.Decides c (∃ x rest, c.remaining = x :: rest ∧ f x = true) ∧
      ∀ x rest, c.remaining = x :: rest → f x = true → r.Takes c [x] x) ∧
    (∀ f g : Char → Bool, ∃ r, answer (ParserT.several (m := m) f g c) = r ∧
      r.Decides c (∃ x rest, c.remaining = x :: rest ∧ f x = true) ∧
      ∀ x rest, c.remaining = x :: rest → f x = true →
        ∃ run, LongestRun g rest run ∧ r.Takes c (x :: run) (String.ofList (x :: run))) ∧
    (∃ run, LongestRun isSpace c.remaining run ∧
      (answer (ParserT.spaces (m := m) c)).Takes c run (String.ofList run)) ∧
    (∀ s : String, ∃ r, answer (ParserT.string (m := m) s c) = r ∧
      r.Decides c (s.toList <+: c.remaining) ∧
      (s.toList <+: c.remaining → r.Takes c s.toList s)) ∧
    (∃ run rest, LongestRun isSpace c.remaining run ∧ c.remaining = run ++ rest ∧
      ∀ s : String, ∃ r, answer (ParserT.token (m := m) s c) = r ∧
        r.Decides c (s.toList <+: rest) ∧
        (s.toList <+: rest → r.Takes c (run ++ s.toList) s)) ∧
    (c.remaining = [] → c.symbol = Cursor.endSymbol ∧
      (∀ f : Char → Bool, answer (ParserT.satisfy (m := m) f c) = .failure c) ∧
      (∀ f g : Char → Bool, answer (ParserT.several (m := m) f g c) = .failure c) ∧
      answer (ParserT.spaces (m := m) c) = .success "" c ∧
      ∀ s : String, s ≠ "" → answer (ParserT.string (m := m) s c) = .failure c ∧
        answer (ParserT.token (m := m) s c) = .failure c) := by
  simp only [ParserT.answer_apply, ParserT.silent_satisfy, ParserT.silent_several,
    ParserT.silent_spaces, ParserT.silent_string, ParserT.silent_token]
  have hsatisfy (f : Char → Bool) := ParserT.decides_of_filter (ParserT.upholds_satisfy f)
    (ParserT.read?_satisfy f c)
  have hseveral (f g : Char → Bool) := ParserT.decides_of_filter (ParserT.upholds_several f g)
    (ParserT.read?_several f g c)
  refine ⟨fun f => ?_, fun f g => ?_, ?_, fun s => ?_, ?_, fun hend => ?_⟩
  · exact ⟨_, rfl, hsatisfy f, fun x rest hr hf => ParserT.takes_satisfy hr hf⟩
  · refine ⟨_, rfl, hseveral f g, fun x rest hr hf => ?_⟩
    exact ⟨_, longestRun_takeWhile g rest, ParserT.takes_several g hr hf⟩
  · exact ⟨_, longestRun_takeWhile isSpace _, ParserT.takes_spaces c⟩
  · exact ⟨_, rfl, ParserT.decides_string s c, ParserT.takes_string⟩
  · refine ⟨_, _, longestRun_takeWhile isSpace _, List.takeWhile_append_dropWhile.symm, fun s => ?_⟩
    exact ⟨_, rfl, ParserT.decides_token s c, ParserT.takes_token⟩
  · -- No code point comes next, and so none of a class and no start but the empty one.
    have hnone (f : Char → Bool) : ¬∃ x rest, c.remaining = x :: rest ∧ f x = true := by simp [hend]
    have hstart {s : String} (hs : s ≠ "") : ¬s.toList <+: [] := by simpa using hs
    refine ⟨?_, fun f => (hsatisfy f).eq_failure (hnone f),
      fun f g => (hseveral f g).eq_failure (hnone f), ?_, fun s hs => ⟨?_, ?_⟩⟩
    · rw [Cursor.symbol, Cursor.peek?_eq_none_iff.2 hend, Option.getD_none]
    · exact ParserT.run_spaces_of_end hend
    · exact (ParserT.decides_string s c).eq_failure (hend ▸ hstart hs)
    · refine (ParserT.decides_token s c).eq_failure ?_
      rw [hend]
      exact hstart hs

/-- In a text of two U+0000 the run of them ends with the second, and behind that no third one is
found. -/
theorem lexical_exact_nul :
    (∃ run, LongestRun (· == '\x00') ['\x00'] run ∧
      (Parser.run (ParserT.several (· == '\x00') (· == '\x00')) (.ofString "\x00\x00")).Takes
        (.ofString "\x00\x00") ('\x00' :: run) (String.ofList ('\x00' :: run))) ∧
    (Parser.run (ParserT.string "\x00") (.ofString "\x00\x00")).Takes
      (.ofString "\x00\x00") ['\x00'] "\x00" ∧
    Parser.run (ParserT.token "\x00") ⟨"\x00\x00".toList.toArray, 2, by decide⟩ =
      .failure ⟨"\x00\x00".toList.toArray, 2, by decide⟩ := by
  obtain ⟨-, hseveral, -, hstring, -⟩ := lexical_exact (m := Id) (.ofString "\x00\x00")
  obtain ⟨-, -, -, -, -, hend⟩ :=
    lexical_exact (m := Id) ⟨"\x00\x00".toList.toArray, 2, by decide⟩
  obtain ⟨_, rfl, -, htakes⟩ := hseveral (· == '\x00') (· == '\x00')
  obtain ⟨_, rfl, -, hstart⟩ := hstring "\x00"
  obtain ⟨-, -, -, -, hfails⟩ := hend rfl
  refine ⟨htakes '\x00' ['\x00'] rfl rfl, hstart ⟨['\x00'], rfl⟩, ?_⟩
  exact (hfails "\x00" (by decide)).2

end BoolFormula
