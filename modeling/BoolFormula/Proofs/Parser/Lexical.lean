import BoolFormula.Proofs.Parser.Repetition

/-! What the lexical parsers find. A string is found where it is a start of what is left, and a
run of a class of code points is the longest there is. A symbol is found behind the longest run
of spaces, and `symbol?` is the cursor after it. -/

namespace BoolFormula

namespace Cursor

/-- The cursor after the symbol `x`, with the spaces in front of it, if it comes next. -/
def symbol? (x : Char) (c : Cursor) : Option Cursor :=
  if (c.dropWhile isSpace).peek? = some x then some (c.dropWhile isSpace).advance else none

variable {c d : Cursor} {x : Char} {w : List Char}

theorem symbol?_eq_some_iff : c.symbol? x = some d ↔
    (c.dropWhile isSpace).peek? = some x ∧ (c.dropWhile isSpace).advance = d := by
  unfold symbol?
  split <;> simp_all

theorem symbol?_eq_none_iff : c.symbol? x = none ↔ (c.dropWhile isSpace).peek? ≠ some x := by
  unfold symbol?
  split <;> simp_all

/-- One symbol at most comes next. -/
theorem symbol?_eq_none {y : Char} (h : c.symbol? x = some d) (hxy : x ≠ y) :
    c.symbol? y = none := by
  obtain ⟨hx, -⟩ := symbol?_eq_some_iff.1 h
  rw [symbol?_eq_none_iff, hx]
  simpa using hxy

theorem symbol?_dropWhile (x : Char) (c : Cursor) :
    (c.dropWhile isSpace).symbol? x = c.symbol? x := by
  simp only [symbol?, dropWhile_dropWhile]

/-- A symbol is found behind any run of spaces. -/
theorem symbol?_of_reads (hx : isSpace x = false) (hw : ∀ y ∈ w, isSpace y = true)
    (h : c.Reads (w ++ [x]) d) : c.symbol? x = some d := by
  obtain ⟨b, hb, hd⟩ := reads_append_iff.1 h
  obtain ⟨hp, hd⟩ := reads_cons_iff.1 hd
  have hs : c.dropWhile isSpace = b := by
    apply dropWhile_eq_of_reads hb hw
    intro y hy
    rw [hp] at hy
    cases hy
    exact hx
  rw [symbol?_eq_some_iff, hs]
  exact ⟨hp, (reads_nil_iff.1 hd).symm⟩

theorem exists_reads_of_symbol? (h : c.symbol? x = some d) :
    ∃ w, (∀ y ∈ w, isSpace y = true) ∧ c.Reads (w ++ [x]) d := by
  obtain ⟨hp, rfl⟩ := symbol?_eq_some_iff.1 h
  refine ⟨c.remaining.takeWhile isSpace, fun y hy => ?_, ?_⟩
  · exact List.all_eq_true.1 List.all_takeWhile y hy
  · exact (reads_dropWhile isSpace c).trans (reads_advance hp)

theorem left_lt_of_symbol? (h : c.symbol? x = some d) : d.left < c.left := by
  obtain ⟨w, -, hr⟩ := exists_reads_of_symbol? h
  have := hr.left_eq
  rw [List.length_append, List.length_singleton] at this
  omega

theorem offset_lt_of_symbol? (h : c.symbol? x = some d) : c.offset < d.offset := by
  obtain ⟨w, -, hr⟩ := exists_reads_of_symbol? h
  have := hr.offset_eq
  rw [List.length_append, List.length_singleton] at this
  omega

theorem text_of_symbol? (h : c.symbol? x = some d) : d.text = c.text := by
  obtain ⟨w, -, hr⟩ := exists_reads_of_symbol? h
  exact hr.text_eq

end Cursor

namespace ParserT

open BoolFormula.Parser (Upholds)

variable {α : Type} (f g : Char → Bool) (s : String) (p : Parser α) (c : Cursor)

/-! ### Single code points and strings -/

theorem read?_satisfy :
    Parser.read? (satisfy f) c = (c.peek?.filter f).map fun x => (x, c.advance) := by
  simp only [Parser.read?, run_satisfy]
  cases c.peek? with
  | none => rfl
  | some x => cases h : f x <;> simp [h, Option.filter, Reply.success, Reply.failure]

theorem read?_satisfy_eq_some_iff {x : Char} {d : Cursor} :
    Parser.read? (satisfy f) c = some (x, d) ↔ c.peek? = some x ∧ f x = true ∧ c.advance = d := by
  rw [read?_satisfy]
  cases c.peek? with
  | none => simp
  | some y => cases h : f y <;> simp [Option.filter, h] <;> grind

theorem upholds_satisfy : Upholds (satisfy f) := by
  refine Parser.Upholds.of_read? (fun c h => ?_) (fun c x d h => ?_)
  · rw [run_satisfy]
    rw [read?_satisfy] at h
    cases hx : c.peek? with
    | none => rfl
    | some x => simp_all [Option.filter]
  · obtain ⟨hx, -, rfl⟩ := (read?_satisfy_eq_some_iff f c).1 h
    exact ⟨[x], Cursor.reads_advance hx⟩

theorem upholds_char (x : Char) : Upholds (char x) := upholds_satisfy _

theorem skipList_eq_some_iff {xs : List Char} {c d : Cursor} :
    skipList xs c = some d ↔ c.Reads xs d := by
  induction xs generalizing c with
  | nil => simp [skipList, Cursor.reads_nil_iff, eq_comm]
  | cons x xs ih =>
    rw [skipList, Cursor.reads_cons_iff]
    split
    · next h => simp [h, ih]
    · next h => simp [h]

theorem read?_string_eq_some_iff {s t : String} {c d : Cursor} :
    Parser.read? (string s) c = some (t, d) ↔ t = s ∧ c.Reads s.toList d := by
  rw [← skipList_eq_some_iff]
  simp only [Parser.read?, run_string]
  cases skipList s.toList c with
  | none => simp [Reply.failure]
  | some e => simp [Reply.success, eq_comm]

theorem upholds_string : Upholds (string s) := by
  refine Parser.Upholds.of_read? (fun c h => ?_) (fun c t d h => ?_)
  · rw [run_string]
    simp only [Parser.read?, run_string] at h
    cases hs : skipList s.toList c with
    | none => rfl
    | some e => simp [hs, Reply.success] at h
  · exact ⟨s.toList, (read?_string_eq_some_iff.1 h).2⟩

/-! ### Runs -/

/-- The longest run of a class, found one by one. -/
theorem read?_many_satisfy :
    Parser.read? (satisfy f).many c = some (c.remaining.takeWhile f, c.dropWhile f) := by
  induction hr : c.remaining generalizing c with
  | nil =>
    have hn : c.peek? = none := Cursor.peek?_eq_none_iff.2 hr
    have hd : c.dropWhile f = c := Cursor.dropWhile_eq_self (by simp [hn])
    rw [read?_many (upholds_satisfy f), read?_satisfy, hn, hd]
    rfl
  | cons x r ih =>
    have hx : c.peek? = some x := by rw [Cursor.peek?_eq_head?, hr]; rfl
    have ha := Cursor.reads_advance hx
    rw [read?_many (upholds_satisfy f), read?_satisfy, hx]
    cases hf : f x with
    | false =>
      have hd : c.dropWhile f = c := Cursor.dropWhile_eq_self (by simp [hx, hf])
      simp [Option.filter, hf, hd]
    | true =>
      have ho : c.advance.offset ≠ c.offset := by rw [ha.offset_eq]; simp
      have hi := ih c.advance (by rw [Cursor.remaining_advance, hr]; rfl)
      have hd : c.dropWhile f = c.advance.dropWhile f :=
        Cursor.dropWhile_of_reads ha (by simp [hf])
      simp [Option.filter, hf, ho, hi, hd]

theorem read?_several : Parser.read? (several f g) c =
    (c.peek?.filter f).map fun x =>
      (String.ofList (x :: c.advance.remaining.takeWhile g), c.advance.dropWhile g) := by
  simp only [several, read?_map, read?_pair, read?_satisfy, read?_many_satisfy]
  cases c.peek?.filter f <;> rfl

theorem upholds_several : Upholds (several f g) :=
  upholds_map _ (upholds_pair (upholds_satisfy f) (upholds_many (upholds_satisfy g)))

theorem upholds_identifier : Upholds identifier := upholds_several _ _

/-- All spaces are skipped, and there may be none. -/
theorem read?_spaces : Parser.read? spaces c =
    some (String.ofList (c.remaining.takeWhile isSpace), c.dropWhile isSpace) := by
  simp only [spaces, read?_map, read?_optional, read?_several]
  cases hx : c.peek? with
  | none =>
    have hr := Cursor.peek?_eq_none_iff.1 hx
    have hd : c.dropWhile isSpace = c := Cursor.dropWhile_eq_self (by simp [hx])
    simp [hr, hd]
  | some x =>
    have ha := Cursor.reads_advance hx
    cases hs : isSpace x with
    | false =>
      have hd : c.dropWhile isSpace = c := Cursor.dropWhile_eq_self (by simp [hx, hs])
      simp [Option.filter, hs, hd, Cursor.peek?_eq_some_iff.1 hx]
    | true =>
      have hd : c.dropWhile isSpace = c.advance.dropWhile isSpace :=
        Cursor.dropWhile_of_reads ha (by simp [hs])
      simp [Option.filter, hs, hd, Cursor.peek?_eq_some_iff.1 hx]

theorem upholds_spaces : Upholds spaces :=
  upholds_map _ (upholds_optional (upholds_several _ _))

/-! ### Behind spaces -/

@[simp] theorem read?_afterSpaces :
    Parser.read? (afterSpaces p) c = p.read? (c.dropWhile isSpace) := by
  simp only [afterSpaces, read?_snd, read?_pair, read?_spaces, Option.bind_some, Option.map_map]
  cases p.read? (c.dropWhile isSpace) <;> rfl

theorem upholds_afterSpaces {p : Parser α} (hp : Upholds p) : Upholds (afterSpaces p) :=
  upholds_snd (upholds_pair upholds_spaces hp)

theorem upholds_token : Upholds (token s) := upholds_afterSpaces (upholds_string s)

theorem read?_token_eq_some_iff {s t : String} {c d : Cursor} :
    Parser.read? (token s) c = some (t, d) ↔ t = s ∧ (c.dropWhile isSpace).Reads s.toList d := by
  rw [token, read?_afterSpaces, read?_string_eq_some_iff]

/-- A token of one code point. -/
theorem read?_token {x : Char} (hs : s.toList = [x]) :
    Parser.read? (token s) c = (c.symbol? x).map fun d => (s, d) := by
  cases h : c.symbol? x with
  | none =>
    rw [Cursor.symbol?_eq_none_iff] at h
    refine Option.eq_none_iff_forall_ne_some.2 fun (t, d) hd => h ?_
    rw [read?_token_eq_some_iff, hs, Cursor.reads_cons_iff] at hd
    exact hd.2.1
  | some d =>
    obtain ⟨hx, rfl⟩ := Cursor.symbol?_eq_some_iff.1 h
    rw [Option.map_some, read?_token_eq_some_iff, hs]
    exact ⟨rfl, Cursor.reads_advance hx⟩

theorem left_lt_of_token {s t : String} {x : Char} {c d : Cursor} (hs : s.toList = [x])
    (h : Parser.read? (token s) c = some (t, d)) : d.left < c.left := by
  rw [read?_token s c hs] at h
  obtain ⟨e, he, h⟩ := Option.map_eq_some_iff.1 h
  cases h
  exact Cursor.left_lt_of_symbol? he

end ParserT

end BoolFormula
