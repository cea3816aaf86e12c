import BoolFormula.Proofs.Cursor.Lines
import BoolFormula.Proofs.Formula.Backtracking
import BoolFormula.Proofs.Formula.Printing

/-! The log of a run is truthful. Every line names a rule and a place, and tells what that rule
finds when it is run there on its own. To say which lines belong to a call, the journal of a run
also marks where each call starts: between its start and its end a call writes its own log, and
without the marks the journal is the log. -/

namespace BoolFormula

deriving instance DecidableEq for Event

/-- What a line of the log about the rule at `c` starts with. -/
def headline (r : Rule) (c : Cursor) : String :=
  "TRACE [" ++ r.name ++ ":" ++ toString c.line ++ ":" ++ toString c.col ++ "] "

/-- The line that reports `f`, found within `n` code points. -/
def matchLine (r : Rule) (c : Cursor) (f : Formula) (n : Nat) : String :=
  headline r c ++ ("matched " ++ f.describe ++ ", " ++ toString n ++ " consumed")

/-- The line that reports that nothing is found. -/
def missLine (r : Rule) (c : Cursor) : String := headline r c ++ "no match"

namespace Rule

/-- What the rule tells of itself at `c`, once it is over. -/
def finish (r : Rule) (c : Cursor) : Event := .attempt r.name c (r.outcome c)

/-- The lines of a traced run of the rule at `c`. -/
def log (r : Rule) (c : Cursor) : List String := (r.told c).map Event.line

end Rule

namespace Grammar

open ParserT BoolFormula.Parser

variable {r s : Rule} {c d : Cursor}

/-! ### Lines -/

/-- The line is about the rule at `c`. -/
def Heads (r : Rule) (c : Cursor) (l : String) : Prop := (headline r c).toList <+: l.toList

/-- The line tells the truth about the rule at `c`. -/
structure Truthful (r : Rule) (c : Cursor) (l : String) : Prop where
  matched : ∀ f n, l = matchLine r c f n ↔
    ∃ d, Parser.run r.parser c = .success f d ∧ d.offset = c.offset + n
  missed : l = missLine r c ↔ (Parser.run r.parser c).isSuccess = false

theorem colon_notMem_name (r : Rule) : ':' ∉ r.name.toList := by cases r <;> decide

/-- The start of a line names the rule and the place. -/
theorem headline_append_inj (ht : d.text = c.text) {u v : List Char}
    (h : (headline s d).toList ++ u = (headline r c).toList ++ v) : s = r ∧ d = c ∧ u = v := by
  simp only [headline, String.toList_append, List.append_assoc, Nat.toString_eq_ofList_toDigits,
    String.toList_ofList] at h
  obtain ⟨hname, hrest⟩ := Text.append_cons_inj (colon_notMem_name s) (colon_notMem_name r)
    (List.append_cancel_left h)
  obtain ⟨hline, hrest⟩ := Text.toDigits_append_inj (by decide) (by decide) (by decide) hrest
  obtain ⟨hcol, hrest⟩ := Text.toDigits_append_inj (by decide) (by decide) (by decide) hrest
  exact ⟨Rule.eq_of_name_eq (String.toList_inj.1 hname), Cursor.eq_of_line_col ht hline hcol,
    (List.cons.inj hrest).2⟩

theorem matchLine_inj {f g : Formula} {m n : Nat} (h : matchLine r c f m = matchLine r c g n) :
    f = g ∧ m = n := by
  have hl := congrArg String.toList h
  simp only [matchLine, String.toList_append, List.append_assoc, Nat.toString_eq_ofList_toDigits,
    String.toList_ofList] at hl
  obtain ⟨rfl, hrest⟩ := Formula.describe_append_inj
    (List.append_cancel_left (List.append_cancel_left hl))
  obtain ⟨rfl, -⟩ := Text.toDigits_append_inj (by decide) (by decide) (by decide)
    (List.append_cancel_left hrest)
  exact ⟨rfl, rfl⟩

theorem matchLine_ne_missLine {f : Formula} {n : Nat} : matchLine r c f n ≠ missLine r c := by
  intro h
  have hl := congrArg String.toList h
  simp only [matchLine, missLine, String.toList_append, List.append_assoc] at hl
  have := List.append_cancel_left hl
  simp at this

/-- A rule reports what it finds, or else that it finds nothing. -/
theorem line_finish (r : Rule) (c : Cursor) : (r.finish c).line =
    match r.read? c with
    | none => missLine r c
    | some (f, d) => matchLine r c f (d.offset - c.offset) := by
  unfold Rule.finish Rule.outcome
  cases r.read? c with
  | none => rfl
  | some fd => rfl

theorem heads_append (r : Rule) (c : Cursor) (rest : String) : Heads r c (headline r c ++ rest) :=
  ⟨_, String.toList_append.symm⟩

theorem heads_finish (r : Rule) (c : Cursor) : Heads r c (r.finish c).line := by
  rw [line_finish]
  cases r.read? c with
  | none => exact heads_append r c _
  | some fd => exact heads_append r c _

theorem heads_unique {l : String} (ht : d.text = c.text) (h : Heads s d l) (h' : Heads r c l) :
    s = r ∧ d = c := by
  obtain ⟨u, hu⟩ := h
  obtain ⟨v, hv⟩ := h'
  obtain ⟨hs, hd, -⟩ := headline_append_inj ht (hu.trans hv.symm)
  exact ⟨hs, hd⟩

theorem truthful_finish (r : Rule) (c : Cursor) : Truthful r c (r.finish c).line := by
  rw [line_finish]
  cases h : r.read? c with
  | none =>
    have hrun : Parser.run r.parser c = .failure c := (upholds_rule r).failure h
    constructor
    · intro f n
      simp [hrun, Reply.failure, Reply.success, matchLine_ne_missLine.symm]
    · simp [hrun, Reply.failure, Reply.isSuccess]
  | some fd =>
    obtain ⟨f, d⟩ := fd
    have hrun : Parser.run r.parser c = .success f d := read?_eq_some_iff.1 h
    have hle := (upholds_rule r).offset_le h
    dsimp only
    constructor
    · intro g n
      constructor
      · intro hl
        obtain ⟨rfl, rfl⟩ := matchLine_inj hl
        exact ⟨d, hrun, by omega⟩
      · rintro ⟨e, he, hn⟩
        cases hrun.symm.trans he
        rw [hn, Nat.add_sub_cancel_left]
    · simp [hrun, Reply.success, Reply.isSuccess, matchLine_ne_missLine]

/-! ### The log -/

theorem log_eq (r : Rule) (c : Cursor) :
    r.log c = ((r.calls c).flatMap fun q => q.1.log q.2) ++ [(r.finish c).line] := by
  rw [Rule.log, told_eq, List.map_append, List.map_flatMap]
  rfl

/-- Every line is the report of a rule from `c` on. -/
theorem mem_log {l : String} (h : l ∈ r.log c) : ∃ (s : Rule) (d : Cursor), d.text = c.text ∧
    c.offset ≤ d.offset ∧ l = (s.finish d).line := by
  induction r, c using call_induction with
  | step r c ih =>
    rw [log_eq] at h
    rcases List.mem_append.1 h with h | h
    · obtain ⟨q, hq, hl⟩ := List.mem_flatMap.1 h
      obtain ⟨s, d, ht, hle, rfl⟩ := ih q hq hl
      have hbelow := below_of_mem_calls hq
      exact ⟨s, d, ht.trans hbelow.text_eq, Nat.le_trans hbelow.offset_le hle, rfl⟩
    · exact ⟨r, c, rfl, Nat.le_refl _, List.mem_singleton.1 h⟩

/-! ### The journal -/

/-- Marks that the rule `r` is started at `c`. -/
def start (r : Rule) (c : Cursor) : Event := .attempt ("start of " ++ r.name) c none

/-- The same parsers, each of which tells of its start as well. -/
def announced (rule : Rule → ParserT Traced Formula) (r : Rule) : ParserT Traced Formula :=
  fun c => do
    MonadTrace.tell fun _ => start r c
    step rule r c

/-- The events of a run of the rule at `c`, with the start of every call. -/
def journal (r : Rule) (c : Cursor) : List Event := told (solve announced r) c

/-- Does the event mark a start? -/
def isStart : Event → Bool
  | .attempt name _ _ => Rule.all.any fun r => name == "start of " ++ r.name
  | .refusal _ _ => false

/-- The lines of the events other than starts. -/
def reported (es : List Event) : List String := (es.filter fun e => !isStart e).map Event.line

theorem guarded_announced : Guarded announced where
  upholds h r := guarded_step.upholds h r
  congr {F G r c} hG h := by
    have hstep := step_congr hG h
    simp only [announced, hstep]

/-- The marks do not change the answers. -/
theorem silent_announced (r : Rule) : silent (solve announced r) = r.parser := by
  -- The silent forms satisfy the equations of the grammar, which only the rules do.
  have hfix : step (fun s => silent (solve announced s)) = fun s => silent (solve announced s) := by
    funext s
    rw [← silent_step]
    exact (congrArg silent (guarded_announced.solve_eq s)).symm
  exact guarded_step.eq_solve hfix r

theorem journal_eq (r : Rule) (c : Cursor) : journal r c =
    start r c :: ((r.calls c).flatMap fun q => journal q.1 q.2) ++ [r.finish c] := by
  have hstart (F : Rule → ParserT Traced Formula) :
      told (announced F r) c = start r c :: told (step F r) c := by
    simp [told, announced]
  unfold journal
  rw [guarded_announced.solve_eq, hstart, told_step silent_announced]
  rfl

@[simp] theorem isStart_start (r : Rule) (c : Cursor) : isStart (start r c) = true :=
  List.any_eq_true.2 ⟨r, r.mem_all, beq_self_eq_true _⟩

@[simp] theorem isStart_attempt (r : Rule) (c : Cursor) (o : Option (String × Nat)) :
    isStart (.attempt r.name c o) = false := by
  cases r <;> rfl

theorem start_inj (h : start s d = start r c) : s = r ∧ d = c := by
  obtain ⟨hname, hd, -⟩ := Event.attempt.inj h
  exact ⟨Rule.eq_of_name_eq ((String.append_right_inj _).1 hname), hd⟩

/-- Without the starts the journal is the log. -/
theorem filter_journal (r : Rule) (c : Cursor) :
    (journal r c).filter (fun e => !isStart e) = r.told c := by
  induction r, c using call_induction with
  | step r c ih =>
    rw [journal_eq, told_eq, List.cons_append, List.filter_cons_of_neg (by simp), List.filter_append,
      List.filter_flatMap, List.flatMap_congr ih, List.filter_cons_of_pos]
    · rfl
    · simp [Rule.finish]

/-- Between the start of a call and its end lies what the rule tells on its own. -/
def Nested (es : List Event) : Prop :=
  ∀ before s d after, es = before ++ start s d :: after → ∃ inner later,
    after = inner ++ s.finish d :: later ∧
      (inner ++ [s.finish d]).filter (fun e => !isStart e) = s.told d

theorem nested_nil : Nested [] := by
  intro before s d after h
  simp at h

theorem nested_append {es fs : List Event} (he : Nested es) (hf : Nested fs) :
    Nested (es ++ fs) := by
  intro before s d after h
  -- The start lies in the second part, or else in the first, and then its end does too.
  rcases List.append_eq_append_iff.1 h with ⟨as, -, hs⟩ | ⟨bs, hb, hs⟩
  · exact hf as s d after hs
  · cases bs with
    | nil => exact hf [] s d after hs.symm
    | cons b bs =>
      obtain ⟨rfl, rfl⟩ := List.cons.inj hs
      obtain ⟨inner, later, rfl, hin⟩ := he before s d bs hb
      exact ⟨inner, later ++ fs, by simp, hin⟩

theorem nested_flatMap {α : Type} {xs : List α} {f : α → List Event}
    (h : ∀ x ∈ xs, Nested (f x)) : Nested (xs.flatMap f) := by
  induction xs with
  | nil => exact nested_nil
  | cons x xs ih =>
    rw [List.flatMap_cons]
    exact nested_append (h x List.mem_cons_self) (ih fun y hy => h y (List.mem_cons_of_mem x hy))

theorem nested_finish (r : Rule) (c : Cursor) : Nested [r.finish c] := by
  intro before s d after h
  have hmem : start s d ∈ [r.finish c] := by simp [h]
  have hs := isStart_start s d
  rw [List.mem_singleton.1 hmem, Rule.finish, isStart_attempt] at hs
  cases hs

/-- The journal nests, by induction on calls. -/
theorem nested_journal (r : Rule) (c : Cursor) : Nested (journal r c) := by
  induction r, c using call_induction with
  | step r c ih =>
    -- A start is that of the call itself, or it lies in the journal of one of the calls inside.
    have hinner := nested_append (nested_flatMap ih) (nested_finish r c)
    intro before s d after h
    rw [journal_eq] at h
    cases before with
    | cons b before => exact hinner before s d after (List.cons.inj h).2
    | nil =>
      obtain ⟨hs, rfl⟩ := List.cons.inj h
      obtain ⟨rfl, rfl⟩ := start_inj hs
      refine ⟨_, [], rfl, ?_⟩
      have := filter_journal r c
      rwa [journal_eq, List.cons_append, List.filter_cons_of_neg (by simp)] at this

/-- A call ends once: nothing within it tells of the same rule at the same place. -/
theorem attempt_notMem {inner : List Event}
    (h : (inner ++ [s.finish d]).filter (fun e => !isStart e) = s.told d)
    (o : Option (String × Nat)) : .attempt s.name d o ∉ inner := by
  intro hmem
  have honce := (once s d).thrifty.once
  rw [← h, List.filter_append, List.map_append, List.nodup_append] at honce
  refine honce.2.2 (some (s.name, d.offset)) ?_ (some (s.name, d.offset)) ?_ rfl
  · exact List.mem_map.2 ⟨_, List.mem_filter.2 ⟨hmem, by simp⟩, rfl⟩
  · exact List.mem_map.2 ⟨s.finish d, List.mem_filter.2 ⟨by simp, by simp [Rule.finish]⟩, rfl⟩

/-- A traced run answers as a silent one does, and its log ends with the line of the rule itself.
Every line is about one rule and one place, from `c` on, and tells what that rule finds there on its
own. The journal of the run is its log with the start of each call marked. From the start of a call
to the first event that tells of the rule at that place, which is its end, the lines are the log of
that rule on its own. -/
theorem log_truthful (r : Rule) (c : Cursor) :
    (r.parser c : Traced (Reply Formula)).value = Parser.run r.parser c ∧
    (∃ earlier own, r.log c = earlier ++ [own] ∧ Heads r c own) ∧
    (∀ l ∈ r.log c, ∃ s d, d.text = c.text ∧ c.offset ≤ d.offset ∧ Heads s d l ∧
      (∀ s' d', d'.text = c.text → Heads s' d' l → s' = s ∧ d' = d) ∧ Truthful s d l) ∧
    (solve announced r c).value = Parser.run r.parser c ∧ reported (journal r c) = r.log c ∧
    ∀ before s d after, journal r c = before ++ start s d :: after → ∃ inner later,
      after = inner ++ s.finish d :: later ∧ (∀ o, .attempt s.name d o ∉ inner) ∧
        reported (inner ++ [s.finish d]) = s.log d := by
  refine ⟨?_, ⟨_, _, log_eq r c, heads_finish r c⟩, ?_, ?_, ?_, ?_⟩
  · rw [value_apply, silent_rule]
  · intro l hl
    obtain ⟨s, d, ht, hle, rfl⟩ := mem_log hl
    refine ⟨s, d, ht, hle, heads_finish s d, ?_, truthful_finish s d⟩
    exact fun s' d' ht' h => heads_unique (ht'.trans ht.symm) h (heads_finish s d)
  · rw [value_apply, silent_announced]
  · rw [reported, filter_journal, Rule.log]
  · intro before s d after h
    obtain ⟨inner, later, hafter, hinner⟩ := nested_journal r c before s d after h
    refine ⟨inner, later, hafter, attempt_notMem hinner, ?_⟩
    rw [reported, hinner, Rule.log]

/-- Behind a line feed, a parenthesis that is never closed. -/
theorem log_truthful_unclosed :
    (∃ d, Parser.run Rule.atom.parser (Cursor.ofString "\n(a").advance.advance =
      .success (.var "a") d ∧ d.offset = 3) ∧
    ∃ inner later, (journal .expression (Cursor.ofString "\n(a").advance).drop 5 =
        inner ++ Rule.atom.finish (Cursor.ofString "\n(a").advance :: later ∧
      reported (inner ++ [Rule.atom.finish (Cursor.ofString "\n(a").advance]) =
        Rule.atom.log (Cursor.ofString "\n(a").advance := by
  obtain ⟨-, -, hlines, -, -, hcalls⟩ :=
    log_truthful .expression (Cursor.ofString "\n(a").advance
  constructor
  · have hmem : matchLine .atom (Cursor.ofString "\n(a").advance.advance (.var "a") 1 ∈
        Rule.expression.log (Cursor.ofString "\n(a").advance := by decide +kernel
    obtain ⟨s, d, -, -, -, hunique, htrue⟩ := hlines _ hmem
    obtain ⟨rfl, rfl⟩ := hunique .atom (Cursor.ofString "\n(a").advance.advance rfl
      (heads_append _ _ _)
    exact (htrue.matched _ _).1 rfl
  · have hsplit : journal .expression (Cursor.ofString "\n(a").advance =
        (journal .expression (Cursor.ofString "\n(a").advance).take 4 ++
          start .atom (Cursor.ofString "\n(a").advance ::
            (journal .expression (Cursor.ofString "\n(a").advance).drop 5 := by decide +kernel
    obtain ⟨inner, later, hafter, -, hlog⟩ := hcalls _ _ _ _ hsplit
    exact ⟨inner, later, hafter, hlog⟩

end Grammar

end BoolFormula
