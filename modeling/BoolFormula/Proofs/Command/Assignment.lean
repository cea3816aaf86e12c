import BoolFormula.Command.Assignment
import BoolFormula.Proofs.Formula.Variables
import BoolFormula.Proofs.Text.Blank
import Mathlib.Data.List.TakeDrop

/-! Assignments. A text assigns a truth value to a name if both stand around its first equals sign,
with any blanks around them. Of a list of assignments the last one to a name counts, so what a name
is given does not depend on the order of assignments to others, on those that are made again later,
and, where a missing value is as good as a false one, on an only one that makes it false. -/

namespace BoolFormula.Command.Assignment

open Text (Trimmed)

/-! ### One assignment -/

/-- The words for a truth value. -/
def truthWords : Bool → List String
  | true => ["true", "1"]
  | false => ["false", "0"]

/-- The text is a written form of the assignment. -/
def Written (text : String) (a : Assignment) : Prop :=
  ∃ name value word, text.toList = name ++ '=' :: value ∧ '=' ∉ name ∧
    Trimmed name a.name.toList ∧ Trimmed value word.toList ∧ word ∈ truthWords a.value

variable {text : String} {name value : List Char}

theorem readValue?_eq_some_iff {word : String} {b : Bool} :
    readValue? word = some b ↔ word ∈ truthWords b := by
  unfold readValue?
  split
  · next h => rcases h with rfl | rfl <;> cases b <;> decide
  · split
    · next h => rcases h with rfl | rfl <;> cases b <;> decide
    · cases b <;> simp_all [truthWords]

theorem forall_bne (h : '=' ∉ name) : ∀ x ∈ name, (x != '=') = true := by
  intro x hx
  rw [bne_iff_ne]
  rintro rfl
  exact h hx

theorem ofString_of_notMem (h : '=' ∉ text.toList) : ofString text = .error (.noEquals text) := by
  have hspan : text.toList.span (· != '=') = (text.toList, []) := by
    rw [List.span_eq_takeWhile_dropWhile, List.takeWhile_eq_self_iff.2 (forall_bne h),
      List.dropWhile_eq_nil_iff.2 (forall_bne h)]
  rw [ofString, hspan]

theorem ofString_of_cut (h : text.toList = name ++ '=' :: value) (hname : '=' ∉ name) :
    ofString text = (readValue? (Text.trim (String.ofList value))).elim
      (.error (.notBoolean (Text.trim (String.ofList value))))
      fun b => .ok ⟨Text.trim (String.ofList name), b⟩ := by
  have hspan : text.toList.span (· != '=') = (name, '=' :: value) := by
    rw [h, List.span_eq_takeWhile_dropWhile, List.takeWhile_append_of_pos (forall_bne hname),
      List.dropWhile_append_of_pos (forall_bne hname)]
    simp
  simp only [ofString, hspan]
  cases readValue? (Text.trim (String.ofList value)) <;> rfl

/-- The texts that are accepted, with what they assign. -/
theorem ofString_eq_ok_iff {a : Assignment} : ofString text = .ok a ↔ Written text a := by
  constructor
  · intro h
    by_cases hmem : '=' ∈ text.toList
    · obtain ⟨name, value, hcut, hname⟩ := List.eq_append_cons_of_mem hmem
      have htrim (xs : List Char) : Trimmed xs (Text.trim (String.ofList xs)).toList := by
        simpa using Text.trim_eq_iff.1 (rfl : Text.trim (String.ofList xs) = _)
      rw [ofString_of_cut hcut hname] at h
      cases hvalue : readValue? (Text.trim (String.ofList value)) with
      | none =>
        rw [hvalue] at h
        cases h
      | some b =>
        rw [hvalue] at h
        cases h
        have hword := readValue?_eq_some_iff.1 hvalue
        exact ⟨name, value, _, hcut, hname, htrim name, htrim value, hword⟩
    · rw [ofString_of_notMem hmem] at h
      cases h
  · rintro ⟨name, value, word, hcut, hname, hn, hv, hword⟩
    have htrim {xs : List Char} {s : String} (h : Trimmed xs s.toList) :
        Text.trim (String.ofList xs) = s := Text.trim_eq_iff.2 (by simpa using h)
    rw [ofString_of_cut hcut hname, htrim hv, htrim hn, readValue?_eq_some_iff.2 hword,
      Option.elim_some]

/-! ### Lists of assignments -/

/-- The last of the assignments to the name gives it this value, or there is none to it and the
value is false. -/
def Final (given : List Assignment) (name : String) (value : Bool) : Prop :=
  (∃ before after, given = before ++ ⟨name, value⟩ :: after ∧ ∀ a ∈ after, a.name ≠ name) ∨
    (∀ a ∈ given, a.name ≠ name) ∧ value = false

/-- One change to a list of assignments that makes no difference to the formula. -/
inductive Inert (f : Formula) : List Assignment → List Assignment → Prop
  /-- Two assignments in a row to different names are exchanged. -/
  | exchange {before after : List Assignment} {a b : Assignment} : a.name ≠ b.name →
    Inert f (before ++ a :: b :: after) (before ++ b :: a :: after)
  /-- An assignment is left out, and there is a later one to the same name. -/
  | overridden {before after : List Assignment} {a : Assignment} : (∃ b ∈ after, b.name = a.name) →
    Inert f (before ++ a :: after) (before ++ after)
  /-- An assignment is left out, and its name is no variable of the formula. -/
  | irrelevant {before after : List Assignment} {a : Assignment} : a.name ∉ f.«variables» →
    Inert f (before ++ a :: after) (before ++ after)
  /-- The only assignment to a name is left out, and it makes the name false. -/
  | onlyFalse {before after : List Assignment} {a : Assignment} :
    (∀ b ∈ before ++ after, b.name ≠ a.name) → a.value = false →
      Inert f (before ++ a :: after) (before ++ after)

variable {given before after : List Assignment} {f : Formula} {x : String} {b : Bool}

theorem lookup_cons (a : Assignment) (given : List Assignment) (x : String) :
    lookup (a :: given) x = (lookup given x).or (if a.name = x then some a.value else none) := by
  -- What is found before is kept until another assignment to the name comes.
  suffices ∀ found, given.foldl (fun found a => if a.name = x then some a.value else found) found =
      (lookup given x).or found from this _
  induction given with
  | nil => exact fun _ => rfl
  | cons c given ih =>
    intro found
    rw [lookup, List.foldl_cons, List.foldl_cons, ih, ih]
    split
    · rw [Option.or_some, Option.some_or]
    · rw [Option.or_none]

theorem lookup_append (before after : List Assignment) (x : String) :
    lookup (before ++ after) x = (lookup after x).or (lookup before x) := by
  induction before with
  | nil => exact (Option.or_none).symm
  | cons a before ih => rw [List.cons_append, lookup_cons, lookup_cons, ih, Option.or_assoc]

theorem lookup_eq_none_iff : lookup given x = none ↔ ∀ a ∈ given, a.name ≠ x := by
  induction given with
  | nil => simp [lookup]
  | cons a given ih =>
    rw [lookup_cons, Option.or_eq_none_iff, ih, List.forall_mem_cons, and_comm]
    simp

theorem lookup_eq_some_iff : lookup given x = some b ↔
    ∃ before after, given = before ++ ⟨x, b⟩ :: after ∧ ∀ a ∈ after, a.name ≠ x := by
  constructor
  · intro h
    induction given with
    | nil => cases h
    | cons a given ih =>
      rw [lookup_cons] at h
      cases hlater : lookup given x with
      | some c =>
        rw [hlater, Option.some_or] at h
        obtain ⟨before, after, rfl, hafter⟩ := ih (hlater.trans h)
        exact ⟨a :: before, after, rfl, hafter⟩
      | none =>
        rw [hlater, Option.none_or] at h
        split at h
        · next hname =>
          obtain rfl := Option.some.inj h
          subst hname
          exact ⟨[], given, rfl, lookup_eq_none_iff.1 hlater⟩
        · cases h
  · rintro ⟨before, after, rfl, hafter⟩
    rw [lookup_append, lookup_cons, lookup_eq_none_iff.2 hafter, if_pos rfl, Option.none_or,
      Option.some_or]

/-- What is looked up is what the last assignment says, and false if there is none. -/
theorem final_iff : Final given x b ↔ (lookup given x).getD false = b := by
  constructor
  · rintro (hlast | ⟨hnone, rfl⟩)
    · rw [lookup_eq_some_iff.2 hlast, Option.getD_some]
    · rw [lookup_eq_none_iff.2 hnone, Option.getD_none]
  · rintro rfl
    cases h : lookup given x with
    | none => exact .inr ⟨lookup_eq_none_iff.1 h, rfl⟩
    | some b => exact .inl (lookup_eq_some_iff.1 h)

/-- No variable of the formula is given another value by the change. -/
theorem Inert.getD_lookup {other : List Assignment} (h : Inert f given other)
    (hx : x ∈ f.«variables») : (lookup given x).getD false = (lookup other x).getD false := by
  cases h with
  | @exchange before after a b hname =>
    simp only [lookup_append, lookup_cons]
    by_cases ha : a.name = x
    · have hb : b.name ≠ x := fun hb => hname (ha.trans hb.symm)
      rw [if_neg hb, Option.or_none, Option.or_none]
    · rw [if_neg ha, Option.or_none, Option.or_none]
  | @overridden before after a hlater =>
    simp only [lookup_append, lookup_cons]
    by_cases ha : a.name = x
    · obtain ⟨b, hb, hname⟩ := hlater
      have hne : lookup after x ≠ none := fun hnone =>
        lookup_eq_none_iff.1 hnone b hb (hname.trans ha)
      obtain ⟨c, hc⟩ := Option.ne_none_iff_exists'.1 hne
      rw [hc, Option.some_or, Option.some_or]
    · rw [if_neg ha, Option.or_none]
  | @irrelevant before after a hname =>
    have ha : a.name ≠ x := fun ha => hname (ha ▸ hx)
    simp only [lookup_append, lookup_cons, if_neg ha, Option.or_none]
  | @onlyFalse before after a hothers hvalue =>
    simp only [lookup_append, lookup_cons]
    by_cases ha : a.name = x
    · have hnone := List.forall_mem_append.1 hothers
      rw [ha, ← lookup_eq_none_iff, ← lookup_eq_none_iff] at hnone
      rw [hnone.1, hnone.2, if_pos ha, hvalue]
      rfl
    · rw [if_neg ha, Option.or_none]

end BoolFormula.Command.Assignment
