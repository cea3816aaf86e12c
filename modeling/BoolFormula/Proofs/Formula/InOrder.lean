import BoolFormula.Proofs.Formula.Language
import BoolFormula.Proofs.Formula.Variables

/-! Reading loses nothing, adds nothing and keeps the order. The symbols of a formula, from its
first operand to its last one, are those of the text without spaces and parentheses, and its
variables are the words of the text. Both hold of every derivation, by induction on it: what stands
between the parts of a derived text is a run of spaces and symbols, so a word of the whole is a word
of one of the parts. -/

namespace BoolFormula

/-! ### Words -/

/-- The text `w` is a word of the text `t`: a run of word characters that is not part of a longer
one. -/
def IsWord (w t : List Char) : Prop :=
  w ≠ [] ∧ (∀ x ∈ w, WordChar x) ∧
    ∃ u v, t = u ++ w ++ v ∧ (∀ x ∈ u.getLast?, ¬ WordChar x) ∧ ∀ x ∈ v.head?, ¬ WordChar x

variable {s t u v w : List Char} {x : Char}

/-- A code point that is not in `w` lies on one side of it. -/
theorem cut_around (hx : x ∉ w) (h : s ++ x :: t = u ++ w ++ v) :
    (∃ a, s = u ++ w ++ a ∧ v = a ++ x :: t) ∨ ∃ b, u = s ++ x :: b ∧ t = b ++ w ++ v := by
  obtain ⟨a, hs, hv⟩ | ⟨a, hs, hv⟩ := List.append_eq_append_iff.1 h
  · obtain ⟨rfl, rfl⟩ | ⟨a, rfl, rfl⟩ := List.cons_eq_append_iff.1 hv
    · exact .inl ⟨[], by simpa using hs.symm, rfl⟩
    -- Here `s` ends before `w`, since `x` would be in `w` otherwise.
    · obtain ⟨b, rfl, hw⟩ | ⟨b, rfl, hw⟩ := List.append_eq_append_iff.1 hs
      · exact absurd (hw ▸ by simp) hx
      · obtain ⟨rfl, rfl⟩ | ⟨b, rfl, rfl⟩ := List.cons_eq_append_iff.1 hw
        · exact absurd List.mem_cons_self hx
        · exact .inr ⟨b, rfl, rfl⟩
  · exact .inl ⟨a, hs, hv⟩

section Ends

variable {p : Char → Prop} (hx : p x)
include hx

theorem forall_getLast?_append_cons :
    (∀ y ∈ (s ++ x :: u).getLast?, p y) ↔ ∀ y ∈ u.getLast?, p y := by
  rw [List.getLast?_append, List.getLast?_cons, Option.some_or]
  cases u.getLast? <;> simp [hx]

theorem forall_head?_append_cons :
    (∀ y ∈ (v ++ x :: t).head?, p y) ↔ ∀ y ∈ v.head?, p y := by
  cases v <;> simp [hx]

end Ends

/-- A word lies on one side of a code point that is in no word. -/
theorem isWord_append_cons (hx : ¬ WordChar x) :
    IsWord w (s ++ x :: t) ↔ IsWord w s ∨ IsWord w t := by
  constructor
  · rintro ⟨hne, hw, u, v, heq, hu, hv⟩
    obtain ⟨a, rfl, rfl⟩ | ⟨b, rfl, rfl⟩ := cut_around (fun h => hx (hw x h)) heq
    · exact .inl ⟨hne, hw, u, a, rfl, hu, (forall_head?_append_cons hx).1 hv⟩
    · exact .inr ⟨hne, hw, b, v, rfl, (forall_getLast?_append_cons hx).1 hu, hv⟩
  · rintro (⟨hne, hw, u, v, rfl, hu, hv⟩ | ⟨hne, hw, u, v, rfl, hu, hv⟩)
    · exact ⟨hne, hw, u, v ++ x :: t, by simp, hu, (forall_head?_append_cons hx).2 hv⟩
    · exact ⟨hne, hw, s ++ x :: u, v, by simp, (forall_getLast?_append_cons hx).2 hu, hv⟩

/-- Between words there is no word. -/
theorem not_isWord (hv : ∀ x ∈ v, ¬ WordChar x) : ¬ IsWord w v := by
  rintro ⟨hne, hw, a, b, rfl, -, -⟩
  obtain ⟨x, hx⟩ := List.exists_mem_of_ne_nil w hne
  exact hv x (by simp [hx]) (hw x hx)

theorem isWord_append_right (hv : ∀ x ∈ v, ¬ WordChar x) : IsWord w (t ++ v) ↔ IsWord w t := by
  cases v with
  | nil => rw [List.append_nil]
  | cons x v =>
    rw [List.forall_mem_cons] at hv
    rw [isWord_append_cons hv.1, or_iff_left (not_isWord hv.2)]

theorem isWord_append_left (hv : ∀ x ∈ v, ¬ WordChar x) : IsWord w (v ++ t) ↔ IsWord w t := by
  induction v with
  | nil => rfl
  | cons x v ih =>
    rw [List.forall_mem_cons] at hv
    have hcut := isWord_append_cons (w := w) (s := []) (t := v ++ t) hv.1
    rw [List.nil_append, or_iff_right (not_isWord (by simp)), ih hv.2] at hcut
    exact hcut

/-- A word is the only word of itself. -/
theorem isWord_of_wordChars (hne : t ≠ []) (ht : ∀ x ∈ t, WordChar x) : IsWord w t ↔ t = w := by
  constructor
  · rintro ⟨-, -, u, v, rfl, hu, hv⟩
    have hlast : u.getLast? = none := Option.eq_none_iff_forall_ne_some.2 fun y hy =>
      hu y hy (ht y (by simp [List.mem_of_getLast? hy]))
    have hhead : v.head? = none := Option.eq_none_iff_forall_ne_some.2 fun y hy =>
      hv y hy (ht y (by simp [List.mem_of_head? hy]))
    rw [List.getLast?_eq_none_iff.1 hlast, List.head?_eq_none_iff.1 hhead]
    simp
  · rintro rfl
    exact ⟨hne, ht, [], [], by simp, by simp, by simp⟩

/-! ### Symbols -/

/-- Spaces and parentheses, which leave no trace in a formula. -/
def isLayout (x : Char) : Bool := isSpace x || x == '(' || x == ')'

theorem WordChar.not_layout (h : WordChar x) : isLayout x = false := by
  have hspace : isSpace x = false := Bool.eq_false_iff.2 fun hs => (isSpace_iff.1 hs).not_wordChar h
  have hopen : x ≠ '(' := fun heq => absurd (heq ▸ h) (by decide)
  have hclose : x ≠ ')' := fun heq => absurd (heq ▸ h) (by decide)
  simp [isLayout, hspace, hopen, hclose]

theorem filter_of_spaces (hw : ∀ x ∈ w, Space x) : w.filter (!isLayout ·) = [] := by
  rw [List.filter_eq_nil_iff]
  intro x hx
  simp [isLayout, isSpace_iff.2 (hw x hx)]

theorem filter_of_wordChars (hw : ∀ x ∈ w, WordChar x) : w.filter (!isLayout ·) = w := by
  rw [List.filter_eq_self]
  intro x hx
  rw [(hw x hx).not_layout]
  rfl

namespace Formula

/-- The symbols of the formula, each operator in front of its last operand. -/
def inOrder : Formula → List Char
  | var name => name.toList
  | neg inner => '!' :: inner.inOrder
  | conj lhs rhs => lhs.inOrder ++ '&' :: rhs.inOrder
  | disj lhs rhs => lhs.inOrder ++ '|' :: rhs.inOrder

end Formula

namespace Grammar

variable {r : Rule} {f : Formula}

theorem filter_of_derives (h : Derives r t f) : t.filter (!isLayout ·) = f.inOrder := by
  have hmark : isLayout '!' = false ∧ isLayout '&' = false ∧ isLayout '|' = false ∧
      isLayout '(' = true ∧ isLayout ')' = true := by decide
  obtain ⟨hnot, hand, hor, hopen, hclose⟩ := hmark
  induction h with
  | expression _ hw ih => rw [List.filter_append, ih, filter_of_spaces hw, List.append_nil]
  | disjunction _ ih | conjunction _ ih | negation _ ih | atom _ ih => exact ih
  | or _ hw _ ih₁ ih₂ => simp [ih₁, ih₂, filter_of_spaces hw, hor, Formula.inOrder]
  | and _ hw _ ih₁ ih₂ => simp [ih₁, ih₂, filter_of_spaces hw, hand, Formula.inOrder]
  | not hw _ ih => simp [ih, filter_of_spaces hw, hnot, Formula.inOrder]
  | parens hw _ hv ih => simp [ih, filter_of_spaces hw, filter_of_spaces hv, hopen, hclose]
  | var hw hx hxs =>
    have hname := filter_of_wordChars (List.forall_mem_cons.2 ⟨.inl hx, hxs⟩)
    rw [List.filter_append, filter_of_spaces hw, hname, List.nil_append, Formula.inOrder,
      String.toList_ofList]

/-- The words of a derived text are the names in the formula. -/
theorem isWord_iff_mentions (h : Derives r t f) (name : String) :
    IsWord name.toList t ↔ f.Mentions name := by
  have hspaces {w : List Char} (hw : ∀ x ∈ w, Space x) : ∀ x ∈ w, ¬ WordChar x :=
    fun x hx => (hw x hx).not_wordChar
  have hsymbol {w : List Char} {x : Char} (hw : ∀ y ∈ w, Space y) (hx : ¬ WordChar x) :
      ∀ y ∈ w ++ [x], ¬ WordChar y :=
    List.forall_mem_append.2 ⟨hspaces hw, List.forall_mem_singleton.2 hx⟩
  induction h with
  | expression _ hw ih => exact (isWord_append_right (hspaces hw)).trans ih
  | disjunction _ ih | conjunction _ ih | negation _ ih | atom _ ih => exact ih
  | or _ hw _ ih₁ ih₂ | and _ hw _ ih₁ ih₂ =>
    rw [List.append_assoc _ [_], List.singleton_append, isWord_append_cons (by decide),
      isWord_append_right (hspaces hw)]
    exact or_congr ih₁ ih₂
  | not hw _ ih => exact (isWord_append_left (hsymbol hw (by decide))).trans ih
  | @parens w t v f hw _ hv ih =>
    rw [List.append_assoc _ v, isWord_append_right (hsymbol hv (by decide)),
      isWord_append_left (hsymbol hw (by decide))]
    exact ih
  | var hw hx hxs =>
    rw [isWord_append_left (hspaces hw), isWord_of_wordChars (List.cons_ne_nil _ _)
      (List.forall_mem_cons.2 ⟨.inl hx, hxs⟩), Formula.Mentions, ← String.toList_inj,
      String.toList_ofList]

/-- What is read from a text has the symbols of the text, in their order and without the spaces and
parentheses, and for variables the words of the text, each of them once and in ascending order. -/
theorem ofString_in_order (text : String) (f : Formula) (h : Formula.ofString text = .ok f) :
    f.inOrder = text.toList.filter (!isLayout ·) ∧
    (f.«variables».Pairwise fun x y => x.toList < y.toList) ∧
    ∀ name, name ∈ f.«variables» ↔ IsWord name.toList text.toList := by
  have hder : Derives .expression text.toList f := run_parse_rule_eq_ok_iff.1 h
  refine ⟨(filter_of_derives hder).symm, f.pairwise_variables, fun name => ?_⟩
  rw [Formula.mem_variables]
  exact (isWord_iff_mentions hder name).symm

/-- Redundant parentheses, negations in a row, and a name that occurs twice. -/
theorem ofString_in_order_nested :
    let f : Formula :=
      .disj (.neg (.neg (.var "b1"))) (.disj (.conj (.var "a") (.var "b1")) (.var "b"))
    Formula.ofString "!!((b1)) | (a&b1\t| b)" = .ok f ∧ f.inOrder = "!!b1|a&b1|b".toList ∧
      f.inOrder = "!!((b1)) | (a&b1\t| b)".toList.filter (!isLayout ·) ∧
      ∀ name, name ∈ f.«variables» ↔ IsWord name.toList "!!((b1)) | (a&b1\t| b)".toList := by
  intro f
  have hread : Formula.ofString "!!((b1)) | (a&b1\t| b)" = .ok f := rfl
  obtain ⟨hsymbols, -, hwords⟩ := ofString_in_order _ f hread
  exact ⟨hread, rfl, hsymbols, hwords⟩

end Grammar

end BoolFormula
