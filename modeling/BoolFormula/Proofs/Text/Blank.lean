import BoolFormula.Text.Blank
import Mathlib.Data.List.DropRight
import Mathlib.Data.List.TakeWhile

/-! Trimming. A trimmed text is a part of the text with nothing but blanks before and behind it, and
it neither starts nor ends with a blank. There is only one such part. -/

namespace BoolFormula.Text

theorem dropBlankEnd_eq (xs : List Char) : dropBlankEnd xs = xs.rdropWhile isBlank := rfl

/-- `t` is what is left of `xs` without the blanks at either end. -/
structure Trimmed (xs t : List Char) : Prop where
  cut : ∃ u v, xs = u ++ t ++ v ∧ (∀ x ∈ u, isBlank x = true) ∧ ∀ x ∈ v, isBlank x = true
  starts : ∀ x ∈ t.head?, isBlank x = false
  ends : ∀ x ∈ t.getLast?, isBlank x = false

variable {t u v : List Char}

theorem dropWhile_of_blanks (hu : ∀ x ∈ u, isBlank x = true)
    (ht : ∀ x ∈ t.head?, isBlank x = false) : (u ++ t).dropWhile isBlank = t := by
  rw [List.dropWhile_append_of_pos hu]
  cases t with
  | nil => rfl
  | cons x t => exact List.dropWhile_cons_of_neg (by simp [ht x rfl])

theorem dropBlankEnd_of_blanks (hv : ∀ x ∈ v, isBlank x = true)
    (ht : ∀ x ∈ t.getLast?, isBlank x = false) : dropBlankEnd (t ++ v) = t := by
  have hv' : ∀ x ∈ v.reverse, isBlank x = true := fun x hx => hv x (List.mem_reverse.1 hx)
  have ht' : ∀ x ∈ t.reverse.head?, isBlank x = false := by rwa [List.head?_reverse]
  rw [dropBlankEnd, List.reverse_append, dropWhile_of_blanks hv' ht', List.reverse_reverse]

theorem trimmed_dropBlankEnd (xs : List Char) :
    Trimmed xs (dropBlankEnd (xs.dropWhile isBlank)) := by
  have hcut : dropBlankEnd (xs.dropWhile isBlank) ++ (xs.dropWhile isBlank).rtakeWhile isBlank =
      xs.dropWhile isBlank := List.rdropWhile_append_rtakeWhile
  refine ⟨⟨xs.takeWhile isBlank, (xs.dropWhile isBlank).rtakeWhile isBlank, ?_, ?_, ?_⟩, ?_, ?_⟩
  · rw [List.append_assoc, hcut, List.takeWhile_append_dropWhile]
  · exact fun x hx => List.mem_takeWhile_imp hx
  · exact fun x hx => List.mem_rtakeWhile_imp hx
  · intro x hx
    have hhead : (xs.dropWhile isBlank).head? = some x := by
      rw [← hcut, List.head?_append, hx, Option.some_or]
    have hnot := List.head?_dropWhile_not isBlank xs
    rw [hhead] at hnot
    simpa using hnot
  · intro x hx
    obtain ⟨hne, rfl⟩ := List.mem_getLast?_eq_getLast hx
    exact Bool.eq_false_iff.2 (List.rdropWhile_last_not isBlank _ hne)

theorem trim_eq_iff {s r : String} : trim s = r ↔ Trimmed s.toList r.toList := by
  constructor
  · rintro rfl
    rw [trim, String.toList_ofList]
    exact trimmed_dropBlankEnd _
  · rintro ⟨⟨u, v, hs, hu, hv⟩, hstarts, hends⟩
    rw [← String.toList_inj, trim, String.toList_ofList, hs, List.append_assoc]
    cases hr : r.toList with
    | nil =>
      -- There is nothing but blanks, and the first pass drops all of them.
      have hall : ∀ x ∈ u ++ v, isBlank x = true := List.forall_mem_append.2 ⟨hu, hv⟩
      rw [List.nil_append, List.dropWhile_eq_nil_iff.2 hall]
      rfl
    | cons x t =>
      rw [hr] at hstarts hends
      rw [dropWhile_of_blanks hu (by simpa using hstarts), dropBlankEnd_of_blanks hv hends]

end BoolFormula.Text
