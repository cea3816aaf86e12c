import BoolFormula.Text.Quoted
import Mathlib.Data.List.Basic

/-! Numbers and quoted texts can be read back, whatever follows them. The digits of a number go on up
to the first code point that is none. An escape tells which code point it stands for and where it
ends, and only the closing quote of a quoted text looks like a quote. So of a line that starts with
a quoted text, both the text and the rest of the line are known. -/

namespace BoolFormula.Text

variable {x y : Char} {s t u v : List Char}

/-- A text that ends with the first `x` is cut off in one way. -/
theorem append_cons_inj (hu : x ∉ u) (hv : x ∉ v) (h : u ++ x :: s = v ++ x :: t) :
    u = v ∧ s = t := by
  induction u generalizing v with
  | nil =>
    cases v with
    | nil => exact ⟨rfl, (List.cons.inj h).2⟩
    | cons b v => exact absurd ((List.cons.inj h).1 ▸ List.mem_cons_self) hv
  | cons a u ih =>
    cases v with
    | nil => exact absurd ((List.cons.inj h).1 ▸ List.mem_cons_self) hu
    | cons b v =>
      obtain ⟨rfl, hrest⟩ := List.cons.inj h
      rw [List.mem_cons, not_or] at hu hv
      obtain ⟨rfl, hst⟩ := ih hu.2 hv.2 hrest
      exact ⟨rfl, hst⟩

/-! ### Digits -/

theorem digitChar_inj : ∀ m < 16, ∀ n < 16, Nat.digitChar m = Nat.digitChar n → m = n := by decide

section Base

variable {b m n : Nat} (hb : 1 < b) (hb' : b ≤ 16)
include hb hb'

theorem toDigits_inj (h : Nat.toDigits b m = Nat.toDigits b n) : m = n := by
  induction m using Nat.strongRecOn generalizing n with
  | ind m ih =>
    have hne (k : Nat) : Nat.toDigits b k ≠ [] := Nat.toDigits_ne_nil
    have hmod (k : Nat) : k % b < 16 := Nat.lt_of_lt_of_le (Nat.mod_lt k (by omega)) hb'
    rw [Nat.toDigits_eq_if (n := m) hb, Nat.toDigits_eq_if (n := n) hb] at h
    by_cases hm : m < b <;> by_cases hn : n < b <;>
      simp only [hm, hn, if_true, if_false] at h
    · exact digitChar_inj m (by omega) n (by omega) (List.head_eq_of_cons_eq h)
    · exact absurd (List.append_eq_singleton_iff.1 h.symm) (by simp [hne])
    · exact absurd (List.append_eq_singleton_iff.1 h) (by simp [hne])
    · obtain ⟨hdiv, hlast⟩ := List.append_inj' h rfl
      have hq := ih (m / b) (Nat.div_lt_self (by omega) hb) hdiv
      have hr := digitChar_inj _ (hmod m) _ (hmod n) (List.head_eq_of_cons_eq hlast)
      rw [← Nat.div_add_mod m b, ← Nat.div_add_mod n b, hq, hr]

theorem notMem_toDigits (hx : ∀ k < 16, x ≠ Nat.digitChar k) (n : Nat) :
    x ∉ Nat.toDigits b n := by
  induction n using Nat.strongRecOn with
  | ind n ih =>
    rw [Nat.toDigits_eq_if hb]
    split
    · simp [hx n (by omega)]
    · rw [List.mem_append, List.mem_singleton, not_or]
      have hmod : n % b < b := Nat.mod_lt n (by omega)
      exact ⟨ih (n / b) (Nat.div_lt_self (by omega) hb), hx _ (by omega)⟩

/-- A number that is followed by something other than a digit is known, and so is the rest. -/
theorem toDigits_append_inj (hx : ∀ k < 16, x ≠ Nat.digitChar k)
    (h : Nat.toDigits b m ++ x :: s = Nat.toDigits b n ++ x :: t) : m = n ∧ s = t := by
  have hnot := notMem_toDigits hb hb' hx
  obtain ⟨hdigits, hst⟩ := append_cons_inj (hnot m) (hnot n) h
  exact ⟨toDigits_inj hb hb' hdigits, hst⟩

end Base

/-! ### Escapes -/

/-- The short escapes: what follows the backslash, and the code point that it stands for. -/
def shortEscapes : List (Char × Char) :=
  [('0', '\x00'), ('t', '\t'), ('n', '\n'), ('r', '\r'), ('"', '"'), ('\\', '\\')]

/-- The three forms of a code point inside a quoted text. -/
theorem escaped_cases (x : Char) :
    (escaped x = [x] ∧ x ≠ '\\' ∧ x ≠ '"') ∨
    (∃ k, escaped x = ['\\', k] ∧ (k, x) ∈ shortEscapes) ∨
    escaped x = '\\' :: 'u' :: '\x7b' :: (Nat.toDigits 16 x.toNat ++ ['\x7d']) := by
  unfold escaped
  split
  · exact .inr (.inl ⟨'0', rfl, by decide⟩)
  · exact .inr (.inl ⟨'t', rfl, by decide⟩)
  · exact .inr (.inl ⟨'n', rfl, by decide⟩)
  · exact .inr (.inl ⟨'r', rfl, by decide⟩)
  · exact .inr (.inl ⟨'"', rfl, by decide⟩)
  · exact .inr (.inl ⟨'\\', rfl, by decide⟩)
  · next hquote hslash =>
    split
    · exact .inl ⟨rfl, hslash, hquote⟩
    · exact .inr (.inr rfl)

theorem shortEscapes_inj {k : Char} (hx : (k, x) ∈ shortEscapes) (hy : (k, y) ∈ shortEscapes) :
    x = y := by
  simp only [shortEscapes, List.mem_cons, Prod.mk.injEq, List.not_mem_nil, or_false] at hx hy
  rcases hx with ⟨rfl, rfl⟩ | ⟨rfl, rfl⟩ | ⟨rfl, rfl⟩ | ⟨rfl, rfl⟩ | ⟨rfl, rfl⟩ | ⟨rfl, rfl⟩ <;>
    simpa [eq_comm] using hy

theorem ne_u_of_mem_shortEscapes {k : Char} (h : (k, x) ∈ shortEscapes) : k ≠ 'u' := by
  rintro rfl
  simp [shortEscapes] at h

/-- An escape tells its code point and where it ends. -/
theorem escaped_append_inj (h : escaped x ++ s = escaped y ++ t) : x = y ∧ s = t := by
  rcases escaped_cases x with ⟨hx, hxs, -⟩ | ⟨k, hx, hk⟩ | hx <;>
    rcases escaped_cases y with ⟨hy, hys, -⟩ | ⟨l, hy, hl⟩ | hy <;>
    rw [hx, hy] at h <;>
    simp only [List.cons_append, List.nil_append, List.cons.injEq] at h
  · exact h
  · exact absurd h.1 hxs
  · exact absurd h.1 hxs
  · exact absurd h.1.symm hys
  · obtain ⟨-, rfl, hst⟩ := h
    exact ⟨shortEscapes_inj hk hl, hst⟩
  · exact absurd h.2.1 (ne_u_of_mem_shortEscapes hk)
  · exact absurd h.1.symm hys
  · exact absurd h.2.1.symm (ne_u_of_mem_shortEscapes hl)
  · have hdigits := h.2.2.2
    simp only [List.append_assoc, List.singleton_append] at hdigits
    obtain ⟨hn, hst⟩ := toDigits_append_inj (by decide) (by decide) (by decide) hdigits
    exact ⟨Char.toNat_inj.1 hn, hst⟩

theorem escaped_ne_quote (x : Char) (s t : List Char) : escaped x ++ s ≠ '"' :: t := by
  rcases escaped_cases x with ⟨hx, -, hquote⟩ | ⟨k, hx, -⟩ | hx <;> rw [hx]
  · simp [hquote]
  · simp
  · simp

theorem flatMap_escaped_append_inj
    (h : u.flatMap escaped ++ '"' :: s = v.flatMap escaped ++ '"' :: t) : u = v ∧ s = t := by
  induction u generalizing v with
  | nil =>
    cases v with
    | nil => simpa using h
    | cons b v =>
      rw [List.flatMap_cons, List.append_assoc] at h
      exact absurd h.symm (escaped_ne_quote b _ _)
  | cons a u ih =>
    cases v with
    | nil =>
      rw [List.flatMap_cons, List.append_assoc] at h
      exact absurd h (escaped_ne_quote a _ _)
    | cons b v =>
      simp only [List.flatMap_cons, List.append_assoc] at h
      obtain ⟨rfl, hrest⟩ := escaped_append_inj h
      obtain ⟨rfl, hst⟩ := ih hrest
      exact ⟨rfl, hst⟩

/-- A quoted text tells what it quotes and where it ends. -/
theorem quoted_append_inj {a b : String} (h : (quoted a).toList ++ s = (quoted b).toList ++ t) :
    a = b ∧ s = t := by
  simp only [quoted, String.toList_ofList, List.cons_append, List.cons.injEq, List.append_assoc,
    List.nil_append, true_and] at h
  obtain ⟨hab, hst⟩ := flatMap_escaped_append_inj h
  exact ⟨String.toList_inj.1 hab, hst⟩

end BoolFormula.Text
