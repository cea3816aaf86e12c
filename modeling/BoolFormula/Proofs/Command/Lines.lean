import BoolFormula.Command.Run

/-! Lines of the input. Bytes that end where a line ends are cut by themselves, whatever follows
them. No byte of an encoded text is a line feed or a carriage return unless the text has one, so a
text on a line of its own is read back as it is. -/

namespace BoolFormula.Command

/-! ### Cutting -/

/-- The bytes end where a line ends. -/
def WholeLines (bytes : List UInt8) : Prop := bytes = [] ∨ bytes.getLast? = some lineFeed

variable {x : UInt8} {xs : List UInt8}

theorem WholeLines.tail (h : WholeLines (x :: xs)) : WholeLines xs := by
  cases xs with
  | nil => exact .inl rfl
  | cons y ys =>
    obtain h | h := h
    · cases h
    · exact .inr (by rwa [List.getLast?_cons_cons] at h)

theorem WholeLines.tail_ne_nil (h : WholeLines (x :: xs)) (hx : x ≠ lineFeed) : xs ≠ [] := by
  rintro rfl
  obtain h | h := h
  · cases h
  · exact hx (Option.some.inj h)

theorem cutLines_cons (x : UInt8) (xs : List UInt8) : cutLines (x :: xs) =
    if x = lineFeed then [x] :: cutLines xs
    else match cutLines xs with
      | [] => [[x]]
      | line :: rest => (x :: line) :: rest := rfl

theorem cutLines_ne_nil (h : xs ≠ []) : cutLines xs ≠ [] := by
  obtain ⟨x, xs, rfl⟩ := List.exists_cons_of_ne_nil h
  rw [cutLines_cons]
  split
  · exact List.cons_ne_nil _ _
  · split <;> exact List.cons_ne_nil _ _

theorem cutLines_append (h : WholeLines xs) (ys : List UInt8) :
    cutLines (xs ++ ys) = cutLines xs ++ cutLines ys := by
  induction xs with
  | nil => rfl
  | cons x xs ih =>
    rw [List.cons_append, cutLines_cons, cutLines_cons, ih h.tail]
    by_cases hx : x = lineFeed
    · rw [if_pos hx, if_pos hx, List.cons_append]
    · -- The line of `x` goes on, so there is one to add it to.
      obtain ⟨line, rest, hcut⟩ := List.exists_cons_of_ne_nil (cutLines_ne_nil (h.tail_ne_nil hx))
      rw [if_neg hx, if_neg hx, hcut, List.cons_append, List.cons_append]

/-- Bytes without a line feed, with one behind them, are one line. -/
theorem cutLines_line (h : lineFeed ∉ xs) : cutLines (xs ++ [lineFeed]) = [xs ++ [lineFeed]] := by
  induction xs with
  | nil => rfl
  | cons x xs ih =>
    rw [List.mem_cons, not_or] at h
    rw [List.cons_append, cutLines_cons, if_neg (Ne.symm h.1), ih h.2]

theorem wholeLines_line (xs : List UInt8) : WholeLines (xs ++ [lineFeed]) :=
  .inr List.getLast?_concat

/-! ### Texts as bytes -/

/-- The bytes of a text in UTF-8. -/
def encoded (text : String) : List UInt8 := text.toUTF8.data.toList

theorem encoded_append (s t : String) : encoded (s ++ t) = encoded s ++ encoded t := by
  simp [encoded]

theorem encoded_eq (text : String) : encoded text = text.toList.flatMap String.utf8EncodeChar := by
  rw [encoded, String.toUTF8_eq_toByteArray, ← String.utf8Encode_toList, List.utf8Encode,
    List.toList_data_toByteArray]

/-- A byte below 128 stands for the code point of that number, and for no other. -/
theorem toNat_of_mem_utf8EncodeChar {c : Char} (h : x ∈ String.utf8EncodeChar c)
    (hx : x.toNat < 128) : c.toNat = x.toNat := by
  have hlow {n : Nat} (hn : 128 ≤ n) (hn' : n < 256) : x ≠ UInt8.ofNat n := by
    rintro rfl
    rw [UInt8.toNat_ofNat', Nat.mod_eq_of_lt hn'] at hx
    omega
  simp only [String.utf8EncodeChar] at h
  split at h
  · next hone =>
    obtain rfl := List.mem_singleton.1 h
    rw [UInt8.toNat_ofNat']
    exact (Nat.mod_eq_of_lt (Nat.lt_of_le_of_lt hone (by decide))).symm
  · -- All bytes of any other code point are from 128 on.
    split at h
    · simp only [List.mem_cons, List.not_mem_nil, or_false] at h
      obtain h | h := h <;> exact absurd h (hlow (by omega) (by omega))
    · split at h
      · simp only [List.mem_cons, List.not_mem_nil, or_false] at h
        obtain h | h | h := h <;> exact absurd h (hlow (by omega) (by omega))
      · simp only [List.mem_cons, List.not_mem_nil, or_false] at h
        obtain h | h | h | h := h <;> exact absurd h (hlow (by omega) (by omega))

theorem eq_of_mem_utf8EncodeChar {c d : Char} (hd : d.toNat < 128)
    (h : UInt8.ofNat d.toNat ∈ String.utf8EncodeChar c) : c = d := by
  have hbyte : (UInt8.ofNat d.toNat).toNat = d.toNat := by
    rw [UInt8.toNat_ofNat', Nat.mod_eq_of_lt (by omega)]
  have hnat := toNat_of_mem_utf8EncodeChar h (by rw [hbyte]; exact hd)
  exact Char.toNat_inj.1 (hnat.trans hbyte)

theorem lineFeed_notMem_encoded {text : String} (h : '\n' ∉ text.toList) :
    lineFeed ∉ encoded text := by
  rw [encoded_eq]
  intro hmem
  obtain ⟨c, hc, hbyte⟩ := List.mem_flatMap.1 hmem
  exact h (eq_of_mem_utf8EncodeChar (d := '\n') (by decide) hbyte ▸ hc)

theorem getLast?_encoded_ne {text : String} (h : text.toList.getLast? ≠ some '\r') :
    (encoded text).getLast? ≠ some carriageReturn := by
  rw [encoded_eq]
  rcases List.eq_nil_or_concat text.toList with hnil | ⟨cs, c, hc⟩
  · simp [hnil]
  · rw [List.concat_eq_append] at hc
    have hne : String.utf8EncodeChar c ≠ [] := by
      rw [ne_eq, ← List.length_eq_zero_iff, String.length_utf8EncodeChar]
      have := c.utf8Size_pos
      omega
    rw [hc, List.flatMap_append, List.flatMap_singleton, List.getLast?_append,
      List.getLast?_eq_some_getLast hne, Option.some_or]
    intro hlast
    have hmem := List.getLast_mem hne
    rw [Option.some.inj hlast] at hmem
    have hreturn : c = '\r' := eq_of_mem_utf8EncodeChar (by decide) hmem
    rw [hc, hreturn, List.getLast?_concat] at h
    exact h rfl

/-- A text that ends in no carriage return is read back from its line. -/
theorem decodeLine_encoded {text : String} (h : text.toList.getLast? ≠ some '\r') :
    decodeLine (encoded text ++ [lineFeed]) = some text := by
  have hdrop : dropLineEnd (encoded text ++ [lineFeed]) = encoded text := by
    simp only [dropLineEnd, List.getLast?_concat, ↓reduceIte, List.dropLast_concat,
      if_neg (getLast?_encoded_ne h)]
  rw [decodeLine, hdrop, encoded, String.toUTF8_eq_toByteArray]
  exact dif_pos text.isValidUTF8

end BoolFormula.Command
