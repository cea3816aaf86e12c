import BoolFormula.Proofs.Formula.LongestPrefix
import BoolFormula.Proofs.Formula.Rendering
import BoolFormula.Proofs.Parser.Chain

/-! Lists of names with commas between them. A comma that is found inside the repetition is given
back as a whole if no name follows it, together with the spaces around it, and the spaces at the end
are those behind the last name. So the list that is found is the longest start of the text that has
the form of a list, and a comma at the end is never part of it. -/

namespace BoolFormula

open ParserT BoolFormula.Parser Grammar

/-! ### The parsers -/

/-- A name, with spaces allowed in front of it. -/
def listItem : Parser String := afterSpaces identifier

/-- A comma and the name behind it. -/
def furtherItem : Parser String := ((token ",").pair listItem).snd

/-- Names with commas between them, and spaces allowed around each. -/
def nameList : Parser (String × List String) := ((listItem.pair furtherItem.many).pair spaces).fst

/-! ### The form of a list -/

/-- A name with spaces in front of it. -/
def Spaced (text : List Char) (name : String) : Prop :=
  ∃ w, (∀ x ∈ w, Space x) ∧ IsIdentifier name ∧ text = w ++ name.toList

/-- Names with a comma in front of each, and spaces around the commas. -/
inductive Items : List Char → List String → Prop
  | nil : Items [] []
  | cons {w u t : List Char} {name : String} {names : List String} : (∀ x ∈ w, Space x) →
    Spaced u name → Items t names → Items (w ++ ',' :: u ++ t) (name :: names)

/-- The text is a list of the names, with spaces allowed around each. -/
def Listed (text : List Char) (name : String) (names : List String) : Prop :=
  ∃ u t v, Spaced u name ∧ Items t names ∧ (∀ x ∈ v, Space x) ∧ text = u ++ t ++ v

/-- The lengths of the starts of the text that are lists. -/
def listed (text : String) : Set Nat :=
  {n | n ≤ text.toList.length ∧ ∃ name names, Listed (text.toList.take n) name names}

/-- No word goes on at the cursor. -/
def WordEnds (c : Cursor) : Prop := ∀ x, c.peek? = some x → ¬ WordChar x

variable {c d : Cursor} {t u w : List Char} {name : String} {names : List String}

theorem WordEnds.dropWhile_eq (h : WordEnds c) : c.dropWhile isIdentifierChar = c :=
  Cursor.dropWhile_eq_self fun x hx => by
    rw [← Bool.not_eq_true, isIdentifierChar_iff]
    exact h x hx

theorem wordEnds_dropWhile (c : Cursor) : WordEnds (c.dropWhile isIdentifierChar) := by
  intro x hx
  rw [← isIdentifierChar_iff, Cursor.not_of_peek?_dropWhile hx]
  decide

/-- No word goes on in front of spaces or of a comma. -/
theorem wordEnds_of_reads {x : Char} (hw : ∀ y ∈ w, Space y) (hx : ¬ WordChar x)
    (h : c.Reads (w ++ x :: t) d) : WordEnds c := by
  intro y hy
  cases w with
  | nil =>
    cases hy.symm.trans (Cursor.reads_cons_iff.1 h).1
    exact hx
  | cons z w =>
    cases hy.symm.trans (Cursor.reads_cons_iff.1 h).1
    exact (hw y List.mem_cons_self).not_wordChar

/-- A name that is taken further by code points of a word. -/
theorem Spaced.append (h : Spaced t name) (hu : ∀ x ∈ u, WordChar x) :
    Spaced (t ++ u) (String.ofList (name.toList ++ u)) := by
  obtain ⟨w, hw, ⟨x, xs, hname, hx, hxs⟩, rfl⟩ := h
  refine ⟨w, hw, ⟨x, xs ++ u, ?_, hx, List.forall_mem_append.2 ⟨hxs, hu⟩⟩, ?_⟩
  · rw [String.toList_ofList, hname, List.cons_append]
  · rw [String.toList_ofList, List.append_assoc]

/-! ### One step -/

theorem upholds_listItem : Upholds listItem := upholds_afterSpaces upholds_identifier

theorem upholds_furtherItem : Upholds furtherItem :=
  upholds_snd (upholds_pair (upholds_token ",") upholds_listItem)

theorem upholds_nameList : Upholds nameList :=
  upholds_fst (upholds_pair (upholds_pair upholds_listItem (upholds_many upholds_furtherItem))
    upholds_spaces)

/-- A name is found where one comes next, as far as it goes. -/
theorem read?_listItem_eq_some_iff : read? listItem c = some (name, d) ↔
    ∃ t, Spaced t name ∧ c.Reads t d ∧ WordEnds d := by
  simp only [listItem, read?_afterSpaces, identifier, read?_several, Option.map_eq_some_iff,
    Option.filter_eq_some_iff, Prod.mk.injEq, and_assoc]
  constructor
  · rintro ⟨x, hpeek, hstart, rfl, rfl⟩
    obtain ⟨w, hw, hr⟩ := exists_spaces_reads c
    have hb := (Cursor.reads_advance hpeek).trans (Cursor.reads_dropWhile isIdentifierChar _)
    refine ⟨_, ⟨w, hw, ?_, rfl⟩, ?_, wordEnds_dropWhile _⟩
    · refine ⟨x, _, String.toList_ofList, isIdentifierStart_iff.1 hstart, fun y hy => ?_⟩
      exact isIdentifierChar_iff.1 (List.all_eq_true.1 List.all_takeWhile y hy)
    · rw [String.toList_ofList]
      exact hr.trans hb
  · rintro ⟨_, ⟨w, hw, ⟨x, xs, hname, hx, hxs⟩, rfl⟩, hr, hend⟩
    rw [hname] at hr
    obtain ⟨hpeek, hd⟩ := dropWhile_of_reads_cons hw hx.not_space hr
    have hall := fun y hy => isIdentifierChar_iff.2 (hxs y hy)
    have hword : ∀ y, d.peek? = some y → isIdentifierChar y = false := fun y hy => by
      rw [← Bool.not_eq_true, isIdentifierChar_iff]
      exact hend y hy
    refine ⟨x, hpeek, isIdentifierStart_iff.2 hx, ?_, Cursor.dropWhile_eq_of_reads hd hall hword⟩
    rw [Cursor.takeWhile_eq_of_reads hd hall hword, ← hname, String.ofList_toList]

theorem read?_furtherItem (c : Cursor) :
    read? furtherItem c = (c.symbol? ',').bind (read? listItem) := by
  rw [furtherItem, read?_snd, read?_pair, read?_token "," c (x := ',') rfl]
  cases c.symbol? ',' with
  | none => rfl
  | some b =>
    rw [Option.map_some, Option.bind_some, Option.bind_some, Option.map_map]
    exact Option.map_id_fun'.symm ▸ rfl

theorem read?_furtherItem_eq_some_iff : read? furtherItem c = some (name, d) ↔
    ∃ w t, (∀ x ∈ w, Space x) ∧ Spaced t name ∧ c.Reads (w ++ ',' :: t) d ∧ WordEnds d := by
  rw [read?_furtherItem, Option.bind_eq_some_iff]
  constructor
  · rintro ⟨b, hb, hd⟩
    obtain ⟨w, hw, hr⟩ := exists_symbol_reads hb
    obtain ⟨t, ht, hread, hend⟩ := read?_listItem_eq_some_iff.1 hd
    refine ⟨w, t, hw, ht, ?_, hend⟩
    rw [List.append_cons]
    exact hr.trans hread
  · rintro ⟨w, t, hw, ht, hr, hend⟩
    rw [List.append_cons] at hr
    obtain ⟨b, hb, hread⟩ := Cursor.reads_append_iff.1 hr
    have hop : c.symbol? ',' = some b := symbol?_of_reads (by decide) hw hb
    exact ⟨b, hop, read?_listItem_eq_some_iff.2 ⟨t, ht, hread, hend⟩⟩

/-- Wherever a name starts one is found, and it goes on to the end of the word. -/
theorem exists_read?_listItem (h : Spaced t name) (hr : c.Reads t d) :
    ∃ found, read? listItem c = some (found, d.dropWhile isIdentifierChar) := by
  have hword : ∀ x ∈ d.remaining.takeWhile isIdentifierChar, WordChar x := fun x hx =>
    isIdentifierChar_iff.1 (List.all_eq_true.1 List.all_takeWhile x hx)
  refine ⟨_, read?_listItem_eq_some_iff.2 ⟨_, h.append hword, ?_, wordEnds_dropWhile d⟩⟩
  exact hr.trans (Cursor.reads_dropWhile isIdentifierChar d)

theorem exists_read?_furtherItem (hw : ∀ x ∈ w, Space x) (h : Spaced t name)
    (hr : c.Reads (w ++ ',' :: t) d) :
    ∃ found, read? furtherItem c = some (found, d.dropWhile isIdentifierChar) := by
  rw [List.append_cons] at hr
  obtain ⟨b, hb, hread⟩ := Cursor.reads_append_iff.1 hr
  have hop : c.symbol? ',' = some b := symbol?_of_reads (by decide) hw hb
  rw [read?_furtherItem, hop]
  exact exists_read?_listItem h hread

theorem offset_lt_of_furtherItem (h : read? furtherItem c = some (name, d)) :
    c.offset < d.offset := by
  obtain ⟨w, t, -, -, hr, -⟩ := read?_furtherItem_eq_some_iff.1 h
  have := hr.offset_eq
  rw [List.length_append, List.length_cons] at this
  omega

/-! ### The repetition -/

theorem wordEnds_of_items (h : Items t names) (hr : c.Reads t d) (hd : WordEnds d) :
    WordEnds c := by
  cases h with
  | nil => exact Cursor.reads_nil_iff.1 hr ▸ hd
  | cons hw _ _ =>
    rw [List.append_assoc, List.cons_append] at hr
    exact wordEnds_of_reads hw (by decide) hr

theorem chain_of_items (h : Items t names) (hr : c.Reads t d) (hd : WordEnds d) :
    Parser.Chain furtherItem c names d := by
  induction h generalizing c with
  | nil => exact Cursor.reads_nil_iff.1 hr ▸ .nil _
  | cons hw hu hrest ih =>
    obtain ⟨b, hb, hr⟩ := Cursor.reads_append_iff.1 hr
    have hstep := read?_furtherItem_eq_some_iff.2
      ⟨_, _, hw, hu, hb, wordEnds_of_items hrest hr hd⟩
    exact .cons (read?_eq_some_iff.1 hstep) (offset_lt_of_furtherItem hstep) (ih hr)

theorem exists_items (h : Parser.Chain furtherItem c names d) : ∃ t, Items t names ∧ c.Reads t d := by
  induction h with
  | nil c => exact ⟨[], .nil, .refl c⟩
  | cons step _ _ ih =>
    obtain ⟨w, u, hw, hu, hread, -⟩ := read?_furtherItem_eq_some_iff.1 (read?_eq_some_iff.2 step)
    obtain ⟨t, ht, hr⟩ := ih
    exact ⟨_, .cons hw hu ht, hread.trans hr⟩

/-- What is found are the names of the longest chain, since no match is empty. -/
theorem exists_items_of_many (h : read? furtherItem.many c = some (names, d)) :
    ∃ t, Items t names ∧ c.Reads t d := by
  obtain ⟨found, e, last, hchain, hend⟩ := exists_chain upholds_furtherItem c
  obtain ⟨rfl, rfl⟩ := Prod.mk.inj
    (Option.some.inj ((read?_many_of_chain upholds_furtherItem hchain hend).symm.trans h))
  cases hend with
  | fails _ => exact (List.append_nil found).symm ▸ exists_items hchain
  | stays a hstay =>
    exact absurd (offset_lt_of_furtherItem (read?_eq_some_iff.2 hstay)) (Nat.lt_irrefl _)

theorem many_of_items (h : Items t names) (hr : c.Reads t d) (hd : WordEnds d)
    (hnone : read? furtherItem d = none) : read? furtherItem.many c = some (names, d) := by
  have hend := Ends.fails (upholds_furtherItem.failure hnone)
  rw [read?_many_of_chain upholds_furtherItem (chain_of_items h hr hd) hend, List.append_nil]

/-- From the end of a word on, names that come next are reached or passed. -/
theorem exists_many_of_items (h : Items t names) (hr : c.Reads t d) :
    ∃ found e, read? furtherItem.many (c.dropWhile isIdentifierChar) = some (found, e) ∧
      d.offset ≤ e.offset := by
  induction h generalizing c with
  | nil =>
    obtain ⟨found, e, he⟩ := exists_read?_many upholds_furtherItem (c.dropWhile isIdentifierChar)
    have hword := (Cursor.reads_dropWhile isIdentifierChar c).offset_le
    have hmany := (upholds_many upholds_furtherItem).offset_le he
    rw [Cursor.reads_nil_iff.1 hr]
    exact ⟨found, e, he, Nat.le_trans hword hmany⟩
  | cons hw hu _ ih =>
    obtain ⟨b, hb, hr⟩ := Cursor.reads_append_iff.1 hr
    have hend := wordEnds_of_reads hw (by decide) hb
    obtain ⟨name, hname⟩ := exists_read?_furtherItem hw hu hb
    obtain ⟨found, e, he, hle⟩ := ih hr
    refine ⟨name :: found, e, ?_, hle⟩
    rw [hend.dropWhile_eq, read?_many upholds_furtherItem, hname]
    simp only [he, if_neg (Nat.ne_of_gt (offset_lt_of_furtherItem hname)), Option.map_some]

/-! ### The list -/

theorem read?_nameList (c : Cursor) : read? nameList c = (read? listItem c).bind fun (name, a) =>
    (read? furtherItem.many a).map fun (names, b) => ((name, names), b.dropWhile isSpace) := by
  simp only [nameList, read?_fst, read?_pair, read?_spaces]
  cases read? listItem c with
  | none => rfl
  | some found =>
    rw [Option.bind_some]
    cases h : read? furtherItem.many found.2 <;> simp [h]

theorem read?_nameList_eq_some_iff : read? nameList c = some ((name, names), d) ↔
    ∃ a b, read? listItem c = some (name, a) ∧ read? furtherItem.many a = some (names, b) ∧
      b.dropWhile isSpace = d := by
  rw [read?_nameList, Option.bind_eq_some_iff]
  constructor
  · rintro ⟨⟨first, a⟩, ha, hmap⟩
    obtain ⟨⟨further, b⟩, hb, h⟩ := Option.map_eq_some_iff.1 hmap
    cases h
    exact ⟨a, b, ha, hb, rfl⟩
  · rintro ⟨a, b, ha, hb, rfl⟩
    exact ⟨(name, a), ha, Option.map_eq_some_iff.2 ⟨(names, b), hb, rfl⟩⟩

theorem exists_listed (h : read? nameList c = some ((name, names), d)) :
    ∃ t, Listed t name names ∧ c.Reads t d := by
  obtain ⟨a, b, ha, hb, rfl⟩ := read?_nameList_eq_some_iff.1 h
  obtain ⟨u, hu, hread, -⟩ := read?_listItem_eq_some_iff.1 ha
  obtain ⟨t, ht, hr⟩ := exists_items_of_many hb
  obtain ⟨v, hv, hspaces⟩ := exists_spaces_reads b
  exact ⟨_, ⟨u, t, v, hu, ht, hv, rfl⟩, (hread.trans hr).trans hspaces⟩

/-- A list is found as it is if it cannot go on behind it. -/
theorem read?_nameList_of_listed (h : Listed t name names) (hr : c.Reads t d) (hword : WordEnds d)
    (hspace : ∀ x, d.peek? = some x → isSpace x = false) (hnone : read? furtherItem d = none) :
    read? nameList c = some ((name, names), d) := by
  obtain ⟨u, t, v, hu, ht, hv, rfl⟩ := h
  obtain ⟨b, hb, hspaces⟩ := Cursor.reads_append_iff.1 hr
  obtain ⟨a, ha, hitems⟩ := Cursor.reads_append_iff.1 hb
  have hbend : WordEnds b := by
    cases v with
    | nil => exact Cursor.reads_nil_iff.1 hspaces ▸ hword
    | cons x v =>
      exact wordEnds_of_reads (w := []) (by simp) (hv x List.mem_cons_self).not_wordChar hspaces
  have hbnone : read? furtherItem b = none := by
    rw [read?_furtherItem, symbol?_of_spaces ',' hspaces hv, ← read?_furtherItem, hnone]
  refine read?_nameList_eq_some_iff.2 ⟨a, b, ?_, many_of_items ht hitems hbend hbnone, ?_⟩
  · exact read?_listItem_eq_some_iff.2 ⟨u, hu, ha, wordEnds_of_items ht hitems hbend⟩
  · exact Cursor.dropWhile_eq_of_reads hspaces (fun x hx => isSpace_iff.2 (hv x hx)) hspace

/-- Every start of what is left that is a list is reached, or passed. -/
theorem exists_read?_nameList (h : Listed t name names) (hr : c.Reads t d) :
    ∃ found e, read? nameList c = some (found, e) ∧ d.offset ≤ e.offset := by
  obtain ⟨u, t, v, hu, ht, hv, rfl⟩ := h
  obtain ⟨b, hb, hspaces⟩ := Cursor.reads_append_iff.1 hr
  obtain ⟨a, ha, hitems⟩ := Cursor.reads_append_iff.1 hb
  obtain ⟨first, hfirst⟩ := exists_read?_listItem hu ha
  obtain ⟨further, e, he, hle⟩ := exists_many_of_items ht hitems
  refine ⟨(first, further), _, read?_nameList_eq_some_iff.2 ⟨_, e, hfirst, he, rfl⟩, ?_⟩
  have htext := (upholds_many upholds_furtherItem).text_eq he
  rw [(Cursor.reads_dropWhile isIdentifierChar a).text_eq, ← hitems.text_eq] at htext
  exact offset_le_dropWhile hv hspaces htext hle

theorem read?_furtherItem_of_remaining (h : d.remaining = []) : read? furtherItem d = none := by
  refine Option.eq_none_iff_forall_ne_some.2 fun ⟨name, e⟩ he => ?_
  obtain ⟨w, t, -, -, hr, -⟩ := read?_furtherItem_eq_some_iff.1 he
  simpa [h] using hr.remaining_eq

/-- Spaces at the end are no name. -/
theorem read?_furtherItem_of_dangling (hw : ∀ x ∈ w, Space x) (h : d.remaining = ',' :: w) :
    read? furtherItem d = none := by
  refine Option.eq_none_iff_forall_ne_some.2 fun ⟨name, e⟩ he => ?_
  obtain ⟨v, _, -, ⟨u, -, ⟨x, xs, hname, hx, -⟩, rfl⟩, hr, -⟩ := read?_furtherItem_eq_some_iff.1 he
  have hmem : x ∈ d.remaining := by
    rw [hr.remaining_eq, hname]
    simp
  rw [h, List.mem_cons] at hmem
  obtain rfl | hmem := hmem
  · revert hx
    decide
  · exact (hw x hmem).not_wordChar (.inl hx)

section Text

variable {text : String} {n : Nat}

theorem exists_read?_of_mem_listed (h : n ∈ listed text) :
    ∃ found e, read? nameList (.ofString text) = some (found, e) ∧ n ≤ e.offset := by
  obtain ⟨hn, name, names, hlist⟩ := h
  obtain ⟨d, hd, ho⟩ := reads_front hn
  obtain ⟨found, e, he, hle⟩ := exists_read?_nameList hlist hd
  exact ⟨found, e, he, ho ▸ hle⟩

/-- What is found at the start of a text is the longest start that is a list. -/
theorem isGreatest_listed (h : read? nameList (.ofString text) = some ((name, names), d)) :
    IsGreatest (listed text) d.offset := by
  obtain ⟨t, hlist, hr⟩ := exists_listed h
  have hle : d.offset ≤ text.toList.length := by
    rw [← size_of_reads hr]
    exact d.offset_le
  refine ⟨⟨hle, name, names, eq_take_of_reads hr ▸ hlist⟩, fun n hn => ?_⟩
  obtain ⟨found, e, he, hne⟩ := exists_read?_of_mem_listed hn
  cases h.symm.trans he
  exact hne

/-- The texts of the form of a list are read, and no others. -/
theorem parse_nameList_eq_ok_iff : Id.run (parse nameList text) = .ok (name, names) ↔
    Listed text.toList name names := by
  rw [run_parse_eq_ok_iff upholds_nameList]
  constructor
  · rintro ⟨d, hd, hnil⟩
    obtain ⟨t, hlist, hr⟩ := exists_listed hd
    have htext := hr.remaining_eq
    rw [remaining_ofString, hnil, List.append_nil] at htext
    exact htext ▸ hlist
  · intro hlist
    have hr : (Cursor.ofString text).remaining = text.toList ++ [] := by
      rw [remaining_ofString, List.append_nil]
    have hd := Cursor.reads_skip hr
    have hnil := List.append_cancel_left (hd.remaining_eq.symm.trans hr)
    have hpeek := Cursor.peek?_eq_none_iff.2 hnil
    have hnone := read?_furtherItem_of_remaining hnil
    refine ⟨_, read?_nameList_of_listed hlist hd ?_ ?_ hnone, hnil⟩
    · simp [WordEnds, hpeek]
    · simp [hpeek]

theorem read?_nameList_eq_none_iff : read? nameList (.ofString text) = none ↔
    ¬ ∃ t name rest, Spaced t name ∧ text.toList = t ++ rest := by
  constructor
  · rintro hnone ⟨t, name, rest, ht, htext⟩
    have hlist : Listed t name [] := ⟨t, [], [], ht, .nil, by simp, by simp⟩
    obtain ⟨found, d, hd, -⟩ := exists_read?_nameList hlist
      (Cursor.reads_skip ((remaining_ofString text).trans htext))
    rw [hnone] at hd
    cases hd
  · intro hnot
    refine Option.eq_none_iff_forall_ne_some.2 fun ⟨⟨name, names⟩, d⟩ hd => hnot ?_
    obtain ⟨_, ⟨u, t, v, hu, -, -, rfl⟩, hr⟩ := exists_listed hd
    have htext := hr.remaining_eq
    rw [remaining_ofString, List.append_assoc, List.append_assoc] at htext
    exact ⟨u, name, _, hu, htext⟩

theorem parse_nameList_eq_trailingInput_iff {place : Position} :
    Id.run (parse nameList text) = .error (.trailingInput place) ↔
      IsGreatest (listed text) place.offset ∧ place.offset < text.toList.length ∧
        place.line = (text.toList.take place.offset).count '\n' + 1 ∧
        place.col =
          ((text.toList.take place.offset).reverse.takeWhile (· != '\n')).length + 1 := by
  rw [run_parse_eq_trailingInput_iff upholds_nameList]
  constructor
  · rintro ⟨⟨name, names⟩, d, hd, hne, rfl⟩
    obtain ⟨t, -, hr⟩ := exists_listed hd
    rw [position_of_reads hr]
    exact ⟨isGreatest_listed hd, (remaining_ne_nil_iff hr).1 hne, rfl, rfl⟩
  · rintro ⟨hgreatest, hlt, hline, hcol⟩
    obtain ⟨⟨name, names⟩, d, hd, -⟩ := exists_read?_of_mem_listed hgreatest.1
    have ho := (isGreatest_listed hd).unique hgreatest
    obtain ⟨t, -, hr⟩ := exists_listed hd
    refine ⟨(name, names), d, hd, (remaining_ne_nil_iff hr).2 (ho ▸ hlt), ?_⟩
    rw [position_of_reads hr, ho, ← hline, ← hcol]

/-- A list is read up to the comma if only spaces follow that. -/
theorem exists_trailingInput_of_dangling (hlist : Listed t name names) (hw : ∀ x ∈ w, Space x)
    (h : text.toList = t ++ ',' :: w) :
    ∃ place, Id.run (parse nameList text) = .error (.trailingInput place) ∧
      place.offset = t.length := by
  have htext := (remaining_ofString text).trans h
  have hd := Cursor.reads_skip htext
  have hrest := List.append_cancel_left (hd.remaining_eq.symm.trans htext)
  have hpeek : ((Cursor.ofString text).skip t.length).peek? = some ',' := by
    rw [Cursor.peek?_eq_head?, hrest, List.head?_cons]
  have hread := read?_nameList_of_listed hlist hd (by simp [WordEnds, hpeek]; decide)
    (by simp [hpeek]; decide) (read?_furtherItem_of_dangling hw hrest)
  refine ⟨_, (run_parse_eq_trailingInput_iff upholds_nameList).2 ⟨_, _, hread, ?_, rfl⟩, ?_⟩
  · rw [hrest]
    exact List.cons_ne_nil _ _
  · exact hd.offset_eq.trans (Nat.zero_add _)

/-- The answers to a list. The texts that are read are those of the form of a list, with the names
that stand in it. Another text has an error: at its start if no name comes first, and else behind
the longest start of it that is a list. So a comma without a name behind it is never consumed. -/
theorem parse_nameList_iff (text : String) :
    (∀ name names, Id.run (parse nameList text) = .ok (name, names) ↔
      Listed text.toList name names) ∧
    (∀ place, Id.run (parse nameList text) = .error (.noMatch place) ↔
      place = ⟨0, 1, 1⟩ ∧ ¬ ∃ t name rest, Spaced t name ∧ text.toList = t ++ rest) ∧
    (∀ place, Id.run (parse nameList text) = .error (.trailingInput place) ↔
      IsGreatest (listed text) place.offset ∧ place.offset < text.toList.length ∧
        place.line = (text.toList.take place.offset).count '\n' + 1 ∧
        place.col =
          ((text.toList.take place.offset).reverse.takeWhile (· != '\n')).length + 1) ∧
    (∀ t name names w, Listed t name names → (∀ x ∈ w, Space x) → text.toList = t ++ ',' :: w →
      ∃ place, Id.run (parse nameList text) = .error (.trailingInput place) ∧
        place.offset = t.length) := by
  refine ⟨fun _ _ => parse_nameList_eq_ok_iff, fun place => ?_,
    fun _ => parse_nameList_eq_trailingInput_iff,
    fun _ _ _ _ hlist hw h => exists_trailingInput_of_dangling hlist hw h⟩
  rw [run_parse_eq_noMatch_iff upholds_nameList, and_comm, read?_nameList_eq_none_iff]

/-- A comma behind three names is given back with the spaces behind it. -/
theorem parse_nameList_iff_dangling : Listed "a, b ,c ".toList "a" ["b", "c"] ∧
    ∃ place, Id.run (parse nameList "a, b ,c ,\n") = .error (.trailingInput place) ∧
      place.offset = 8 := by
  have hlist := ((parse_nameList_iff "a, b ,c ").1 "a" ["b", "c"]).1 rfl
  have hspace : ∀ x ∈ ['\n'], Space x := List.forall_mem_singleton.2 (by decide)
  exact ⟨hlist, (parse_nameList_iff "a, b ,c ,\n").2.2.2 _ _ _ _ hlist hspace rfl⟩

end Text

end BoolFormula
