import BoolFormula.Formula.TableText
import BoolFormula.Proofs.Formula.Enumeration
import BoolFormula.Proofs.Formula.Rendering
import Mathlib.Data.List.Forall2
import Mathlib.Data.String.Basic
import Mathlib.Data.String.Lemmas

/-! Reading a written table. The header tells where the column of each name starts and how wide it
is. All lines are as long as the header, since a digit is padded to the width of its name, and
identifiers have one byte for each code point. So the digit of a name stands under the end of that
name in every row, and cutting the lines at the columns of the header gives the rows back. -/

namespace BoolFormula

/-! ### Names that are read -/

section Identifier

variable {name : String} (h : IsIdentifier name)
include h

theorem IsIdentifier.wordChar : ∀ x ∈ name.toList, WordChar x := by
  obtain ⟨x, xs, hname, hx, hxs⟩ := h
  rw [hname]
  exact List.forall_mem_cons.2 ⟨.inl hx, hxs⟩

theorem IsIdentifier.length_pos : 0 < name.length := by
  obtain ⟨x, xs, hname, -, -⟩ := h
  rw [← String.length_toList, hname]
  exact Nat.succ_pos _

end Identifier

theorem utf8Size_of_wordChar {x : Char} (h : WordChar x) : x.utf8Size = 1 := by
  rw [Char.utf8Size_eq_one_iff]
  simp only [WordChar, Letter, Char.le_def] at h
  obtain (h | h | rfl) | h := h
  · exact UInt32.le_trans h.2 (by decide)
  · exact UInt32.le_trans h.2 (by decide)
  · decide
  · exact UInt32.le_trans h.2 (by decide)

theorem utf8Len_of_wordChars {xs : List Char} (h : ∀ x ∈ xs, WordChar x) :
    String.utf8Len xs = xs.length := by
  induction xs with
  | nil => rfl
  | cons x xs ih =>
    rw [List.forall_mem_cons] at h
    rw [String.utf8Len_cons, ih h.2, utf8Size_of_wordChar h.1, List.length_cons]

/-- An identifier has one byte for each code point. -/
theorem IsIdentifier.utf8ByteSize_eq {name : String} (h : IsIdentifier name) :
    name.utf8ByteSize = name.length := by
  rw [← String.length_toList, ← utf8Len_of_wordChars h.wordChar, ← String.utf8ByteSize_ofList,
    String.ofList_toList]

namespace Formula

variable {f : Formula}

theorem exists_mentions (f : Formula) : ∃ name, f.Mentions name := by
  induction f with
  | var x => exact ⟨x, rfl⟩
  | neg inner ih => exact ih
  | conj lhs rhs ihl _ | disj lhs rhs ihl _ =>
    obtain ⟨name, hname⟩ := ihl
    exact ⟨name, .inl hname⟩

theorem variables_ne_nil (f : Formula) : f.«variables» ≠ [] := by
  obtain ⟨name, hname⟩ := f.exists_mentions
  exact List.ne_nil_of_mem (mem_variables.2 hname)

theorem WellNamed.isIdentifier (hf : f.WellNamed) {name : String} (h : f.Mentions name) :
    IsIdentifier name := by
  induction f with
  | var x => exact h ▸ hf
  | neg inner ih => exact ih hf h
  | conj lhs rhs ihl ihr | disj lhs rhs ihl ihr =>
    obtain h | h := h
    · exact ihl hf.1 h
    · exact ihr hf.2 h

end Formula

theorem map_fst_of_mem_assignments {names : List String} {a : List (String × Bool)}
    (h : a ∈ assignments names) : a.map Prod.fst = names := by
  rw [assignments_eq] at h
  obtain ⟨n, -, rfl⟩ := List.mem_map.1 h
  exact map_fst_numbered names n

/-! ### Columns -/

/-- Each name with the place where it starts, the first one at `start`. -/
def columns : Nat → List String → List (String × Nat)
  | _, [] => []
  | start, name :: names => (name, start) :: columns (start + name.length + 1) names

/-- The part of the line in the column of a name. -/
def under (line : List Char) (column : String × Nat) : List Char :=
  (line.drop column.2).take column.1.length

/-- The columns of a header, found by the spaces between its names. -/
def headerColumns (header : List Char) : List (String × Nat) :=
  columns 0 (((header.take (header.length - 4)).splitOn ' ').map String.ofList)

/-! ### Reading back -/

def readDigit? : List Char → Option Bool
  | ['0'] => some false
  | ['1'] => some true
  | _ => none

/-- The row on a line, whose value stands at the index `last`. Blanks in front of a digit do not
count. -/
def readRow? (columns : List (String × Nat)) (last : Nat) (line : List Char) : Option TruthRow := do
  let assignment ← columns.mapM fun column =>
    (readDigit? ((under line column).dropWhile (· == ' '))).map fun value => (column.1, value)
  let value ← readDigit? (line.drop last)
  pure ⟨assignment, value⟩

/-- The lines of an output that ends with a line feed. -/
def outputLines (output : String) : List (List Char) := (output.toList.splitOn '\n').dropLast

/-- The rows below a header, cut at its columns. -/
def readTable? (output : String) : Option (List TruthRow) :=
  match outputLines output with
  | [] => none
  | header :: lines => lines.mapM (readRow? (headerColumns header) (header.length - 1))

/-- The line of a row, put together from the names and the values apart. A value has as many places
as its name has bytes. -/
def paddedLine (names : List String) (row : TruthRow) : String :=
  " ".intercalate (List.zipWith (fun name value => (digit value).leftpad name.utf8ByteSize)
    names (row.assignment.map Prod.snd)) ++ " | " ++ digit row.value

/-- The line is that of the row: as long as the header, with the digit of each name under the end of
that name and nothing else under the name, and the digit of the row under the equals sign. -/
structure RowLine (names : List String) (row : TruthRow) (line : List Char) : Prop where
  length_eq : line.length = (tableHeader names).length
  cell : ∀ column ∈ columns 0 names, ∃ value, row.assignment.lookup column.1 = some value ∧
    under line column = List.replicate (column.1.length - 1) ' ' ++ (digit value).toList
  value : line.drop ((tableHeader names).length - 1) = (digit row.value).toList

/-- The output is the table of the rows: the header, and below it one line for each row. -/
structure Tabulated (names : List String) (rows : List TruthRow) (output : String) : Prop where
  feeds : output.toList = (outputLines output).flatMap fun line => line ++ ['\n']
  lines_eq : outputLines output =
    (tableHeader names).toList :: rows.map fun row => (paddedLine names row).toList
  header : ∀ column ∈ columns 0 names, under (tableHeader names).toList column = column.1.toList
  row : ∀ row ∈ rows, RowLine names row (paddedLine names row).toList

/-! ### Pieces in columns -/

theorem mapM_eq_some {α β : Type} {g : α → Option β} {xs : List α} {ys : List β}
    (h : List.Forall₂ (fun x y => g x = some y) xs ys) : xs.mapM g = some ys := by
  induction h with
  | nil => rfl
  | cons hxy _ ih => rw [List.mapM_cons, hxy, ih]; rfl

theorem exists_of_mem_left {α β : Type} {R : α → β → Prop} {xs : List α} {ys : List β} {x : α}
    (h : List.Forall₂ R xs ys) (hx : x ∈ xs) : ∃ y ∈ ys, R x y := by
  induction h with
  | nil => cases hx
  | cons hxy _ ih =>
    obtain rfl | hx := List.mem_cons.1 hx
    · exact ⟨_, List.mem_cons_self, hxy⟩
    · obtain ⟨y, hy, hxy⟩ := ih hx
      exact ⟨y, List.mem_cons_of_mem _ hy, hxy⟩

section Pieces

variable {α : Type} (name piece : α → String) {as : List α}

/-- Pieces that are as long as the names, with a space between two of them, stand in the columns of
the names, whatever comes before and behind them. -/
theorem under_columns (h : ∀ a ∈ as, (piece a).length = (name a).length) (before rest : List Char) :
    List.Forall₂ (fun column a => column.1 = name a ∧
        under (before ++ (" ".intercalate (as.map piece)).toList ++ rest) column = (piece a).toList)
      (columns before.length (as.map name)) as := by
  induction as generalizing before with
  | nil => exact .nil
  | cons a as ih =>
    rw [List.forall_mem_cons] at h
    have hlength : (piece a).toList.length = (name a).length := by
      rw [String.length_toList, h.1]
    refine .cons ⟨rfl, ?_⟩ ?_
    · obtain ⟨behind, hbehind⟩ : ∃ behind,
          (" ".intercalate ((a :: as).map piece)).toList ++ rest = (piece a).toList ++ behind := by
        cases as <;> simp
      rw [under, List.append_assoc, hbehind, List.drop_left, List.take_left' hlength]
    · cases as with
      | nil => exact .nil
      | cons b as =>
        -- The next piece starts behind this one and the space that follows it.
        have hstart : before.length + (name a).length + 1 =
            (before ++ ((piece a).toList ++ [' '])).length := by
          rw [List.length_append, List.length_append, hlength]
          rfl
        have hnext := ih h.2 (before ++ ((piece a).toList ++ [' ']))
        rw [← hstart] at hnext
        simpa using hnext

theorem length_pieces (h : ∀ a ∈ as, (piece a).length = (name a).length) :
    (" ".intercalate (as.map piece)).length = (" ".intercalate (as.map name)).length := by
  induction as with
  | nil => rfl
  | cons a as ih =>
    rw [List.forall_mem_cons] at h
    cases as with
    | nil => simpa using h.1
    | cons b as =>
      have hrest := ih h.2
      simp only [List.map_cons, String.intercalate_cons_cons, String.length_append] at hrest ⊢
      omega

/-- What holds of a space and of the code points of all pieces holds of all that is put together. -/
theorem forall_mem_pieces {p : Char → Prop} (hspace : p ' ')
    (h : ∀ a ∈ as, ∀ x ∈ (piece a).toList, p x) :
    ∀ x ∈ (" ".intercalate (as.map piece)).toList, p x := by
  induction as with
  | nil => simp
  | cons a as ih =>
    rw [List.forall_mem_cons] at h
    cases as with
    | nil => simpa using h.1
    | cons b as =>
      have hrest := ih h.2
      simp only [List.map_cons, String.intercalate_cons_cons, String.toList_append,
        List.forall_mem_append] at hrest ⊢
      exact ⟨⟨h.1, by simpa using hspace⟩, hrest⟩

end Pieces

/-- Lines that each end with a line feed are cut apart again. -/
theorem outputLines_join {lines : List String} (h : ∀ line ∈ lines, '\n' ∉ line.toList) :
    outputLines (String.join (lines.map (· ++ "\n"))) = lines.map String.toList := by
  have hfeed : "\n".toList = ['\n'] := rfl
  unfold outputLines
  induction lines with
  | nil => rfl
  | cons line lines ih =>
    rw [List.forall_mem_cons] at h
    rw [List.map_cons, String.join_cons, String.toList_append, String.toList_append, hfeed,
      List.append_assoc, List.singleton_append, List.splitOn_append_cons_self_of_not_mem h.1,
      List.dropLast_cons_of_ne_nil (List.splitOn_ne_nil _ _), ih h.2, List.map_cons]

/-! ### The lines of a table -/

@[simp] theorem length_digit (value : Bool) : (digit value).length = 1 := by cases value <;> rfl

theorem readDigit?_digit (value : Bool) : readDigit? (digit value).toList = some value := by
  cases value <;> rfl

theorem toList_cell (name : String) (value : Bool) :
    (cell name value).toList = List.replicate (name.length - 1) ' ' ++ (digit value).toList := by
  rw [cell, String.toList_append, String.toList_ofList]

theorem length_cell {name : String} (h : 0 < name.length) (value : Bool) :
    (cell name value).length = name.length := by
  rw [cell, String.length_append, String.length_ofList, List.length_replicate, length_digit]
  omega

theorem readDigit?_cell (name : String) (value : Bool) :
    readDigit? ((cell name value).toList.dropWhile (· == ' ')) = some value := by
  rw [toList_cell, List.dropWhile_append_of_pos (by simp)]
  cases value <;> rfl

theorem leftpad_digit {name : String} (h : IsIdentifier name) (value : Bool) :
    (digit value).leftpad name.utf8ByteSize = cell name value := by
  rw [← String.toList_inj, toList_cell, h.utf8ByteSize_eq, String.leftpad, String.toList_ofList,
    List.leftpad, String.length_toList, length_digit]

theorem toList_tableHeader (names : List String) :
    (tableHeader names).toList = (" ".intercalate names).toList ++ [' ', '|', ' ', '='] := by
  rw [tableHeader, String.toList_append]
  rfl

theorem length_tableHeader (names : List String) :
    (tableHeader names).length = (" ".intercalate names).length + 4 := by
  rw [tableHeader, String.length_append]
  rfl

theorem toList_line (row : TruthRow) : row.line.toList =
    (" ".intercalate (row.assignment.map fun (name, value) => cell name value)).toList ++
      ([' ', '|', ' '] ++ (digit row.value).toList) := by
  rw [TruthRow.line, String.toList_append, String.toList_append, List.append_assoc]
  rfl

theorem under_header (names : List String) :
    ∀ column ∈ columns 0 names, under (tableHeader names).toList column = column.1.toList := by
  have h := under_columns id id (fun name (_ : name ∈ names) => rfl) [] [' ', '|', ' ', '=']
  rw [List.map_id, List.nil_append, ← toList_tableHeader] at h
  intro column hcolumn
  obtain ⟨name, -, rfl, hunder⟩ := exists_of_mem_left h hcolumn
  exact hunder

section Rows

variable {names : List String} (hnames : ∀ name ∈ names, IsIdentifier name)
include hnames

theorem feed_notMem_header : '\n' ∉ (tableHeader names).toList := by
  have hfeed : ∀ name ∈ names, ∀ x ∈ (id name).toList, x ≠ '\n' := by
    rintro name hname x hx rfl
    exact absurd ((hnames name hname).wordChar _ hx) (by decide)
  have h := forall_mem_pieces (p := (· ≠ '\n')) id (by decide) hfeed
  rw [List.map_id] at h
  rw [toList_tableHeader, List.mem_append, not_or]
  exact ⟨fun hmem => h _ hmem rfl, by decide⟩

theorem headerColumns_eq (hne : names ≠ []) :
    headerColumns (tableHeader names).toList = columns 0 names := by
  have hspace : ∀ xs ∈ names.map String.toList, ' ' ∉ xs := by
    intro xs hxs hmem
    obtain ⟨name, hname, rfl⟩ := List.mem_map.1 hxs
    exact absurd ((hnames name hname).wordChar _ hmem) (by decide)
  have hlength : (tableHeader names).toList.length - 4 = (" ".intercalate names).toList.length := by
    rw [String.length_toList, String.length_toList, length_tableHeader, Nat.add_sub_cancel]
  have hblank : " ".toList = [' '] := rfl
  rw [headerColumns, hlength, toList_tableHeader, List.take_left, String.toList_intercalate, hblank,
    List.splitOn_intercalate ' ' hspace (by simpa using hne), List.map_map]
  congr 1
  simp [Function.comp_def]

variable {row : TruthRow} (hrow : row.assignment.map Prod.fst = names)
include hrow

theorem length_cell_of_mem :
    ∀ pair ∈ row.assignment, (cell pair.1 pair.2).length = pair.1.length := by
  intro pair hpair
  have hname : pair.1 ∈ names := hrow ▸ List.mem_map_of_mem hpair
  exact length_cell (hnames _ hname).length_pos pair.2

/-- Putting the names and the values together makes no difference to the line. -/
theorem paddedLine_eq : paddedLine names row = row.line := by
  have hcells : List.zipWith (fun name value => (digit value).leftpad name.utf8ByteSize) names
      (row.assignment.map Prod.snd) = row.assignment.map fun (name, value) => cell name value := by
    rw [← hrow, List.zipWith_map, List.zipWith_self]
    refine List.map_congr_left fun pair hpair => leftpad_digit (hnames _ ?_) pair.2
    exact hrow ▸ List.mem_map_of_mem hpair
  rw [paddedLine, hcells]
  rfl

theorem under_line : List.Forall₂ (fun column pair => column.1 = pair.1 ∧
      under row.line.toList column = (cell pair.1 pair.2).toList)
    (columns 0 names) row.assignment := by
  have h := under_columns Prod.fst (fun pair => cell pair.1 pair.2)
    (length_cell_of_mem hnames hrow) [] ([' ', '|', ' '] ++ (digit row.value).toList)
  rw [hrow, List.nil_append, ← toList_line] at h
  exact h

theorem drop_line : row.line.toList.drop ((tableHeader names).length - 1) =
    (digit row.value).toList := by
  have hpieces := length_pieces Prod.fst (fun pair => cell pair.1 pair.2)
    (length_cell_of_mem hnames hrow)
  rw [toList_line, ← List.append_assoc]
  refine List.drop_left' ?_
  rw [List.length_append, String.length_toList, hpieces, hrow, length_tableHeader]
  rfl

theorem rowLine_line (hsorted : names.Pairwise fun x y => x.toList < y.toList) :
    RowLine names row row.line.toList := by
  have hdrop := drop_line hnames hrow
  have hlength := congrArg List.length hdrop
  rw [List.length_drop, String.length_toList, String.length_toList, length_digit,
    length_tableHeader] at hlength
  refine ⟨?_, fun column hcolumn => ?_, hdrop⟩
  · rw [String.length_toList, length_tableHeader]
    omega
  · obtain ⟨pair, hpair, hname, hunder⟩ := exists_of_mem_left (under_line hnames hrow) hcolumn
    refine ⟨pair.2, ?_, ?_⟩
    · rw [← hrow, List.pairwise_map] at hsorted
      rw [hname, ← getElem?_ofList hsorted, getElem?_ofList_of_mem hsorted hpair]
    · rw [hunder, hname, toList_cell]

/-- Cut at the columns of the header, the line of a row gives the row back. -/
theorem readRow?_line :
    readRow? (columns 0 names) ((tableHeader names).length - 1) row.line.toList = some row := by
  have hcells := mapM_eq_some ((under_line hnames hrow).imp fun column pair ⟨hname, hunder⟩ =>
    show (readDigit? ((under row.line.toList column).dropWhile (· == ' '))).map
        (fun value => (column.1, value)) = some pair by
      rw [hunder, readDigit?_cell, hname]
      rfl)
  rw [readRow?, hcells, drop_line hnames hrow, readDigit?_digit]
  rfl

end Rows

theorem feed_notMem_line (row : TruthRow) : '\n' ∉ row.line.toList := by
  have hdigit (value : Bool) : '\n' ∉ (digit value).toList := by cases value <;> decide
  have hfeed : ∀ pair ∈ row.assignment, ∀ x ∈ (cell pair.1 pair.2).toList, x ≠ '\n' := by
    rintro pair - x hx rfl
    rw [toList_cell, List.mem_append] at hx
    obtain hx | hx := hx
    · exact absurd (List.eq_of_mem_replicate hx) (by decide)
    · exact hdigit pair.2 hx
  have h := forall_mem_pieces (p := (· ≠ '\n')) (fun pair : String × Bool => cell pair.1 pair.2)
    (by decide) hfeed
  rw [toList_line, List.mem_append, List.mem_append, not_or, not_or]
  exact ⟨fun hmem => h _ hmem rfl, by decide, hdigit row.value⟩

/-! ### The whole output -/

/-- The output that is the table of the rows. -/
def tableOutput (names : List String) (rows : List TruthRow) : String :=
  String.join ((tableHeader names :: rows.map TruthRow.line).map (· ++ "\n"))

section Output

variable {names : List String} (hnames : ∀ name ∈ names, IsIdentifier name)
include hnames

theorem outputLines_tableOutput (rows : List TruthRow) : outputLines (tableOutput names rows) =
    (tableHeader names).toList :: rows.map fun row => row.line.toList := by
  have hfeeds : ∀ line ∈ tableHeader names :: rows.map TruthRow.line, '\n' ∉ line.toList := by
    refine List.forall_mem_cons.2 ⟨feed_notMem_header hnames, fun line hline => ?_⟩
    obtain ⟨row, -, rfl⟩ := List.mem_map.1 hline
    exact feed_notMem_line row
  rw [tableOutput, outputLines_join hfeeds, List.map_cons, List.map_map]
  rfl

variable {rows : List TruthRow} (hrows : ∀ row ∈ rows, row.assignment.map Prod.fst = names)
include hrows

theorem tabulated (hsorted : names.Pairwise fun x y => x.toList < y.toList) :
    Tabulated names rows (tableOutput names rows) := by
  refine ⟨?_, ?_, under_header names, fun row hrow => ?_⟩
  · rw [outputLines_tableOutput hnames, tableOutput, String.toList_join]
    simp [List.flatMap_map]
  · rw [outputLines_tableOutput hnames]
    congr 1
    exact List.map_congr_left fun row hrow => by rw [paddedLine_eq hnames (hrows row hrow)]
  · rw [paddedLine_eq hnames (hrows row hrow)]
    exact rowLine_line hnames (hrows row hrow) hsorted

theorem readTable?_tableOutput (hne : names ≠ []) :
    readTable? (tableOutput names rows) = some rows := by
  rw [readTable?, outputLines_tableOutput hnames]
  dsimp only
  rw [headerColumns_eq hnames hne, String.length_toList]
  refine mapM_eq_some (List.forall₂_map_left_iff.2 (List.forall₂_same.2 fun row hrow => ?_))
  exact readRow?_line hnames (hrows row hrow)

end Output

end BoolFormula
