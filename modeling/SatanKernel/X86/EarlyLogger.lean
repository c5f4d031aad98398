import Mathlib.Data.List.OfFn

/-!
# The early logger

The VGA text writer of `arch/x86/early_logger.rs`.  An index of the buffer that is out of
range is a panic.

The reference is a terminal that keeps all of its rows.  The writer shows the last
`vgaHeight` rows of it.
-/

namespace SatanKernel.X86

def vgaWidth : Nat := 80

def vgaHeight : Nat := 25

/-- The colors of the text mode. -/
inductive Color where
  | black
  | blue
  | green
  | cyan
  | red
  | magenta
  | brown
  | lightGray
  | darkGray
  | lightBlue
  | lightGreen
  | lightCyan
  | lightRed
  | pink
  | yellow
  | white
  deriving DecidableEq, Repr

/-- `as u8`. -/
def Color.toUInt8 : Color → UInt8
  | .black => 0
  | .blue => 1
  | .green => 2
  | .cyan => 3
  | .red => 4
  | .magenta => 5
  | .brown => 6
  | .lightGray => 7
  | .darkGray => 8
  | .lightBlue => 9
  | .lightGreen => 10
  | .lightCyan => 11
  | .lightRed => 12
  | .pink => 13
  | .yellow => 14
  | .white => 15

structure Character where
  character : UInt8
  color : UInt8
  deriving DecidableEq, Repr

/-- One line of characters. -/
abbrev Row := Fin vgaWidth → Character

abbrev Buffer := Fin vgaHeight → Row

namespace Buffer

/-- `(*self.buffer)[row][col]`. -/
def get (buffer : Buffer) (row col : Nat) : Option Character :=
  if inside : row < vgaHeight ∧ col < vgaWidth then
    some (buffer ⟨row, inside.1⟩ ⟨col, inside.2⟩)
  else none

/-- `(*self.buffer)[row][col] = character`. -/
def set (buffer : Buffer) (row col : Nat) (character : Character) : Option Buffer :=
  if row < vgaHeight ∧ col < vgaWidth then
    some fun otherRow otherCol =>
      if otherRow.val = row ∧ otherCol.val = col then character else buffer otherRow otherCol
  else none

/-- `(*self.buffer)[row - 1][col] = (*self.buffer)[row][col]`. -/
def moveUp (row : Nat) (buffer : Buffer) (col : Nat) : Option Buffer := do
  buffer.set (row - 1) col (← buffer.get row col)

end Buffer

structure Writer where
  col : Nat
  color : UInt8
  buffer : Buffer

namespace Writer

def setColor (writer : Writer) (fg bg : Color) : Writer :=
  { writer with color := bg.toUInt8 <<< 4 ||| fg.toUInt8 }

def clearRow (writer : Writer) (row : Nat) : Option Writer := do
  let blank : Character := ⟨' '.toUInt8, writer.color⟩
  let buffer ← (List.range vgaWidth).foldlM (fun buffer col => buffer.set row col blank)
    writer.buffer
  pure { writer with buffer }

def newLine (writer : Writer) : Option Writer := do
  let buffer ← (List.range' 1 (vgaHeight - 1)).foldlM
    (fun buffer row => (List.range vgaWidth).foldlM (Buffer.moveUp row) buffer) writer.buffer
  let writer ← clearRow { writer with buffer } (vgaHeight - 1)
  pure { writer with col := 0 }

def write (writer : Writer) (ch : UInt8) : Option Writer :=
  if ch = '\n'.toUInt8 then writer.newLine
  else if ch = '\r'.toUInt8 then some { writer with col := 0 }
  else do
    let writer ← if writer.col ≥ vgaWidth then writer.newLine else some writer
    let buffer ← writer.buffer.set (vgaHeight - 1) writer.col ⟨ch, writer.color⟩
    pure { writer with buffer, col := writer.col + 1 }

end Writer

/-! ## What the loops do to the buffer -/

namespace Buffer

/-- The buffer with the first columns of a row replaced. -/
def withColumns (buffer : Buffer) (row cols : Nat) (line : Row) : Buffer := fun otherRow col =>
  if otherRow.val = row ∧ col.val < cols then line col else buffer otherRow col

theorem withColumns_succ (buffer : Buffer) {row col : Nat} (line : Row)
    (rowInside : row < vgaHeight) (inside : col < vgaWidth) :
    (buffer.withColumns row col line).set row col (line ⟨col, inside⟩) =
      some (buffer.withColumns row (col + 1) line) := by
  rw [set, if_pos ⟨rowInside, inside⟩]
  congr 1
  funext otherRow otherCol
  by_cases sameRow : otherRow.val = row
  · by_cases sameCol : otherCol.val = col
    · have isCol : otherCol = ⟨col, inside⟩ := Fin.ext sameCol
      simp [withColumns, sameRow, isCol]
    · have less : otherCol.val < col + 1 ↔ otherCol.val < col := by omega
      simp [withColumns, sameRow, sameCol, less]
  · simp [withColumns, sameRow]

theorem withColumns_zero (buffer : Buffer) (row : Nat) (line : Row) :
    buffer.withColumns row 0 line = buffer := by
  funext otherRow col
  simp [withColumns]

/-- A loop over the columns that sets each cell of a row. -/
theorem foldlM_columns (buffer : Buffer) {row : Nat} (rowInside : row < vgaHeight) (line : Row)
    {step : Buffer → Nat → Option Buffer}
    (sets : ∀ (col : Nat) (inside : col < vgaWidth),
      step (buffer.withColumns row col line) col =
        (buffer.withColumns row col line).set row col (line ⟨col, inside⟩))
    {cols : Nat} (fits : cols ≤ vgaWidth) :
    (List.range cols).foldlM step buffer = some (buffer.withColumns row cols line) := by
  induction cols with
  | zero => rw [withColumns_zero]; rfl
  | succ col ih =>
      rw [List.range_succ, List.foldlM_append, ih (by omega)]
      simp only [Option.bind_eq_bind, Option.bind_some, List.foldlM_cons, List.foldlM_nil]
      rw [sets col fits, withColumns_succ buffer line rowInside fits]
      rfl

/-- The buffer with a row replaced. -/
theorem withColumns_width (buffer : Buffer) {row : Nat} (rowInside : row < vgaHeight) (line : Row) :
    buffer.withColumns row vgaWidth line = Function.update buffer ⟨row, rowInside⟩ line := by
  funext otherRow col
  by_cases same : otherRow.val = row
  · have isRow : otherRow = ⟨row, rowInside⟩ := Fin.ext same
    simp [withColumns, isRow, col.isLt]
  · have notRow : otherRow ≠ ⟨row, rowInside⟩ := fun equal => same (congrArg Fin.val equal)
    simp [withColumns, same, notRow]

/-- Moving a row up replaces the row above. -/
theorem foldlM_moveUp (buffer : Buffer) {row : Nat} (inside : row + 1 < vgaHeight) :
    (List.range vgaWidth).foldlM (moveUp (row + 1)) buffer =
      some (Function.update buffer ⟨row, Nat.lt_of_succ_lt inside⟩ (buffer ⟨row + 1, inside⟩)) := by
  rw [← withColumns_width]
  apply foldlM_columns buffer (Nat.lt_of_succ_lt inside) _ _ (Nat.le_refl _)
  intro col colInside
  simp [moveUp, get, inside, colInside, withColumns]

/-- The buffer with the first rows moved up. -/
def movedUp (buffer : Buffer) (rows : Nat) : Buffer := fun row =>
  if moved : row.val < rows ∧ row.val + 1 < vgaHeight then buffer ⟨row.val + 1, moved.2⟩
  else buffer row

/-- A loop over the rows. -/
theorem foldlM_rows (buffer : Buffer) {rows : Nat} (fits : rows < vgaHeight) :
    (List.range' 1 rows).foldlM
      (fun buffer row => (List.range vgaWidth).foldlM (moveUp row) buffer) buffer =
      some (buffer.movedUp rows) := by
  induction rows with
  | zero =>
      have same : buffer.movedUp 0 = buffer := by
        funext row
        simp [movedUp]
      rw [same]
      rfl
  | succ rows ih =>
      have next : 1 + 1 * rows = rows + 1 := by omega
      rw [List.range'_concat, List.foldlM_append, ih (by omega), next]
      simp only [Option.bind_eq_bind, Option.bind_some, List.foldlM_cons, List.foldlM_nil,
        foldlM_moveUp _ fits]
      congr 1
      funext row
      by_cases isLast : row = ⟨rows, Nat.lt_of_succ_lt fits⟩
      · simp [movedUp, isLast, fits]
      · have notLast : row.val ≠ rows := fun equal => isLast (Fin.ext equal)
        have less : row.val < rows + 1 ↔ row.val < rows := by omega
        simp [movedUp, isLast, less]

end Buffer

/-- A row of blanks. -/
def blankRow (color : UInt8) : Row := fun _ => ⟨' '.toUInt8, color⟩

/-- The buffer one row further, with a new last row. -/
def Buffer.scrolled (buffer : Buffer) (line : Row) : Buffer := fun row =>
  if above : row.val + 1 < vgaHeight then buffer ⟨row.val + 1, above⟩ else line

namespace Writer

theorem clearRow_eq (writer : Writer) {row : Nat} (inside : row < vgaHeight) :
    writer.clearRow row =
      some { writer with
        buffer := Function.update writer.buffer ⟨row, inside⟩ (blankRow writer.color) } := by
  rw [← Buffer.withColumns_width, clearRow,
    Buffer.foldlM_columns writer.buffer inside (blankRow writer.color) _ (Nat.le_refl _)]
  · rfl
  · intro col colInside
    rfl

theorem newLine_eq (writer : Writer) :
    writer.newLine =
      some { writer with
        col := 0
        buffer := writer.buffer.scrolled (blankRow writer.color) } := by
  rw [newLine, Buffer.foldlM_rows writer.buffer (by decide)]
  simp only [Option.bind_eq_bind, Option.bind_some]
  rw [clearRow_eq _ (show vgaHeight - 1 < vgaHeight by decide)]
  simp only [Option.bind_some, Option.pure_def, Option.some.injEq, Writer.mk.injEq, true_and]
  funext row
  by_cases isLast : row = ⟨vgaHeight - 1, by decide⟩
  · have atEnd : ¬row.val + 1 < vgaHeight := by simp [isLast, vgaHeight]
    rw [isLast, Function.update_self, ← isLast, Buffer.scrolled, dif_neg atEnd]
  · have above : row.val + 1 < vgaHeight := by
      have notLast : row.val ≠ vgaHeight - 1 := fun equal => isLast (Fin.ext equal)
      have := row.isLt
      omega
    have moved : row.val < vgaHeight - 1 := by omega
    simp [Buffer.scrolled, Buffer.movedUp, isLast, above, moved]

end Writer

/-! ## The reference terminal -/

/-- A terminal with unlimited history. -/
structure Terminal where
  rows : List Row
  col : Nat
  color : UInt8

namespace Terminal

/-- Append a row of blanks. -/
def newLine (terminal : Terminal) : Terminal :=
  { terminal with rows := terminal.rows ++ [blankRow terminal.color], col := 0 }

/-- Overwrite the cell at the cursor in the last row. -/
def put (terminal : Terminal) (ch : UInt8) : Terminal :=
  { terminal with
    rows := terminal.rows.dropLast ++ terminal.rows.getLast?.toList.map fun row col =>
      if col.val = terminal.col then ⟨ch, terminal.color⟩ else row col
    col := terminal.col + 1 }

def write (terminal : Terminal) (ch : UInt8) : Terminal :=
  if ch = '\n'.toUInt8 then terminal.newLine
  else if ch = '\r'.toUInt8 then { terminal with col := 0 }
  else if terminal.col ≥ vgaWidth then terminal.newLine.put ch
  else terminal.put ch

end Terminal

/-- A call on the writer. -/
inductive LoggerCall where
  | write (ch : UInt8)
  | setColor (fg bg : Color)
  deriving DecidableEq, Repr

def Writer.call (writer : Writer) : LoggerCall → Option Writer
  | .write ch => writer.write ch
  | .setColor fg bg => some (writer.setColor fg bg)

def Terminal.call (terminal : Terminal) : LoggerCall → Terminal
  | .write ch => terminal.write ch
  | .setColor fg bg => { terminal with color := bg.toUInt8 <<< 4 ||| fg.toUInt8 }

/-- The terminal that starts with what the writer shows. -/
def Writer.terminal (writer : Writer) : Terminal :=
  ⟨List.ofFn writer.buffer, writer.col, writer.color⟩

/-! ## The writer shows the end of the terminal -/

/-- The simulation: the buffer is what follows some history. -/
structure Shows (writer : Writer) (terminal : Terminal) : Prop where
  rows : ∃ history, terminal.rows = history ++ List.ofFn writer.buffer
  col : terminal.col = writer.col
  color : terminal.color = writer.color
  col_le : writer.col ≤ vgaWidth

/-- Scrolling loses the first row and appends one. -/
theorem ofFn_scrolled (buffer : Buffer) (line : Row) :
    List.ofFn buffer ++ [line] = buffer ⟨0, by decide⟩ :: List.ofFn (buffer.scrolled line) := by
  have kept : ∀ row : Fin (vgaHeight - 1),
      buffer.scrolled line row.castSucc = buffer row.succ := by
    intro row
    have above : row.val + 1 < vgaHeight := row.succ.isLt
    simp only [Buffer.scrolled, Fin.val_castSucc, dif_pos above]
    rfl
  have new : buffer.scrolled line (Fin.last (vgaHeight - 1)) = line := by
    simp [Buffer.scrolled, vgaHeight]
  have first : List.ofFn buffer = buffer ⟨0, by decide⟩ ::
      List.ofFn fun row : Fin (vgaHeight - 1) => buffer row.succ := List.ofFn_succ
  have last : List.ofFn (buffer.scrolled line) =
      (List.ofFn fun row : Fin (vgaHeight - 1) => buffer.scrolled line row.castSucc) ++
        [buffer.scrolled line (Fin.last (vgaHeight - 1))] := List.ofFn_succ_last
  rw [first, last, new]
  simp only [kept, List.cons_append]

namespace Shows

variable {writer : Writer} {terminal : Terminal}

/-- What the buffer holds are the last rows of the terminal. -/
theorem drop_rows (shows : Shows writer terminal) :
    terminal.rows.drop (terminal.rows.length - vgaHeight) = List.ofFn writer.buffer := by
  obtain ⟨history, rows⟩ := shows.rows
  rw [rows, List.length_append, List.length_ofFn, Nat.add_sub_cancel, List.drop_left]

theorem newLine (shows : Shows writer terminal) :
    ∃ after, writer.newLine = some after ∧ Shows after terminal.newLine ∧ after.col = 0 := by
  obtain ⟨history, rows⟩ := shows.rows
  refine ⟨_, writer.newLine_eq, ⟨⟨history ++ [writer.buffer ⟨0, by decide⟩], ?_⟩, rfl,
    shows.color, Nat.zero_le _⟩, rfl⟩
  rw [Terminal.newLine, rows, shows.color, List.append_assoc, ofFn_scrolled, List.append_assoc,
    List.singleton_append]

theorem put (shows : Shows writer terminal) (inside : writer.col < vgaWidth) (ch : UInt8) :
    ∃ buffer, writer.buffer.set (vgaHeight - 1) writer.col ⟨ch, writer.color⟩ = some buffer ∧
      Shows { writer with buffer, col := writer.col + 1 } (terminal.put ch) := by
  obtain ⟨history, rows⟩ := shows.rows
  rw [Buffer.set, if_pos ⟨by decide, inside⟩]
  refine ⟨_, rfl, ⟨history, ?_⟩, congrArg (· + 1) shows.col, shows.color, inside⟩
  have split : ∀ buffer : Buffer, List.ofFn buffer =
      (List.ofFn fun row : Fin (vgaHeight - 1) => buffer row.castSucc) ++
        [buffer (Fin.last (vgaHeight - 1))] := fun buffer => List.ofFn_succ_last
  have above : ∀ row : Fin (vgaHeight - 1), row.val ≠ vgaHeight - 1 := fun row =>
    Nat.ne_of_lt row.isLt
  rw [Terminal.put, rows, split, split, ← List.append_assoc, List.dropLast_concat,
    List.getLast?_concat, shows.col, shows.color]
  simp [above]

/-- One call. -/
theorem call (shows : Shows writer terminal) (call : LoggerCall) :
    ∃ after, writer.call call = some after ∧ Shows after (terminal.call call) := by
  cases call with
  | setColor fg bg => exact ⟨_, rfl, shows.rows, shows.col, rfl, shows.col_le⟩
  | write ch =>
      simp only [Writer.call, Terminal.call, Writer.write, Terminal.write]
      split
      next isNewLine =>
        obtain ⟨after, wrote, follows, -⟩ := shows.newLine
        exact ⟨after, wrote, follows⟩
      next notNewLine =>
        split
        next isReturn => exact ⟨_, rfl, shows.rows, rfl, shows.color, Nat.zero_le _⟩
        next ordinary =>
          rw [shows.col]
          split
          next full =>
            -- The line is full: the byte goes to the next one.
            obtain ⟨middle, wrapped, follows, atStart⟩ := shows.newLine
            obtain ⟨buffer, set, shown⟩ := follows.put (by rw [atStart]; decide) ch
            exact ⟨_, by rw [wrapped]; simp [set], shown⟩
          next notFull =>
            obtain ⟨buffer, set, shown⟩ := shows.put (Nat.lt_of_not_le notFull) ch
            exact ⟨_, by simp [set], shown⟩

/-- Any sequence of calls. -/
theorem calls (shows : Shows writer terminal) (calls : List LoggerCall) :
    ∃ after, calls.foldlM Writer.call writer = some after ∧
      Shows after (calls.foldl Terminal.call terminal) := by
  induction calls generalizing writer terminal with
  | nil => exact ⟨writer, rfl, shows⟩
  | cons call rest ih =>
      obtain ⟨middle, called, follows⟩ := shows.call call
      obtain ⟨after, ran, shown⟩ := ih follows
      refine ⟨after, ?_, shown⟩
      rw [List.foldlM_cons, called]
      exact ran

end Shows

/-- Whatever is written, no access leaves the buffer, the column stays at most 80, and the
buffer is the end of the reference terminal. -/
theorem writer_shows_terminal (writer : Writer) (start : writer.col ≤ vgaWidth)
    (calls : List LoggerCall) :
    ∃ after, calls.foldlM Writer.call writer = some after ∧ after.col ≤ vgaWidth ∧
      let terminal := calls.foldl Terminal.call writer.terminal
      List.ofFn after.buffer = terminal.rows.drop (terminal.rows.length - vgaHeight) ∧
        after.col = terminal.col ∧ after.color = terminal.color := by
  have initial : Shows writer writer.terminal := ⟨⟨[], rfl⟩, rfl, rfl, start⟩
  obtain ⟨after, ran, shown⟩ := initial.calls calls
  exact ⟨after, ran, shown.col_le, shown.drop_rows.symm, shown.col.symm, shown.color.symm⟩

/-- A byte that does not fit into its line, after a change of colour. -/
theorem writer_shows_terminal_wrapped :
    let writer : Writer := ⟨80, 0x0f, fun _ _ => ⟨0, 0⟩⟩
    ∃ after, [LoggerCall.setColor .red .black, .write 'a'.toUInt8].foldlM Writer.call writer =
        some after ∧
      after.col = 1 ∧
      (List.ofFn after.buffer).getLast?.map (fun row => row ⟨0, by decide⟩) =
        some ⟨'a'.toUInt8, 4⟩ := by
  intro writer
  obtain ⟨after, ran, -, shown, col, -⟩ := writer_shows_terminal writer (Nat.le_refl _)
    [.setColor .red .black, .write 'a'.toUInt8]
  refine ⟨after, ran, col, ?_⟩
  rw [shown]
  decide

end SatanKernel.X86
