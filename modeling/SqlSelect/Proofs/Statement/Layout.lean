import SqlSelect.Proofs.Text.Slice
import SqlSelect.Statement.Basic

namespace SqlSelect

open Text (byteSize)

/-- A stretch of text, and the value that the marker right after it stands for. -/
structure Stretch where
  text : String
  value : String

/-- What a statement is made of: stretches, each up to its marker, and the text after the last marker. -/
structure Layout where
  stretches : List Stretch
  last : String

namespace Layout

def ofText (text : String) : Layout := ⟨[], text⟩

def append (layout : Layout) (text : String) : Layout :=
  { layout with last := layout.last ++ text }

def bindValue (layout : Layout) (value : String) : Layout where
  stretches := layout.stretches ++ [⟨layout.last, value⟩]
  last := ""

def segments (layout : Layout) : List String :=
  layout.stretches.map Stretch.text ++ [layout.last]

def values (layout : Layout) : List String :=
  layout.stretches.map Stretch.value

/-- The text with what `slot` makes of index and value in the place of each marker. -/
def fill (layout : Layout) (slot : Nat → String → String) : String :=
  String.join (layout.stretches.mapIdx fun index stretch => stretch.text ++ slot index stretch.value) ++ layout.last

/-- The offsets of the markers when the first stretch begins at `start`. -/
def offsets : Nat → List Stretch → List Nat
  | _, [] => []
  | start, stretch :: rest =>
    (start + byteSize stretch.text.toList) :: offsets (start + byteSize stretch.text.toList + 1) rest

def markedText (layout : Layout) : String :=
  layout.fill fun _ _ => "?"

def statement (layout : Layout) : Statement where
  sql := layout.markedText
  params := layout.values
  marks := offsets 0 layout.stretches

@[simp] theorem statement_sql (layout : Layout) : layout.statement.sql = layout.markedText := rfl

@[simp] theorem statement_params (layout : Layout) : layout.statement.params = layout.values := rfl

@[simp] theorem statement_marks (layout : Layout) : layout.statement.marks = offsets 0 layout.stretches := rfl

@[simp] theorem fill_append (layout : Layout) (text : String) (slot : Nat → String → String) :
    (layout.append text).fill slot = layout.fill slot ++ text := by
  simp [fill, append, String.append_assoc]

@[simp] theorem fill_bindValue (layout : Layout) (value : String) (slot : Nat → String → String) :
    (layout.bindValue value).fill slot = layout.fill slot ++ slot layout.stretches.length value := by
  simp [fill, bindValue, List.mapIdx_append, String.append_assoc]

theorem fill_cons (stretch : Stretch) (rest : List Stretch) (last : String) (slot : Nat → String → String) :
    (Layout.mk (stretch :: rest) last).fill slot =
      stretch.text ++ slot 0 stretch.value ++ (Layout.mk rest last).fill fun index => slot (index + 1) := by
  simp only [fill, List.mapIdx_cons, String.join_cons, String.append_assoc]

theorem markedText_cons (stretch : Stretch) (rest : List Stretch) (last : String) :
    (Layout.mk (stretch :: rest) last).markedText = stretch.text ++ "?" ++ (Layout.mk rest last).markedText :=
  fill_cons stretch rest last _

def width : List Stretch → Nat
  | [] => 0
  | stretch :: rest => byteSize stretch.text.toList + 1 + width rest

theorem offsets_append (start : Nat) (stretches more : List Stretch) :
    offsets start (stretches ++ more) = offsets start stretches ++ offsets (start + width stretches) more := by
  induction stretches generalizing start with
  | nil => simp [offsets, width]
  | cons stretch rest ih => simp only [List.cons_append, offsets, ih, width, Nat.add_assoc]

theorem byteSize_markedText (layout : Layout) :
    byteSize layout.markedText.toList = width layout.stretches + byteSize layout.last.toList := by
  have question : byteSize "?".toList = 1 := by decide
  obtain ⟨stretches, last⟩ := layout
  induction stretches with
  | nil => simp [markedText, fill, width]
  | cons stretch rest ih =>
    simp only [markedText_cons, String.toList_append, Text.byteSize_append, width, question, ih]
    omega

theorem statement_ofText (text : String) : Statement.ofText text = (ofText text).statement := by
  simp [Statement.ofText, statement, ofText, markedText, fill, values, offsets]

theorem statement_append (layout : Layout) (text : String) :
    layout.statement.append text = (layout.append text).statement := by
  have marked : layout.markedText ++ text = (layout.append text).markedText := (fill_append layout text _).symm
  simp only [Statement.append, statement, marked]
  rfl

theorem statement_bindValue (layout : Layout) (value : String) :
    layout.statement.bindValue value = (layout.bindValue value).statement := by
  have marked : layout.markedText ++ "?" = (layout.bindValue value).markedText :=
    (fill_bindValue layout value _).symm
  have values : layout.values ++ [value] = (layout.bindValue value).values := by simp [values, bindValue]
  have marks : offsets 0 layout.stretches ++ [byteSize layout.markedText.toList] =
      offsets 0 (layout.bindValue value).stretches := by
    simp [bindValue, offsets_append, offsets, byteSize_markedText]
  simp only [Statement.bindValue, statement, marked, values, marks]

/-- Cutting a text at the offsets of its markers gives the stretches back, wherever in the text they begin. -/
theorem slices_offsets (before : List Char) (stretches : List Stretch) (last : String) (whole : List Char)
    (same : whole = before ++ (Layout.mk stretches last).markedText.toList) :
    ((byteSize before :: (offsets (byteSize before) stretches).map (· + 1)).zip
        (offsets (byteSize before) stretches ++ [byteSize whole])).map
      (fun range => Text.slice? whole range.1 range.2) =
      (stretches.map Stretch.text ++ [last]).map fun segment => some segment.toList := by
  induction stretches generalizing before with
  | nil =>
    have found := Text.slice?_append before last.toList []
    rw [List.append_nil] at found
    subst same
    simp [offsets, markedText, fill, found]
  | cons stretch rest ih =>
    have shape : whole = before ++ (stretch.text.toList ++ ('?' :: (Layout.mk rest last).markedText.toList)) := by
      simp [same, markedText_cons]
    have found := Text.slice?_append before stretch.text.toList ('?' :: (Layout.mk rest last).markedText.toList)
    rw [← shape] at found
    have next := ih (before ++ stretch.text.toList ++ ['?']) (by simp [shape])
    have start : byteSize (before ++ stretch.text.toList ++ ['?']) =
        byteSize before + byteSize stretch.text.toList + 1 := by
      simp [Text.byteSize, show '?'.utf8Size = 1 from by decide, Nat.add_assoc]
    rw [start] at next
    simp only [offsets, List.map_cons, List.cons_append, List.zip_cons_cons, found, next]

theorem slices_statement (layout : Layout) :
    layout.statement.ranges.map (fun range => Text.slice? layout.statement.sql.toList range.1 range.2) =
      layout.segments.map fun segment => some segment.toList := by
  have slices := slices_offsets [] layout.stretches layout.last layout.markedText.toList rfl
  simpa [Statement.ranges, segments, Text.byteSize] using slices

theorem segments_statement (layout : Layout) : layout.statement.segments = layout.segments := by
  have found := congrArg (List.map fun slice => String.ofList (slice.getD [])) layout.slices_statement
  simpa [Statement.segments, Function.comp_def] using found

theorem weave_segments (stretches : List Stretch) (last : String) (slot : Nat → String → String) :
    Statement.weave (stretches.map Stretch.text ++ [last]) ((stretches.map Stretch.value).mapIdx slot) =
      (Layout.mk stretches last).fill slot := by
  induction stretches generalizing slot with
  | nil => simp [Statement.weave, fill]
  | cons stretch rest ih =>
    have others := ih fun index => slot (index + 1)
    simp only [List.map_cons, List.cons_append, List.mapIdx_cons, Statement.weave, others, fill_cons]

theorem fill_statement (layout : Layout) (slot : Nat → String → String) :
    layout.statement.fill slot = layout.fill slot := by
  rw [Statement.fill, segments_statement]
  exact weave_segments layout.stretches layout.last slot

/-- The text with numbers in the place of the markers, counting on from `start`. -/
def numberedFrom (start : Nat) (layout : Layout) : String :=
  layout.fill fun index _ => "$" ++ toString (start + index + 1)

theorem numberedFrom_nil (start : Nat) (last : String) : numberedFrom start ⟨[], last⟩ = last := by
  simp [numberedFrom, fill]

theorem numberedFrom_cons (start : Nat) (stretch : Stretch) (rest : List Stretch) (last : String) :
    numberedFrom start ⟨stretch :: rest, last⟩ =
      stretch.text ++ ("$" ++ toString (start + 1)) ++ numberedFrom (start + 1) ⟨rest, last⟩ := by
  have next (index : Nat) : start + (index + 1) + 1 = start + 1 + index + 1 := by omega
  simp only [numberedFrom, fill_cons, Nat.add_zero, next]

theorem numbered_statement (layout : Layout) : layout.statement.numbered = layout.numberedFrom 0 := by
  rw [Statement.numbered, fill_statement, numberedFrom]
  simp only [Nat.zero_add]

end Layout

end SqlSelect
