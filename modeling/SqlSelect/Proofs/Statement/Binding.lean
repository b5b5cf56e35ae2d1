import SqlSelect.Proofs.Statement.Containment
import SqlSelect.Proofs.Statement.Markers
import SqlSelect.Text.Number

namespace SqlSelect

namespace Text

inductive Token where
  | character (c : Char)
  /-- A dollar sign with all the digits after it, and the number that they spell if there are any. -/
  | reference (number : Option Nat)
deriving DecidableEq, Repr

/-- Reads a text once, from left to right. -/
def tokens : List Char → List Token
  | [] => []
  | c :: s =>
    if c = '$' then .reference (natural? (s.takeWhile Char.isDigit)) :: tokens (s.dropWhile Char.isDigit)
    else .character c :: tokens s
termination_by s => s.length
decreasing_by
  · exact Nat.lt_succ_of_le (List.dropWhile_sublist _).length_le
  · exact Nat.lt_succ_self _

/-- The numbers that a text refers to, in the order of the references. -/
def references : List Token → List (Option Nat)
  | [] => []
  | .character _ :: rest => references rest
  | .reference number :: rest => number :: references rest

/-- What stands for a token when the reference to n stands for the n-th text. -/
def Token.text? (texts : List String) : Token → Option String
  | .character c => some (String.singleton c)
  | .reference (some (index + 1)) => texts[index]?
  | .reference _ => none

/-- Puts texts in the place of the references to them. What is put in is not read again, and there is no result if a
    reference has no text to stand for. -/
def substitute? (texts : List String) : List Token → Option String
  | [] => some ""
  | token :: rest => do
    let first ← token.text? texts
    let others ← substitute? texts rest
    pure (first ++ others)

theorem tokens_append {s : List Char} (dollarFree : '$' ∉ s) (rest : List Char) :
    tokens (s ++ rest) = s.map .character ++ tokens rest := by
  induction s with
  | nil => rfl
  | cons c s ih =>
    have ordinary : c ≠ '$' := fun same => dollarFree (by simp [same])
    rw [List.cons_append, tokens, if_neg ordinary, ih (List.not_mem_of_not_mem_cons dollarFree), List.map_cons,
      List.cons_append]

/-- A reference ends with its own number as long as no digit comes right after it. -/
theorem tokens_reference (number : Nat) {rest : List Char} (next : ∀ c ∈ rest.head?, c.isDigit = false) :
    tokens ('$' :: ((toString number).toList ++ rest)) = .reference (some number) :: tokens rest := by
  have digits : ∀ c ∈ (toString number).toList, c.isDigit = true := fun _ => isDigit_of_mem_toString
  have stopped : rest.takeWhile Char.isDigit = [] ∧ rest.dropWhile Char.isDigit = rest := by
    cases rest with
    | nil => exact ⟨rfl, rfl⟩
    | cons c rest => simp [next c rfl]
  rw [tokens, if_pos rfl, List.takeWhile_append_of_pos digits, List.dropWhile_append_of_pos digits, stopped.1,
    stopped.2, List.append_nil, natural?_toString]

theorem references_characters (s : List Char) (rest : List Token) :
    references (s.map .character ++ rest) = references rest := by
  induction s with
  | nil => rfl
  | cons c s ih => exact ih

theorem substitute?_characters (texts : List String) (s : List Char) (rest : List Token) :
    substitute? texts (s.map .character ++ rest) = (substitute? texts rest).map (String.ofList s ++ ·) := by
  induction s with
  | nil => simp
  | cons c s ih =>
    rw [List.map_cons, List.cons_append, substitute?, ih]
    cases substitute? texts rest with
    | none => rfl
    | some others => simp [Token.text?, String.ofList_cons, String.append_assoc]

end Text

namespace Layout

open Text (Token tokens references substitute?)

/-- What a text with numbered markers reads as when the first marker has the number after `start`. -/
def numberedTokens : Nat → List Stretch → String → List Token
  | _, [], last => last.toList.map .character
  | start, stretch :: rest, last =>
    stretch.text.toList.map .character ++ .reference (some (start + 1)) :: numberedTokens (start + 1) rest last

/-- A blank or the end comes after a marker, so its number is read as a whole: the first marker is not taken for a part
    of the tenth. -/
theorem tokens_numberedFrom (start : Nat) {stretches : List Stretch} {last : String}
    (parted : (Layout.mk stretches last).Parted) (dollarFree : (Layout.mk stretches last).Without '$') :
    tokens (numberedFrom start ⟨stretches, last⟩).toList = numberedTokens start stretches last := by
  induction stretches generalizing start with
  | nil =>
    have read := Text.tokens_append dollarFree.2 []
    simpa [numberedFrom_nil, numberedTokens, tokens] using read
  | cons stretch rest ih =>
    have notDigit : ∀ c ∈ (numberedFrom (start + 1) ⟨rest, last⟩).toList.head?, c.isDigit = false := by
      intro c head
      rw [parted.head _ c head]
      decide
    have own := Text.tokens_append (dollarFree.1 stretch (List.mem_cons_self ..))
      ('$' :: ((toString (start + 1)).toList ++ (numberedFrom (start + 1) ⟨rest, last⟩).toList))
    rw [Text.tokens_reference (start + 1) notDigit, ih (start + 1) parted.tail dollarFree.tail] at own
    rw [numberedTokens, ← own, numberedFrom_cons]
    simp

theorem references_numberedTokens (start : Nat) (stretches : List Stretch) (last : String) :
    references (numberedTokens start stretches last) = (List.range' (start + 1) stretches.length).map some := by
  induction stretches generalizing start with
  | nil =>
    have none := Text.references_characters last.toList []
    simpa [numberedTokens, references] using none
  | cons stretch rest ih =>
    rw [numberedTokens, Text.references_characters, references, ih, List.length_cons, List.range'_succ, List.map_cons]

/-- The values before those of the layout stand for the numbers that it does not refer to. -/
theorem substitute?_numberedTokens (write : String → String) (before : List String) (stretches : List Stretch)
    (last : String) :
    substitute? (before ++ stretches.map fun stretch => write stretch.value)
        (numberedTokens before.length stretches last) =
      some ((Layout.mk stretches last).fill fun _ value => write value) := by
  induction stretches generalizing before with
  | nil =>
    have written := Text.substitute?_characters (before ++ []) last.toList []
    simpa [numberedTokens, substitute?, fill] using written
  | cons stretch rest ih =>
    have others := ih (before ++ [write stretch.value])
    simp only [List.length_append, List.length_singleton, List.append_assoc, List.singleton_append] at others
    rw [numberedTokens, Text.substitute?_characters, List.map_cons, substitute?, others, fill_cons]
    simp [Token.text?, String.append_assoc]

end Layout

/-- The numbered text refers to the values once each and in order, and putting a literal of its value in the place of
    each reference gives the text with the literals. Values may look like references themselves. -/
theorem numbers_bind_values (table : String) (clauses : Clauses) (outerFree : clauses.OuterFree)
    (dollarFree : ∀ text ∈ clauses.suppliedTexts table, Text.Avoids '$' text) :
    ∃ q, compile table clauses = .ok q ∧
      q.params = clauses.values ∧
      Text.references (Text.tokens q.numbered.toList) = (List.range' 1 q.params.length).map some ∧
      Text.substitute? (q.params.map Literal.plain) (Text.tokens q.numbered.toList) = some q.inlined ∧
      Text.substitute? (q.params.map Literal.escaped) (Text.tokens q.numbered.toList) = some q.escaped := by
  let layout := clauses.layout table
  have read : Text.tokens layout.statement.numbered.toList =
      Layout.numberedTokens 0 layout.stretches layout.last := by
    rw [Layout.numbered_statement]
    exact Layout.tokens_numberedFrom 0 (clauses.parted_layout table) (Clauses.layout_without (by decide) dollarFree)
  have written (write : String → String) :
      Text.substitute? (layout.values.map write) (Layout.numberedTokens 0 layout.stretches layout.last) =
        some (layout.statement.fill fun _ value => write value) := by
    have filled := Layout.substitute?_numberedTokens write [] layout.stretches layout.last
    rw [Layout.fill_statement, Layout.values, List.map_map]
    exact filled
  refine ⟨layout.statement, compile_eq_layout table clauses outerFree, clauses.values_layout table, ?_, ?_, ?_⟩
  · rw [read, Layout.references_numberedTokens, Layout.statement_params, Layout.values, List.length_map]
  · rw [read]
    exact written Literal.plain
  · rw [read]
    exact written Literal.escaped

def elevenValues : Clauses where
  conditions := List.replicate 11 ⟨"a", .ne, .or, "$1'"⟩

theorem numbers_bind_values_elevenValues :
    elevenValues.OuterFree ∧ (∀ text ∈ elevenValues.suppliedTexts "t", Text.Avoids '$' text) ∧
      ∃ q, compile "t" elevenValues = .ok q ∧
        Text.references (Text.tokens q.numbered.toList) = (List.range' 1 11).map some ∧
        Text.substitute? (List.replicate 11 "'$1'''") (Text.tokens q.numbered.toList) = some q.inlined := by
  have dollarFree : ∀ text ∈ elevenValues.suppliedTexts "t", Text.Avoids '$' text := by
    simp [elevenValues, Clauses.suppliedTexts, Text.Avoids]
  obtain ⟨q, compiled, params, numbers, inlined, -⟩ := numbers_bind_values "t" elevenValues (by decide) dollarFree
  have values : q.params = List.replicate 11 "$1'" := params
  have literals : q.params.map Literal.plain = List.replicate 11 "'$1'''" := by
    rw [values]
    decide
  rw [values, List.length_replicate] at numbers
  rw [literals] at inlined
  exact ⟨by decide, dollarFree, q, compiled, numbers, inlined⟩

end SqlSelect
