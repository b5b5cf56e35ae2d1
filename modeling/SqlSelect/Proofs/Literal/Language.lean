import SqlSelect.Proofs.Literal.Scan
import SqlSelect.Proofs.Text.Replacement
import Mathlib

namespace SqlSelect.Literal

open Text (undouble undouble_single toList_replace)

/-- What the body of a literal is made of, with the characters that it stands for. A quote is written twice, in an
    escape literal also a backslash, and every other character once. -/
inductive Token : Form → List Char → Char → Prop where
  | quote (form : Form) : Token form ['\'', '\''] '\''
  | backslash : Token .escape ['\\', '\\'] '\\'
  | plain {c : Char} (notQuote : c ≠ '\'') : Token .plain [c] c
  | escape {c : Char} (notQuote : c ≠ '\'') (notBackslash : c ≠ '\\') : Token .escape [c] c

namespace Form

/-- The literals of a form: an opening, a body of tokens and a quote. -/
def language (form : Form) : Set String :=
  {literal | ∃ tokens : List (List Char), (∀ token ∈ tokens, ∃ c, Token form token c) ∧
    literal.toList = form.opening ++ (tokens.flatten ++ ['\''])}

/-- The literal is made of tokens that stand for the characters of the value, one for each. -/
def Denotes (form : Form) (literal value : String) : Prop :=
  ∃ tokens : List (List Char), List.Forall₂ (Token form) tokens value.toList ∧
    literal.toList = form.opening ++ (tokens.flatten ++ ['\''])

/-- What is left of a literal without its opening and its last quote when doubled characters are taken for one. -/
def decode (form : Form) (literal : String) : String :=
  String.ofList (undouble form.doubles (literal.toList.drop form.opening.length).dropLast)

/-- The token that stands for a character. -/
def token (form : Form) (c : Char) : List Char :=
  if form.doubles c then [c, c] else [c]

theorem token_iff (form : Form) (text : List Char) (c : Char) : Token form text c ↔ text = form.token c := by
  constructor
  · intro made
    cases made with
    | quote => cases form <;> rfl
    | backslash => rfl
    | plain notQuote => simp [token, doubles, notQuote]
    | escape notQuote notBackslash => simp [token, doubles, notQuote, notBackslash]
  · rintro rfl
    cases form with
    | plain =>
      by_cases quote : c = '\''
      · simpa [token, doubles, quote] using Token.quote .plain
      · simpa [token, doubles, quote] using Token.plain quote
    | escape =>
      by_cases quote : c = '\''
      · simpa [token, doubles, quote] using Token.quote .escape
      · by_cases backslash : c = '\\'
        · simpa [token, doubles, backslash] using Token.backslash
        · simpa [token, doubles, quote, backslash] using Token.escape quote backslash

theorem flatten_map_token (form : Form) (s : List Char) : (s.map form.token).flatten = double form.doubles s := by
  induction s with
  | nil => rfl
  | cons c s ih =>
    rw [List.map_cons, List.flatten_cons, ih]
    cases doubled : form.doubles c <;> simp [token, double, doubled]

theorem forall₂_token_iff (form : Form) (tokens : List (List Char)) (s : List Char) :
    List.Forall₂ (Token form) tokens s ↔ tokens = s.map form.token := by
  simp only [funext₂ fun text c => propext (form.token_iff text c)]
  rw [← List.forall₂_map_right_iff, List.forall₂_eq_eq_eq]

theorem write_eq_iff_denotes (form : Form) (literal value : String) :
    form.write value = literal ↔ form.Denotes literal value := by
  simp only [Denotes, forall₂_token_iff, exists_eq_left, flatten_map_token]
  rw [← String.toList_inj, toList_write, eq_comm]

theorem mem_language_iff (form : Form) (literal : String) :
    literal ∈ form.language ↔ ∃ value, form.Denotes literal value := by
  constructor
  · rintro ⟨tokens, each, same⟩
    have written : tokens ∈ Set.range (List.map form.token) := by
      rw [Set.range_list_map]
      intro token member
      obtain ⟨c, stands⟩ := each token member
      exact ⟨c, ((form.token_iff token c).mp stands).symm⟩
    obtain ⟨s, rfl⟩ := written
    exact ⟨String.ofList s, _, (form.forall₂_token_iff _ _).mpr (by rw [String.toList_ofList]), same⟩
  · rintro ⟨value, tokens, stand, same⟩
    refine ⟨tokens, ?_, same⟩
    rw [(form.forall₂_token_iff _ _).mp stand]
    intro token member
    obtain ⟨c, -, rfl⟩ := List.mem_map.mp member
    exact ⟨c, (form.token_iff _ c).mpr rfl⟩

end Form

theorem undouble_double (special : Char → Bool) (s : List Char) : undouble special (double special s) = s := by
  induction s with
  | nil => rfl
  | cons c s ih =>
    cases doubled : special c with
    | true => simp [double, undouble, doubled, ih]
    | false => simp [double, undouble_single, doubled, ih]

theorem Form.decode_write (form : Form) (value : String) : form.decode (form.write value) = value := by
  rw [decode, toList_write, List.drop_left, List.dropLast_concat, undouble_double, String.ofList_toList]

/-- The text between the first and the last character, where two quotes are replaced by one from left to right. -/
def unquote (literal : String) : String :=
  ((literal.drop 1).dropEnd 1).replace "''" "'"

theorem unquote_eq_decode (literal : String) : unquote literal = Form.plain.decode literal := by
  rw [← String.toList_inj, unquote, toList_replace, String.Slice.toList_copy_dropEnd, String.toList_copy_drop]
  simp [Form.decode, Form.opening, Form.doubles, List.dropLast_eq_take]

/-- Both ways to write a literal are bijections onto the literals of their form. What stands for a value is read back
    by collapsing the tokens, which for plain literals is all that unquoting does. -/
theorem literals_biject_onto_language (form : Form) :
    Set.BijOn form.write Set.univ form.language ∧
    Set.InvOn form.decode form.write Set.univ form.language ∧
    (∀ literal value, form.write value = literal ↔ form.Denotes literal value) ∧
    ∀ value, unquote (plain value) = value := by
  have readBack : Set.LeftInvOn form.decode form.write Set.univ := fun value _ => form.decode_write value
  have onto : Set.SurjOn form.write Set.univ form.language := by
    intro literal member
    obtain ⟨value, denotes⟩ := (form.mem_language_iff literal).mp member
    exact ⟨value, trivial, (form.write_eq_iff_denotes literal value).mpr denotes⟩
  have into : Set.MapsTo form.write Set.univ form.language := by
    intro value _
    exact (form.mem_language_iff _).mpr ⟨value, (form.write_eq_iff_denotes _ value).mp rfl⟩
  have bijective : Set.BijOn form.write Set.univ form.language := ⟨into, readBack.injOn, onto⟩
  refine ⟨bijective, ⟨readBack, readBack.rightInvOn_image.mono ?_⟩, form.write_eq_iff_denotes, ?_⟩
  · exact bijective.image_eq.ge
  · intro value
    rw [unquote_eq_decode]
    exact Form.plain.decode_write value

end SqlSelect.Literal
