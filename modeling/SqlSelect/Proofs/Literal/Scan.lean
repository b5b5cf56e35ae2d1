import SqlSelect.Literal

namespace SqlSelect.Literal

/-- How a literal is opened: by a bare quote, or by a quote with an E in front of it. -/
inductive Form where
  | plain
  | escape
deriving DecidableEq, Repr

/-- Whether a backslash inside the literal makes a quote or a backslash after it stand for itself. In a plain literal
    it depends on whether the server keeps to standard strings. -/
def Form.escapes (standard : Bool) : Form → Bool
  | plain => !standard
  | escape => true

/-- The characters that a literal of the form holds twice for each one of its value. -/
def Form.doubles : Form → Char → Bool
  | plain => (· == '\'')
  | escape => fun c => c == '\'' || c == '\\'

def Form.opening : Form → List Char
  | plain => ['\'']
  | escape => ['E', '\'']

def Form.write : Form → String → String
  | plain => Literal.plain
  | escape => Literal.escaped

theorem Form.toList_write (form : Form) (value : String) :
    (form.write value).toList = form.opening ++ (double form.doubles value.toList ++ ['\'']) := by
  cases form <;> simp [write, opening, Literal.plain, escaped, doubles]

/-- What a scan finds: the text outside the literals, one piece more than there are literals, and the literals with
    the values they read as. -/
structure Scan where
  outside : List (List Char)
  literals : List (Form × List Char)
deriving DecidableEq, Repr

namespace Scan

def copy (found : Scan) (s : List Char) : Scan :=
  { found with outside := found.outside.modifyHead (s ++ ·) }

def enter (found : Scan) : Scan :=
  { found with outside := [] :: found.outside }

def read (found : Scan) (s : List Char) : Scan :=
  { found with literals := found.literals.modifyHead fun literal => (literal.1, s ++ literal.2) }

def leave (found : Scan) (form : Form) : Scan :=
  { found with literals := (form, []) :: found.literals }

/-- Puts text in front, where the reader has come to. -/
def prepend (found : Scan) (inside : Bool) (s : List Char) : Scan :=
  if inside then found.read s else found.copy s

@[simp] theorem prepend_nil (found : Scan) (inside : Bool) : found.prepend inside [] = found := by
  obtain ⟨outside, literals⟩ := found
  cases inside <;> cases outside <;> cases literals <;> rfl

@[simp] theorem prepend_prepend (found : Scan) (inside : Bool) (first second : List Char) :
    (found.prepend inside second).prepend inside first = found.prepend inside (first ++ second) := by
  obtain ⟨outside, literals⟩ := found
  cases inside <;> cases outside <;> cases literals <;> simp [prepend, read, copy]

def forms (found : Scan) : List Form :=
  found.literals.map Prod.fst

@[simp] theorem forms_copy (found : Scan) (s : List Char) : (found.copy s).forms = found.forms := rfl

@[simp] theorem forms_enter (found : Scan) : found.enter.forms = found.forms := rfl

@[simp] theorem forms_read (found : Scan) (s : List Char) : (found.read s).forms = found.forms := by
  obtain ⟨outside, literals⟩ := found
  cases literals <;> rfl

@[simp] theorem forms_leave (found : Scan) (form : Form) : (found.leave form).forms = form :: found.forms := rfl

end Scan

/-- Reads text from left to right the way a server does, outside literals or inside a literal of some form. Inside, two
    quotes are a quote, and any other quote closes. There is no result if the text ends inside a literal. -/
def scan (standard : Bool) : Option Form → List Char → Option Scan
  | none, [] => some ⟨[[]], []⟩
  | none, 'E' :: '\'' :: s => (scan standard (some .escape) s).map .enter
  | none, '\'' :: s => (scan standard (some .plain) s).map .enter
  | none, c :: s => (scan standard none s).map (·.copy [c])
  | some _, [] => none
  | some form, '\'' :: '\'' :: s => (scan standard (some form) s).map (·.read ['\''])
  | some form, '\'' :: s => (scan standard none s).map (·.leave form)
  | some form, '\\' :: c :: s =>
    if form.escapes standard && (c == '\'' || c == '\\') then (scan standard (some form) s).map (·.read [c])
    else (scan standard (some form) (c :: s)).map (·.read ['\\'])
  | some form, c :: s => (scan standard (some form) s).map (·.read [c])

/-- Text without quotes is copied, unless its last character could open a literal with the text after it. -/
theorem scan_outside (standard : Bool) (s rest : List Char) (quoteFree : '\'' ∉ s)
    (next : s.getLast? = some 'E' → rest.head? ≠ some '\'') :
    scan standard none (s ++ rest) = (scan standard none rest).map (·.copy s) := by
  have nothing : (fun found : Scan => found.copy []) = id := by
    funext found
    cases found with | mk outside literals => cases outside <;> rfl
  induction s with
  | nil => simp [nothing]
  | cons c s ih =>
    have others := ih (List.not_mem_of_not_mem_cons quoteFree) fun last => next (by simp [List.getLast?_cons, last])
    have notQuote : c ≠ '\'' := fun same => quoteFree (by simp [same])
    have copied : scan standard none (c :: (s ++ rest)) = (scan standard none (s ++ rest)).map (·.copy [c]) := by
      cases shape : s ++ rest with
      | nil => simp [scan]
      | cons d more =>
        by_cases opening : c = 'E' ∧ d = '\''
        · obtain ⟨rfl, rfl⟩ := opening
          cases s with
          | nil => simp_all
          | cons e s => simp_all
        · simp only [not_and] at opening
          by_cases e : c = 'E' <;> simp_all [scan]
    rw [List.cons_append, copied, others, Option.map_map]
    congr 1
    funext found
    cases found with | mk outside literals => cases outside <;> simp [Scan.copy]

theorem scan_opening (standard : Bool) (form : Form) (s : List Char) :
    scan standard none (form.opening ++ s) = (scan standard (some form) s).map .enter := by
  cases form <;> simp [Form.opening, scan]

/-- A character that neither closes a literal nor escapes what follows stands for itself. -/
theorem scan_ordinary (standard : Bool) (form : Form) {c : Char} (s : List Char) (notQuote : c ≠ '\'')
    (inert : c = '\\' → form.escapes standard = false) :
    scan standard (some form) (c :: s) = (scan standard (some form) s).map (·.read [c]) := by
  by_cases backslash : c = '\\'
  · subst backslash
    cases s <;> simp [scan, inert rfl]
  · simp [scan, notQuote, backslash]

/-- A literal reads as its value and closes at its own last quote, unless another quote follows. Backslashes have to be
    doubled where the form gives them a meaning. -/
theorem scan_literal (standard : Bool) (form : Form) (value rest : List Char) (next : rest.head? ≠ some '\'')
    (readable : form.escapes standard = true → form.doubles '\\' = true ∨ '\\' ∉ value) :
    scan standard (some form) (double form.doubles value ++ '\'' :: rest) =
      (scan standard none rest).map fun found => (found.leave form).read value := by
  induction value with
  | nil =>
    cases rest with
    | nil => simp [double, scan, Scan.leave, Scan.read]
    | cons c rest =>
      have notQuote : c ≠ '\'' := by simpa using next
      simp [double, scan, notQuote, Scan.leave, Scan.read]
  | cons c value ih =>
    have others := ih fun escapes => (readable escapes).imp_right List.not_mem_of_not_mem_cons
    by_cases quote : c = '\''
    · have doubled : form.doubles c = true := by cases form <;> simp [Form.doubles, quote]
      subst quote
      simp [double, doubled, scan, others, Scan.leave, Scan.read, Function.comp_def]
    · by_cases backslash : c = '\\' ∧ form = .escape
      · obtain ⟨rfl, rfl⟩ := backslash
        have doubled : Form.escape.doubles '\\' = true := rfl
        simp [double, doubled, scan, others, Scan.leave, Scan.read, Function.comp_def, Form.escapes]
      · have single : form.doubles c = false := by
          cases form <;> simp_all [Form.doubles]
        have inert : c = '\\' → form.escapes standard = false := by
          intro same
          subst same
          simpa [single] using readable
        have plain := scan_ordinary standard form (double form.doubles value ++ '\'' :: rest) quote inert
        rw [double, single, if_neg Bool.false_ne_true, List.cons_append, plain, others]
        simp [Scan.leave, Scan.read, Function.comp_def]

/-- Reads text by its quotes alone: an E in front of a quote is a character like any other. `inside` says whether the
    text begins inside a literal. -/
def scanQuotes (standard : Bool) : Bool → List Char → Option Scan
  | false, [] => some ⟨[[]], []⟩
  | false, '\'' :: s => (scanQuotes standard true s).map .enter
  | false, c :: s => (scanQuotes standard false s).map (·.copy [c])
  | true, [] => none
  | true, '\'' :: '\'' :: s => (scanQuotes standard true s).map (·.read ['\''])
  | true, '\'' :: s => (scanQuotes standard false s).map (·.leave .plain)
  | true, '\\' :: c :: s =>
    if Form.plain.escapes standard && (c == '\'' || c == '\\') then (scanQuotes standard true s).map (·.read [c])
    else (scanQuotes standard true (c :: s)).map (·.read ['\\'])
  | true, c :: s => (scanQuotes standard true s).map (·.read [c])

/-- A server that keeps to standard strings takes every character but a quote for itself, inside literals and out. -/
theorem scanQuotes_ordinary (inside : Bool) {c : Char} (s : List Char) (notQuote : c ≠ '\'') :
    scanQuotes true inside (c :: s) = (scanQuotes true inside s).map (·.prepend inside [c]) := by
  cases inside
  · simp [scanQuotes, Scan.prepend]
  · by_cases backslash : c = '\\'
    · subst backslash
      cases s <;> simp [scanQuotes, Form.escapes, Scan.prepend]
    · simp [scanQuotes, notQuote, backslash, Scan.prepend]

theorem scanQuotes_text (inside : Bool) (s rest : List Char) (quoteFree : '\'' ∉ s) :
    scanQuotes true inside (s ++ rest) = (scanQuotes true inside rest).map (·.prepend inside s) := by
  induction s with
  | nil => simp
  | cons c s ih =>
    have notQuote : c ≠ '\'' := fun same => quoteFree (by simp [same])
    rw [List.cons_append, scanQuotes_ordinary inside _ notQuote, ih (List.not_mem_of_not_mem_cons quoteFree),
      Option.map_map]
    simp [Function.comp_def]

@[simp] theorem scanQuotes_opening (s : List Char) :
    scanQuotes true false ('\'' :: s) = (scanQuotes true true s).map .enter := by
  simp [scanQuotes]

@[simp] theorem scanQuotes_doubled (s : List Char) :
    scanQuotes true true ('\'' :: '\'' :: s) = (scanQuotes true true s).map (·.prepend true ['\'']) := by
  simp [scanQuotes, Scan.prepend]

theorem scanQuotes_closing {s : List Char} (next : s.head? ≠ some '\'') :
    scanQuotes true true ('\'' :: s) = (scanQuotes true false s).map (·.leave .plain) := by
  cases s with
  | nil => simp [scanQuotes]
  | cons c s =>
    have notQuote : c ≠ '\'' := by simpa using next
    simp [scanQuotes, notQuote]

/-- The ways in which a server that keeps to standard strings comes through a text. -/
theorem quotes_induct {motive : Bool → List Char → Prop} (ending : ∀ inside, motive inside [])
    (ordinary : ∀ inside c s, c ≠ '\'' → motive inside s → motive inside (c :: s))
    (opening : ∀ s, motive true s → motive false ('\'' :: s))
    (doubled : ∀ s, motive true s → motive true ('\'' :: '\'' :: s))
    (closing : ∀ s, s.head? ≠ some '\'' → motive false s → motive true ('\'' :: s)) (inside : Bool) (s : List Char) :
    motive inside s := by
  fun_induction scanQuotes true inside s with
  | case1 => exact ending false
  | case2 s ih => exact opening s ih
  | case3 c s notQuote ih => exact ordinary false c s notQuote ih
  | case4 => exact ending true
  | case5 s ih => exact doubled s ih
  | case6 s single ih =>
    refine closing s (fun quote => ?_) ih
    obtain ⟨rest, rfl⟩ := List.head?_eq_some_iff.mp quote
    exact single rest rfl
  | case7 c s escaped => cases escaped
  | case8 c s _ ih => exact ordinary true _ _ (by decide) ih
  | case9 c s _ notQuote _ ih => exact ordinary true c s notQuote ih

/-- Text without quotes at the end belongs to the last piece outside literals. -/
theorem scanQuotes_of_append {inside : Bool} {s ending : List Char} {found : Scan} (quoteFree : '\'' ∉ ending)
    (scanned : scanQuotes true inside (s ++ ending) = some found) :
    ∃ pieces last, found.outside = pieces ++ [last ++ ending] ∧
      scanQuotes true inside s = some ⟨pieces ++ [last], found.literals⟩ := by
  induction inside, s using quotes_induct generalizing found with
  | ending inside =>
    have copied := scanQuotes_text inside ending [] quoteFree
    rw [List.append_nil, ← List.nil_append ending, scanned] at copied
    cases inside with
    | true => cases copied
    | false =>
      obtain rfl := Option.some.inj copied
      exact ⟨[], [], by simp [Scan.prepend, Scan.copy], rfl⟩
  | ordinary inside c s notQuote ih =>
    rw [List.cons_append, scanQuotes_ordinary inside _ notQuote] at scanned
    obtain ⟨after, inner, rfl⟩ := Option.map_eq_some_iff.mp scanned
    obtain ⟨pieces, last, outside, others⟩ := ih inner
    rw [scanQuotes_ordinary inside _ notQuote, others]
    cases inside with
    | true => exact ⟨pieces, last, outside, rfl⟩
    | false =>
      cases pieces with
      | nil => exact ⟨[], c :: last, by simp [Scan.prepend, Scan.copy, outside], rfl⟩
      | cons piece pieces => exact ⟨(c :: piece) :: pieces, last, by simp [Scan.prepend, Scan.copy, outside], rfl⟩
  | opening s ih =>
    rw [List.cons_append, scanQuotes_opening] at scanned
    obtain ⟨after, inner, rfl⟩ := Option.map_eq_some_iff.mp scanned
    obtain ⟨pieces, last, outside, others⟩ := ih inner
    exact ⟨[] :: pieces, last, by simp [Scan.enter, outside], by simp [others, Scan.enter]⟩
  | doubled s ih =>
    rw [List.cons_append, List.cons_append, scanQuotes_doubled] at scanned
    obtain ⟨after, inner, rfl⟩ := Option.map_eq_some_iff.mp scanned
    obtain ⟨pieces, last, outside, others⟩ := ih inner
    exact ⟨pieces, last, outside, by simp [others, Scan.prepend, Scan.read]⟩
  | closing s next ih =>
    have follow : (s ++ ending).head? ≠ some '\'' := by
      cases s with
      | nil => exact fun quote => quoteFree (List.mem_of_mem_head? quote)
      | cons c s => exact next
    rw [List.cons_append, scanQuotes_closing follow] at scanned
    obtain ⟨after, inner, rfl⟩ := Option.map_eq_some_iff.mp scanned
    obtain ⟨pieces, last, outside, others⟩ := ih inner
    exact ⟨pieces, last, outside, by simp [scanQuotes_closing next, others, Scan.leave]⟩

theorem form_of_scan {standard : Bool} {form : Form} {s : List Char} {found : Scan}
    (scanned : scan standard (some form) s = some found) : form ∈ found.forms := by
  generalize within : some form = state at scanned
  fun_induction scan standard state s generalizing found <;>
    grind [Option.map_eq_some_iff, Scan.forms_read, Scan.forms_leave]

/-- Where a server finds plain literals only, it needs to look at the quotes alone. -/
theorem scanQuotes_of_scan {standard : Bool} {state : Option Form} {s : List Char} {found : Scan}
    (scanned : scan standard state s = some found) (plain : ∀ form ∈ found.forms, form = .plain)
    (inside : ∀ form ∈ state, form = .plain) : scanQuotes standard state.isSome s = some found := by
  fun_induction scan standard state s generalizing found with
  | case1 => exact scanned
  | case5 => cases scanned
  | case2 s ih =>
    -- The server has entered an escape literal, so what it finds is not plain throughout.
    obtain ⟨after, inner, rfl⟩ := Option.map_eq_some_iff.mp scanned
    have opened : Form.escape ∈ after.forms := form_of_scan inner
    cases plain .escape opened
  | case3 s ih =>
    obtain ⟨after, inner, rfl⟩ := Option.map_eq_some_iff.mp scanned
    have others : scanQuotes standard true s = some after := ih inner plain (by simp)
    simp [scanQuotes, others]
  | case4 c s notE notQuote ih =>
    obtain ⟨after, inner, rfl⟩ := Option.map_eq_some_iff.mp scanned
    have others : scanQuotes standard false s = some after := ih inner plain inside
    simp [scanQuotes, others]
  | case7 form s single ih =>
    obtain ⟨after, inner, rfl⟩ := Option.map_eq_some_iff.mp scanned
    obtain rfl := inside form rfl
    have others : scanQuotes standard false s = some after :=
      ih inner (fun form member => plain form (List.mem_cons_of_mem _ member)) (by simp)
    simp [scanQuotes, others]
  | case6 form s ih =>
    obtain ⟨after, inner, rfl⟩ := Option.map_eq_some_iff.mp scanned
    obtain rfl := inside form rfl
    have others : scanQuotes standard true s = some after := ih inner (Scan.forms_read after _ ▸ plain) inside
    simp [scanQuotes, others]
  | case8 form c s escaped ih =>
    obtain ⟨after, inner, rfl⟩ := Option.map_eq_some_iff.mp scanned
    obtain rfl := inside form rfl
    have others : scanQuotes standard true s = some after := ih inner (Scan.forms_read after _ ▸ plain) inside
    rw [Option.isSome_some, scanQuotes, if_pos escaped, others, Option.map_some]
  | case9 form c s ordinary ih =>
    obtain ⟨after, inner, rfl⟩ := Option.map_eq_some_iff.mp scanned
    obtain rfl := inside form rfl
    have others : scanQuotes standard true (c :: s) = some after := ih inner (Scan.forms_read after _ ▸ plain) inside
    rw [Option.isSome_some, scanQuotes, if_neg ordinary, others, Option.map_some]
  | case10 form c s doubled notQuote alone ih =>
    obtain ⟨after, inner, rfl⟩ := Option.map_eq_some_iff.mp scanned
    obtain rfl := inside form rfl
    have others : scanQuotes standard true s = some after := ih inner (Scan.forms_read after _ ▸ plain) inside
    rw [Option.isSome_some, scanQuotes, others, Option.map_some]
    all_goals assumption

end SqlSelect.Literal
