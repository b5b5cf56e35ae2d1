import SqlSelect.Proofs.Builder.Selection
import SqlSelect.Proofs.Literal.Scan

namespace SqlSelect

namespace Text

def settleGap (gap : List Char) : List Char :=
  if ',' ∈ gap then [',', ' '] else gap

def settleFrom (gap : List Char) : List Char → List Char
  | [] => settleGap gap
  | c :: s => if isContent c then settleGap gap ++ c :: settleFrom [] s else settleFrom (gap ++ [c]) s

/-- The text with a comma and a blank for each stretch of commas and blanks that holds a comma. -/
def settle (s : List Char) : List Char :=
  settleFrom [] s

/-- Text that holds no more than commas and blanks. -/
def Hollow (gap : List Char) : Prop :=
  ∀ c ∈ gap, isContent c = false

variable {gap s : List Char}

theorem hollow_nil : Hollow [] :=
  List.forall_mem_nil _

theorem hollow_append {first second : List Char} : Hollow (first ++ second) ↔ Hollow first ∧ Hollow second :=
  List.forall_mem_append

theorem Hollow.concat {c : Char} (hollow : Hollow gap) (empty : isContent c = false) : Hollow (gap ++ [c]) :=
  hollow_append.mpr ⟨hollow, List.forall_mem_singleton.mpr empty⟩

theorem Hollow.quoteFree (hollow : Hollow gap) : '\'' ∉ gap := fun quote =>
  absurd (hollow '\'' quote) (by decide)

theorem Hollow.blank (hollow : Hollow gap) (commaFree : ',' ∉ gap) {c : Char} (member : c ∈ gap) :
    isBlank c = true := by
  have notComma : c ≠ ',' := fun same => commaFree (same ▸ member)
  simpa [isContent, notComma] using hollow c member

theorem Hollow.settleGap (hollow : Hollow gap) : Hollow (settleGap gap) := by
  unfold Text.settleGap
  split
  · exact List.forall_mem_cons.mpr ⟨by decide, List.forall_mem_singleton.mpr (by decide)⟩
  · exact hollow

theorem settleFrom_append (hollow : Hollow gap) (before s : List Char) :
    settleFrom before (gap ++ s) = settleFrom (before ++ gap) s := by
  induction gap generalizing before with
  | nil => simp
  | cons c gap ih =>
    obtain ⟨empty, others⟩ := List.forall_mem_cons.mp hollow
    simp [settleFrom, empty, ih others]

theorem settle_hollow (hollow : Hollow gap) : settle gap = settleGap gap := by
  simpa [settle, settleFrom] using settleFrom_append hollow [] []

theorem settle_content (hollow : Hollow gap) {c : Char} (content : isContent c = true) (s : List Char) :
    settle (gap ++ c :: s) = settleGap gap ++ c :: settle s := by
  rw [settle, settleFrom_append hollow, List.nil_append, settleFrom, if_pos content, settle]

theorem settleFrom_eq_append (gapFree : ',' ∉ gap) (commaFree : ',' ∉ s) : settleFrom gap s = gap ++ s := by
  induction s generalizing gap with
  | nil => simp [settleFrom, settleGap, gapFree]
  | cons c s ih =>
    obtain ⟨notComma, others⟩ := not_or.mp (List.mem_cons.not.mp commaFree)
    by_cases content : isContent c = true
    · rw [settleFrom, if_pos content, ih List.not_mem_nil others, settleGap, if_neg gapFree, List.nil_append]
    · have extended : ',' ∉ gap ++ [c] := by simp [gapFree, notComma]
      rw [settleFrom, if_neg content, ih extended others, List.append_assoc, List.singleton_append]

/-- Without commas there is nothing to settle. -/
theorem settle_eq_self (commaFree : ',' ∉ s) : settle s = s :=
  settleFrom_eq_append List.not_mem_nil commaFree

theorem settleGap_eq_nil : settleGap gap = [] ↔ gap = [] := by
  unfold settleGap
  by_cases comma : ',' ∈ gap
  · simp [comma, List.ne_nil_of_mem comma]
  · simp [comma]

theorem hollow_or_content (s : List Char) :
    Hollow s ∨ ∃ gap c rest, Hollow gap ∧ isContent c = true ∧ s = gap ++ c :: rest := by
  induction s with
  | nil => exact .inl hollow_nil
  | cons d s ih =>
    by_cases content : isContent d = true
    · exact .inr ⟨[], d, s, hollow_nil, content, rfl⟩
    · have empty : isContent d = false := by simpa using content
      rcases ih with hollow | ⟨gap, c, rest, hollow, first, rfl⟩
      · exact .inl (List.forall_mem_cons.mpr ⟨empty, hollow⟩)
      · exact .inr ⟨d :: gap, c, rest, List.forall_mem_cons.mpr ⟨empty, hollow⟩, first, rfl⟩

theorem head_settle (next : s.head? ≠ some '\'') : (settle s).head? ≠ some '\'' := by
  intro quote
  rcases hollow_or_content s with hollow | ⟨gap, c, rest, hollow, content, rfl⟩
  · rw [settle_hollow hollow] at quote
    exact hollow.settleGap.quoteFree (List.mem_of_mem_head? quote)
  · rw [settle_content hollow content, List.head?_append] at quote
    cases first : (settleGap gap).head? with
    | none =>
      obtain rfl := settleGap_eq_nil.mp (List.head?_eq_none_iff.mp first)
      rw [first] at quote
      exact next quote
    | some d =>
      rw [first] at quote
      exact hollow.settleGap.quoteFree (List.mem_of_mem_head? (first.trans quote))

end Text

section

open Text

variable {gap : List Char}

theorem fragments_comma (s rest : List Char) :
    fragments (String.ofList (s ++ ',' :: rest)) = fragments (String.ofList s) ++ fragments (String.ofList rest) := by
  rw [← fragments_append]
  congr 1
  simp [← String.toList_inj]

theorem fragments_hollow_append (hollow : Hollow gap) (s : List Char) :
    fragments (String.ofList (gap ++ s)) = fragments (String.ofList s) := by
  induction gap with
  | nil => rfl
  | cons c gap ih =>
    obtain ⟨empty, others⟩ := List.forall_mem_cons.mp hollow
    by_cases comma : c = ','
    · subst comma
      exact (fragments_comma [] (gap ++ s)).trans (ih others)
    · have blank : isBlank c = true := by simpa [isContent, comma] using empty
      rw [List.cons_append, fragments_blank blank, ih others]

theorem fragments_eq_nil {fields : String} : fragments fields = [] ↔ Hollow fields.toList := by
  constructor
  · intro none c member
    have content := content_fragments fields
    rw [none, List.flatMap_nil, List.filter_nil, eq_comm, List.filter_eq_nil_iff] at content
    simpa using content c member
  · intro hollow
    have listed := fragments_hollow_append hollow []
    rwa [List.append_nil, String.ofList_toList] at listed

/-- Blanks after a fragment are cut off again. -/
theorem IsFragment.fragments_blanks {word : List Char} (fragment : IsFragment (String.ofList word)) (hollow : Hollow gap)
    (commaFree : ',' ∉ gap) : fragments (String.ofList (word ++ gap)) = [String.ofList word] := by
  have wordFree : ',' ∉ word := by simpa [Avoids] using fragment.commaFree
  have trimmed : Trimmed word := by simpa using fragment.trimmed
  have free : hasComma (String.ofList (word ++ gap)) = false :=
    hasComma_eq_false_iff.mpr (by simp [wordFree, commaFree])
  have word_ne_nil : word ≠ [] := fun empty => fragment.nonempty (by simp [empty])
  have kept : trimChars (word ++ gap) = word := trimmed.trimChars_append word_ne_nil fun c => hollow.blank commaFree
  rw [fragments_of_commaFree free, trim, String.toList_ofList, kept, if_pos (holdsAny_iff.mpr word_ne_nil)]

/-- A comma ends a fragment, whatever other commas and blanks there are. -/
theorem IsFragment.fragments_comma {word : List Char} (fragment : IsFragment (String.ofList word)) (hollow : Hollow gap)
    (comma : ',' ∈ gap) (s : List Char) :
    fragments (String.ofList (word ++ (gap ++ s))) = String.ofList word :: fragments (String.ofList s) := by
  obtain ⟨blanks, rest, rfl, commaFree⟩ := List.eq_append_cons_of_mem comma
  obtain ⟨hollowBlanks, hollowRest⟩ := hollow_append.mp hollow
  have others : Hollow rest := fun c member => hollowRest c (List.mem_cons_of_mem _ member)
  have cut : word ++ (blanks ++ ',' :: rest ++ s) = word ++ blanks ++ ',' :: (rest ++ s) := by simp
  rw [cut, SqlSelect.fragments_comma, fragment.fragments_blanks hollowBlanks commaFree,
    fragments_hollow_append others, List.singleton_append]

theorem isFragment_content {c : Char} (content : isContent c = true) : IsFragment (String.ofList [c]) := by
  obtain ⟨notComma, notBlank⟩ : c ≠ ',' ∧ isBlank c = false := by simpa [isContent] using content
  refine ⟨by simp, by simp [Avoids, notComma.symm], ?_⟩
  constructor <;> simp [notBlank]

/-- Where no comma stands between, what follows a fragment is part of it. -/
theorem IsFragment.extend {word : List Char} (fragment : IsFragment (String.ofList word)) (commaFree : ',' ∉ gap)
    {c : Char} (content : isContent c = true) : IsFragment (String.ofList (word ++ (gap ++ [c]))) := by
  obtain ⟨notComma, notBlank⟩ : c ≠ ',' ∧ isBlank c = false := by simpa [isContent] using content
  have wordFree : ',' ∉ word := by simpa [Avoids] using fragment.commaFree
  have trimmed : Trimmed word := by simpa using fragment.trimmed
  refine ⟨by simp [← String.toList_inj], ?_, ?_⟩
  · simp [Avoids, wordFree, commaFree, notComma.symm]
  · rw [String.toList_ofList]
    have word_ne_nil : word ≠ [] := fun empty => fragment.nonempty (by simp [empty])
    constructor
    · rw [List.head?_append_of_ne_nil word word_ne_nil]
      exact trimmed.head
    · simp [← List.append_assoc, notBlank]

theorem IsFragment.append_settle {word s : List Char} (fragment : IsFragment (String.ofList word)) (hollow : Hollow gap) :
    ∃ ending, Hollow ending ∧ word ++ settle (gap ++ s) =
      (", ".intercalate (fragments (String.ofList (word ++ (gap ++ s))))).toList ++ ending := by
  induction s generalizing word gap with
  | nil =>
    refine ⟨settleGap gap, hollow.settleGap, ?_⟩
    have single : fragments (String.ofList (word ++ gap)) = [String.ofList word] := by
      by_cases comma : ',' ∈ gap
      · have nothing : fragments "" = [] := by decide
        simpa [nothing] using fragment.fragments_comma hollow comma []
      · exact fragment.fragments_blanks hollow comma
    rw [List.append_nil, single, settle_hollow hollow]
    simp
  | cons c s ih =>
    by_cases content : isContent c = true
    · rw [settle_content hollow content]
      by_cases comma : ',' ∈ gap
      · obtain ⟨ending, hollowEnding, listed⟩ := ih (isFragment_content content) hollow_nil
        have some : fragments (String.ofList (c :: s)) ≠ [] := by
          intro none
          have hollowHere := fragments_eq_nil.mp none
          simp [Hollow, content] at hollowHere
        refine ⟨ending, hollowEnding, ?_⟩
        rw [fragment.fragments_comma hollow comma, String.intercalate_cons_of_ne_nil some, settleGap, if_pos comma]
        simpa using listed
      · obtain ⟨ending, hollowEnding, listed⟩ := ih (fragment.extend comma content) hollow_nil
        refine ⟨ending, hollowEnding, ?_⟩
        simp only [List.nil_append, List.append_assoc, List.singleton_append] at listed
        rw [settleGap, if_neg comma, listed]
    · have extended : Hollow (gap ++ [c]) := hollow.concat (by simpa using content)
      simpa only [List.append_assoc, List.singleton_append] using ih fragment extended

/-- The column list of one call is its argument settled, without what commas and blanks are left at the ends. -/
theorem settle_fields {fields : String} (some : fragments fields ≠ []) :
    ∃ before ending, Hollow before ∧ Hollow ending ∧
      settle fields.toList = before ++ ((", ".intercalate (fragments fields)).toList ++ ending) := by
  rcases hollow_or_content fields.toList with hollow | ⟨gap, c, s, hollow, content, shape⟩
  · exact absurd (fragments_eq_nil.mpr hollow) some
  · have listed : fragments fields = fragments (String.ofList (c :: s)) := by
      rw [← String.ofList_toList (s := fields), shape, fragments_hollow_append hollow]
    obtain ⟨ending, hollowEnding, settled⟩ := (isFragment_content content).append_settle hollow_nil (s := s)
    refine ⟨settleGap gap, ending, hollow.settleGap, hollowEnding, ?_⟩
    rw [shape, settle_content hollow content, listed]
    simpa using settled

end

namespace Literal

open Text

/-- What a scan finds in settled text: pieces and values, each settled by itself. -/
def Scan.settled (found : Scan) : Scan :=
  ⟨found.outside.map settle, found.literals.map fun literal => (literal.1, settle literal.2)⟩

variable {gap : List Char}

namespace Scan

@[simp] theorem settled_prepend (found : Scan) (inside : Bool) {c : Char} (content : isContent c = true)
    (hollow : Hollow gap) :
    (found.prepend inside (gap ++ [c])).settled = found.settled.prepend inside (settleGap gap ++ [c]) := by
  obtain ⟨outside, literals⟩ := found
  cases inside <;> cases outside <;> cases literals <;>
    simp [settled, prepend, read, copy, settle_content hollow content]

@[simp] theorem settled_enter (found : Scan) (hollow : Hollow gap) :
    (found.enter.prepend false gap).settled = found.settled.enter.prepend false (settleGap gap) := by
  simp [settled, enter, prepend, copy, settle_hollow hollow]

@[simp] theorem settled_leave (found : Scan) (form : Form) (hollow : Hollow gap) :
    ((found.leave form).prepend true gap).settled = (found.settled.leave form).prepend true (settleGap gap) := by
  simp [settled, leave, prepend, read, settle_hollow hollow]

end Scan

theorem scanQuotes_settle_content (inside : Bool) {c : Char} (content : isContent c = true) (hollow : Hollow gap)
    (s : List Char) : scanQuotes true inside (settle (gap ++ c :: s)) =
      (scanQuotes true inside (c :: settle s)).map (·.prepend inside (settleGap gap)) := by
  rw [settle_content hollow content, scanQuotes_text inside _ _ hollow.settleGap.quoteFree]

/-- Quotes bound a stretch of commas and blanks on both sides, so settling a text settles what stands in each literal
    and between them. -/
theorem scanQuotes_settle {inside : Bool} {s : List Char} {found : Scan} (hollow : Hollow gap)
    (scanned : scanQuotes true inside s = some found) :
    scanQuotes true inside (settle (gap ++ s)) = some (found.prepend inside gap).settled := by
  have quote : isContent '\'' = true := by decide
  induction inside, s using quotes_induct generalizing gap found with
  | ending inside =>
    cases inside with
    | true => cases scanned
    | false =>
      obtain rfl := Option.some.inj scanned
      have copied := scanQuotes_text false (settleGap gap) [] hollow.settleGap.quoteFree
      rw [List.append_nil] at copied
      rw [List.append_nil, settle_hollow hollow, copied]
      simp [scanQuotes, Scan.settled, Scan.prepend, Scan.copy, settle_hollow hollow]
  | ordinary inside c s notQuote ih =>
    rw [scanQuotes_ordinary inside _ notQuote] at scanned
    obtain ⟨after, inner, rfl⟩ := Option.map_eq_some_iff.mp scanned
    by_cases content : isContent c = true
    · have others : scanQuotes true inside (settle s) = some after.settled := by simpa using ih hollow_nil inner
      rw [scanQuotes_settle_content inside content hollow, scanQuotes_ordinary inside _ notQuote, others]
      simp [content, hollow]
    · -- The stretch goes on, and the character is one more of it.
      have extended : Hollow (gap ++ [c]) := hollow.concat (by simpa using content)
      have others := ih extended inner
      rw [List.append_assoc, List.singleton_append] at others
      rw [others, Scan.prepend_prepend]
  | opening s ih =>
    rw [scanQuotes_opening] at scanned
    obtain ⟨after, inner, rfl⟩ := Option.map_eq_some_iff.mp scanned
    have others : scanQuotes true true (settle s) = some after.settled := by simpa using ih hollow_nil inner
    rw [scanQuotes_settle_content false quote hollow, scanQuotes_opening, others]
    simp [hollow]
  | doubled s ih =>
    rw [scanQuotes_doubled] at scanned
    obtain ⟨after, inner, rfl⟩ := Option.map_eq_some_iff.mp scanned
    have others : scanQuotes true true (settle s) = some after.settled := by simpa using ih hollow_nil inner
    have second : settle ('\'' :: s) = '\'' :: settle s := settle_content hollow_nil quote s
    rw [scanQuotes_settle_content true quote hollow, second, scanQuotes_doubled, others]
    simp [quote, hollow]
  | closing s next ih =>
    rw [scanQuotes_closing next] at scanned
    obtain ⟨after, inner, rfl⟩ := Option.map_eq_some_iff.mp scanned
    have others : scanQuotes true false (settle s) = some after.settled := by simpa using ih hollow_nil inner
    rw [scanQuotes_settle_content true quote hollow, scanQuotes_closing (head_settle next), others]
    simp [hollow]

end Literal

/-- Text that begins and ends with something other than a comma or a blank. -/
structure Text.Bare (s : List Char) : Prop where
  head : ∃ c ∈ s.head?, isContent c = true
  last : ∃ c ∈ s.getLast?, isContent c = true

theorem Text.Bare.around {first second : List Char} (bare : Bare first) (other : Bare second) (middle : List Char) :
    Bare (first ++ (middle ++ second)) := by
  obtain ⟨c, head, content⟩ := bare.head
  obtain ⟨d, last, ending⟩ := other.last
  constructor
  · exact ⟨c, by simp [Option.mem_def.mp head], content⟩
  · exact ⟨d, by simp [Option.mem_def.mp last], ending⟩

theorem IsFragment.bare {text : String} (fragment : IsFragment text) : Text.Bare text.toList := by
  have content {c : Char} (member : c ∈ text.toList) (notBlank : Text.isBlank c = false) : Text.isContent c = true := by
    have notComma : c ≠ ',' := fun same => fragment.commaFree (same ▸ member)
    simp [Text.isContent, notComma, notBlank]
  have nonempty : text.toList ≠ [] := by simpa using fragment.nonempty
  have first := List.head?_eq_some_head nonempty
  have last := List.getLast?_eq_some_getLast nonempty
  exact ⟨⟨_, first, content (List.head_mem nonempty) (fragment.trimmed.head _ first)⟩,
    ⟨_, last, content (List.getLast_mem nonempty) (fragment.trimmed.last _ last)⟩⟩

theorem bare_intercalate {texts : List String} (some : texts ≠ []) (each : ∀ text ∈ texts, IsFragment text) :
    Text.Bare (", ".intercalate texts).toList := by
  induction texts with
  | nil => contradiction
  | cons text rest ih =>
    have own := (each text (List.mem_cons_self ..)).bare
    cases rest with
    | nil => simpa using own
    | cons next rest =>
      have others := ih (List.cons_ne_nil _ _) fun other member => each other (List.mem_cons_of_mem _ member)
      rw [String.intercalate_cons_cons, String.toList_append, String.toList_append, List.append_assoc]
      exact own.around others _

theorem Clauses.bare_columns {clauses : Clauses} (each : ∀ text ∈ clauses.selects, IsFragment text) :
    Text.Bare clauses.columns.toList := by
  by_cases empty : clauses.selects = []
  · rw [columns, empty]
    exact ⟨⟨'*', rfl, by decide⟩, ⟨'*', rfl, by decide⟩⟩
  · simpa [columns, empty] using bare_intercalate empty each

/-- The padded pieces are the others with commas and blanks in front of the first one and after the last one. -/
def Text.Pads (pieces padded : List (List Char)) : Prop :=
  ∃ before ending first last, Hollow before ∧ Hollow ending ∧ pieces = first ++ [last] ∧
    padded = (first ++ [last ++ ending]).modifyHead (before ++ ·)

theorem Clauses.scan_columns {fields : String} {found : Literal.Scan}
    (paired : Literal.scanQuotes true false fields.toList = some found) :
    let columns := ({ selects := fragments fields } : Clauses).columns
    ∃ kept, Literal.scanQuotes true false columns.toList = some kept ∧ kept.literals = found.settled.literals ∧
      (Text.Hollow fields.toList ∧ columns = "*" ∨ Text.Pads kept.outside found.settled.outside) := by
  by_cases none : fragments fields = []
  · have hollow := fragments_eq_nil.mp none
    have copied := Literal.scanQuotes_text false fields.toList [] hollow.quoteFree
    rw [List.append_nil, paired] at copied
    obtain rfl := Option.some.inj copied
    rw [none]
    exact ⟨⟨[['*']], []⟩, by decide, rfl, .inl ⟨hollow, rfl⟩⟩
  · have columns : ({ selects := fragments fields } : Clauses).columns = ", ".intercalate (fragments fields) := by
      simp [Clauses.columns, none]
    obtain ⟨before, ending, hollow, hollowEnding, settled⟩ := settle_fields none
    have scanned : Literal.scanQuotes true false (Text.settle fields.toList) = some found.settled := by
      simpa using Literal.scanQuotes_settle Text.hollow_nil paired
    rw [settled, Literal.scanQuotes_text false _ _ hollow.quoteFree] at scanned
    obtain ⟨after, inner, same⟩ := Option.map_eq_some_iff.mp scanned
    obtain ⟨first, last, outside, kept⟩ := Literal.scanQuotes_of_append hollowEnding.quoteFree inner
    have padded : found.settled.outside = (first ++ [last ++ ending]).modifyHead (before ++ ·) :=
      outside ▸ congrArg Literal.Scan.outside same.symm
    have literals : after.literals = found.settled.literals := by rw [← same]; rfl
    refine ⟨⟨first ++ [last], after.literals⟩, columns ▸ kept, literals, .inr ?_⟩
    exact ⟨before, ending, first, last, hollow, hollowEnding, rfl, padded⟩

/-- A column list is cut at the commas within literals as well. Every literal is still there in its place, the same but
    for commas within it and the blanks around them. So is the text outside the literals, which loses its empty parts
    besides and the blanks at its ends. -/
theorem select_settles_literals (b : Builder) (fields : String) (found : Literal.Scan) (empty : b.clauses = {})
    (paired : Literal.scanQuotes true false fields.toList = some found) :
    ∃ again q kept, b.apply (.select fields) = .ok again ∧ again.compile = .ok q ∧
      q.sql = "SELECT " ++ again.clauses.columns ++ " FROM " ++ b.table ∧ Text.Bare again.clauses.columns.toList ∧
      Literal.scanQuotes true false again.clauses.columns.toList = some kept ∧
      kept.literals = found.settled.literals ∧
      (∀ (k : Nat) literal, found.literals[k]? = some literal → ',' ∉ literal.2 → kept.literals[k]? = some literal) ∧
      (Text.Hollow fields.toList ∧ again.clauses.columns = "*" ∨ Text.Pads kept.outside found.settled.outside) := by
  obtain ⟨table, clauses, config⟩ := b
  obtain rfl : clauses = {} := empty
  obtain ⟨q, compiled, sql⟩ := compile_selects table (fragments fields)
  obtain ⟨kept, scanned, literals, outside⟩ := Clauses.scan_columns paired
  have bare : Text.Bare ({ selects := fragments fields } : Clauses).columns.toList :=
    Clauses.bare_columns fun text => isFragment_of_mem
  refine ⟨⟨table, { selects := fragments fields }, config⟩, q, kept, rfl, compiled, sql, bare, scanned, literals, ?_,
    outside⟩
  intro k literal found commaFree
  rw [literals, Literal.Scan.settled, List.getElem?_map, found, Option.map_some, Text.settle_eq_self commaFree]

theorem select_settles_literals_quotedLists :
    let fields := " 'a ,,b' ,, 'it''s' ,"
    let found : Literal.Scan :=
      ⟨[[' '], " ,, ".toList, " ,".toList], [(.plain, "a ,,b".toList), (.plain, "it's".toList)]⟩
    Literal.scanQuotes true false fields.toList = some found ∧
      ∃ again q kept, Builder.apply { table := "t" } (.select fields) = .ok again ∧ again.compile = .ok q ∧
        q.sql = "SELECT 'a, b', 'it''s' FROM t" ∧
        Literal.scanQuotes true false again.clauses.columns.toList = some kept ∧
        kept.literals = [(.plain, "a, b".toList), (.plain, "it's".toList)] := by
  intro fields found
  have paired : Literal.scanQuotes true false fields.toList = some found := by decide
  have settled : found.settled.literals = [(.plain, "a, b".toList), (.plain, "it's".toList)] := by decide
  obtain ⟨again, q, kept, applied, compiled, sql, -, scanned, literals, -⟩ :=
    select_settles_literals { table := "t" } fields found rfl paired
  cases applied
  exact ⟨paired, _, q, kept, rfl, compiled, sql.trans (by decide), scanned, literals.trans settled⟩

/-- The blank that separates columns gets into a literal with a comma. -/
theorem literal_with_comma_changed :
    let fields := "'a,b'"
    let found : Literal.Scan := ⟨[[], []], [(.plain, "a,b".toList)]⟩
    let kept : Literal.Scan := ⟨[[], []], [(.plain, "a, b".toList)]⟩
    ∃ again q, Builder.apply { table := "t" } (.select fields) = .ok again ∧ again.compile = .ok q ∧
      q.sql = "SELECT " ++ again.clauses.columns ++ " FROM t" ∧
      Literal.scanQuotes true false fields.toList = some found ∧
      Literal.scanQuotes true false again.clauses.columns.toList = some kept ∧ kept.literals ≠ found.literals :=
  ⟨_, _, rfl, rfl, by decide, by decide, by decide, by decide⟩

end SqlSelect
