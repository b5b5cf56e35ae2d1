import SqlSelect.Proofs.Statement.Rendering
import SqlSelect.Proofs.Text.Words
import SqlSelect.Spelling

namespace SqlSelect

open Text (words spaced listed readItems Avoids)

def Join.words (join : Join) : List String :=
  ["INNER", "JOIN", join.table, "ON", join.condition]

def Condition.words (condition : Condition) (lead : String) : List String :=
  [lead, condition.field, condition.operator.spelling, "?"]

def SortKey.words (key : SortKey) (comma : String) : List String :=
  [key.field, key.direction.spelling ++ comma]

namespace Clauses

/-- The clauses as far as their statement shows them: a star stands for no column at all, and the conjunction of the
    first condition is not written. -/
def normal (clauses : Clauses) : Clauses where
  selects := if clauses.selects = [] then ["*"] else clauses.selects
  conditions := clauses.conditions.modifyHead fun first => { first with conjunction := .and }
  joins := clauses.joins
  sortKeys := clauses.sortKeys
  groups := clauses.groups

def conditionWords : List Condition → List String
  | [] => []
  | first :: rest => first.words "WHERE" ++ rest.flatMap fun condition => condition.words condition.conjunction.spelling

def groupWords : List String → List String
  | [] => []
  | groups => "GROUP" :: "BY" :: listed groups

def keyWords : List SortKey → List String
  | [] => []
  | [key] => key.words ""
  | key :: next :: rest => key.words "," ++ keyWords (next :: rest)

def sortWords : List SortKey → List String
  | [] => []
  | keys => "ORDER" :: "BY" :: keyWords keys

def statementWords (clauses : Clauses) (table : String) : List String :=
  listed clauses.normal.selects ++ "FROM" :: table ::
    (clauses.joins.flatMap Join.words ++
      (conditionWords clauses.conditions ++ (groupWords clauses.groups ++ sortWords clauses.sortKeys)))

end Clauses

namespace Statement

def readJoins : List String → List Join × List String
  | "INNER" :: _ :: table :: _ :: condition :: rest =>
    (⟨table, condition, .inner⟩ :: (readJoins rest).1, (readJoins rest).2)
  | rest => ([], rest)

/-- Reads one condition for each value. The word that leads in to the first one is no conjunction. -/
def readConditions : List String → List String → Option (List Condition × List String)
  | [], rest => some ([], rest)
  | value :: values, lead :: field :: operator :: _ :: rest => do
    let operator ← (Operator.read operator).toOption
    let (conditions, rest) ← readConditions values rest
    some (⟨field, operator, (Conjunction.read lead).toOption.getD .and, value⟩ :: conditions, rest)
  | _, _ => none

def readGroups : List String → List String × List String
  | "GROUP" :: _ :: rest => readItems rest
  | rest => ([], rest)

def readKeys : List String → Option (List SortKey)
  | field :: direction :: rest => do
    let direction ← (Direction.read ((Text.beforeComma? direction).getD direction)).toOption
    let keys ← readKeys rest
    some (⟨field, direction⟩ :: keys)
  | _ => some []

def readSortKeys : List String → Option (List SortKey)
  | "ORDER" :: _ :: rest => readKeys rest
  | _ => some []

/-- Reads a statement back, given that no fragment in it has a blank or a comma. -/
def read? (q : Statement) : Option (String × Clauses) := do
  let (selects, rest) := readItems (words q.sql).tail
  let [_, table] := rest.take 2 | none
  let (joins, rest) := readJoins (rest.drop 2)
  let (conditions, rest) ← readConditions q.params rest
  let (groups, rest) := readGroups rest
  let sortKeys ← readSortKeys rest
  some (table, { selects, conditions, joins, sortKeys, groups })

theorem readJoins_append (joins : List Join) (inner : ∀ join ∈ joins, join.kind = .inner) {rest : List String}
    (next : rest.head? ≠ some "INNER") :
    readJoins (joins.flatMap Join.words ++ rest) = (joins, rest) := by
  induction joins with
  | nil =>
    rw [List.flatMap_nil, List.nil_append]
    unfold readJoins
    split
    · exact absurd rfl next
    · rfl
  | cons join others ih =>
    have later := ih fun other member => inner other (List.mem_cons_of_mem _ member)
    obtain ⟨table, condition, kind⟩ := join
    obtain rfl : kind = .inner := inner _ (List.mem_cons_self ..)
    rw [List.flatMap_cons, List.append_assoc]
    simp only [Join.words, List.cons_append, List.nil_append, readJoins, later]

theorem readConditions_cons (condition : Condition) (lead : String) {values following rest : List String}
    {conditions : List Condition} (others : readConditions values following = some (conditions, rest)) :
    readConditions (condition.value :: values) (condition.words lead ++ following) =
      some ({ condition with conjunction := (Conjunction.read lead).toOption.getD .and } :: conditions, rest) := by
  simp [Condition.words, readConditions, others, Operator.read_spelling, Except.toOption]

theorem readConditions_further (conditions : List Condition) (rest : List String) :
    readConditions (conditions.map Condition.value)
        (conditions.flatMap (fun condition => condition.words condition.conjunction.spelling) ++ rest) =
      some (conditions, rest) := by
  induction conditions with
  | nil => rfl
  | cons condition others ih =>
    rw [List.flatMap_cons, List.append_assoc, List.map_cons, readConditions_cons _ _ ih, Conjunction.read_spelling]
    rfl

theorem readConditions_append (conditions : List Condition) (rest : List String) :
    readConditions (conditions.map Condition.value) (Clauses.conditionWords conditions ++ rest) =
      some (conditions.modifyHead (fun first => { first with conjunction := .and }), rest) := by
  cases conditions with
  | nil => rfl
  | cons first others =>
    rw [Clauses.conditionWords, List.append_assoc, List.map_cons,
      readConditions_cons _ _ (readConditions_further others rest)]
    rfl

theorem readGroups_append {groups : List String} (commaFree : ∀ group ∈ groups, Avoids ',' group) {rest : List String}
    (next : rest.head? ≠ some "GROUP") : readGroups (Clauses.groupWords groups ++ rest) = (groups, rest) := by
  cases groups with
  | nil =>
    rw [Clauses.groupWords, List.nil_append]
    unfold readGroups
    split
    · exact absurd rfl next
    · rfl
  | cons first others => exact Text.readItems_listed (by simp) commaFree rest

theorem readKeys_cons (key : SortKey) {comma : String} (separator : comma = "" ∨ comma = ",") {following : List String}
    {keys : List SortKey} (others : readKeys following = some keys) :
    readKeys (key.words comma ++ following) = some (key :: keys) := by
  obtain ⟨field, direction⟩ := key
  have word : Direction.read ((Text.beforeComma? (direction.spelling ++ comma)).getD (direction.spelling ++ comma)) =
      .ok direction := by
    rcases separator with rfl | rfl <;> cases direction <;> rfl
  simp [SortKey.words, readKeys, word, others, Except.toOption]

theorem readKeys_keyWords (keys : List SortKey) : readKeys (Clauses.keyWords keys) = some keys := by
  induction keys with
  | nil => rfl
  | cons key others ih =>
    cases others with
    | nil => exact readKeys_cons key (.inl rfl) (show readKeys [] = some [] from rfl)
    | cons next others => exact readKeys_cons key (.inr rfl) ih

theorem readSortKeys_sortWords (keys : List SortKey) : readSortKeys (Clauses.sortWords keys) = some keys := by
  cases keys with
  | nil => rfl
  | cons first others => exact readKeys_keyWords (first :: others)

end Statement

theorem Join.spaced_words (join : Join) : spaced join.words = join.innerText := by
  apply String.toList_injective
  simp [words, innerText]

theorem Condition.spaced_words (condition : Condition) (lead : String) :
    spaced (condition.words lead) = condition.lead lead ++ "?" := by
  apply String.toList_injective
  simp [words, Condition.lead]

theorem SortKey.spaced_words (key : SortKey) (comma : String) :
    spaced (key.words comma) = " " ++ key.render ++ comma := by
  apply String.toList_injective
  simp [words, render]

namespace Clauses

theorem spaced_conditionWords (conditions : List Condition) :
    spaced (conditionWords conditions) =
      String.join (conditions.mapIdx fun index condition => condition.written index "?") := by
  cases conditions with
  | nil => rfl
  | cons first rest =>
    have lead : first.lead "WHERE" ++ "?" = first.written 0 "?" := by
      apply String.toList_injective
      simp [Condition.lead, Condition.written]
    have further : (rest.map fun condition => spaced (condition.words condition.conjunction.spelling)) =
        rest.mapIdx fun index condition => condition.written (index + 1) "?" :=
      List.ext_getElem (by simp) fun index _ _ => by
        simp [Condition.spaced_words, Condition.lead, Condition.written]
    rw [conditionWords, Text.spaced_append, Text.spaced_flatMap, further, Condition.spaced_words, lead,
      List.mapIdx_cons, String.join_cons]

theorem spaced_groupWords (clauses : Clauses) : spaced (groupWords clauses.groups) = clauses.grouping := by
  unfold grouping
  cases clauses.groups with
  | nil => rfl
  | cons first rest =>
    have list := Text.spaced_listed (List.cons_ne_nil first rest)
    apply String.toList_injective
    simp [groupWords, list]

theorem spaced_keyWords {keys : List SortKey} (nonempty : keys ≠ []) :
    spaced (keyWords keys) = " " ++ ", ".intercalate (keys.map SortKey.render) := by
  induction keys with
  | nil => contradiction
  | cons key others ih =>
    cases others with
    | nil => simp [keyWords, SortKey.spaced_words]
    | cons next others =>
      have separator : ", " = "," ++ " " := rfl
      rw [keyWords, Text.spaced_append, ih (by simp), SortKey.spaced_words, List.map_cons, List.map_cons, List.map_cons,
        String.intercalate_cons_cons, separator]
      simp only [String.append_assoc]

theorem spaced_sortWords (clauses : Clauses) : spaced (sortWords clauses.sortKeys) = clauses.ordering := by
  unfold ordering
  cases clauses.sortKeys with
  | nil => rfl
  | cons first rest =>
    have list := spaced_keyWords (List.cons_ne_nil first rest)
    apply String.toList_injective
    simp [sortWords, list]

theorem selects_normal_ne_nil (clauses : Clauses) : clauses.normal.selects ≠ [] := by
  simp only [normal]
  split <;> simp_all

theorem columns_eq (clauses : Clauses) : clauses.columns = ", ".intercalate clauses.normal.selects := by
  simp only [columns, normal, List.isEmpty_iff]
  split <;> simp

theorem markedText_eq_words (clauses : Clauses) (table : String) :
    (clauses.layout table).markedText = "SELECT" ++ spaced (clauses.statementWords table) := by
  have selectWord : "SELECT " = "SELECT" ++ " " := rfl
  have fromWord : " FROM " = " " ++ "FROM" ++ " " := rfl
  have joins : (clauses.joins.map fun join => spaced join.words) = clauses.joins.map Join.innerText :=
    List.map_congr_left fun join _ => join.spaced_words
  rw [Layout.markedText, fill_layout, render_eq, opening, closing, columns_eq, selectWord, fromWord]
  simp only [statementWords, Text.spaced_append, Text.spaced_cons, Text.spaced_flatMap, joins,
    spaced_conditionWords, spaced_groupWords, spaced_sortWords, Text.spaced_listed clauses.selects_normal_ne_nil,
    String.append_assoc]

theorem avoids_groupWords {groups : List String} (each : ∀ group ∈ groups, Avoids ' ' group) :
    ∀ word ∈ groupWords groups, Avoids ' ' word := by
  cases groups with
  | nil => simp [groupWords]
  | cons first rest =>
    have list := Text.avoids_listed (by decide) each
    have keywords : Avoids ' ' "GROUP" ∧ Avoids ' ' "BY" := by simp [Avoids]
    simpa [groupWords, keywords] using list

theorem avoids_keyWords {keys : List SortKey} (each : ∀ key ∈ keys, Avoids ' ' key.field) :
    ∀ word ∈ keyWords keys, Avoids ' ' word := by
  have own (key : SortKey) (member : key ∈ keys) (comma : String) (blankFree : Avoids ' ' comma) :
      ∀ word ∈ key.words comma, Avoids ' ' word := by
    have direction : Avoids ' ' key.direction.spelling := by cases key.direction <;> simp [Avoids, Direction.spelling]
    simp [SortKey.words, each key member, direction, blankFree]
  induction keys with
  | nil => simp [keyWords]
  | cons key others ih =>
    cases others with
    | nil => exact own key (by simp) "" (by simp [Avoids])
    | cons next others =>
      intro word member
      rcases List.mem_append.mp member with first | later
      · exact own key (by simp) "," (by simp [Avoids]) word first
      · exact ih (fun other among => each other (List.mem_cons_of_mem _ among))
          (fun other among => own other (List.mem_cons_of_mem _ among)) word later

theorem avoids_sortWords {keys : List SortKey} (each : ∀ key ∈ keys, Avoids ' ' key.field) :
    ∀ word ∈ sortWords keys, Avoids ' ' word := by
  cases keys with
  | nil => simp [sortWords]
  | cons first rest =>
    have list := avoids_keyWords each
    have keywords : Avoids ' ' "ORDER" ∧ Avoids ' ' "BY" := by simp [Avoids]
    simpa [sortWords, keywords] using list

theorem avoids_conditionWords {conditions : List Condition}
    (each : ∀ condition ∈ conditions, Avoids ' ' condition.field) :
    ∀ word ∈ conditionWords conditions, Avoids ' ' word := by
  have own (condition : Condition) (member : condition ∈ conditions) (lead : String) (blankFree : Avoids ' ' lead) :
      ∀ word ∈ condition.words lead, Avoids ' ' word := by
    have operator : Avoids ' ' condition.operator.spelling := by
      cases condition.operator <;> simp [Avoids, Operator.spelling]
    have marker : Avoids ' ' "?" := by simp [Avoids]
    simp [Condition.words, each condition member, operator, marker, blankFree]
  cases conditions with
  | nil => simp [conditionWords]
  | cons first rest =>
    intro word member
    rcases List.mem_append.mp member with opening | later
    · exact own first (by simp) "WHERE" (by simp [Avoids]) word opening
    · obtain ⟨condition, among, inside⟩ := List.mem_flatMap.mp later
      have conjunction : Avoids ' ' condition.conjunction.spelling := by
        cases condition.conjunction <;> simp [Avoids, Conjunction.spelling]
      exact own condition (List.mem_cons_of_mem _ among) _ conjunction word inside

theorem avoids_joinWords {joins : List Join}
    (each : ∀ join ∈ joins, Avoids ' ' join.table ∧ Avoids ' ' join.condition) :
    ∀ word ∈ joins.flatMap Join.words, Avoids ' ' word := by
  intro word member
  obtain ⟨join, among, inside⟩ := List.mem_flatMap.mp member
  have keywords : Avoids ' ' "INNER" ∧ Avoids ' ' "JOIN" ∧ Avoids ' ' "ON" := by simp [Avoids]
  have all : ∀ word ∈ join.words, Avoids ' ' word := by simp [Join.words, each join among, keywords]
  exact all word inside

theorem mem_normal_selects {clauses : Clauses} {text : String} (member : text ∈ clauses.normal.selects) :
    text = "*" ∨ text ∈ clauses.selects := by
  simp only [normal] at member
  split at member
  · exact .inl (List.mem_singleton.mp member)
  · exact .inr member

theorem avoids_statementWords {clauses : Clauses} {table : String}
    (plain : ∀ text ∈ clauses.suppliedTexts table, Avoids ' ' text) :
    ∀ word ∈ "SELECT" :: clauses.statementWords table, Avoids ' ' word := by
  simp only [suppliedTexts, List.mem_append, List.mem_singleton, List.mem_flatMap, List.mem_map] at plain
  have selects : ∀ text ∈ clauses.normal.selects, Avoids ' ' text := by
    intro text member
    rcases mem_normal_selects member with rfl | member
    · simp [Avoids]
    · exact plain text (by simp [member])
  have joins : ∀ join ∈ clauses.joins, Avoids ' ' join.table ∧ Avoids ' ' join.condition := fun join member =>
    ⟨plain _ (.inl (.inl (.inl (.inr ⟨join, member, by simp⟩)))),
      plain _ (.inl (.inl (.inl (.inr ⟨join, member, by simp⟩))))⟩
  have conditions : ∀ condition ∈ clauses.conditions, Avoids ' ' condition.field := fun condition member =>
    plain _ (.inl (.inl (.inr ⟨condition, member, rfl⟩)))
  have keywords : Avoids ' ' "SELECT" ∧ Avoids ' ' "FROM" := by simp [Avoids]
  intro word member
  simp only [statementWords, List.mem_cons, List.mem_append] at member
  rcases member with rfl | list | rfl | rfl | join | condition | group | key
  · exact keywords.1
  · exact Text.avoids_listed (by decide) selects word list
  · exact keywords.2
  · exact plain _ (by simp)
  · exact avoids_joinWords joins word join
  · exact avoids_conditionWords conditions word condition
  · exact avoids_groupWords (fun text among => plain text (by simp [among])) word group
  · exact avoids_sortWords (fun key among => plain _ (.inr ⟨key, among, rfl⟩)) word key

end Clauses

/-- Reading is the inverse of compiling, as far as a statement shows its clauses. -/
theorem read?_statement {clauses : Clauses} {table : String} (outerFree : clauses.OuterFree)
    (plain : ∀ text ∈ clauses.suppliedTexts table, Avoids ' ' text ∧ Avoids ',' text) :
    (clauses.layout table).statement.read? = some (table, clauses.normal) := by
  have cut : words (clauses.layout table).markedText = "SELECT" :: clauses.statementWords table := by
    rw [clauses.markedText_eq_words]
    exact Text.words_spaced (Clauses.avoids_statementWords fun text member => (plain text member).1)
  have commaFree : ∀ text ∈ clauses.normal.selects, Avoids ',' text := by
    intro text member
    rcases Clauses.mem_normal_selects member with rfl | member
    · simp [Avoids]
    · exact (plain text (by simp [Clauses.suppliedTexts, member])).2
  have afterJoins : (Clauses.conditionWords clauses.conditions ++
      (Clauses.groupWords clauses.groups ++ Clauses.sortWords clauses.sortKeys)).head? ≠ some "INNER" := by
    cases clauses.conditions <;> cases clauses.groups <;> cases clauses.sortKeys <;>
      simp [Clauses.conditionWords, Clauses.groupWords, Clauses.sortWords, Condition.words]
  have afterGroups : (Clauses.sortWords clauses.sortKeys).head? ≠ some "GROUP" := by
    cases clauses.sortKeys <;> simp [Clauses.sortWords]
  have joins := Statement.readJoins_append clauses.joins outerFree afterJoins
  have commaFreeGroups : ∀ group ∈ clauses.groups, Avoids ',' group := fun group member =>
    (plain group (by simp [Clauses.suppliedTexts, member])).2
  have groups := Statement.readGroups_append commaFreeGroups afterGroups
  have items := Text.readItems_listed clauses.selects_normal_ne_nil commaFree
  have values : (clauses.layout table).values = clauses.conditions.map Condition.value := clauses.values_layout table
  simp only [Statement.read?, Layout.statement_sql, Layout.statement_params, cut, values, List.tail_cons,
    Clauses.statementWords, items, List.take_succ_cons, List.take_zero, List.drop_succ_cons, List.drop_zero, joins,
    Statement.readConditions_append, Option.bind_eq_bind, Option.bind_some, groups, Statement.readSortKeys_sortWords]
  rfl

namespace Clauses

/-- What a statement does not show of its clauses has no part in it. -/
theorem render_normal (clauses : Clauses) (table : String) (slot : Nat → String → String) :
    clauses.normal.render table slot = clauses.render table slot := by
  obtain ⟨selects, conditions, joins, sortKeys, groups⟩ := clauses
  cases selects <;> cases conditions <;> simp [render, normal, Condition.written]

theorem values_normal (clauses : Clauses) : clauses.normal.values = clauses.values := by
  obtain ⟨selects, conditions, joins, sortKeys, groups⟩ := clauses
  cases conditions <;> rfl

end Clauses

/-- Where no fragment has a blank or a comma, text and values of a statement determine the table and the clauses, up to
    the conjunction of the first condition and to a star for no column. Fragments may be empty or look like keywords. -/
theorem text_determines_clauses {table other : String} {clauses others : Clauses} (outerFree : clauses.OuterFree)
    (otherOuterFree : others.OuterFree)
    (plain : ∀ text ∈ clauses.suppliedTexts table, Text.Avoids ' ' text ∧ Text.Avoids ',' text)
    (otherPlain : ∀ text ∈ others.suppliedTexts other, Text.Avoids ' ' text ∧ Text.Avoids ',' text) :
    ∃ q r, compile table clauses = .ok q ∧ compile other others = .ok r ∧
      (q.sql = r.sql ∧ q.params = r.params ↔ table = other ∧ clauses.normal = others.normal) := by
  refine ⟨_, _, compile_eq_layout table clauses outerFree, compile_eq_layout other others otherOuterFree, ?_, ?_⟩
  · rintro ⟨sql, params⟩
    have same : (clauses.layout table).statement.read? = (others.layout other).statement.read? := by
      simp only [Statement.read?, sql, params]
    rw [read?_statement outerFree plain, read?_statement otherOuterFree otherPlain] at same
    simpa using same
  · rintro ⟨rfl, same⟩
    have text (clauses : Clauses) :
        (clauses.layout table).statement.sql = clauses.normal.render table fun _ _ => "?" := by
      rw [Layout.statement_sql, Layout.markedText, Clauses.fill_layout, Clauses.render_normal]
    have values (clauses : Clauses) : (clauses.layout table).statement.params = clauses.normal.values := by
      rw [Layout.statement_params, Clauses.values_layout, Clauses.values_normal]
    exact ⟨by rw [text, text, same], by rw [values, values, same]⟩

def keywordFragments : Clauses where
  selects := ["", "FROM", "*"]
  joins := [⟨"ON", "INNER", .inner⟩, ⟨"", "WHERE", .inner⟩]
  conditions := [⟨"?", .eq, .or, "AND"⟩, ⟨"GROUP", .ne, .or, "a, b"⟩]
  groups := ["BY", "ORDER", ""]
  sortKeys := [⟨"ASC", .desc⟩, ⟨"", .asc⟩]

theorem text_determines_clauses_keywordFragments :
    let others := { keywordFragments with
      conditions := keywordFragments.conditions.modifyHead fun first => { first with conjunction := .and } }
    keywordFragments.OuterFree ∧ others.OuterFree ∧
      (∀ text ∈ keywordFragments.suppliedTexts "JOIN", Text.Avoids ' ' text ∧ Text.Avoids ',' text) ∧
      (∀ text ∈ others.suppliedTexts "JOIN", Text.Avoids ' ' text ∧ Text.Avoids ',' text) ∧
      ∃ q r, compile "JOIN" keywordFragments = .ok q ∧ compile "JOIN" others = .ok r ∧ q.sql = r.sql ∧
        q.params = r.params := by
  intro others
  have plain : ∀ text ∈ keywordFragments.suppliedTexts "JOIN", Text.Avoids ' ' text ∧ Text.Avoids ',' text := by
    simp [keywordFragments, Clauses.suppliedTexts, Text.Avoids]
  have outerFree : keywordFragments.OuterFree := by decide
  have otherOuterFree : others.OuterFree := by decide
  have otherPlain : ∀ text ∈ others.suppliedTexts "JOIN", Text.Avoids ' ' text ∧ Text.Avoids ',' text := plain
  obtain ⟨q, r, compiled, recompiled, determined⟩ :=
    text_determines_clauses outerFree otherOuterFree plain otherPlain
  exact ⟨outerFree, otherOuterFree, plain, otherPlain, q, r, compiled, recompiled, determined.mpr ⟨rfl, by decide⟩⟩

end SqlSelect
