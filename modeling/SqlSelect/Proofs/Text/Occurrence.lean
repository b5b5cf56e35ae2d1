import Mathlib.Algebra.GroupWithZero.Nat

namespace SqlSelect.Text

/-- The text stands somewhere in the other one, whole and unchanged. -/
def Within (part whole : String) : Prop :=
  part.toList <:+: whole.toList

theorem Within.rfl {text : String} : Within text text := List.infix_rfl

theorem Within.trans {part middle whole : String} (first : Within part middle) (second : Within middle whole) :
    Within part whole :=
  List.IsInfix.trans first second

theorem Within.left (text after : String) : Within text (text ++ after) :=
  ⟨[], after.toList, by simp⟩

theorem Within.right (before text : String) : Within text (before ++ text) :=
  ⟨before.toList, [], by simp⟩

theorem Within.append_left {part text : String} (within : Within part text) (before : String) :
    Within part (before ++ text) :=
  within.trans (.right before text)

theorem Within.append_right {part text : String} (within : Within part text) (after : String) :
    Within part (text ++ after) :=
  within.trans (.left text after)

theorem Within.join {text : String} {texts : List String} (member : text ∈ texts) :
    Within text (String.join texts) := by
  obtain ⟨before, after, rfl⟩ := List.append_of_mem member
  rw [String.join_append, String.join_cons]
  exact (Within.left text _).append_left _

theorem Within.intercalate (separator : String) {text : String} {texts : List String} (member : text ∈ texts) :
    Within text (separator.intercalate texts) := by
  induction texts with
  | nil => cases member
  | cons head rest ih =>
    rcases List.mem_cons.mp member with rfl | member
    · cases rest with
      | nil => simpa using Within.rfl
      | cons next rest =>
        rw [String.intercalate_cons_cons, String.append_assoc]
        exact .left _ _
    · rw [String.intercalate_cons_of_ne_nil (List.ne_nil_of_mem member)]
      exact (ih member).append_left _

def Avoids (c : Char) (text : String) : Prop :=
  c ∉ text.toList

@[simp] theorem avoids_append {c : Char} {s t : String} : Avoids c (s ++ t) ↔ Avoids c s ∧ Avoids c t := by
  simp [Avoids]

theorem Avoids.join {c : Char} {texts : List String} (each : ∀ text ∈ texts, Avoids c text) :
    Avoids c (String.join texts) := by
  induction texts with
  | nil => simp [Avoids]
  | cons head rest ih =>
    rw [String.join_cons, avoids_append]
    exact ⟨each head (by simp), ih fun text member => each text (List.mem_cons_of_mem _ member)⟩

theorem Avoids.intercalate {c : Char} {separator : String} {texts : List String} (between : Avoids c separator)
    (each : ∀ text ∈ texts, Avoids c text) : Avoids c (separator.intercalate texts) := by
  induction texts with
  | nil => simp [Avoids]
  | cons head rest ih =>
    have first := each head (by simp)
    have others := ih fun text member => each text (List.mem_cons_of_mem _ member)
    cases rest with
    | nil => simpa using first
    | cons next rest =>
      rw [String.intercalate_cons_cons]
      simp [first, between, others]

theorem Avoids.of_within {c : Char} {part whole : String} (avoids : Avoids c whole) (within : Within part whole) :
    Avoids c part :=
  fun member => avoids (within.subset member)

def occurrences (c : Char) (text : String) : Nat :=
  text.toList.count c

theorem occurrences_eq_zero {c : Char} {text : String} (avoids : Avoids c text) : occurrences c text = 0 :=
  List.count_eq_zero.mpr avoids

@[simp] theorem occurrences_append (c : Char) (s t : String) :
    occurrences c (s ++ t) = occurrences c s + occurrences c t := by
  simp [occurrences]

theorem occurrences_join (c : Char) (texts : List String) :
    occurrences c (String.join texts) = (texts.map (occurrences c)).sum := by
  induction texts with
  | nil => simp [occurrences]
  | cons head rest ih => rw [String.join_cons, occurrences_append, ih, List.map_cons, List.sum_cons]

theorem occurrences_intercalate {c : Char} {separator : String} (between : Avoids c separator) (texts : List String) :
    occurrences c (separator.intercalate texts) = (texts.map (occurrences c)).sum := by
  induction texts with
  | nil => simp [occurrences]
  | cons head rest ih =>
    cases rest with
    | nil => simp
    | cons next rest =>
      rw [String.intercalate_cons_cons, occurrences_append, occurrences_append, ih, occurrences_eq_zero between]
      rfl

end SqlSelect.Text
