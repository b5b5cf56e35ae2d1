import SqlSelect.Proofs.Text.Letters
import SqlSelect.Text.Percent
import Mathlib

namespace SqlSelect.Text

/-- A byte as a percent sign and two hex digits. -/
def percentByte (byte : UInt8) : List Char :=
  ['%', (Nat.digitChar (byte.toNat / 16)).toUpper, (Nat.digitChar (byte.toNat % 16)).toUpper]

/-- The text with each of its bytes encoded, also those of characters that could stand for themselves. -/
def percentEncode (text : String) : String :=
  String.ofList ((text.toList.flatMap String.utf8EncodeChar).flatMap percentByte)

theorem hexDigit?_of_variant {n : Nat} (small : n < 16) {c : Char}
    (variant : c = (Nat.digitChar n).toUpper ∨ c = (Nat.digitChar n).toUpper.toLower) : hexDigit? c = some n := by
  have each : ∀ digit : Fin 16, hexDigit? (Nat.digitChar digit).toUpper = some digit.val ∧
      hexDigit? (Nat.digitChar digit).toUpper.toLower = some digit.val := by decide
  rcases variant with rfl | rfl
  · exact (each ⟨n, small⟩).1
  · exact (each ⟨n, small⟩).2

theorem isAlphanum_of_hexDigit? {c : Char} {n : Nat} (digit : hexDigit? c = some n) : c.isAlphanum = true := by
  have bounds : '0' ≤ c ∧ c ≤ '9' ∨ 'a' ≤ c ∧ c ≤ 'f' ∨ 'A' ≤ c ∧ c ≤ 'F' := by
    by_contra outside
    obtain ⟨notDigit, notLower, notUpper⟩ : ¬('0' ≤ c ∧ c ≤ '9') ∧ ¬('a' ≤ c ∧ c ≤ 'f') ∧ ¬('A' ≤ c ∧ c ≤ 'F') := by
      simpa only [not_or] using outside
    rw [hexDigit?, if_neg notDigit, if_neg notLower, if_neg notUpper] at digit
    cases digit
  simp only [Char.le_def, UInt32.le_iff_toNat_le, Char.toNat_val, Char.reduceToNat] at bounds
  simp only [Char.isAlphanum, Char.isAlpha, Char.isUpper, Char.isLower, Char.isDigit, Bool.or_eq_true, Bool.and_eq_true,
    decide_eq_true_eq, ge_iff_le, UInt32.le_iff_toNat_le, Char.toNat_val, Char.reduceToNat]
  omega

/-- The characters stand for the bytes: a percent sign and two hex digits for one byte, and every other character for
    its own bytes in UTF-8. -/
inductive PercentDecodes : List Char → List UInt8 → Prop
  | nil : PercentDecodes [] []
  | byte {high low : Char} {h l : Nat} {s : List Char} {bytes : List UInt8} (upper : hexDigit? high = some h)
      (lower : hexDigit? low = some l) (others : PercentDecodes s bytes) :
      PercentDecodes ('%' :: high :: low :: s) (UInt8.ofNat (16 * h + l) :: bytes)
  | plain {c : Char} {s : List Char} {bytes : List UInt8} (notPercent : c ≠ '%') (others : PercentDecodes s bytes) :
      PercentDecodes (c :: s) (String.utf8EncodeChar c ++ bytes)

/-- The bytes, each encoded, with each hex digit in either case. -/
def Encodes (s : List Char) (bytes : List UInt8) : Prop :=
  List.Forall₂ (fun letter c => c = letter ∨ c = letter.toLower) (bytes.flatMap percentByte) s

theorem CaseVariant.encodes {text encoded : String} (variant : CaseVariant (percentEncode text) encoded) :
    Encodes encoded.toList (text.toList.flatMap String.utf8EncodeChar) := by
  rwa [CaseVariant, percentEncode, String.toList_ofList] at variant

theorem Encodes.cons_cases {s : List Char} {byte : UInt8} {bytes : List UInt8} (encodes : Encodes s (byte :: bytes)) :
    ∃ high low rest, s = '%' :: high :: low :: rest ∧ hexDigit? high = some (byte.toNat / 16) ∧
      hexDigit? low = some (byte.toNat % 16) ∧ Encodes rest bytes := by
  have bound := byte.toNat_lt
  simp only [Encodes, List.flatMap_cons, percentByte, List.cons_append, List.nil_append,
    List.forall₂_cons_left_iff] at encodes
  obtain ⟨sign, -, signed, ⟨high, -, upper, ⟨low, rest, lower, others, rfl⟩, rfl⟩, rfl⟩ := encodes
  have percent : sign = '%' := signed.elim id id
  exact ⟨high, low, rest, by rw [percent], hexDigit?_of_variant (by omega) upper,
    hexDigit?_of_variant (by omega) lower, others⟩

theorem Encodes.decodes {s : List Char} {bytes : List UInt8} (encodes : Encodes s bytes) : PercentDecodes s bytes := by
  induction bytes generalizing s with
  | nil =>
    obtain rfl := List.forall₂_nil_left_iff.mp encodes
    exact .nil
  | cons byte bytes ih =>
    obtain ⟨high, low, rest, rfl, upper, lower, others⟩ := encodes.cons_cases
    have whole : 16 * (byte.toNat / 16) + byte.toNat % 16 = byte.toNat := Nat.div_add_mod ..
    have step := PercentDecodes.byte upper lower (ih others)
    rwa [whole, UInt8.ofNat_toNat] at step

/-- Nothing but percent signs and hex digits is left of the text. -/
theorem Encodes.mem_cases {s : List Char} {bytes : List UInt8} (encodes : Encodes s bytes) {c : Char} (member : c ∈ s) :
    c = '%' ∨ c.isAlphanum = true := by
  induction bytes generalizing s with
  | nil =>
    obtain rfl := List.forall₂_nil_left_iff.mp encodes
    cases member
  | cons byte bytes ih =>
    obtain ⟨high, low, rest, rfl, upper, lower, others⟩ := encodes.cons_cases
    simp only [List.mem_cons] at member
    rcases member with rfl | rfl | rfl | later
    · exact .inl rfl
    · exact .inr (isAlphanum_of_hexDigit? upper)
    · exact .inr (isAlphanum_of_hexDigit? lower)
    · exact ih others later

theorem PercentDecodes.of_plain {s : List Char} (plain : '%' ∉ s) :
    PercentDecodes s (s.flatMap String.utf8EncodeChar) := by
  induction s with
  | nil => exact .nil
  | cons c s ih =>
    have notPercent : c ≠ '%' := fun same => plain (by simp [same])
    exact .plain notPercent (ih (List.not_mem_of_not_mem_cons plain))

theorem PercentDecodes.percentDecode_eq {s : List Char} {bytes : List UInt8} (decodes : PercentDecodes s bytes) :
    percentDecode s = bytes := by
  induction decodes with
  | nil => rfl
  | byte upper lower others ih => simp only [percentDecode, upper, lower, ih]
  | plain notPercent others ih => simp [percentDecode, notPercent, ih]

theorem percentText?_of_decodes {s : List Char} {text : String}
    (decodes : PercentDecodes s (text.toList.flatMap String.utf8EncodeChar)) : percentText? s = some text := by
  have bytes : (text.toList.flatMap String.utf8EncodeChar).toByteArray = text.toByteArray := String.utf8Encode_toList
  rw [percentText?, decodes.percentDecode_eq, bytes, String.fromUTF8?, dif_pos text.isValidUTF8]
  rfl

end SqlSelect.Text
