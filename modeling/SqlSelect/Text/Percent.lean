namespace SqlSelect.Text

def hexDigit? (c : Char) : Option Nat :=
  if '0' ≤ c ∧ c ≤ '9' then some (c.toNat - '0'.toNat)
  else if 'a' ≤ c ∧ c ≤ 'f' then some (c.toNat - 'a'.toNat + 10)
  else if 'A' ≤ c ∧ c ≤ 'F' then some (c.toNat - 'A'.toNat + 10)
  else none

/-- The bytes that a percent-encoded text stands for. A percent sign and two hex digits are one byte; every other
    character, also a percent sign without the digits, stands for its own bytes in UTF-8. -/
def percentDecode : List Char → List UInt8
  | '%' :: high :: low :: s =>
    match hexDigit? high, hexDigit? low with
    | some h, some l => UInt8.ofNat (16 * h + l) :: percentDecode s
    | _, _ => String.utf8EncodeChar '%' ++ percentDecode (high :: low :: s)
  | c :: s => String.utf8EncodeChar c ++ percentDecode s
  | [] => []

def percentText? (s : List Char) : Option String :=
  String.fromUTF8? (percentDecode s).toByteArray

example : percentDecode "%4a%zz%".toList = [0x4A, 0x25, 0x7A, 0x7A, 0x25] := by decide

end SqlSelect.Text
