import SqlSelect.Error
import SqlSelect.Text.Blank
import SqlSelect.Text.Letters

namespace SqlSelect

/-- Finds the word that a text spells. Blanks around the word and the case of its ASCII letters do not matter; the
    error quotes the text without the blanks. -/
def readWord {α : Type} (vocabulary : Vocabulary) (all : List α) (spelling : α → String) (text : String) :
    Except Error α :=
  match all.find? fun word => Text.sameWord (spelling word) (Text.trim text) with
  | some word => .ok word
  | none => .error (.invalidUsage (.unknownWord vocabulary (Text.trim text)))

def Operator.read (text : String) : Except Error Operator :=
  readWord .operator all spelling text

def Conjunction.read (text : String) : Except Error Conjunction :=
  readWord .conjunction all spelling text

def Direction.read (text : String) : Except Error Direction :=
  readWord .direction all spelling text

theorem Operator.read_spelling (operator : Operator) : Operator.read operator.spelling = .ok operator := by
  cases operator <;> rfl

theorem Conjunction.read_spelling (conjunction : Conjunction) :
    Conjunction.read conjunction.spelling = .ok conjunction := by
  cases conjunction <;> rfl

theorem Direction.read_spelling (direction : Direction) : Direction.read direction.spelling = .ok direction := by
  cases direction <;> rfl

def JoinKind.ofSpelling? (text : String) : Option JoinKind :=
  all.find? fun kind => kind.spelling == text

theorem JoinKind.ofSpelling?_spelling (kind : JoinKind) : JoinKind.ofSpelling? kind.spelling = some kind := by
  cases kind <;> rfl

end SqlSelect
