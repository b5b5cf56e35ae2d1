import SqlSelect.Server.Reply

namespace SqlSelect

/-- A message that a client hands on to whoever made the query. -/
inductive QueryMessage where
  | columns (names : List String)
  | row (row : Row)
  | complete
deriving DecidableEq, Repr

def QueryMessage.row? : QueryMessage → Option Row
  | .row own => some own
  | _ => none

def collectRows (messages : List QueryMessage) : List Row :=
  messages.filterMap QueryMessage.row?

/-- What a connection to a server does with a text and with the reply to it. -/
structure Client where
  /-- Whether the text can be put on the wire at all. -/
  encodes : String → Bool
  receive : Reply → Except QueryFault (List QueryMessage)

namespace Client

/-- What is handed on of a reply, given the latest column names so far. A row needs one value for each column, and the
    first failure decides. -/
def messagesAfter : Option (List String) → Reply → Except QueryFault (List QueryMessage)
  | _, [] => .ok []
  | _, .columns names :: rest => (messagesAfter (some names) rest).map (.columns names :: ·)
  | some names, .row values :: rest =>
    if values.length = names.length then (messagesAfter (some names) rest).map (.row ⟨names, values⟩ :: ·)
    else .error .rowMisfit
  | none, .row _ :: _ => .error .rowBeforeColumns
  | _, .error :: _ => .error .refused
  | names, .complete :: rest => (messagesAfter names rest).map (.complete :: ·)
  | names, .emptyQuery :: rest => (messagesAfter names rest).map (.complete :: ·)
  | names, .notice :: rest => messagesAfter names rest

/-- Texts end at a NUL on the wire, so one that holds a NUL cannot be sent. -/
def standard : Client where
  encodes text := !text.toList.contains '\x00'
  receive := messagesAfter none

end Client

end SqlSelect
