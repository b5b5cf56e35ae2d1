import SqlSelect.Event
import SqlSelect.Server.Client
import SqlSelect.Statement.Basic

namespace SqlSelect

inductive Access where
  /-- Over a connection. A pool makes its connection with the first run; a client has been connected before. -/
  | available (connected : Bool)
  | poolClosed
  /-- Through a pool whose server takes no connections. -/
  | poolRefused
deriving DecidableEq, Repr

/-- What runs statements. -/
inductive Executor where
  /-- Hands every statement back, or fails every time. -/
  | echo (failure : Option Error)
  /-- A server that answers the statements it receives with these replies in order, and after the last one with
      empty results. The client stands between. -/
  | server (access : Access) (replies : List Reply) (client : Client := .standard)

inductive Output where
  | statement (q : Statement)
  | rows (rows : List Row)
deriving DecidableEq, Repr

abbrev Result := Except Error Output

/-- One run of a statement: what came of it, the executor afterwards, the texts that the server received and the
    events reported. -/
structure Run where
  result : Result
  executor : Executor
  sent : List String := []
  events : List Event := []

namespace Executor

/-- Sends a text to a server with these replies left. A text that cannot be sent uses up no reply. -/
def send (client : Client) (replies : List Reply) (text : String) : Run :=
  if !client.encodes text then
    { result := .error (.query .notEncodable), executor := .server (.available true) replies client }
  else
    let executor := .server (.available true) replies.tail client
    match client.receive (replies.headD []) with
    | .ok messages =>
      let rows := collectRows messages
      { result := .ok (.rows rows), executor, sent := [text], events := [.completed rows.length] }
    | .error fault => { result := .error (.query fault), executor, sent := [text] }

def run (executor : Executor) (q : Statement) : Run :=
  match executor with
  | echo none => { result := .ok (.statement q), executor }
  | echo (some failure) => { result := .error failure, executor }
  | server .poolClosed _ _ => { result := .error (.pool .closed), executor }
  | server .poolRefused _ _ => { result := .error (.pool .notConnected), executor }
  | server (.available _) replies client => send client replies q.escaped

/-- Whether a run of the statement has to wait for the server, be it for a connection or for a reply. -/
def waits (executor : Executor) (q : Statement) : Bool :=
  match executor with
  | server (.available connected) _ client => !connected || client.encodes q.escaped
  | server .poolRefused _ _ => true
  | server .poolClosed _ _ => false
  | echo _ => false

def hasServer : Executor → Bool
  | echo _ => false
  | server _ _ _ => true

end Executor

end SqlSelect
