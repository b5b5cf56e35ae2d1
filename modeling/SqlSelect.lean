import SqlSelect.Connection.Pool
import SqlSelect.Proofs.Session.ExactlyOnce
import SqlSelect.Proofs.Session.Noninterference
import SqlSelect.Proofs.Session.Reachable
import SqlSelect.Proofs.Session.Refusal
import SqlSelect.Proofs.Statement.Containment
import SqlSelect.Proofs.Statement.Reading
import SqlSelect.Session.Step
import SqlSelect.Spelling
import SqlSelect.Text.Content
import SqlSelect.Proofs.Builder.Streams
import SqlSelect.Proofs.Server.Delivery
import SqlSelect.Proofs.Session.Exchange
import SqlSelect.Proofs.Session.Twins
import SqlSelect.Proofs.Session.OuterJoins
import SqlSelect.Proofs.Statement.Markers
import SqlSelect.Proofs.Builder.Selection
import SqlSelect.Proofs.Builder.Settling
import SqlSelect.Proofs.Statement.Binding
import SqlSelect.Proofs.Statement.Counting
import SqlSelect.Proofs.Statement.Distinction
import SqlSelect.Proofs.Keyword.Grammar
import SqlSelect.Proofs.Session.Growth
import SqlSelect.Proofs.Statement.Observation
import SqlSelect.Proofs.Text.Truncation
import SqlSelect.Proofs.Literal.Language
import SqlSelect.Proofs.Connection.Login
