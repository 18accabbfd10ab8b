import SqlComposer.Params.Query
import SqlComposer.Proofs.Params.Query
import SqlComposer.Proofs.Query.Independence
import SqlComposer.Proofs.Query.Sealing
import SqlComposer.Proofs.Value.Closing
import SqlComposer.Session.Basic
import SqlComposer.Template
import SqlComposer.Proofs.Query.Deletion
import SqlComposer.Proofs.Lexical.Tokens
import SqlComposer.Proofs.Condition.Composition
import SqlComposer.Proofs.Template.Markers
import SqlComposer.Proofs.Template.Filling
import SqlComposer.Proofs.Template.Inertness
import SqlComposer.Proofs.Reference.Reading
import SqlComposer.Proofs.Session.Transcript
import SqlComposer.Proofs.Params.Members
import SqlComposer.Proofs.Params.Parallel
import SqlComposer.Proofs.Params.Reordering
import SqlComposer.Proofs.Params.Shorthand
import SqlComposer.Proofs.Query.RowOrder
import SqlComposer.Proofs.Query.Insertion
import SqlComposer.Proofs.Reference.Quoting
import SqlComposer.Proofs.Query.WrittenColumns
import SqlComposer.Proofs.Condition.Patterns
import SqlComposer.Proofs.Value.Escaping
import SqlComposer.Proofs.Value.Forms
import SqlComposer.Proofs.Value.CalledWords
import SqlComposer.Proofs.Params.Grammar
import SqlComposer.Proofs.Value.Columns
import SqlComposer.Proofs.Reference.Runs
import SqlComposer.Proofs.Params.JoinForms
import SqlComposer.Proofs.Params.Counts
import SqlComposer.Proofs.Row.Writes
import SqlComposer.Proofs.FunctionSet.Decisions
import SqlComposer.Proofs.Query.Interleaving
import SqlComposer.Proofs.Session.Inquiries
import SqlComposer.Proofs.Text.Truncation
import SqlComposer.Proofs.Reference.Stability
import SqlComposer.Proofs.Session.Log
import SqlComposer.Proofs.Query.Pages
import SqlComposer.Proofs.Join.Keywords
