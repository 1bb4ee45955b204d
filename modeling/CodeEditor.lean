import CodeEditor.Main
import CodeEditor.Comment
import CodeEditor.Cleanup
import CodeEditor.Timer
import CodeEditor.Prompt
import CodeEditor.Cursor
import CodeEditor.Config.Basic
import CodeEditor.Indent.Reindent
import CodeEditor.Indent.Inference
import CodeEditor.Classifier
import CodeEditor.Search
import CodeEditor.Proofs.Session.Ink
import CodeEditor.Proofs.Session.Enter
import CodeEditor.Proofs.Scan.Braces
import CodeEditor.Proofs.Session.BracePairs
import CodeEditor.Proofs.Pattern.Literal
import CodeEditor.Proofs.Pattern.Matches
import CodeEditor.Proofs.Search.ReplaceAll
import CodeEditor.Proofs.Search.OneByOne
import CodeEditor.Proofs.Session.Tab
import CodeEditor.Proofs.Buffer.Comments
import CodeEditor.Proofs.Indent.CalmLines
import CodeEditor.Proofs.Outline.Inference
import CodeEditor.Proofs.Scan.Pieces
import CodeEditor.Proofs.Indent.LineShape
import CodeEditor.Proofs.Keys.EnterPlan
import CodeEditor.Proofs.Buffer.Cursor
import CodeEditor.Proofs.Session.Typing
import CodeEditor.Proofs.Session.Unindent
import CodeEditor.Proofs.Outline.Typing
import CodeEditor.Proofs.Buffer.Normal
import CodeEditor.Proofs.Session.Classification
import CodeEditor.Proofs.Indent.Reindent
import CodeEditor.Proofs.Session.Saving
import CodeEditor.Proofs.Indent.Idempotence
import CodeEditor.Proofs.Indent.RowByRow
import CodeEditor.Proofs.Outline.Reindent
import CodeEditor.Proofs.Terminal.Run
import CodeEditor.Proofs.Terminal.Unsaved
import CodeEditor.Proofs.Terminal.BracePair
import CodeEditor.Proofs.Pattern.Steady
import CodeEditor.Proofs.Pattern.SteadyBracket
import CodeEditor.Proofs.Classifier.Rules
import CodeEditor.Proofs.Classifier.Lexer
import CodeEditor.Proofs.Classifier.Ends
import CodeEditor.Proofs.Session.Alignment
import CodeEditor.Proofs.Session.NewLine
import CodeEditor.Proofs.Session.Shortcuts
import CodeEditor.Proofs.Indent.PlainLines
import CodeEditor.Proofs.Search.Naive
import CodeEditor.Proofs.Keys.SelectedLines
import CodeEditor.Proofs.Session.Paragraphs
import CodeEditor.Proofs.Indent.Rebase
import CodeEditor.Proofs.Buffer.Marks
import CodeEditor.Proofs.Text.Positions
import CodeEditor.Proofs.Buffer.Cleanup
import CodeEditor.Proofs.Session.Places
import CodeEditor.Proofs.Session.Idle
import CodeEditor.Proofs.Prompt
import CodeEditor.Proofs.Indent.LeadingBlanks
import CodeEditor.Proofs.Session.Reopening
import CodeEditor.Proofs.Indent.LineGrammar
import CodeEditor.Proofs.Session.Words
import CodeEditor.Proofs.Session.LineStops
import CodeEditor.Proofs.Scan.SpanTable
