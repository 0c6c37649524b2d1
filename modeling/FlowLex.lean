import FlowLex.NameIndex
import FlowLex.Program
import FlowLex.Main
import FlowLex.Proofs.Text.Lines
import FlowLex.Proofs.Text.Trim
import FlowLex.Proofs.Text.Marker
import FlowLex.Proofs.Scan
import FlowLex.Proofs.Code
import FlowLex.Proofs.Numbering
import FlowLex.Proofs.NameIndex
import FlowLex.Proofs.Acceptance
import FlowLex.Proofs.Classification
import FlowLex.Proofs.RuleOrder
import FlowLex.Proofs.Reading
import FlowLex.Proofs.Caret
import FlowLex.Proofs.Grammar
import FlowLex.Proofs.FirstOccurrence
import FlowLex.Proofs.Respelling
import FlowLex.Proofs.Progress
import FlowLex.Proofs.Accounting
import FlowLex.Proofs.Joining
import FlowLex.Proofs.CommentRegion
import FlowLex.Proofs.CommentText
import FlowLex.Proofs.Insertion
import FlowLex.Proofs.Padding
import FlowLex.Proofs.Locality
import FlowLex.Proofs.Reuse
import FlowLex.Proofs.Decomposition
import FlowLex.Proofs.Respacing
import FlowLex.Proofs.Cause
import FlowLex.Proofs.FirstRejection
import FlowLex.Proofs.Renaming
import FlowLex.Proofs.Summary
import FlowLex.Proofs.TextOutput
import FlowLex.Proofs.LiteralContent
import FlowLex.Proofs.CleanCode
import FlowLex.Proofs.Rendering
import FlowLex.Proofs.Text.Utf16
import FlowLex.Proofs.Json.Grammar
import FlowLex.Proofs.Json.Reading
import FlowLex.Proofs.Json.Unambiguous
import FlowLex.Proofs.Json.Written
import FlowLex.Proofs.JsonOutput
import FlowLex.Proofs.Json.Skipping
import FlowLex.Proofs.SettingsFile
import FlowLex.Proofs.Precedence
