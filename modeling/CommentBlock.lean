import CommentBlock.Comment.Edit
import CommentBlock.Main
import CommentBlock.Text.LineSpan
import CommentBlock.Proofs.Lines
import CommentBlock.Proofs.Trimming
import CommentBlock.Proofs.Readings
import CommentBlock.Proofs.Content
import CommentBlock.Proofs.Parsing
import CommentBlock.Proofs.Block
import CommentBlock.Proofs.RoundTrip
import CommentBlock.Proofs.Replacement
import CommentBlock.Proofs.Errors
import CommentBlock.Proofs.Separation
import CommentBlock.Proofs.Slots
import CommentBlock.Proofs.Joining
import CommentBlock.Proofs.EndMarks
import CommentBlock.Proofs.Shape
import CommentBlock.Proofs.Drafts
import CommentBlock.Proofs.Histories
import CommentBlock.Proofs.LineEnds
import CommentBlock.Proofs.LineParts
import CommentBlock.Proofs.LineSpans
import CommentBlock.Proofs.Layouts
import CommentBlock.Proofs.InsertionOrder
import CommentBlock.Proofs.PrefixCodes
import CommentBlock.Proofs.JsonText
import CommentBlock.Proofs.JsonLayouts
import CommentBlock.Proofs.JsonForm
import CommentBlock.Proofs.Arguments
import CommentBlock.Proofs.Runs
import CommentBlock.Proofs.LineByLine
import CommentBlock.Proofs.Acceptance
import CommentBlock.Proofs.Emptiness
import CommentBlock.Proofs.Boundaries
import CommentBlock.Proofs.DescriptionText
import CommentBlock.Proofs.QuotedText
import CommentBlock.Proofs.Choices
import CommentBlock.Proofs.Messages
import CommentBlock.Proofs.Invocations
