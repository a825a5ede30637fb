import StyledText.Settings.Session
import StyledText.Intercept.Trace
import StyledText.Intercept.Desk
import StyledText.Format
import StyledText.Proofs.Markup.Content
import StyledText.Proofs.Canvas.Growth
import StyledText.Proofs.Flow.Element
import StyledText.Proofs.Intercept.Sound
import StyledText.Proofs.Intercept.Element
import StyledText.Proofs.Draft
import StyledText.Proofs.Nesting
import StyledText.Proofs.Buffer.View
import StyledText.Proofs.Buffer.Cells
import StyledText.Proofs.Buffer.Copies
import StyledText.Proofs.Buffer.Shelf
import StyledText.Proofs.Table.Enclosed
import StyledText.Proofs.Flow.Text
import StyledText.Proofs.Table.Leak
import StyledText.Proofs.Table.Capture
import StyledText.Proofs.Intercept.Desk
import StyledText.Proofs.Flow.Indexed
import StyledText.Proofs.Safety
import StyledText.Proofs.Intercept.Markers
import StyledText.Proofs.Table.Tokens
import StyledText.Proofs.Crossing
import StyledText.Proofs.Canvas.Edit
import StyledText.Proofs.Formatted
import StyledText.Proofs.Table.Surroundings
import StyledText.Proofs.Table.Before
import StyledText.Proofs.Table.Recorded
import StyledText.Proofs.Markup.Reading
import StyledText.Proofs.Markup.StartTag
import StyledText.Proofs.Spacing
import StyledText.Proofs.Markup.Rename
import StyledText.Proofs.Escape
import StyledText.Proofs.Markup.Reserved
import StyledText.Proofs.Markup.Inert
import StyledText.Proofs.Table.ReadBack
import StyledText.Proofs.Intercept.Routing
import StyledText.Proofs.Lines
import StyledText.Proofs.Lists.Numbering
import StyledText.Proofs.Lists.Indentation
import StyledText.Proofs.Intercept.Unmatched
import StyledText.Proofs.Table.Characters
import StyledText.Proofs.Lists.Tally
import StyledText.Proofs.BlankLines
import StyledText.Proofs.Markup.OnePass
import StyledText.Proofs.Settings.Indent
import StyledText.Proofs.Settings.Session
import StyledText.Proofs.Markup.Body
import StyledText.Proofs.Image.Lookup
import StyledText.Proofs.Order
import StyledText.Proofs.Markup.Numeral
import StyledText.Proofs.Markup.Template
import StyledText.Proofs.Markup.Template.StartTag
import StyledText.Proofs.Markup.Template.Construct
import StyledText.Proofs.Markup.Template.Reading
import StyledText.Proofs.Markup.Places
