import Promptline.Main
import Promptline.Proofs.Indent.Balance
import Promptline.Proofs.Display.Shown
import Promptline.Proofs.Indent.Grammar
import Promptline.Proofs.Session.Freshness
import Promptline.Proofs.Terminal.Screen
import Promptline.Proofs.Terminal.Raw
import Promptline.Proofs.Buffer.Characters
import Promptline.Proofs.Session.Characters
import Promptline.Proofs.Session.Drawing
import Promptline.Proofs.Session.Cursor
import Promptline.Proofs.History.Submissions
import Promptline.Proofs.Session.Browsing
import Promptline.Proofs.Session.Recall
import Promptline.Proofs.Session.Coupling
import Promptline.Proofs.Session.Timing
import Promptline.Proofs.Session.Presses
import Promptline.Proofs.Session.Accounting
import Promptline.Proofs.Session.Retry
import Promptline.Proofs.Indent.Tokens
import Promptline.Proofs.Buffer.Reindent
import Promptline.Proofs.Session.Typing
import Promptline.Proofs.Session.FailedDrawing
import Promptline.Proofs.Display.Restyling
import Promptline.Proofs.Session.Restyling
import Promptline.Proofs.Session.Awaiting
import Promptline.Proofs.Session.Delivery
import Promptline.Proofs.Session.FreshPrompt
import Promptline.Proofs.Display.Rows
import Promptline.Proofs.Session.Window
import Promptline.Proofs.Session.LineBreaks
import Promptline.Proofs.Buffer.Boundary
import Promptline.Proofs.Text.Offsets
import Promptline.Proofs.Indent.Offsets
import Promptline.Proofs.Buffer.Offsets
import Promptline.Proofs.Buffer.Unfailing
import Promptline.Proofs.Session.Clipping
import Promptline.Proofs.Session.Repainting
import Promptline.Proofs.Indent.Closers
import Promptline.Proofs.Buffer.Agreement
import Promptline.Proofs.Buffer.LineAt
import Promptline.Proofs.Buffer.Columns
import Promptline.Proofs.History.Representation
import Promptline.Proofs.Indent.Matches
import Promptline.Proofs.Indent.Longest
import Promptline.Proofs.Indent.Passes
import Promptline.Proofs.Indent.Literals
import Promptline.Proofs.Buffer.Views
import Promptline.Proofs.Session.LineKeys
