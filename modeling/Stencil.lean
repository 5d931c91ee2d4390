import Stencil.Bundle
import Stencil.Main
import Stencil.Proofs.Result
import Stencil.Proofs.Text.Lines
import Stencil.Proofs.Text.Trim
import Stencil.Proofs.Text.Utf8
import Stencil.Proofs.Expr.Cursor
import Stencil.Proofs.Expr.Grammar
import Stencil.Proofs.Expr.Levels
import Stencil.Proofs.Expr.Soundness
import Stencil.Proofs.Expr.Completeness
import Stencil.Proofs.Token.Lexeme
import Stencil.Proofs.Token.Spacing
import Stencil.Proofs.Expr.Quotation
import Stencil.Proofs.Expr.IntegerText
import Stencil.Proofs.Number.Order
import Stencil.Proofs.Number.Exact
import Stencil.Proofs.Number.Shortest
import Stencil.Proofs.Number.Positional
import Stencil.Proofs.Expr.Comparisons
import Stencil.Proofs.Expr.Containers
import Stencil.Proofs.Template.Lines
import Stencil.Proofs.Template.StandaloneBlock
import Stencil.Proofs.Template.LargerScope
import Stencil.Proofs.Template.Scanner
import Stencil.Proofs.Template.Scan
import Stencil.Proofs.Template.Junctions
import Stencil.Proofs.Template.Layout
import Stencil.Proofs.Template.LineByLine
import Stencil.Proofs.Template.Pairing
import Stencil.Proofs.Template.Residue
import Stencil.Proofs.Template.ReturnPair
import Stencil.Proofs.Checked.Slice
import Stencil.Proofs.Checked.Token
import Stencil.Proofs.Checked.Eval
import Stencil.Proofs.Expr.IntegerArithmetic
import Stencil.Proofs.Checked.Render
import Stencil.Proofs.Config.Cache
import Stencil.Proofs.Config.Format
import Stencil.Proofs.Config.RoundTrip
import Stencil.Proofs.Namespace.Layers
import Stencil.Proofs.Namespace.History
import Stencil.Proofs.Session.Shared
import Stencil.Proofs.Files.Program
import Stencil.Proofs.Files.Paths
import Stencil.Proofs.Files.Walk
import Stencil.Proofs.Files.Designation
import Stencil.Proofs.Files.Subtree
import Stencil.Proofs.Files.Directories
import Stencil.Proofs.Files.Replace
import Stencil.Proofs.Files.Retain
import Stencil.Proofs.Files.Sound
import Stencil.Proofs.Renderer.Copy
import Stencil.Proofs.Renderer.Mirror
import Stencil.Proofs.Renderer.Visit
import Stencil.Proofs.Renderer.Directory
import Stencil.Proofs.Renderer.Sound
import Stencil.Proofs.Renderer.Log
import Stencil.Proofs.Renderer.OwnOutput
import Stencil.Proofs.Renderer.Overlap
import Stencil.Proofs.Expr.Repetition
import Stencil.Proofs.Expr.Positions
import Stencil.Proofs.Value.FloatText
import Stencil.Proofs.Expr.Size
import Stencil.Proofs.Files.Contents
import Stencil.Proofs.Text.LineEndings
import Stencil.Proofs.Text.ReturnPair
import Stencil.Proofs.Renderer.LineEndings
import Stencil.Proofs.Renderer.ReturnPair
import Stencil.Proofs.Renderer.Located
import Stencil.Proofs.Renderer.TwoPaths
import Stencil.Proofs.Files.Parents
import Stencil.Proofs.Renderer.ThroughLink
import Stencil.Proofs.Bundle.Pages
import Stencil.Proofs.Bundle.Parts
import Stencil.Proofs.Bundle.Directory
import Stencil.Proofs.Bundle.Program
