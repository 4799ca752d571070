import FrameExport.Artifacts
import FrameExport.Checked
import FrameExport.CommandLine.Arguments
import FrameExport.CommandLine.Run
import FrameExport.CommandLine.Token
import FrameExport.Decimal.Basic
import FrameExport.Decimal.Numeral
import FrameExport.Decimal.Shortest
import FrameExport.Decimal.Written
import FrameExport.DesignFile
import FrameExport.DocumentCache
import FrameExport.Double.Arithmetic
import FrameExport.Double.Basic
import FrameExport.Event
import FrameExport.Export
import FrameExport.Fault
import FrameExport.Files.FileTree
import FrameExport.Files.Path
import FrameExport.Gateway.Address
import FrameExport.Gateway.Basic
import FrameExport.Gateway.Order
import FrameExport.Job
import FrameExport.Json.Basic
import FrameExport.Json.Literal
import FrameExport.Json.Number
import FrameExport.Json.Reader
import FrameExport.Json.Writer
import FrameExport.Main
import FrameExport.Node.Basic
import FrameExport.Node.Source
import FrameExport.Page.Basic
import FrameExport.Page.Writer
import FrameExport.Paint
import FrameExport.Proofs.Decimal.Digits
import FrameExport.Proofs.Decimal.Written
import FrameExport.Proofs.Double.Shortest
import FrameExport.Proofs.Double.Written
import FrameExport.Proofs.Fallible
import FrameExport.Proofs.Json.Canonical
import FrameExport.Proofs.Json.QuotedText
import FrameExport.Proofs.Json.Reordered
import FrameExport.Proofs.Page.Boxes
import FrameExport.Proofs.Paint.Reordered
import FrameExport.Proofs.Paint.Usable
import FrameExport.Proofs.Rendering.Appearance
import FrameExport.Proofs.Rendering.Emission
import FrameExport.Proofs.Rendering.Failure
import FrameExport.Proofs.Session
import FrameExport.Proofs.Style.Collection
import FrameExport.Proofs.Stylesheet.Rules
import FrameExport.Rendering
import FrameExport.Rounding
import FrameExport.Service.Backoff
import FrameExport.Service.Client
import FrameExport.Session
import FrameExport.Style.Descriptor
import FrameExport.Style.Registry
import FrameExport.Style.Table
import FrameExport.Stylesheet.Basic
import FrameExport.Stylesheet.Declaration
import FrameExport.Text.Blank
import FrameExport.Text.Digit
import FrameExport.Text.Encoding
import FrameExport.Text.Graphic
import FrameExport.Text.SafeName
import FrameExport.Text.Scalar
import FrameExport.Text.Raw
import FrameExport.Text.Utf8
import FrameExport.Tree
import FrameExport.Typography
import FrameExport.Proofs.Markup.Content
import FrameExport.Proofs.Text.Plain
import FrameExport.Proofs.Markup.Escape
import FrameExport.Proofs.Page.Contents
import FrameExport.Proofs.Style.History
import FrameExport.Proofs.Style.Growth
import FrameExport.Proofs.Double.Nearest
import FrameExport.Proofs.Double.ReadBack
import FrameExport.Proofs.Page.Declarations
import FrameExport.Proofs.Page.Outline
import FrameExport.Proofs.Rendering.Tags
import FrameExport.Proofs.Stylesheet.Reader
import FrameExport.Proofs.Stylesheet.ReadBack
import FrameExport.Proofs.Stylesheet.Enclosed
import FrameExport.Proofs.Json.Sorted
import FrameExport.Proofs.Node.Sorted
import FrameExport.Proofs.DesignFile
import FrameExport.Proofs.Style.Sorted
import FrameExport.Proofs.Rendering.Sorted
import FrameExport.Proofs.Json.ReadNumber
import FrameExport.Proofs.Json.ReadValue
import FrameExport.Proofs.Json.ReadBack
import FrameExport.Proofs.MainFrame
import FrameExport.Proofs.Style.Appended
import FrameExport.Proofs.Rendering.Appended
import FrameExport.Proofs.Node.Alike
import FrameExport.Proofs.Rendering.Alike
import FrameExport.Proofs.Json.Indented
import FrameExport.Proofs.Json.Nesting
import FrameExport.Proofs.Json.Truncated
import FrameExport.Proofs.Text.Bytes
import FrameExport.Proofs.Files.Directories
import FrameExport.Proofs.DocumentCache.Entry
import FrameExport.Proofs.DocumentCache.Written
import FrameExport.Proofs.DocumentCache.Interrupted
import FrameExport.Proofs.DocumentCache.History
import FrameExport.Proofs.DocumentCache.SharedNames
import FrameExport.Proofs.Service.Exchange
import FrameExport.Proofs.Service.Retries
import FrameExport.Proofs.Service.Delivered
import FrameExport.Proofs.Double.Exact
import FrameExport.Proofs.Double.Plain
import FrameExport.Proofs.Node.Offsets
import FrameExport.Proofs.Page.Numbers
import FrameExport.Proofs.Rendering.Geometry
import FrameExport.Proofs.Artifacts
import FrameExport.Proofs.DocumentCache.Fetched
import FrameExport.Proofs.Export.Performed
import FrameExport.Proofs.CommandLine.Run
import FrameExport.Proofs.Node.Faults
import FrameExport.Proofs.Node.Kept
import FrameExport.Proofs.Style.Refused
import FrameExport.Proofs.Rendering.TextLook
import FrameExport.Proofs.Stylesheet.StringToken
import FrameExport.Proofs.Paint.Gradient
import FrameExport.Proofs.Decimal.Value
import FrameExport.Proofs.Double.Value
import FrameExport.Proofs.Json.StyledNumber
import FrameExport.Proofs.DocumentCache.FileNames
import FrameExport.Proofs.Double.Monotone
import FrameExport.Proofs.Double.HalfUp
import FrameExport.Proofs.Paint.Channel
import FrameExport.Proofs.CommandLine.Arrangement
import FrameExport.Proofs.Artifacts.Paired
import FrameExport.Proofs.Double.Rounded
