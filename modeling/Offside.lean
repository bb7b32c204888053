import Offside.Artifacts.ByContent
import Offside.Artifacts.ByTime
import Offside.Artifacts.Error
import Offside.Calculator
import Offside.CommandLine.Arguments
import Offside.CommandLine.Command
import Offside.CommandLine.Run
import Offside.Decimal.Binary
import Offside.Decimal.Shortest
import Offside.Decimal.Written
import Offside.Digest.Sha256
import Offside.Files.Path
import Offside.Files.Store
import Offside.Host.Attributes
import Offside.Host.Expression
import Offside.Host.ExpressionReader
import Offside.Host.Function
import Offside.Host.Page
import Offside.Host.Value
import Offside.Indent
import Offside.Json.Basic
import Offside.Json.Reader
import Offside.Lines
import Offside.Main
import Offside.Markdown.Block
import Offside.Markdown.Inline
import Offside.Outline.Basic
import Offside.Outline.Builder
import Offside.Proofs.Balance
import Offside.Proofs.ElementParts
import Offside.Proofs.ElementTags
import Offside.Proofs.EnclosingCode
import Offside.Proofs.Formula
import Offside.Proofs.Indentation
import Offside.Proofs.KeptStyles
import Offside.Proofs.Layout
import Offside.Proofs.LineScan
import Offside.Proofs.LineUse
import Offside.Proofs.Marks
import Offside.Proofs.Operand
import Offside.Proofs.OutlineShape
import Offside.Proofs.OutlineWalk
import Offside.Proofs.ReadBack
import Offside.Proofs.StyleKey
import Offside.Proofs.Tags
import Offside.Proofs.Text
import Offside.Proofs.WellNested
import Offside.Quantity.Arithmetic
import Offside.Quantity.Basic
import Offside.Quantity.Color
import Offside.Registry
import Offside.Settings.Basic
import Offside.Settings.Field
import Offside.Settings.Layers
import Offside.Stylesheet.Builder
import Offside.Stylesheet.Compiler
import Offside.Stylesheet.Line
import Offside.Stylesheet.Render
import Offside.Stylesheet.Rule
import Offside.Table
import Offside.Template.Blocks
import Offside.Template.Code
import Offside.Template.Description
import Offside.Template.Doctype
import Offside.Template.Element
import Offside.Template.Engine
import Offside.Template.Error
import Offside.Template.Head
import Offside.Template.Line
import Offside.Template.Literal
import Offside.Template.Node
import Offside.Template.Options
import Offside.Template.Source
import Offside.Text.Basic
import Offside.Text.Blank
import Offside.Text.Case
import Offside.Text.Digit
import Offside.Text.Hex
import Offside.Text.Quoted
import Offside.Text.Utf8
import Offside.Text.Word
import Offside.Toml.Reader
import Offside.Toml.Table
import Offside.Yaml.Flow
import Offside.Yaml.Reader
import Offside.Yaml.Scalar
import Offside.Proofs.Includes
import Offside.Proofs.AttributePlacement
import Offside.Proofs.AttributeLevels
import Offside.Proofs.DebugLines
import Offside.Proofs.MarkedLines
import Offside.Proofs.DebugOutline
import Offside.Proofs.RenderedRules
import Offside.Proofs.Paths
import Offside.Proofs.Places
import Offside.Proofs.SoundStores
import Offside.Proofs.ArtifactPaths
import Offside.Proofs.ClearedArtifacts
import Offside.Proofs.ClearedDirectories
import Offside.Proofs.FreshCode
import Offside.Proofs.SpelledLevels
import Offside.Proofs.StyleRuns
import Offside.Proofs.StaticElements
import Offside.Proofs.StaticMarkup
import Offside.Proofs.HostPrograms
import Offside.Proofs.IncludeDepth
import Offside.Proofs.WrittenNumbers
import Offside.Proofs.Weights
import Offside.Proofs.Termination
import Offside.Proofs.QuotedSums
import Offside.Proofs.Substitution
import Offside.Proofs.Mixtures
import Offside.Proofs.SettledTexts
import Offside.Proofs.SelectorProducts
import Offside.Proofs.ElementHeads
import Offside.Proofs.OptionGroups
import Offside.Proofs.QuotedOptions
import Offside.Proofs.PushedLines
import Offside.Proofs.LineForms
import Offside.Proofs.QuotedLiterals
import Offside.Proofs.StrippedLevels
import Offside.Proofs.IdleLines
import Offside.Proofs.WrappedLines
import Offside.Proofs.Patterns
import Offside.Proofs.SiblingPlaces
