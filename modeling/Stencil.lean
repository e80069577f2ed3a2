import Stencil.Condition.Eval
import Stencil.Filter.Apply
import Stencil.Template.Compile
import Stencil.Render.Engine
import Stencil.Render.Files
import Stencil.Template.Names
import Stencil.Value.Json.Printer
import Stencil.Value.Json.Reader
import Stencil.Value.Number
import Stencil.Value.Path
import Stencil.Proofs.BlockParser
import Stencil.Proofs.BodyText
import Stencil.Proofs.ConditionGrammar
import Stencil.Proofs.ConditionParser
import Stencil.Proofs.Fields
import Stencil.Proofs.Lookup
import Stencil.Proofs.ActionTree
import Stencil.Proofs.NonInterference
import Stencil.Proofs.Tiling
import Stencil.Proofs.LineBreaks
import Stencil.Proofs.Composition
import Stencil.Proofs.Events
import Stencil.Proofs.Depth
import Stencil.Proofs.Literals
import Stencil.Proofs.Paths
import Stencil.Proofs.History
import Stencil.Proofs.Faults
import Stencil.Proofs.Inclusion
import Stencil.Proofs.IntegerArithmetic
import Stencil.Proofs.ComparisonChain
import Stencil.Proofs.ComparisonOrder
import Stencil.Proofs.FloorDivision
import Stencil.Proofs.IntegerComparison
import Stencil.Proofs.TokenGrammar
import Stencil.Proofs.QuoteCheck
import Stencil.Proofs.Concatenation
import Stencil.Proofs.Spellings
import Stencil.Proofs.Blocks
import Stencil.Proofs.Loops
import Stencil.Proofs.Branches
import Stencil.Proofs.FilterBlocks
import Stencil.Proofs.Slicing
import Stencil.Proofs.StableOrder
import Stencil.Proofs.SortKeys
import Stencil.Proofs.Sorting
import Stencil.Proofs.SortedComparison
import Stencil.Proofs.Escaping
import Stencil.Proofs.ScriptText
import Stencil.Proofs.PercentEncoding
import Stencil.Proofs.ScriptElement
import Stencil.Proofs.FieldSearch
import Stencil.Proofs.TagRemoval
import Stencil.Proofs.HtmlTruncation
import Stencil.Proofs.FittingLines
import Stencil.Proofs.NumberWidth
import Stencil.Proofs.LineNumbers
import Stencil.Proofs.Counters
import Stencil.Proofs.DecimalPlaces
import Stencil.Proofs.FormatSpec
import Stencil.Proofs.RadixDigits
import Stencil.Proofs.FillBounds
import Stencil.Proofs.IntegerConversion
import Stencil.Proofs.Divisibility
import Stencil.Proofs.DigitPlaces
import Stencil.Proofs.Slugs
import Stencil.Proofs.DateFormats
import Stencil.Proofs.ElapsedTime
import Stencil.Proofs.JoinedPaths
import Stencil.Proofs.WordSplit
import Stencil.Proofs.Assembly
