import Cairn.Cause
import Cairn.CommandLine
import Cairn.Core.Library
import Cairn.Core.Words
import Cairn.Display
import Cairn.Fault
import Cairn.Json.Basic
import Cairn.Json.Parser
import Cairn.Json.Problem
import Cairn.Machine.Basic
import Cairn.Machine.Evaluation
import Cairn.Main
import Cairn.Number.Arithmetic
import Cairn.Number.Binary
import Cairn.Number.Decimal
import Cairn.Number.Numeral
import Cairn.Number.Power
import Cairn.Number.Shortest
import Cairn.Number.Text
import Cairn.Plugin.Basic
import Cairn.Plugin.Export
import Cairn.Plugin.Loading
import Cairn.Plugin.Module
import Cairn.Plugin.Package
import Cairn.PointReading
import Cairn.Prompt
import Cairn.Prompt.Editor
import Cairn.Prompt.Keys
import Cairn.Reading
import Cairn.Routine
import Cairn.Settings
import Cairn.Table
import Cairn.Text.Blank
import Cairn.Text.Columns
import Cairn.Text.Literal
import Cairn.Text.Pieces
import Cairn.Text.Points
import Cairn.Text.Quoted
import Cairn.Text.Units
import Cairn.Value.Basic
import Cairn.Value.Json
import Cairn.Value.Printer
import Cairn.World
import Cairn.Proofs.Doubles
import Cairn.Proofs.Rounding
import Cairn.Proofs.Lexemes
import Cairn.Proofs.Numerals
import Cairn.Proofs.Adequacy
import Cairn.Proofs.CompletedTokens
import Cairn.Proofs.Resolution
import Cairn.Proofs.Pushdown
import Cairn.Proofs.ClosedPrefixes
import Cairn.Proofs.DirectRoutines
import Cairn.Proofs.LanguageErrors
import Cairn.Proofs.DeeperStacks
import Cairn.Proofs.Documents
import Cairn.Proofs.CommandRuns
import Cairn.Proofs.MachineText
import Cairn.Proofs.BlindRoutines
import Cairn.Proofs.Untraced
import Cairn.Proofs.Inlining
import Cairn.Proofs.Calling
import Cairn.Proofs.Tracing
import Cairn.Proofs.Disciplines
import Cairn.Proofs.UnreadLines
import Cairn.Proofs.DisciplinedRuns
import Cairn.Proofs.CallChains
import Cairn.Proofs.ShownCode
import Cairn.Proofs.ArgumentRoles
import Cairn.Proofs.OperatorSymbols
import Cairn.Proofs.Enumeration
import Cairn.Proofs.PluginShapes
import Cairn.Proofs.PluginFailures
import Cairn.Proofs.PluginTables
import Cairn.Proofs.FrontEnds
import Cairn.Proofs.Arguments
import Cairn.Proofs.WholeNumbers
import Cairn.Proofs.Loops
import Cairn.Proofs.StackEffects
import Cairn.Proofs.ExitCodes
import Cairn.Proofs.OpenEnds
import Cairn.Proofs.MoreOperators
import Cairn.Proofs.NumeralGrammar
import Cairn.Proofs.PointReading
import Cairn.Proofs.ClosedTexts
import Cairn.Proofs.HumanLayout
import Cairn.Proofs.SignedZeros
import Cairn.Proofs.Equality
import Cairn.Proofs.ErrorOffsets
import Cairn.Proofs.LineBreaks
import Cairn.Proofs.PrintedNumbers
import Cairn.Proofs.DepthAddressing
import Cairn.Proofs.TextOrder
import Cairn.Proofs.Completion
import Cairn.Proofs.FunctionList
import Cairn.Proofs.SettingsFiles
