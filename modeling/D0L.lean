import D0L.Main
import D0L.Proofs.Tally
import D0L.Proofs.DepthFirst
import D0L.Proofs.LengthLimit
import D0L.Proofs.ReportRows
import D0L.Proofs.Dialogue.Lines
import D0L.Proofs.Dialogue.Turns
import D0L.Proofs.Dialogue.Script
import D0L.Proofs.Json.Strings
import D0L.Proofs.Json.Reads
import D0L.Proofs.Json.Objects
import D0L.Proofs.Documents
import D0L.Proofs.Binary64.Rounding
import D0L.Proofs.Binary64.Shortest
import D0L.Proofs.Json.Literals
import D0L.Proofs.Json.Numbers
import D0L.Proofs.SavedGrammar
import D0L.Proofs.Binary64.Nearest
import D0L.Proofs.Binary64.Roundings
import D0L.Proofs.Binary64.Grids
import D0L.Proofs.Json.Scaling
import D0L.Proofs.Json.Rereading
import D0L.Proofs.ReloadedAngle
import D0L.Proofs.KeptSymbols
import D0L.Proofs.Json.CutNumbers
import D0L.Proofs.CutFiles
import D0L.Proofs.Definitions
import D0L.Proofs.Json.Following
import D0L.Proofs.Json.Spellings
import D0L.Proofs.CollectedRules
import D0L.Proofs.SpelledGrammars
import D0L.Proofs.EnteredRules
import D0L.Proofs.EffectiveRules
import D0L.Proofs.Command.Effects
import D0L.Proofs.Command.Options
import D0L.Proofs.Dialogue.Typed
import D0L.Proofs.Command.SavedSources
import D0L.Proofs.Command.FrontEnds
import D0L.Proofs.Histories
import D0L.Proofs.Walks
import D0L.Proofs.LastDefinitions
import D0L.Proofs.Marks
import D0L.Proofs.Nesting
import D0L.Proofs.Growth
import D0L.Proofs.Rearrangements
import D0L.Proofs.Standstill
import D0L.Proofs.Dialogue.LineEnds
import D0L.Proofs.QuotedText
import D0L.Proofs.Dialogue.Echoes
import D0L.Proofs.Layouts
import D0L.Proofs.Json.SpelledNumbers
import D0L.Proofs.PresetGrowth
import D0L.Proofs.Json.PassedValues
import D0L.Proofs.ArrangedGrammars
