import BlockSketch.Main
import BlockSketch.Service.Launch
import BlockSketch.Proofs.Gate
import BlockSketch.Proofs.Characters
import BlockSketch.Proofs.Repeats
import BlockSketch.Proofs.Tokens
import BlockSketch.Proofs.Sentences
import BlockSketch.Proofs.Keywords
import BlockSketch.Proofs.Templates
import BlockSketch.Proofs.Written
import BlockSketch.Proofs.Shapes
import BlockSketch.Proofs.Effects
import BlockSketch.Proofs.Readback
import BlockSketch.Proofs.Forest
import BlockSketch.Proofs.Wording
import BlockSketch.Proofs.Bodies
import BlockSketch.Proofs.Emitters
import BlockSketch.Proofs.Reports
import BlockSketch.Proofs.Reordering
import BlockSketch.Proofs.Comparison
import BlockSketch.Proofs.PinModes
import BlockSketch.Proofs.Records
import BlockSketch.Proofs.Saving
import BlockSketch.Proofs.Numerals
import BlockSketch.Proofs.Generation
import BlockSketch.Proofs.Refusals
import BlockSketch.Proofs.PinNames
import BlockSketch.Proofs.Comments
import BlockSketch.Proofs.Exports
import BlockSketch.Proofs.Places
import BlockSketch.Proofs.Blocking
import BlockSketch.Proofs.Commands
import BlockSketch.Proofs.Sending
import BlockSketch.Proofs.Halves
import BlockSketch.Proofs.LowerCase
import BlockSketch.Proofs.Bearers
import BlockSketch.Proofs.Responses
import BlockSketch.Proofs.Strangers
import BlockSketch.Proofs.SketchAnswers
import BlockSketch.Proofs.Requests
import BlockSketch.Proofs.Drafts
import BlockSketch.Proofs.Paths
import BlockSketch.Proofs.Overwriting
import BlockSketch.Proofs.SettingsFiles
import BlockSketch.Proofs.SettingsFaults
import BlockSketch.Proofs.Blame
import BlockSketch.Proofs.Composition
import BlockSketch.Proofs.Captures
import BlockSketch.Proofs.Servos
import BlockSketch.Proofs.Literals
import BlockSketch.Proofs.Declarations
import BlockSketch.Proofs.Identifiers
import BlockSketch.Proofs.Outlines
import BlockSketch.Proofs.Nesting
import BlockSketch.Proofs.Renderings
import BlockSketch.Proofs.PinLists
import BlockSketch.Proofs.Merging
import BlockSketch.Proofs.Bytes
import BlockSketch.Proofs.Stops
import BlockSketch.Proofs.Loading
import BlockSketch.Proofs.ComponentIds
import BlockSketch.Proofs.Exporters
import BlockSketch.Proofs.Traces
import BlockSketch.Proofs.LetterCase
import BlockSketch.Proofs.Occurrences
import BlockSketch.Proofs.Leftmost
import BlockSketch.Proofs.DigitRuns
import BlockSketch.Proofs.Rounding
import BlockSketch.Proofs.Stamps
import BlockSketch.Proofs.ExportPaths
