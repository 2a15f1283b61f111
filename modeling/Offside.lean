import Offside.Layout
import Offside.Lex.Document
import Offside.Lex.Walk
import Offside.Main
import Offside.Proofs.Acceptable
import Offside.Proofs.BlankLines
import Offside.Proofs.Boundary
import Offside.Proofs.CheckedEdit
import Offside.Proofs.Checkpoints
import Offside.Proofs.Coverage
import Offside.Proofs.Discipline
import Offside.Proofs.Editing
import Offside.Proofs.Flush
import Offside.Proofs.Leaves
import Offside.Proofs.Levels
import Offside.Proofs.LineBodies
import Offside.Proofs.LineBreaks
import Offside.Proofs.LineByLine
import Offside.Proofs.LineContent
import Offside.Proofs.LineEnds
import Offside.Proofs.LineFlags
import Offside.Proofs.LineStarts
import Offside.Proofs.Listings
import Offside.Proofs.Locality
import Offside.Proofs.LongestMatch
import Offside.Proofs.Precedence
import Offside.Proofs.Progress
import Offside.Proofs.Reading
import Offside.Proofs.Refusals
import Offside.Proofs.Relexing
import Offside.Proofs.Resume
import Offside.Proofs.Returns
import Offside.Proofs.Reuse
import Offside.Proofs.Snapshots
import Offside.Proofs.Stride
import Offside.Proofs.Terminators
import Offside.Proofs.TokenRanges
import Offside.Proofs.Translation
import Offside.Proofs.Turns
import Offside.Proofs.Walking
import Offside.Sample
import Offside.Settings.Document
import Offside.Token.Line
