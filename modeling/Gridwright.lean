import Gridwright.CommandLine
import Gridwright.Main
import Gridwright.Proofs.Builder.Code
import Gridwright.Proofs.Builder.Named
import Gridwright.Proofs.Builder.Refusal
import Gridwright.Proofs.Classifier.Inside
import Gridwright.Proofs.Classifier.Spacing
import Gridwright.Proofs.Classifier.Stream
import Gridwright.Proofs.Classifier.Table
import Gridwright.Proofs.Classifier.Mentions
import Gridwright.Proofs.Compile.Attributes
import Gridwright.Proofs.Compile.Failure
import Gridwright.Proofs.Compile.Layout
import Gridwright.Proofs.Grid.Finished
import Gridwright.Proofs.Line.Spans
import Gridwright.Proofs.Script.Branches
import Gridwright.Proofs.Script.Lookups
import Gridwright.Proofs.Script.Order
import Gridwright.Proofs.Script.Proxies
import Gridwright.Proofs.Script.Warnings
import Gridwright.Proofs.Script.Whereabouts
import Gridwright.Proofs.Softcode
import Gridwright.Proofs.Classifier.Literals
import Gridwright.Proofs.Script.Calls
import Gridwright.Proofs.Classifier.Descriptions
import Gridwright.Proofs.Script.Echoes
import Gridwright.Proofs.Builder.Addressing
import Gridwright.Proofs.Builder.Redefinitions
import Gridwright.Proofs.Builder.Relinking
import Gridwright.Proofs.Configuration
import Gridwright.Proofs.ExitName.Segments
import Gridwright.Proofs.Script.Defects
import Gridwright.Proofs.Script.Trees
import Gridwright.Proofs.Text.Wrap
