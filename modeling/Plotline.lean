import Plotline.Main
import Plotline.Proofs.Session
import Plotline.Proofs.Digraph
import Plotline.Proofs.Layers
import Plotline.Proofs.Route.Net
import Plotline.Proofs.Route.Finds
import Plotline.Proofs.Route.Listing
import Plotline.Proofs.Route.Loops
import Plotline.Proofs.Route.Graph
import Plotline.Proofs.Script.Columns
import Plotline.Proofs.Story.References
import Plotline.Proofs.Route.Kept
import Plotline.Proofs.Route.Projection
import Plotline.Proofs.Route.DeadEnds
import Plotline.Proofs.Route.LinkSets
import Plotline.Proofs.Route.Order
import Plotline.Proofs.Story.Ignored
import Plotline.Proofs.Story.Parts
import Plotline.Proofs.Story.Partition
import Plotline.Proofs.Story.Tags
import Plotline.Proofs.Placement
import Plotline.Proofs.Story.Outcomes
import Plotline.Proofs.Script.Margin
import Plotline.Proofs.Script.Calls
import Plotline.Proofs.Script.Arguments
import Plotline.Proofs.Script.Comments
import Plotline.Proofs.Strict.Project
import Plotline.Proofs.Script.Scan
import Plotline.Proofs.Script.Lines
import Plotline.Proofs.Story.LabelTable
import Plotline.Proofs.Story.UseSites
import Plotline.Proofs.Diagram.Routes
import Plotline.Proofs.Route.Cap
import Plotline.Proofs.Story.Words
import Plotline.Proofs.Diagram.Statements
import Plotline.Proofs.Diagram.Labels
import Plotline.Proofs.Palette
import Plotline.Proofs.Diagram.Identifiers
import Plotline.Proofs.Route.Backtracking
import Plotline.Proofs.Files.Scripts
import Plotline.Proofs.Log.Entries
import Plotline.Proofs.Log.Handlers
