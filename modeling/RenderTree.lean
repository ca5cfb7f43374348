import RenderTree.Resolve
import RenderTree.Usage
import RenderTree.Text.LowerCase
import RenderTree.Decimal.Shortest
import RenderTree.Main
import RenderTree.Source.Tree
import RenderTree.Source.Parse
import RenderTree.Proofs.Tree.Branch
import RenderTree.Proofs.Tree.Map
import RenderTree.Proofs.Tree.Lineage
import RenderTree.Proofs.Tree.Preorder
import RenderTree.Proofs.Disk.Content
import RenderTree.Proofs.Disk.Segment
import RenderTree.Proofs.Disk.Written
import RenderTree.Proofs.Disk.Canonical
import RenderTree.Proofs.Source.Leaves
import RenderTree.Proofs.Usage.FirstBinding
import RenderTree.Proofs.Usage.Tags
import RenderTree.Proofs.Display.Present
import RenderTree.Proofs.Display.Position
import RenderTree.Proofs.Display.Drawing
import RenderTree.Proofs.Display.Reading
import RenderTree.Proofs.Walk.Exit
import RenderTree.Proofs.Walk.Way
import RenderTree.Proofs.Walk.Session
import RenderTree.Proofs.Walk.Termination
import RenderTree.Proofs.Walk.Cycle
import RenderTree.Proofs.Walk.Errors
import RenderTree.Proofs.Walk.ScanDepth
import RenderTree.Proofs.Walk.WellFormed
import RenderTree.Proofs.Walk.Hidden
import RenderTree.Proofs.Display.Count
import RenderTree.Proofs.Report.Writing
import RenderTree.Proofs.Report.AllOrNothing
import RenderTree.Proofs.Program.Run
import RenderTree.Proofs.Text.Utf8
import RenderTree.Proofs.Json.LongNumber
import RenderTree.Proofs.Settings.Load
import RenderTree.Proofs.Walk.Isolation
import RenderTree.Proofs.Walk.Visit
import RenderTree.Proofs.Walk.Compose
import RenderTree.Proofs.Walk.ModuleDir
import RenderTree.Proofs.Walk.Failures
import RenderTree.Proofs.Walk.Imported
import RenderTree.Proofs.Usage.FirstUse
import RenderTree.Proofs.Path.Absolute
import RenderTree.Proofs.Walk.RootFile
import RenderTree.Proofs.Json.RoundTrip
import RenderTree.Proofs.Report.Lossless
import RenderTree.Proofs.Display.Order
import RenderTree.Proofs.Display.Standing
import RenderTree.Proofs.Display.Rearranged
import RenderTree.Proofs.Path.Extension
import RenderTree.Proofs.Text.LetterCase
import RenderTree.Proofs.Path.Candidates
import RenderTree.Proofs.Path.Name
import RenderTree.Proofs.Disk.Search
import RenderTree.Proofs.Usage.WrappedExport
import RenderTree.Proofs.Usage.Assets
import RenderTree.Proofs.Source.Tokens
import RenderTree.Proofs.Source.Faults
import RenderTree.Proofs.Display.Labels
import RenderTree.Proofs.Disk.RealPath
import RenderTree.Proofs.Settings.Check
import RenderTree.Proofs.Settings.Merge
import RenderTree.Proofs.Settings.Options
