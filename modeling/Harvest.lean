import Harvest.Catalog
import Harvest.Command.Arguments
import Harvest.Command.Run
import Harvest.Config.Basic
import Harvest.Config.Load
import Harvest.Main
import Harvest.Message.Extract
import Harvest.Run
import Harvest.Source.Load
import Harvest.TypeScript.Grammar
import Harvest.Proofs.FileSystem.Change
import Harvest.Proofs.FileSystem.Locate
import Harvest.Proofs.Run.AllOrNothing
import Harvest.Proofs.Message.CallOrder
import Harvest.Proofs.Message.Visit
import Harvest.Proofs.Xml.Escape
import Harvest.Proofs.Xml.Reader
import Harvest.Proofs.Xml.RoundTrip
import Harvest.Proofs.Catalog.RoundTrip
import Harvest.Proofs.Parallel
import Harvest.Proofs.Source.ImportTable
import Harvest.Proofs.Run.Schedule
import Harvest.Proofs.Text.ByteOrder
import Harvest.Proofs.FileSystem.Walk
import Harvest.Proofs.Source.Scan
import Harvest.Proofs.Run.PerFile
import Harvest.Proofs.Message.Fault
import Harvest.Proofs.Run.Obstacle
import Harvest.Proofs.Run.Again
import Harvest.Proofs.Xml.Characters
import Harvest.Proofs.Xml.Normalize
import Harvest.Proofs.Catalog.Conformance
import Harvest.Proofs.Command.History
import Harvest.Proofs.Path.Parent
import Harvest.Proofs.Command.DefaultConfig
import Harvest.Proofs.Command.WorkingDirectory
import Harvest.Proofs.Message.FirstFault
import Harvest.Proofs.Run.Relocation
import Harvest.Proofs.Source.Verbatim
import Harvest.Proofs.Run.Functions
import Harvest.Proofs.Run.Ignored
import Harvest.Proofs.Message.Identity
import Harvest.Proofs.Message.Shift
import Harvest.Proofs.Xml.Layout
import Harvest.Proofs.Source.Offset
import Harvest.Proofs.Config.Search
import Harvest.Proofs.Command.Override
import Harvest.Proofs.Run.FileNames
import Harvest.Proofs.Command.Patterns
