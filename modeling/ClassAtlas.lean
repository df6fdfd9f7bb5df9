import ClassAtlas.Command.Run
import ClassAtlas.FileTree
import ClassAtlas.Http.Router
import ClassAtlas.Main
import ClassAtlas.Model.Operation
import ClassAtlas.Proofs.Mirror
import ClassAtlas.Proofs.Outcome
import ClassAtlas.View.TreeJson
import ClassAtlas.Proofs.Changes
import ClassAtlas.Proofs.Stages
import ClassAtlas.Proofs.Ledgers
import ClassAtlas.Proofs.SuperTypes
import ClassAtlas.Proofs.Forest
import ClassAtlas.Proofs.StrictOrder
import ClassAtlas.Proofs.Contents
import ClassAtlas.Proofs.Furnishing
import ClassAtlas.Proofs.Renaming
import ClassAtlas.Proofs.SameAnswers
import ClassAtlas.Proofs.Reordering
import ClassAtlas.Proofs.OrderFree
import ClassAtlas.Proofs.Persistence
import ClassAtlas.Proofs.Inventory
import ClassAtlas.Guarded
import ClassAtlas.Model.Narrow
import ClassAtlas.Proofs.Arena
import ClassAtlas.Proofs.Literals
import ClassAtlas.Proofs.Spelling
import ClassAtlas.Proofs.Records
import ClassAtlas.Proofs.ElementText
import ClassAtlas.Proofs.SnapshotText
import ClassAtlas.Proofs.Handshake
import ClassAtlas.Proofs.Views
import ClassAtlas.Proofs.Halves
import ClassAtlas.Proofs.Sessions
import ClassAtlas.Proofs.Answering
import ClassAtlas.Proofs.Remains
import ClassAtlas.Proofs.Completion
import ClassAtlas.Proofs.Projections
import ClassAtlas.Proofs.TreeText
import ClassAtlas.Proofs.Markers
import ClassAtlas.Proofs.Presentation
import ClassAtlas.Proofs.Restripping
import ClassAtlas.Proofs.ShortNames
import ClassAtlas.Proofs.HierarchyLines
import ClassAtlas.Proofs.Listings
import ClassAtlas.Proofs.UmlNames
