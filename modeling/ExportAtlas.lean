import ExportAtlas.CommandLine
import ExportAtlas.Main
import ExportAtlas.Project
import ExportAtlas.Report
import ExportAtlas.Run
import ExportAtlas.Settings.Load
import ExportAtlas.Source.Extract
import ExportAtlas.Proofs.Source.Filing
import ExportAtlas.Proofs.Source.Occurrences
import ExportAtlas.Proofs.Source.Statement
import ExportAtlas.Proofs.Source.Opening
import ExportAtlas.Proofs.Source.Lines
import ExportAtlas.Proofs.Source.Readings
import ExportAtlas.Proofs.Text.Pieces
import ExportAtlas.Proofs.Source.Assigned
import ExportAtlas.Proofs.Source.Program
import ExportAtlas.Proofs.Source.Comments
import ExportAtlas.Proofs.Source.Names
import ExportAtlas.Proofs.Source.CommentEdits
import ExportAtlas.Proofs.RouteTree.Arena
import ExportAtlas.Proofs.RouteTree.Groups
import ExportAtlas.Proofs.RouteTree.Links
import ExportAtlas.Proofs.RouteTree.Walk
import ExportAtlas.Proofs.RouteTree.Growth
import ExportAtlas.Proofs.RouteTree.Lines
import ExportAtlas.Proofs.RouteTree.RoundTrip
import ExportAtlas.Proofs.RouteTree.PageFolders
import ExportAtlas.Proofs.Path
import ExportAtlas.Proofs.Sections
import ExportAtlas.Proofs.Atlas
import ExportAtlas.Proofs.Report.Blocks
import ExportAtlas.Proofs.Disk.Ways
import ExportAtlas.Proofs.SourceFiles.Walk
import ExportAtlas.Proofs.SourceFiles.WithoutRules
import ExportAtlas.Proofs.Project
import ExportAtlas.Proofs.Disk.Reading
import ExportAtlas.Proofs.SourceFiles.Narrower
import ExportAtlas.Proofs.SourceFiles.Moved
import ExportAtlas.Proofs.Report.Structured
import ExportAtlas.Proofs.Report.Folder
import ExportAtlas.Proofs.Report.Shown
import ExportAtlas.Proofs.Run
import ExportAtlas.Proofs.Source.Blanking
import ExportAtlas.Proofs.Source.Front
import ExportAtlas.Proofs.Source.DefaultExport
import ExportAtlas.Proofs.Source.Anonymous
import ExportAtlas.Proofs.Source.Places
import ExportAtlas.Proofs.Source.Constants
import ExportAtlas.Proofs.Source.TypedConstants
import ExportAtlas.Proofs.Source.Operand
import ExportAtlas.Proofs.Source.Members
import ExportAtlas.Proofs.Source.ArrowFunction
import ExportAtlas.Proofs.Source.ObjectLiteral
import ExportAtlas.Proofs.RouteTree.Traversal
import ExportAtlas.Proofs.Strategy.Rows
import ExportAtlas.Proofs.Strategy.Labels
import ExportAtlas.Proofs.Source.ModuleSystems
import ExportAtlas.Proofs.Ignore.Names
import ExportAtlas.Proofs.Text.Case
import ExportAtlas.Proofs.Report.Domains
import ExportAtlas.Proofs.Report.Outline
import ExportAtlas.Proofs.Strategy.TopLevel
import ExportAtlas.Proofs.Report.GroupOrder
import ExportAtlas.Proofs.Report.Pages
import ExportAtlas.Proofs.Settings
import ExportAtlas.Proofs.Json.Names
import ExportAtlas.Proofs.ProjectKind
