import DeclExtract.Codec.TypeExpr
import DeclExtract.File.Directory
import DeclExtract.Main
import DeclExtract.Proofs.Merge.Classes
import DeclExtract.Proofs.Merge.Operations
import DeclExtract.Proofs.Merge.WellFormed
import DeclExtract.Proofs.Merge.Sighting
import DeclExtract.Proofs.Batch
import DeclExtract.Proofs.Merge.Run
import DeclExtract.Proofs.Merge.Preservation
import DeclExtract.Proofs.Merge.Graph
import DeclExtract.Proofs.Merge.Edges
import DeclExtract.Proofs.Linked
import DeclExtract.Proofs.Merge.Components
import DeclExtract.Proofs.Merge.Contents
import DeclExtract.Proofs.Merge.NamedTypes
import DeclExtract.Proofs.Selection.Closure
import DeclExtract.Proofs.Selection.Union
import DeclExtract.Proofs.Extraction
import DeclExtract.Proofs.Selection.Correspondence
import DeclExtract.Proofs.Merge.Reordering
import DeclExtract.Proofs.Merge.Recognisable
import DeclExtract.Proofs.Merge.Remerge
import DeclExtract.Proofs.Merge.Consistency
import DeclExtract.Proofs.Merge.InBounds
import DeclExtract.Proofs.Selection.InBounds
import DeclExtract.Proofs.Merge.RootUses
import DeclExtract.Proofs.Merge.Rebuild
import DeclExtract.Proofs.Merge.Origin
import DeclExtract.Proofs.Merge.Ordinals
import DeclExtract.Proofs.Merge.Transfer
import DeclExtract.Proofs.Selection.Narrowing
import DeclExtract.Proofs.Selection.Rebuilt
import DeclExtract.Proofs.Selection.Wanted
import DeclExtract.Proofs.Merge.Exported
import DeclExtract.Proofs.Selection.Roots
import DeclExtract.Proofs.Merge.Anonymous
import DeclExtract.Proofs.TypeExpr.Identical
import DeclExtract.Proofs.TypeExpr.Satisfaction
import DeclExtract.Proofs.TypeExpr.Restatement
import DeclExtract.Proofs.TypeExpr.Repetition
import DeclExtract.Proofs.TypeExpr.MutualSatisfaction
import DeclExtract.Proofs.Lists
import DeclExtract.Proofs.Json.RoundTrip
import DeclExtract.Proofs.Json.Record
import DeclExtract.Proofs.Codec.Declaration
import DeclExtract.Proofs.Codec.TypeExpr
import DeclExtract.Proofs.Codec.Report
import DeclExtract.Proofs.Codec.ReadBack
import DeclExtract.Proofs.TypeExpr.MethodLookup
import DeclExtract.Proofs.Merge.Accounting
import DeclExtract.Proofs.Merge.Refusal
import DeclExtract.Proofs.Selection.Turns
import DeclExtract.Proofs.Selection.Accounting
import DeclExtract.Proofs.Merge.FirstSighting
import DeclExtract.Proofs.Merge.MergedAgain
import DeclExtract.Proofs.InterfaceUse
import DeclExtract.Proofs.Text.Separated
import DeclExtract.Proofs.Targets
import DeclExtract.Proofs.Text.SelfDelimiting
import DeclExtract.Proofs.Drawing
import DeclExtract.Proofs.Json.Literals
import DeclExtract.Proofs.CommandLine.Select
