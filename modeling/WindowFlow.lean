import WindowFlow.Facet.Reader
import WindowFlow.Flow
import WindowFlow.Json.Parse
import WindowFlow.Proofs.Document.ArrayForm
import WindowFlow.Proofs.Document.Faults
import WindowFlow.Proofs.Document.Padding
import WindowFlow.Proofs.Facet.ColumnNames
import WindowFlow.Proofs.Facet.Derivation
import WindowFlow.Proofs.Facet.Shape
import WindowFlow.Proofs.Flow.Descent
import WindowFlow.Proofs.Flow.Duplicates
import WindowFlow.Proofs.Flow.FieldSets
import WindowFlow.Proofs.Flow.History
import WindowFlow.Proofs.Flow.LastMove
import WindowFlow.Proofs.Flow.Merging
import WindowFlow.Proofs.Flow.Pruning
import WindowFlow.Proofs.Flow.Reachable
import WindowFlow.Proofs.Flow.Refusal
import WindowFlow.Proofs.Flow.Regrafting
import WindowFlow.Proofs.Flow.Removal
import WindowFlow.Proofs.Window.Assembly
import WindowFlow.Proofs.Window.Parameters
import WindowFlow.Proofs.Window.Recovery
import WindowFlow.Proofs.Window.Shape
import WindowFlow.Proofs.Window.Widening
