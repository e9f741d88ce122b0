import Montage.Main
import Montage.Studio
import Montage.Proofs.Desk.Mirrored
import Montage.Proofs.Desk.Names
import Montage.Proofs.Desk.Sessions
import Montage.Proofs.Gesture.Cancel
import Montage.Proofs.Gesture.Drag
import Montage.Proofs.Gesture.Resize
import Montage.Proofs.Project.Built
import Montage.Proofs.Project.Shape
import Montage.Proofs.Project.Spelling
import Montage.Proofs.Render.Captions
import Montage.Proofs.Render.Inputs
import Montage.Proofs.Render.Outline
import Montage.Proofs.Render.Policy
import Montage.Proofs.Render.Readable
import Montage.Proofs.Render.Reordered
import Montage.Proofs.Render.Unheard
import Montage.Proofs.Render.Windows
import Montage.Proofs.Studio.Refused
import Montage.Proofs.Desk.History
import Montage.Proofs.Render.Relocated
import Montage.Proofs.Disk.Files
import Montage.Proofs.Disk.Lent
import Montage.Proofs.Export.Launched
import Montage.Proofs.Export.Staged
import Montage.Proofs.Export.Told
import Montage.Proofs.Export.Submitted
import Montage.Proofs.Desk.Frames
import Montage.Proofs.Graph.Offered
import Montage.Proofs.Studio.Mingled
import Montage.Proofs.Desk.References
import Montage.Proofs.Gesture.Edges
import Montage.Proofs.Gesture.Room
import Montage.Proofs.Gesture.Still
import Montage.Proofs.Double.Text
import Montage.Proofs.Project.Usable
import Montage.Proofs.Render.Trimmed
import Montage.Proofs.Timeline.Reconciled
import Montage.Proofs.Render.Within
import Montage.Proofs.Render.Layered
import Montage.Proofs.Export.Missing
import Montage.Proofs.Render.Arguments
import Montage.Proofs.Manifest.Variables
import Montage.Proofs.Render.Diagnosis
import Montage.Proofs.Render.Measured
import Montage.Proofs.Timeline.Queries
import Montage.Proofs.Project.Omitted
