import PlcWorkbench.Identifier
import PlcWorkbench.Main
import PlcWorkbench.Proofs.Import.Rerun
import PlcWorkbench.Proofs.Project.Unique
import PlcWorkbench.Xml.Row
import PlcWorkbench.Proofs.Import.Effect
import PlcWorkbench.Proofs.Project.Outcome
import PlcWorkbench.Proofs.Workspace.Tree
import PlcWorkbench.Proofs.Import.Report
import PlcWorkbench.Proofs.Session.Model
import PlcWorkbench.Proofs.Pattern.Annotation
import PlcWorkbench.Proofs.Pattern.Run
import PlcWorkbench.Proofs.Session.Consistency
import PlcWorkbench.Proofs.Text.Bytes
import PlcWorkbench.Proofs.Identifier
import PlcWorkbench.Proofs.Session.QueueSize
import PlcWorkbench.Proofs.Session.Refusal
import PlcWorkbench.Proofs.Session.Creation
import PlcWorkbench.Proofs.Session.History
import PlcWorkbench.Proofs.Workspace.Scan
import PlcWorkbench.Proofs.Workspace.Stem
import PlcWorkbench.Proofs.Pattern.Names
import PlcWorkbench.Proofs.Import.Independence
import PlcWorkbench.Proofs.Pattern.Plan
import PlcWorkbench.Proofs.Project.Search
import PlcWorkbench.Proofs.Project.Attributes
import PlcWorkbench.Proofs.Xml.Lockstep
import PlcWorkbench.Proofs.ScanMode
