import Pagewright.Main
import Pagewright.Page.Draft
import Pagewright.Storage.Disk
import Pagewright.Proofs.Agreement
import Pagewright.Proofs.Batch
import Pagewright.Proofs.Bindings
import Pagewright.Proofs.DryRun
import Pagewright.Proofs.Extraction
import Pagewright.Proofs.FileNames
import Pagewright.Proofs.Leftovers
import Pagewright.Proofs.Locality
import Pagewright.Proofs.ManifestPaths
import Pagewright.Proofs.NameParts
import Pagewright.Proofs.NodePaths
import Pagewright.Proofs.NormalForm
import Pagewright.Proofs.Outline
import Pagewright.Proofs.PageName
import Pagewright.Proofs.Project
import Pagewright.Proofs.Registry.History
import Pagewright.Proofs.StateHolder
import Pagewright.Proofs.StringLiterals
import Pagewright.Proofs.Substitution
import Pagewright.Proofs.Verdict
import Pagewright.Proofs.View.CallSites
import Pagewright.Proofs.View.Decoder
import Pagewright.Proofs.View.ImportLines
import Pagewright.Proofs.View.Resolving
import Pagewright.Proofs.View.Structure
import Pagewright.Proofs.View.Subtrees
