import JupiterStorage.Model.Object
import JupiterStorage.Model.Batch
import JupiterStorage.Model.Refs
import JupiterStorage.Model.Store
import JupiterStorage.Model.Writes
import JupiterStorage.Model.Threads
import JupiterStorage.Model.NodeTree
import JupiterStorage.Model.Protocol
import JupiterStorage.Proofs.Batch
import JupiterStorage.Proofs.Refs
import JupiterStorage.Proofs.Walk
import JupiterStorage.Proofs.CreateFile
import JupiterStorage.Proofs.Crash
import JupiterStorage.Proofs.Interleaving
import JupiterStorage.Proofs.NodeTreeLoops
import JupiterStorage.Proofs.NodeTree
import JupiterStorage.Proofs.Protocol
