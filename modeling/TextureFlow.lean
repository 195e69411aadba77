import TextureFlow.Kernel.Scripted
import TextureFlow.Main
import TextureFlow.Preview
import TextureFlow.Session
import TextureFlow.Proofs.Dataflow
import TextureFlow.Proofs.Moves
import TextureFlow.Proofs.Strategies
import TextureFlow.Proofs.LeastOrder
import TextureFlow.Proofs.Fate
import TextureFlow.Proofs.Invalidation
import TextureFlow.Proofs.Kinds
import TextureFlow.Proofs.CatalogueKinds
import TextureFlow.Proofs.Accounts
import TextureFlow.Proofs.CleanPass
import TextureFlow.Proofs.Influence
import TextureFlow.Proofs.Parameters
import TextureFlow.Proofs.Writing
import TextureFlow.Proofs.Building
import TextureFlow.Proofs.Folding
import TextureFlow.Proofs.Consistency
import TextureFlow.Proofs.Filling
import TextureFlow.Proofs.Repetition
import TextureFlow.Proofs.Wiring
import TextureFlow.Proofs.Connecting
import TextureFlow.Proofs.Declared
import TextureFlow.Proofs.RowMajor
import TextureFlow.Proofs.Addressing
import TextureFlow.Proofs.Sampling
import TextureFlow.Proofs.Encoding
import TextureFlow.Proofs.Presets
import TextureFlow.Proofs.Scheduling
import TextureFlow.Proofs.Restoring
import TextureFlow.Proofs.Grammar
