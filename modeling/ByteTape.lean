import ByteTape.Block.Meaning
import ByteTape.CommandLine.Spelling
import ByteTape.Device.Stream
import ByteTape.Live
import ByteTape.Main
import ByteTape.Proofs.BracketTable
import ByteTape.Proofs.Running
import ByteTape.Proofs.Structured
import ByteTape.Proofs.Reachable
import ByteTape.Proofs.Resumption
import ByteTape.Proofs.Likeness
import ByteTape.Proofs.Simulation
import ByteTape.Proofs.TapeEnds
import ByteTape.Proofs.Frame
import ByteTape.Proofs.Policies
import ByteTape.Proofs.Emission
import ByteTape.Proofs.Uncommented
import ByteTape.Proofs.Comments
import ByteTape.Proofs.Diagnosis
import ByteTape.Proofs.Unpaired
import ByteTape.Proofs.Independence
import ByteTape.Proofs.Reporting
import ByteTape.Proofs.Locality
import ByteTape.Proofs.LazyBrackets
import ByteTape.Proofs.Relocation
import ByteTape.Proofs.LinearLoops
import ByteTape.Proofs.DeadLoops
import ByteTape.Proofs.Cancellation
import ByteTape.Proofs.Rotation
import ByteTape.Proofs.Spellings
import ByteTape.Proofs.EmptyTape
import ByteTape.Proofs.Moves
import ByteTape.Proofs.Loading
import ByteTape.Proofs.Trimming
import ByteTape.Proofs.Streams
import ByteTape.Proofs.Live
