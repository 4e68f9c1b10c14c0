import Wideband.Array.Tiled
import Wideband.Recording.Recorder
import Wideband.Recording.Wave
import Wideband.Simulation.Roster
import Wideband.Simulation.Signal
import Wideband.Simulation.Tone
import Wideband.Stitch.Chain
import Wideband.Token
import Wideband.Transform.Filter
import Wideband.Transform.Fourier
import Wideband.Proofs.Pipe.Calls
import Wideband.Proofs.Pipe.Ledger
import Wideband.Proofs.Pipe.Ending
import Wideband.Proofs.Pipe.Draining
import Wideband.Proofs.Pipe.Waking
import Wideband.Proofs.Sample.Exact
import Wideband.Proofs.Transform.Dft
import Wideband.Proofs.Spectrum.Rotation
import Wideband.Proofs.Stitch.Stacking
import Wideband.Proofs.Stitch.Weaving
import Wideband.Proofs.Stitch.Worker
import Wideband.Proofs.Stitch.Session
import Wideband.Proofs.Outcome
import Wideband.Proofs.Simulation.Replaying
import Wideband.Proofs.Source.Honest
import Wideband.Proofs.Source.Logged
import Wideband.Proofs.Transform.Lag
import Wideband.Proofs.Lock.Log
import Wideband.Proofs.Lock.Rounds
import Wideband.Proofs.Lock.Soundness
import Wideband.Proofs.Transform.Correlation
import Wideband.Proofs.Transform.Matching
import Wideband.Proofs.Transform.Peaks
import Wideband.Proofs.Transform.Echoes
import Wideband.Proofs.Lock.Convergence
import Wideband.Proofs.Lock.Phasing
import Wideband.Proofs.Source.Wear
import Wideband.Proofs.Lock.Custody
import Wideband.Proofs.Array.Calls
import Wideband.Proofs.Array.Coherence
import Wideband.Proofs.Array.Starting
import Wideband.Proofs.Array.Accounts
import Wideband.Proofs.Array.Noise
import Wideband.Proofs.Array.Alike
import Wideband.Proofs.Array.Restarting
import Wideband.Proofs.Array.Disposal
import Wideband.Proofs.Spectrum.Binning
import Wideband.Proofs.Array.Placement
import Wideband.Proofs.Source.Transparent
import Wideband.Proofs.Lock.Backing
import Wideband.Proofs.Lock.Lifetime
import Wideband.Proofs.Stitch.Closing
import Wideband.Proofs.Pipe.Refilling
import Wideband.Proofs.Lock.Dues
import Wideband.Proofs.Lock.Stopping
import Wideband.Proofs.Source.Interleaving
import Wideband.Proofs.Transform.Convolving
import Wideband.Proofs.Transform.Circular
import Wideband.Proofs.Transform.Filtering
import Wideband.Proofs.Transform.Reusing
import Wideband.Proofs.Spectrum.Mapping
import Wideband.Proofs.Spectrum.Ranges
import Wideband.Proofs.Spectrum.Ascending
import Wideband.Proofs.Spectrum.Shifting
import Wideband.Proofs.Array.Bands
import Wideband.Proofs.Transform.Window
import Wideband.Proofs.Source.Dealing
import Wideband.Proofs.Simulation.Periodic
import Wideband.Proofs.Sample.Single
import Wideband.Proofs.Recording.Header
import Wideband.Proofs.Recording.Playing
import Wideband.Proofs.Recording.Lossless
import Wideband.Proofs.Recording.Damage
import Wideband.Proofs.Source.Chunking
import Wideband.Proofs.Spectrum.Folding
