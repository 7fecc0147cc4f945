import Chiptune.Main
import Chiptune.Proofs.CommandLine.Presentations
import Chiptune.Proofs.CommandLine.Settling
import Chiptune.Proofs.Concatenation
import Chiptune.Proofs.Diagnostics
import Chiptune.Proofs.Layout
import Chiptune.Proofs.LineByLine.Scanning
import Chiptune.Proofs.Notation.Lengths
import Chiptune.Proofs.Notation.Pitches
import Chiptune.Proofs.Notation.RoundTrip
import Chiptune.Proofs.Playback.Breakpoints
import Chiptune.Proofs.Playback.Drift
import Chiptune.Proofs.Playback.Faults
import Chiptune.Proofs.Playback.Frames
import Chiptune.Proofs.Playback.Halting
import Chiptune.Proofs.Playback.Narrowing
import Chiptune.Proofs.Playback.Replaying
import Chiptune.Proofs.Playback.Resuming
import Chiptune.Proofs.Playback.Safety
import Chiptune.Proofs.Playback.Silence
import Chiptune.Proofs.Playback.Unrolling
import Chiptune.Proofs.Outputs.Refusing
import Chiptune.Proofs.Outputs.Rendering
import Chiptune.Proofs.Outputs.Speaking
import Chiptune.Proofs.Traps
