import Wideband.Decimal.Shortest
import Wideband.Format

namespace Wideband

inductive Stage where
  | measuring
  | draining
  /-- The read on which carrier phases are estimated. -/
  | phasing
  | stitching
  | fetching
deriving DecidableEq

def Stage.name : Stage → String
  | .measuring => "measuring"
  | .draining => "draining"
  | .phasing => "phase estimation"
  | .stitching => "grafting"
  | .fetching => "fetch"

inductive BinFault (F : Type) where
  /-- The frequency lies outside the half-open band up to the Nyquist frequency. -/
  | outOfBand (frequency nyquist : F)
  | noSuchBin (bin size : Nat)
  | reversedRange (low high : F)

inductive Misfit where
  | shortMeasurement (length : Nat)
  | noTrials
  | noAttempts
  | shortBlock (length : Nat)
  | noQueue
  | noPipeBlocks
  | noStreams
  | noReceivers
  | unevenTiling (receivers : Nat)
  | combinedRateOverflow (receivers rate : Nat)
  | indivisibleRate (rate receivers : Nat)
  | stitchedRateOverflow (streams rate : Nat)
  | emptyTransform
  | emptyPhaseRead
  /-- A cause that only its description tells. -/
  | described (text : String)

inductive TransformFault where
  | closed
  | described (text : String)

inductive RecordingFault where
  | illFormed (detail : String)
  | unsupportedEncoding
  /-- The number of valid bits does not fit the stored size. -/
  | unsupportedWidth
  | channels (count : Nat)
  | layout (floating : Bool) (bits : Nat)
  | described (text : String)

inductive TransferFault where
  | exhausted
  | described (text : String)

inductive Error where
  | formatMismatch (expected actual : Format)
  | formatUnsupported (format : Format)
  | bufferTooSmall (needed available : Nat)
  | lengthMismatch (lengths : List Nat)
  | spectrum (fault : BinFault Float)
  | transform (fault : TransformFault)
  | overrun
  | pipeClosed
  | endOfStream
  | stream (index : Nat) (stage : Stage) (cause : Error)
  | notConverged (attempts : Nat)
  | noPeak (index : Nat)
  | cancelled
  | rateMismatch (index expected actual : Nat)
  | misfit (fault : Misfit)
  | notSupported (feature : String)
  | transfer (fault : TransferFault)
  | recording (fault : RecordingFault)

instance : Inhabited Error := ⟨.cancelled⟩

def BinFault.message : BinFault Float → String
  | .outOfBand frequency nyquist =>
      "frequency " ++ Decimal.text frequency ++ " Hz is out of the sampling range (nyquist " ++
        Decimal.text nyquist ++ " Hz)"
  | .noSuchBin bin size => s!"bin {bin} is out of range for a {size} bin buffer"
  | .reversedRange low high =>
      "invalid frequency range: " ++ Decimal.text low ++ " Hz to " ++ Decimal.text high ++ " Hz"

def Misfit.message : Misfit → String
  | .shortMeasurement length => s!"buffer_len must be at least 2, got {length}"
  | .noTrials => "trials must be at least 1"
  | .noAttempts => "max_attempts of zero can never converge"
  | .shortBlock length => s!"block_len must be at least 2, got {length}"
  | .noQueue => "pipe_capacity must be at least 1"
  | .noPipeBlocks => "pipe capacity must be at least one block"
  | .noStreams => "at least one stream is required"
  | .noReceivers => "a coherent array needs at least one receiver"
  | .unevenTiling receivers => s!"{receivers} receivers can not tile a band evenly"
  | .combinedRateOverflow receivers rate =>
      s!"{receivers} receivers at {rate} sps overflows the combined rate"
  | .indivisibleRate rate receivers =>
      s!"sample rate {rate} is not divisible by {receivers} receivers"
  | .stitchedRateOverflow streams rate =>
      s!"{streams} streams at {rate} sps overflows the output rate"
  | .emptyTransform => "cannot plan a zero length transform"
  | .emptyPhaseRead => "phase estimation needs a non-empty buffer"
  | .described text => text

def TransformFault.message : TransformFault → String
  | .closed => "transform on a closed plan"
  | .described text => text

def RecordingFault.message : RecordingFault → String
  | .illFormed detail => "Ill-formed WAVE file: " ++ detail
  | .unsupportedEncoding => "The wave format of the file is not supported."
  | .unsupportedWidth => "The sample width of the file is not supported."
  | .channels count => s!"expected 2 channels (I/Q), found {count}"
  | .layout floating bits =>
      let kind := if floating then "Float" else "Int"
      s!"unsupported sample layout {kind} {bits} bit"
  | .described text => text

def TransferFault.message : TransferFault → String
  | .exhausted => "Failed to read enough bytes."
  | .described text => text

namespace Error

def message : Error → String
  | .formatMismatch expected actual =>
      "iq sample formats do not match: expected " ++ expected.name ++ ", got " ++ actual.name
  | .formatUnsupported format => "iq sample format " ++ format.name ++ " is not supported here"
  | .bufferTooSmall needed available =>
      s!"destination sample buffer is too small: need {needed}, have {available}"
  | .lengthMismatch lengths =>
      "buffer lengths do not match exactly: [" ++ ", ".intercalate (lengths.map toString) ++ "]"
  | .spectrum fault => fault.message
  | .transform fault => "fft backend error: " ++ fault.message
  | .overrun => "buffer overrun"
  | .pipeClosed => "pipe is closed"
  | .endOfStream => "unexpected end of stream"
  | .stream index stage cause =>
      s!"stream {index} failed during " ++ stage.name ++ ": " ++ cause.message
  | .notConverged attempts => s!"streams failed to converge after {attempts} attempts"
  | .noPeak index => s!"no correlation peak between stream {index} and the reference"
  | .cancelled => "operation cancelled"
  | .rateMismatch index expected actual =>
      s!"stream {index} runs at {actual} sps, expected {expected} sps"
  | .misfit fault => "invalid configuration: " ++ fault.message
  | .notSupported feature => "feature not supported by this device: " ++ feature
  | .transfer fault => "i/o error: " ++ fault.message
  | .recording fault => "wav error: " ++ fault.message

/-- The cause behind any number of stream labels. -/
def root : Error → Error
  | .stream _ _ cause => cause.root
  | other => other

end Error

end Wideband
