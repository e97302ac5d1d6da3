import DataLink.Duration
import DataLink.Fault

/-!
# Link settings

Every timer is optional, and an absent setting disables it.
-/

namespace DataLink

/-- The settings of a link. -/
structure Settings where
  /-- How often output is sent, in hertz. -/
  sendFrequency : Option Binary64
  /-- Buffered input is dropped after so long with garbage and no valid envelope. -/
  reacquireAfter : Option Duration
  /-- Cells are cleared after so long without a valid envelope. -/
  failsafeAfter : Option Duration
  /-- The probability that one byte of each piece of input is spoiled. -/
  inputInterference : Binary64
  /-- The probability that one byte of each output is spoiled. -/
  outputInterference : Binary64
  /-- Where interference starts; anywhere if absent. -/
  interferenceSeed : Option UInt64
  deriving DecidableEq, Repr

/-- The settings that can be invalid. -/
inductive Setting where
  | sendFrequency
  | reacquireAfter
  | failsafeAfter
  | inputInterference
  | outputInterference
  deriving DecidableEq, Repr

/-- The name of a setting. -/
def Setting.name : Setting → String
  | .sendFrequency => "send_frequency"
  | .reacquireAfter => "reacquire_after"
  | .failsafeAfter => "failsafe_after"
  | .inputInterference => "input_interference"
  | .outputInterference => "output_interference"

/-- Why a link cannot be set up. -/
inductive LinkFault where
  | config (fault : ConfigFault)
  /-- A frequency that is not positive, or whose period is not representable. -/
  | frequency (value : Binary64)
  /-- A timer of no length. -/
  | zeroTime (setting : Setting)
  /-- A probability that is none. -/
  | probability (setting : Setting) (value : Binary64)
  deriving DecidableEq, Repr

/-- An invalid setting in words. -/
def Setting.invalid (setting : Setting) (reason : String) : String :=
  "invalid setting " ++ setting.name ++ ": " ++ reason

/-- The fault in words. -/
def LinkFault.message : LinkFault → String
  | .config fault => "protocol configuration error: " ++ fault.message
  | .frequency value =>
    Setting.sendFrequency.invalid (value.text .plain ++ " is not a positive frequency")
  | .zeroTime setting => setting.invalid "must be greater than zero"
  | .probability setting value =>
    setting.invalid ("probability " ++ value.text .plain ++ " outside 0..=1")

namespace Settings

/-- All timers disabled and no interference. -/
def default : Settings := ⟨none, none, none, .zero, .zero, none⟩

/-- The default settings, where any will do. -/
instance : Inhabited Settings := ⟨default⟩

/-- The period of a frequency, to the nearest nanosecond. -/
def period? (hz : Binary64) : Option Duration := Duration.ofFloatSeconds? (Binary64.one.div hz)

/-- The time between outputs, if output is enabled. -/
def sendPeriod (s : Settings) : Option Duration := s.sendFrequency.bind period?

/-- Whether a frequency is positive and has a period. -/
def isFrequency (hz : Binary64) : Bool :=
  hz.isFinite && !hz.le .zero && (period? hz).isSome

/-- Checks the frequency. -/
def checkFrequency (s : Settings) : Except LinkFault Unit :=
  match s.sendFrequency with
  | some hz => if isFrequency hz then .ok () else .error (.frequency hz)
  | none => .ok ()

/-- Checks one timer. -/
def checkTime (setting : Setting) (time : Option Duration) : Except LinkFault Unit :=
  if time = some .zero then .error (.zeroTime setting) else .ok ()

/-- Checks one probability. -/
def checkProbability (setting : Setting) (value : Binary64) : Except LinkFault Unit :=
  if value.isProbability then .ok () else .error (.probability setting value)

/-- Checks all settings in order. -/
def validate (s : Settings) : Except LinkFault Unit := do
  s.checkFrequency
  checkTime .reacquireAfter s.reacquireAfter
  checkTime .failsafeAfter s.failsafeAfter
  checkProbability .inputInterference s.inputInterference
  checkProbability .outputInterference s.outputInterference

end Settings

end DataLink
