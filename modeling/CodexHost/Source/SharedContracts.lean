import CodexHost.Foundation.EcmaString

/-!
# Shared contracts: identifiers, native references, usage measurements

`packages/shared-contracts/src/ids.ts`, `native-refs.ts` and the measurement part of
`thread-usage.ts`. A field that the schema fixes to the literal 1 (`formatVersion`)
carries no information and is left out. A `JsonValue` is represented by its JSON
text, the form in which files hold it and `sameJson` compares it. A JSON number is a
rational; the schemas reject the ones that are not finite, so nothing is lost.
-/
namespace CodexHost.Source.SharedContracts
open Foundation

abbrev HarnessId := String
abbrev HostThreadId := String
abbrev HostTurnId := String
abbrev JsonText := String

def opaqueIdSchema (value : String) : Bool := !EcmaString.isBlank value

def harnessIdSchema : HarnessId → Bool := opaqueIdSchema
def hostThreadIdSchema : HostThreadId → Bool := opaqueIdSchema
def hostTurnIdSchema : HostTurnId → Bool := opaqueIdSchema

def nativeIdSchema (value : String) : Bool := !EcmaString.isBlank value

structure NativeSessionRef where
  harnessId : HarnessId
  nativeSessionId : String
  locator : Option JsonText
  deriving DecidableEq, Repr

def nativeSessionRefSchema (ref : NativeSessionRef) : Bool :=
  harnessIdSchema ref.harnessId && nativeIdSchema ref.nativeSessionId

structure NativeTurnRef where
  harnessId : HarnessId
  nativeSessionId : String
  nativeTurnKey : String
  deriving DecidableEq, Repr

def nativeTurnRefSchema (ref : NativeTurnRef) : Bool :=
  harnessIdSchema ref.harnessId && nativeIdSchema ref.nativeSessionId && nativeIdSchema ref.nativeTurnKey

structure NativeCheckpointRef where
  harnessId : HarnessId
  nativeSessionId : String
  checkpointId : String
  locator : Option JsonText
  deriving DecidableEq, Repr

def nativeCheckpointRefSchema (ref : NativeCheckpointRef) : Bool :=
  harnessIdSchema ref.harnessId && nativeIdSchema ref.nativeSessionId && nativeIdSchema ref.checkpointId

/-- `Number.MAX_SAFE_INTEGER` -/
def maxSafeInteger : Nat := 9007199254740991

def nonNegativeSafeIntegerSchema (value : Rat) : Bool :=
  value.den = 1 && 0 ≤ value.num && value.num ≤ maxSafeInteger

structure UsageMeasurement where
  value : Rat
  turnId : String
  at_ : Rat
  deriving DecidableEq, Repr

def usageMeasurementSchema (measurement : UsageMeasurement) : Bool :=
  0 ≤ measurement.value.num && measurement.turnId ≠ "" &&
    EcmaString.length measurement.turnId ≤ 1024 && nonNegativeSafeIntegerSchema measurement.at_

structure UsageMeasurementsSnapshot where
  outputTokensPerSecond : Option UsageMeasurement
  timeToFirstOutputMs : Option UsageMeasurement
  deriving DecidableEq, Repr

def usageMeasurementsSchema (values : UsageMeasurementsSnapshot) : Bool :=
  values.outputTokensPerSecond.all usageMeasurementSchema && values.timeToFirstOutputMs.all fun measurement =>
      usageMeasurementSchema measurement && nonNegativeSafeIntegerSchema measurement.value

end CodexHost.Source.SharedContracts
