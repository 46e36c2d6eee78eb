import Nowhere.Protocol.Flow

/-!
# The setup result on the wire

The single byte of `src/protocol/result.rs` that Portal writes to the downlink of a flow before
anything else, and the conversions between its wire representation and the outcome the rest of the
program works with.
-/

namespace Nowhere.Protocol

def setupResultLen : Nat := 1

/-- Direct wire representation of a flow setup outcome. -/
inductive SetupResult
  | ready
  | invalidRequest
  | metadataConflict
  | pairTimeout
  | flowLimit
  | dialFailed
  | sessionReplaced
  | internalError
  deriving DecidableEq, Repr

namespace SetupResult

/-- `result as u8`. -/
def code : SetupResult → UInt8
  | ready => 0
  | invalidRequest => 1
  | metadataConflict => 2
  | pairTimeout => 3
  | flowLimit => 4
  | dialFailed => 5
  | sessionReplaced => 6
  | internalError => 7

def tryFrom (value : UInt8) : Result SetupResult :=
  match value with
  | 0 => .ok ready
  | 1 => .ok invalidRequest
  | 2 => .ok metadataConflict
  | 3 => .ok pairTimeout
  | 4 => .ok flowLimit
  | 5 => .ok dialFailed
  | 6 => .ok sessionReplaced
  | 7 => .ok internalError
  | value => .error (.bail s!"protocol::result: invalid setup result: {value.toNat}")

/-- `SetupResult::from(FlowErrorCode)`. -/
def ofErrorCode : FlowErrorCode → SetupResult
  | .invalidRequest => invalidRequest
  | .metadataConflict => metadataConflict
  | .pairTimeout => pairTimeout
  | .flowLimit => flowLimit
  | .dialFailed => dialFailed
  | .sessionReplaced => sessionReplaced
  | .internalError => internalError

/-- `SetupResult::from(FlowResult)`. -/
def ofFlowResult : FlowResult → SetupResult
  | .ready => ready
  | .reject code => ofErrorCode code

end SetupResult

/-- `FlowErrorCode::try_from(SetupResult)`. -/
def FlowErrorCode.tryFrom : SetupResult → Result FlowErrorCode
  | .ready => .error (.bail "protocol::result: READY is not an error")
  | .invalidRequest => .ok .invalidRequest
  | .metadataConflict => .ok .metadataConflict
  | .pairTimeout => .ok .pairTimeout
  | .flowLimit => .ok .flowLimit
  | .dialFailed => .ok .dialFailed
  | .sessionReplaced => .ok .sessionReplaced
  | .internalError => .ok .internalError

/-- `FlowResult::from(SetupResult)`, which panics where the conversion of the code fails. -/
def FlowResult.ofSetup (value : SetupResult) : Result FlowResult :=
  if value = .ready then .ok .ready
  else do
    let code ← expect (FlowErrorCode.tryFrom value) "non-READY setup result"
    return .reject code

def encodeSetupResult (result : SetupResult) : List UInt8 := [result.code]

def decodeSetupResult (bytes : List UInt8) : Result SetupResult :=
  if bytes.length ≠ setupResultLen then
    .error (.bail
      s!"protocol::result::decode_setup_result: invalid result length: {bytes.length}")
  else SetupResult.tryFrom (bytes.getD 0 0)

def encodeFlowResult (result : FlowResult) : List UInt8 :=
  encodeSetupResult (.ofFlowResult result)

/-! ## What is read back -/

theorem FlowResult.ofSetup_ofFlowResult (result : FlowResult) :
    FlowResult.ofSetup (.ofFlowResult result) = .ok result := by
  cases result with
  | ready => rfl
  | reject code => cases code <;> rfl

/-- The conversion never panics. -/
theorem FlowResult.exists_ofSetup (value : SetupResult) :
    ∃ result, FlowResult.ofSetup value = .ok result ∧ .ofFlowResult result = value := by
  cases value with
  | ready => exact ⟨.ready, rfl, rfl⟩
  | invalidRequest => exact ⟨.reject .invalidRequest, rfl, rfl⟩
  | metadataConflict => exact ⟨.reject .metadataConflict, rfl, rfl⟩
  | pairTimeout => exact ⟨.reject .pairTimeout, rfl, rfl⟩
  | flowLimit => exact ⟨.reject .flowLimit, rfl, rfl⟩
  | dialFailed => exact ⟨.reject .dialFailed, rfl, rfl⟩
  | sessionReplaced => exact ⟨.reject .sessionReplaced, rfl, rfl⟩
  | internalError => exact ⟨.reject .internalError, rfl, rfl⟩

theorem SetupResult.tryFrom_code (result : SetupResult) : tryFrom result.code = .ok result := by
  cases result <;> rfl

variable {result : SetupResult} {bytes : List UInt8}

theorem SetupResult.code_of_tryFrom {value : UInt8} (h : tryFrom value = .ok result) :
    result.code = value := by
  unfold tryFrom at h
  split at h <;> cases h <;> rfl

theorem decodeSetupResult_iff :
    decodeSetupResult bytes = .ok result ↔ bytes = encodeSetupResult result := by
  constructor
  · intro h
    obtain ⟨hlength, h⟩ := bail_else_eq_ok.mp h
    obtain ⟨value, rfl⟩ := List.length_eq_one_iff.mp (not_not.mp hlength)
    exact congrArg ([·]) (SetupResult.code_of_tryFrom h).symm
  · rintro rfl
    exact SetupResult.tryFrom_code result

/-- What `read_flow_result` makes of the byte it reads. -/
theorem decodeFlowResult_iff {result : FlowResult} :
    (decodeSetupResult bytes >>= FlowResult.ofSetup) = .ok result ↔
      bytes = encodeFlowResult result := by
  rw [bind_eq_ok]
  constructor
  · rintro ⟨value, hdecode, hvalue⟩
    obtain ⟨result', hresult, rfl⟩ := FlowResult.exists_ofSetup value
    cases hvalue.symm.trans hresult
    exact decodeSetupResult_iff.mp hdecode
  · rintro rfl
    exact ⟨_, decodeSetupResult_iff.mpr rfl, FlowResult.ofSetup_ofFlowResult result⟩

end Nowhere.Protocol
