import Nowhere.Common.SocksRequest
import Nowhere.Protocol.Request
import Nowhere.Protocol.SetupResult

/-!
# How opening a flow ends

What `src/vector/flow.rs` makes of the setup result, and the SOCKS reply a client gets for it.
-/

namespace Nowhere.Vector

open Protocol Common.Socks

/-- The end of `read_ready_with_timeout`. A result that could not be read, or was not there in time,
is an error of Vector's own. -/
def readReady : Result FlowResult → Except SetupResult Unit
  | .error _ => .error .internalError
  | .ok .ready => .ok ()
  | .ok (.reject error) => .error (.ofErrorCode error)

/-- `to_target`. -/
def toTarget : SocksAddress → Result Target
  | .ip address => Target.newIp address
  | .domain host port => Target.newDomain host port

inductive OpenFlowError
  | setup (result : SetupResult)
  | transport (error : Failure)
  | protocol (error : Failure)
  deriving DecidableEq

def OpenFlowError.socksReply : OpenFlowError → UInt8
  | .setup .invalidRequest | .setup .flowLimit => replyConnectionNotAllowed
  | .setup .dialFailed => replyHostUnreachable
  | .setup .pairTimeout => replyTtlExpired
  | .setup _ => replyGeneralFailure
  | .transport _ => replyNetworkUnreachable
  | .protocol _ => replyGeneralFailure

/-- A flow that was not opened is never reported as a success. -/
theorem OpenFlowError.socksReply_ne_succeeded (error : OpenFlowError) :
    error.socksReply ≠ replySucceeded := by
  match error with
  | .setup result => cases result <;> decide
  | .transport _ => exact show replyNetworkUnreachable ≠ replySucceeded by decide
  | .protocol _ => exact show replyGeneralFailure ≠ replySucceeded by decide

end Nowhere.Vector
