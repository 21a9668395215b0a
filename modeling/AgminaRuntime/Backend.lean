import AgminaRuntime.Contracts

/-!
# Exceptions and backend replies

The exceptions that the journal, the coordinator and a backend call can raise,
with the three facts that the coordinator reads off a failure: whether the
remote work is known to have ended, whether the request was never sent, and
the code recorded as the reason.
-/

namespace AgminaRuntime

/-- `BackendFailure`: a request that was not sent has also ended. -/
structure BackendFailure where
  code : PyStr
  terminationKnown : Bool
  notSent : Bool
  notSentKnown : notSent = true → terminationKnown = true
  deriving DecidableEq

/-- `BackendFailure(code, termination_known=..., not_sent=...)`. -/
def BackendFailure.new (code : PyStr) (terminationKnown notSent : Bool) : BackendFailure where
  code := code
  terminationKnown := terminationKnown || notSent
  notSent := notSent
  notSentKnown := by simp +contextual

inductive PyExc
  | keyError (text : PyStr)
  | valueError (text : PyStr)
  | permissionError (text : PyStr)
  | validationError (text : PyStr)
  | typeError
  | overflowError
  | unicodeEncodeError
  | integrityError
  | timeoutError
  | cancelledError
  | backendFailure (failure : BackendFailure)
  | keyboardInterrupt
  | systemExit
  | other (typeName : PyStr)
  deriving DecidableEq

namespace PyExc

/-- `type(exc).__name__`. -/
def typeName : PyExc → PyStr
  | keyError _ => "KeyError"
  | valueError _ => "ValueError"
  | permissionError _ => "PermissionError"
  | validationError _ => "ValidationError"
  | typeError => "TypeError"
  | overflowError => "OverflowError"
  | unicodeEncodeError => "UnicodeEncodeError"
  | integrityError => "IntegrityError"
  | timeoutError => "TimeoutError"
  | cancelledError => "CancelledError"
  | backendFailure _ => "BackendFailure"
  | keyboardInterrupt => "KeyboardInterrupt"
  | systemExit => "SystemExit"
  | other typeName => typeName

/-- `isinstance(exc, (KeyboardInterrupt, SystemExit))`: asyncio lets these leave
the event loop, which ends the process. -/
def endsProcess : PyExc → Bool
  | keyboardInterrupt | systemExit => true
  | _ => false

/-- `isinstance(exc, BackendFailure) and exc.termination_known`. -/
def terminationKnown : PyExc → Bool
  | backendFailure failure => failure.terminationKnown
  | _ => false

/-- `isinstance(exc, BackendFailure) and exc.not_sent`. -/
def notSent : PyExc → Bool
  | backendFailure failure => failure.notSent
  | _ => false

/-- `exc.code if isinstance(exc, BackendFailure) else type(exc).__name__`. -/
def code : PyExc → PyStr
  | backendFailure failure => failure.code
  | exception => exception.typeName

theorem terminationKnown_of_notSent {exception : PyExc} (notSent : exception.notSent = true) :
    exception.terminationKnown = true := by
  cases exception with
  | backendFailure failure => exact failure.notSentKnown notSent
  | _ => simp [PyExc.notSent] at notSent

end PyExc

/-- How an awaited `backend.infer` ends; a timeout of `asyncio.wait_for` and a
cancellation of the task arrive as exceptions. -/
inductive BackendReply
  | prediction (result : Prediction)
  | notPrediction
  | raised (exception : PyExc)
  deriving DecidableEq

/-- The remote work is known to have ended: the call returned, or it raised a
`BackendFailure` that says so. -/
def BackendReply.confirmed : BackendReply → Bool
  | prediction _ | notPrediction => true
  | raised exception => exception.terminationKnown

end AgminaRuntime
