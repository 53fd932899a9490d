import AgyProxy.Common.Types

/-!
# AgyProxy.Server.Errors — engine failures on the wire (`src/server/errors.ts`)

* `errorStatus`, `anthropicStatusFor`: the status and the error type of a failure, per protocol.
* `engineFailureToHttp`: the response of the OpenAI paths; its body is also the error inside a stream.
-/

namespace AgyProxy

open Js

/-- The `type` of an error body. -/
inductive ErrorType
  | authenticationError | invalidRequestError | notFoundError | rateLimitError | permissionError
  | apiError | overloadedError
deriving DecidableEq

structure ErrorStatus where
  statusCode : ℕ
  type : ErrorType
deriving DecidableEq

/-- `error` of an OpenAI body; `param` is always null. -/
structure OpenAiErrorBody where
  message : JsString
  type : ErrorType
  code : Err
  param : Option JsString
deriving DecidableEq

def openAiError (message : JsString) (type : ErrorType) (code : Err) : OpenAiErrorBody :=
  ⟨message, type, code, none⟩

/-- The rows both tables share. -/
def sharedStatus : Err → ErrorStatus
  | .auth => ⟨401, .authenticationError⟩
  | .unknownModel => ⟨404, .invalidRequestError⟩
  | .busy | .poolExhausted => ⟨429, .rateLimitError⟩
  | .validationRequired | .modelNotAllowed => ⟨403, .permissionError⟩
  | .unsupportedReasoningEffort => ⟨400, .invalidRequestError⟩
  | .agyNotInstalled | .aborted => ⟨503, .apiError⟩
  | .timeout | .processExit | .invalidOutput | .agyError | .agyVersionUnsupported => ⟨502, .apiError⟩

def errorStatus (code : Err) : ErrorStatus := sharedStatus code

/-- A failure as a response. -/
structure HttpFailure (B : Type) where
  statusCode : ℕ
  body : B
deriving DecidableEq

def engineFailureToHttp (message : JsString) (code : Err) : HttpFailure OpenAiErrorBody :=
  ⟨(errorStatus code).statusCode, openAiError message (errorStatus code).type code⟩

structure AnthropicErrorBody where
  type : ErrorType
  message : JsString
deriving DecidableEq

/-- `/overloaded/i`. -/
def overloadedRx : Rx := .litI (js "overloaded")

def anthropicStatusFor (code : Err) (message : JsString) : ErrorStatus :=
  if overloadedRx.test message then ⟨529, .overloadedError⟩
  else
    match code with
    | .unknownModel => ⟨404, .notFoundError⟩
    | code => sharedStatus code

end AgyProxy
