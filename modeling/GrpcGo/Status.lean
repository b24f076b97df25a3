/-!
# Status codes and status errors

The gRPC status codes (`codes.Code`) and the status errors built by `status.Errorf`, which the
modelled code returns as Go errors, with `status.Convert` and `toRPCErr`, which turn any Go
error into one.  A Go error that is not a status error is known by its text; the transport's
`ConnectionError`, which `toRPCErr` maps to `Unavailable`, is not among the errors modelled.
-/

namespace GrpcGo

/-- `codes.Code`, the seventeen gRPC status codes. -/
inductive Code where
  | ok | canceled | unknown | invalidArgument | deadlineExceeded | notFound | alreadyExists
  | permissionDenied | resourceExhausted | failedPrecondition | aborted | outOfRange
  | unimplemented | internal | unavailable | dataLoss | unauthenticated
  deriving DecidableEq, Repr

/-- A status error: its code and message. -/
structure Status where
  code : Code
  message : String
  deriving DecidableEq, Repr

/-- A Go `error` value as the modelled code tells them apart: a status error, or another error,
known by its text (`io.EOF` is the error with text `EOF`). -/
inductive GoError where
  | text (s : String)
  | status (s : Status)
  deriving DecidableEq, Repr

/-- `c.String()`, the name `%s` prints of a code. -/
def Code.String : Code → String
  | .ok => "OK"
  | .canceled => "Canceled"
  | .unknown => "Unknown"
  | .invalidArgument => "InvalidArgument"
  | .deadlineExceeded => "DeadlineExceeded"
  | .notFound => "NotFound"
  | .alreadyExists => "AlreadyExists"
  | .permissionDenied => "PermissionDenied"
  | .resourceExhausted => "ResourceExhausted"
  | .failedPrecondition => "FailedPrecondition"
  | .aborted => "Aborted"
  | .outOfRange => "OutOfRange"
  | .unimplemented => "Unimplemented"
  | .internal => "Internal"
  | .unavailable => "Unavailable"
  | .dataLoss => "DataLoss"
  | .unauthenticated => "Unauthenticated"

/-- `err.Error()`, the text `%v` prints of an error: a status error's is
`rpc error: code = %s desc = %s` of its code and message. -/
def GoError.Error : GoError → String
  | .text s => s
  | .status s => "rpc error: code = " ++ s.code.String ++ " desc = " ++ s.message

/-- `status.Convert(err)`: the status of a status error, and `Unknown` with the error's text for
any other error. -/
def Convert : GoError → Status
  | .status s => s
  | .text s => ⟨.unknown, s⟩

/-- `toRPCErr(err)` of `rpc_util.go`: `io.EOF` stays as it is, the context and
`io.ErrUnexpectedEOF` errors become status errors with their own codes, a status error is kept,
and any other error becomes an `Unknown` status error with its text. -/
def toRPCErr : GoError → GoError
  | .text "EOF" => .text "EOF"
  | .text "context deadline exceeded" => .status ⟨.deadlineExceeded, "context deadline exceeded"⟩
  | .text "context canceled" => .status ⟨.canceled, "context canceled"⟩
  | .text "unexpected EOF" => .status ⟨.internal, "unexpected EOF"⟩
  | .text s => .status ⟨.unknown, s⟩
  | .status s => .status s

end GrpcGo
