/-
  BidiWeb.Wire.GoError

  Error values of the Go packages, as far as `errors.Is` and the protocol
  code can tell them apart.
-/

import BidiWeb.Core.Wire

namespace BidiWeb

open BidiWeb.Core (Code)

/-- `connect.ErrorDetail` -/
structure ErrorDetail where
  type : String
  value : Bytes
  debug : Bytes := []
deriving DecidableEq, Repr

inductive GoError where
  /-- `io.EOF` -/
  | eof
  /-- `context.Canceled` -/
  | canceled
  /-- `context.DeadlineExceeded` -/
  | deadlineExceeded
  /-- `errors.New`, or `fmt.Errorf` without `%w`. -/
  | text (message : String)
  /-- An error that wraps another. -/
  | wrapped (message : String) (err : GoError)
  /-- `*connect.Error`; a remote one was received from the peer.  A nil
      detail is `none`. -/
  | connect (code : Code) (message : String) (remote : Bool) (details : List (Option ErrorDetail))
deriving DecidableEq, Repr

namespace GoError

/-- `errors.Is(err, io.EOF)`. -/
def isEOF : GoError → Bool
  | .eof => true
  | .wrapped _ err => err.isEOF
  | .canceled | .deadlineExceeded | .text _ | .connect .. => false

/-- `err.Error()` -/
def error : GoError → String
  | .eof => "EOF"
  | .canceled => "context canceled"
  | .deadlineExceeded => "context deadline exceeded"
  | .text message => message
  | .wrapped message _ => message
  | .connect _ message _ _ => message

/-- `connect.Errorf(code, message)`, formatting with `%v` only. -/
def connectErrorf (code : Code) (message : String) : GoError := .connect code message false []

/-- `errors.As` with a `*connect.Error` -/
def asConnect : GoError → Option GoError
  | .connect code message remote details => some (.connect code message remote details)
  | .wrapped _ err => err.asConnect
  | .eof | .canceled | .deadlineExceeded | .text _ => none

/-- `errors.Is(err, context.Canceled)` -/
def isCanceled : GoError → Bool
  | .canceled => true
  | .wrapped _ err => err.isCanceled
  | .eof | .deadlineExceeded | .text _ | .connect .. => false

/-- `errors.Is(err, context.DeadlineExceeded)` -/
def isDeadlineExceeded : GoError → Bool
  | .deadlineExceeded => true
  | .wrapped _ err => err.isDeadlineExceeded
  | .eof | .canceled | .text _ | .connect .. => false

end GoError
end BidiWeb
