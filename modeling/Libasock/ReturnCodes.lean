import Mathlib.Logic.Basic

/-!
The codes and enumerations of `asock.h` and `asock_defs.h`. The values of
`AsockReturnCode` are those of the header: `ASOCK_ERR_INVAL` and
`ASOCK_ERR_BADSTATE` are the same number there.
-/

namespace Libasock.ReturnCodes

abbrev AsockReturnCode := Int

def asockSuccess : AsockReturnCode := 0
def asockErrNomem : AsockReturnCode := 1
def asockErrInval : AsockReturnCode := 2
def asockErrBadstate : AsockReturnCode := 2
def asockFailure : AsockReturnCode := 666
def asockUndefinedCode : AsockReturnCode := 1666

inductive AsockConState where
  | idle | inProgress | established | failed
  deriving DecidableEq, Repr

inductive ServiceStatus where
  | init | configuration | aborted | running
  deriving DecidableEq, Repr

inductive DirectiveType where
  | directNone | directStart | directStop | directBind | directCreateAsock | directSetns
  deriving DecidableEq, Repr

/-- The arrows of the diagram in `asock.h`, "Possible changes in state of asock
connection state". -/
def AsockConState.mayBecome : AsockConState → AsockConState → Bool
  | .idle, .inProgress | .idle, .failed => true
  | .inProgress, .established | .inProgress, .failed => true
  | .established, .failed => true
  | _, _ => false

end Libasock.ReturnCodes
