import MuduoWindows.Library.Machine

/-! # How a call can stop

An `assert` of the source, the `LOG_FATAL` of `EventLoop::abortNotInLoopThread`, a `LOG_SYSFATAL`,
an exception of the standard library, and an access outside an array or through an empty pointer or
a computation without a value, after which the language says nothing more.
-/

namespace MuduoWindows.Net
open Library

inductive Fault where
  | assertion (text : String)
  | abortNotInLoopThread
  | sysFatal (text : String)
  | outOfBounds (text : String)
  | nullPointer (text : String)
  | exception (text : String)
  | undefined (text : String)
  deriving DecidableEq, Repr

abbrev Result := Except Fault

/-- `assert(text)`, in a build that keeps assertions. -/
abbrev assert (p : Prop) [Decidable p] (text : String) : Result Unit :=
  require p (.assertion text)

end MuduoWindows.Net
