/-!
# Computations without a result

Most failures are errors that a caller can name and handle. Two are not: a date that leaves the
range of years that the calendar covers ends the whole program, and a longitude so large that taking
off a full turn does not change it would be wrapped for ever. A computation that can meet one of
them says so in its type: it has a result or an `Abort`. Where ordinary errors can occur as well, a
`Stop` is one or the other.
-/

namespace Mosaic

/-- Why a computation has neither a result nor an error. -/
inductive Abort
  /-- A date or a duration outside the range of the calendar. -/
  | timeOutOfRange
  /-- A longitude from which full turns are taken off without end. -/
  | endlessWrap
  deriving DecidableEq, Repr

/-- Why a computation has no result: it failed with an error, or it was aborted. -/
inductive Stop (ε : Type)
  | failed (error : ε)
  | aborted (cause : Abort)
  deriving Repr

namespace Stop

/-- A computation that cannot fail among those that can. -/
def liftAbort {ε α : Type} : Except Abort α → Except (Stop ε) α
  | .ok a => .ok a
  | .error cause => .error (.aborted cause)

/-- A computation that cannot abort among those that can. -/
def liftError {ε α : Type} : Except ε α → Except (Stop ε) α
  | .ok a => .ok a
  | .error e => .error (.failed e)

/-- The same computation with its errors seen as errors of another kind. -/
def mapError {ε δ α : Type} (f : ε → δ) : Except (Stop ε) α → Except (Stop δ) α
  | .ok a => .ok a
  | .error (.failed e) => .error (.failed (f e))
  | .error (.aborted cause) => .error (.aborted cause)

/-- Turns an error into a value and hands an abort on. -/
def attempt {ε α : Type} : Except (Stop ε) α → Except Abort (Except ε α)
  | .ok a => .ok (.ok a)
  | .error (.failed e) => .ok (.error e)
  | .error (.aborted cause) => .error cause

@[simp] theorem liftAbort_ok {ε α : Type} (a : α) :
    liftAbort (ε := ε) (.ok a) = .ok a := rfl

@[simp] theorem liftError_ok {ε α : Type} (a : α) :
    liftError (ε := ε) (.ok a) = .ok a := rfl

@[simp] theorem attempt_ok {ε α : Type} (a : α) :
    attempt (ε := ε) (.ok a) = .ok (.ok a) := rfl

end Stop

end Mosaic
