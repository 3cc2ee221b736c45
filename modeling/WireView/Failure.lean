/-!
# Causes of failure

Every refusal of the library is one value of `Failure`, named for its cause.
The wording lives in `Failure.message` alone, so that rules about when something
fails never mention text.

A failure to start a viewer may carry the failure that led to it; its message
then repeats the message of that cause.
-/

namespace WireView

inductive Kind where
  | vector
  | matrix
  | whole
  | real
  deriving DecidableEq, Repr

def Kind.word : Kind -> String
  | .vector => "Vec4"
  | .matrix => "Mat4"
  | .whole => "int"
  | .real => "float"

inductive Indexed where
  | component
  | vertex
  | pixel
  deriving DecidableEq, Repr

def Indexed.word : Indexed -> String
  | .component => "tuple"
  | .vertex => "list"
  | .pixel => "pixel"

inductive Receiver where
  | config
  | projector
  deriving DecidableEq, Repr

def Receiver.word : Receiver -> String
  | .config => "ProjectionConfig.__init__()"
  | .projector => "Projector.configure()"

inductive Refusal where
  | surface
  | value
  | other
  deriving DecidableEq, Repr

inductive Failure where
  | divisionByZero
  | undefinedAngle
  | wholeTooLarge
  | roundedNaN
  | roundedInfinity
  | componentCount (given : Nat)
  | matrixShape (rowLengths : List Nat)
  | noProduct (left right : Kind)
  | outOfRange (what : Indexed)
  | indexTooLarge
  | unknownField (name : String)
  | reservedField (receiver : Receiver)
  | alreadyAttached
  | notAChild
  | surfaceSize
  | surfaceSizeTooLarge
  | outOfMemory
  | placeTooLarge
  | coordinateTooLarge
  | coordinateTooSmall
  | coordinateNoWord
  | noColor
  | windowSize
  | windowSizeTooLarge
  | windowTooLarge
  | zeroInTitle
  | videoClosed
  | screenClosed
  | refused (how : Refusal) (text : String)
  | noWindow
  | noDocument
  | noContainer
  | canvasRefused (cause : Failure)
  | mountRefused (cause : Failure)
  | viewerClosed
  | unsupported
  | emptyLevel
  | foreign (kind : String) (text : String)
  deriving DecidableEq, Repr

namespace Failure

def lengthsText (ns : List Nat) : String :=
  "[" ++ String.intercalate ", " (ns.map Nat.repr) ++ "]"

def message : Failure -> String
  | divisionByZero => "float division by zero"
  | undefinedAngle => "math domain error"
  | wholeTooLarge => "int too large to convert to float"
  | roundedNaN => "cannot convert float NaN to integer"
  | roundedInfinity => "cannot convert float infinity to integer"
  | componentCount n => "Vec4 expects 3 or 4 components, got " ++ n.repr
  | matrixShape ns =>
      "Mat4 expects a 4x4 literal, got " ++ ns.length.repr ++
        " rows of lengths "
        ++ lengthsText ns
  | noProduct l r =>
      "unsupported operand type(s) for @: '" ++ l.word ++ "' and '" ++ r.word ++
        "'"
  | outOfRange what => what.word ++ " index out of range"
  | indexTooLarge => "cannot fit 'int' into an index-sized integer"
  | unknownField name =>
      Receiver.config.word ++ " got an unexpected keyword argument '" ++ name ++
        "'"
  | reservedField receiver =>
      receiver.word ++ " got multiple values for argument 'self'"
  | alreadyAttached => "element is already attached to a container"
  | notAChild => "element is not a child of this container"
  | surfaceSize => "Invalid resolution for Surface"
  | surfaceSizeTooLarge => "size needs to be (number width, number height)"
  | outOfMemory => "Out of memory"
  | placeTooLarge => "invalid destination position for blit"
  | coordinateTooLarge => "signed integer is greater than maximum"
  | coordinateTooSmall => "signed integer is less than minimum"
  | coordinateNoWord => "Python int too large to convert to C long"
  | noColor => "invalid color argument"
  | windowSize => "Cannot set negative sized display mode"
  | windowSizeTooLarge => "size must be two numbers"
  | windowTooLarge => "Window is too large."
  | zeroInTitle => "embedded null character"
  | videoClosed => "video system not initialized"
  | screenClosed => "display Surface quit"
  | refused _ text => text
  | noWindow => "no window"
  | noDocument => "no document"
  | noContainer => "no container"
  | canvasRefused cause => "canvas creation failed\n" ++ cause.message
  | mountRefused cause => "failed to append child\n" ++ cause.message
  | viewerClosed => "game has been closed"
  | unsupported => ""
  | emptyLevel => "attribute name must be string, not 'list'"
  | foreign _ text => text

/-- A viewer that could not start, as opposed to any other failure. -/
def isStart : Failure -> Bool
  | noWindow | noDocument | noContainer | canvasRefused _ | mountRefused _ =>
      true
  | _ => false

/-- The failure of the host behind a failure to start. -/
def cause? : Failure -> Option Failure
  | canvasRefused cause | mountRefused cause => some cause
  | _ => none

end Failure
end WireView
