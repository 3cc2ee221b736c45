/-!
# Keys

A keyboard event carries a code; listeners see the key by its name.  Seven codes
have names of their own; what the others are called is up to the keyboard.  The
four arrow keys control the model.
-/

namespace WireView

namespace Key

def named : List (Nat × String) :=
  [ (1073741906, "ArrowUp"), (1073741905, "ArrowDown"),
    (1073741904, "ArrowLeft"), (1073741903, "ArrowRight"), (27, "Escape"),
    (13, "Enter"), (32, " ") ]

abbrev Naming : Type := Nat -> String

def name (naming : Naming) (code : Nat) : String :=
  match named.lookup code with
  | some s => s
  | none => naming code

/-- The keys of the small letters are called by their letters. -/
def Naming.IsLettered (naming : Naming) : Prop :=
  forall code, 97 ≤ code -> code ≤ 122 ->
    naming code = String.singleton (Char.ofNat code)

def isPrinting (code : Nat) : Bool :=
  decide (33 ≤ code) && decide (code ≤ 126)

/-- A keyboard whose keys are called by what they print, and not at all if they
print nothing. -/
def printed : Naming := fun code =>
  if isPrinting code then String.singleton (Char.ofNat code) else ""

theorem isLettered_printed : printed.IsLettered := by
  intro code hfirst hlast
  have hprints : isPrinting code = true := by
    simp only [isPrinting, Bool.and_eq_true, decide_eq_true_eq]
    omega
  exact if_pos hprints

end Key

inductive KeyMotion where
  | down
  | up
  deriving DecidableEq, Repr

def KeyMotion.type : KeyMotion -> String
  | .down => "keydown"
  | .up => "keyup"

def KeyMotion.ofType? : String -> Option KeyMotion
  | "keydown" => some .down
  | "keyup" => some .up
  | _ => none

theorem KeyMotion.ofType?_type (m : KeyMotion) : ofType? m.type = some m := by
  cases m <;> rfl

/-- A key pressed or released; a listener that acts on it prevents its
default. -/
structure KeyEvent where
  motion : KeyMotion
  key : String
  defaultPrevented : Bool := false
  deriving DecidableEq, Repr

def KeyEvent.preventDefault (e : KeyEvent) : KeyEvent :=
  { e with defaultPrevented := true }

inductive InputEvent where
  | key (motion : KeyMotion) (code : Nat)
  | quit
  | other
  deriving DecidableEq, Repr

def InputEvent.keyEvent? (i : InputEvent)
    (naming : Key.Naming := Key.printed) : Option KeyEvent :=
  match i with
  | key motion code => some { motion := motion, key := Key.name naming code }
  | quit => none
  | other => none

/-!
# Control keys
-/

inductive ControlKey where
  | arrowUp
  | arrowDown
  | arrowLeft
  | arrowRight
  deriving DecidableEq, Repr

namespace ControlKey

def all : List ControlKey :=
  [arrowUp, arrowDown, arrowLeft, arrowRight]

def name : ControlKey -> String
  | arrowUp => "ArrowUp"
  | arrowDown => "ArrowDown"
  | arrowLeft => "ArrowLeft"
  | arrowRight => "ArrowRight"

def label : ControlKey -> String
  | arrowUp => "ARROW_UP"
  | arrowDown => "ARROW_DOWN"
  | arrowLeft => "ARROW_LEFT"
  | arrowRight => "ARROW_RIGHT"

def ofName? (s : String) : Option ControlKey :=
  all.find? fun k => k.name == s

theorem ofName?_name (k : ControlKey) : ofName? k.name = some k := by
  cases k <;> rfl

end ControlKey
end WireView
