import WireView.Remark
import WireView.Settings
import WireView.Text.Digit
import WireView.Text.Quoted
import WireView.Text.Whole

/-!
# The command line

Arguments are first sorted: options, known or not, plain arguments, and the
separator, after which all is plain.  A long option may be shortened as long as
one option is meant; a shortening of several is refused at once.  The sorted
arguments are then taken from left to right, the last value of an option
winning, and the first request for help or refusal ends it.  What is left over
is refused at the end.
-/

namespace WireView
namespace CommandLine

inductive Picture where
  | cube
  | arrow
  deriving DecidableEq, Repr

def Picture.name : Picture -> String
  | .cube => "cube"
  | .arrow => "arrow"

def Picture.all : List Picture :=
  [.cube, .arrow]

def Picture.ofName? (s : String) : Option Picture :=
  Picture.all.find? fun p => p.name == s

/-- What has been chosen; an option whose value is the bare separator is left
without a choice. -/
structure Options where
  picture : Option Picture := some .cube
  rate : Option Int := some (Settings.targetRate : Int)
  devMode : Bool := false
  logLevel : Option LogLevel := some .info
  deriving DecidableEq, Repr

def Options.level? (o : Options) : Except Failure LogLevel :=
  match o.logLevel with
  | some l => .ok l
  | none => .error .emptyLevel

def levels : List LogLevel :=
  [.debug, .info, .warning, .error]

def levelOfName? (s : String) : Option LogLevel :=
  levels.find? fun l => l.name == s

inductive Flag where
  | help
  | picture
  | rate
  | devMode
  | logLevel
  deriving DecidableEq, Repr

def spellings : List (String × Flag) :=
  [("-h", .help), ("--help", .help), ("--logic", .picture), ("--fps", .rate),
    ("--dev-mode", .devMode), ("--log-level", .logLevel)]

def Flag.title (f : Flag) : String :=
  String.intercalate "/" ((spellings.filter fun s => s.2 == f).map Prod.fst)

def Flag.choices : Flag -> List String
  | .picture => Picture.all.map Picture.name
  | .logLevel => levels.map LogLevel.name
  | _ => []

/-!
# Refusals
-/

inductive Refused where
  | notWhole (text : String)
  | noChoice (flag : Flag) (text : String)
  | noValue (flag : Flag)
  | surplus (flag : Flag) (text : String)
  | leftOver (arguments : List String)
  | ambiguous (argument : String) (meant : List String)
  deriving DecidableEq, Repr

def ofArgument (f : Flag) (s : String) : String :=
  "argument " ++ f.title ++ ": " ++ s

def Refused.message : Refused -> String
  | .notWhole s => ofArgument .rate ("invalid int value: " ++ Text.quoted s)
  | .noChoice f s =>
      ofArgument f ("invalid choice: " ++ Text.quoted s ++ " (choose from "
        ++ String.intercalate ", " (f.choices.map Text.quoted) ++ ")")
  | .noValue f => ofArgument f "expected one argument"
  | .surplus f s => ofArgument f ("ignored explicit argument " ++ Text.quoted s)
  | .leftOver args => "unrecognized arguments: " ++ String.intercalate " " args
  | .ambiguous s meant =>
      "ambiguous option: " ++ s ++ " could match " ++
        String.intercalate ", " meant

/-!
# Sorting
-/

/-- What is attached to an option: nothing, the value of a long one, or what
follows a short one. -/
inductive Attached where
  | nothing
  | value (text : List Char)
  | tail (text : List Char)
  deriving DecidableEq, Repr

inductive Token where
  | plain
  | separator
  | unknown
  | option (flag : Flag) (attached : Attached)
  deriving DecidableEq, Repr

def isDecimal (cs : List Char) : Bool :=
  let isDigit (c : Char) : Bool := (Text.digit? c).isSome
  let cs := if cs.getLast? == some '\n' then cs.dropLast else cs
  let tail := cs.dropWhile isDigit
  match tail with
  | [] => !cs.isEmpty
  | '.' :: fraction => !fraction.isEmpty && fraction.all isDigit
  | _ => false

def Attached.ofValue (stem value : List Char) : Attached :=
  match stem with
  | '-' :: '-' :: _ => .value value
  | _ => .tail value

def splitValue (cs : List Char) : List Char × Attached :=
  let stem := cs.takeWhile (· ≠ '=')
  match cs.dropWhile (· ≠ '=') with
  | _ :: value => (stem, .ofValue stem value)
  | [] => (stem, .nothing)

def spelled (cs : List Char) : Option Flag :=
  spellings.lookup (String.ofList cs)

def candidates (cs : List Char) : List (String × Token) :=
  match cs with
  | '-' :: '-' :: _ =>
      let (stem, attached) := splitValue cs
      (spellings.filter fun s => stem.isPrefixOf s.1.toList).map fun s =>
        (s.1, .option s.2 attached)
  | _ =>
      spellings.filterMap fun s =>
        if s.1.toList == cs.take 2 then
          some (s.1, .option s.2 (.tail (cs.drop 2)))
        else if cs.isPrefixOf s.1.toList then some (s.1, .option s.2 .nothing)
        else none

/-- Sorts an argument that starts with a dash and is more than a dash. -/
def sortDashed (s : String) : Except Refused Token :=
  let cs := s.toList
  let (stem, attached) := splitValue cs
  match spelled cs, spelled stem with
  | some f, _ => .ok (.option f .nothing)
  | none, some f => .ok (.option f attached)
  | none, none =>
      match candidates cs with
      | [] =>
          .ok
            (if isDecimal cs.tail || cs.contains ' ' then .plain else .unknown)
      | [(_, t)] => .ok t
      | several => .error (.ambiguous s (several.map Prod.fst))

def sortOne (s : String) : Except Refused Token :=
  match s.toList with
  | '-' :: _ :: _ => sortDashed s
  | _ => .ok .plain

def sort : List String -> Except Refused (List (String × Token))
  | [] => .ok []
  | s :: rest =>
      if s = "--" then
        .ok ((s, .separator) :: rest.map fun r => (r, .plain))
      else
        do
        let t ← sortOne s
        let ts ← sort rest
        .ok ((s, t) :: ts)

/-!
# Taking
-/

inductive Outcome where
  | run (options : Options)
  | help
  | refused (why : Refused)
  deriving DecidableEq, Repr

/-- Reads the value of an option, unless it is the bare separator, which gives
no value. -/
def given {α : Type} (value : String) (read : String -> Option α)
    (refusal : Refused) : Except Refused (Option α) :=
  if value = "--" then .ok none
  else
    match read value with
    | some a => .ok (some a)
    | none => .error refusal

def Options.give (o : Options) (f : Flag) (value : String) :
    Except Refused Options :=
  match f with
  | .picture =>
      (given value Picture.ofName? (.noChoice f value)).map fun p =>
        { o with picture := p }
  | .logLevel =>
      (given value levelOfName? (.noChoice f value)).map fun l =>
        { o with logLevel := l }
  | .rate =>
      (given value Text.whole? (.notWhole value)).map fun n =>
        { o with rate := n }
  | .devMode => .ok { o with devMode := true }
  | .help => .ok o

/-- Behind the short request for help only further such requests may follow. -/
def askHelp : List Char -> Outcome
  | ['h'] => .help
  | 'h' :: rest => askHelp rest
  | rest => .refused (.surplus .help (String.ofList rest))

def ofAttached : Attached -> Option String
  | .nothing => none
  | .value cs => some (String.ofList cs)
  | .tail cs => some (String.ofList cs)

/-- Takes sorted arguments; `left` holds what is left over, latest first. -/
def take (o : Options) (left : List String) : List (String × Token) -> Outcome
  | [] => if left.isEmpty then .run o else .refused (.leftOver left.reverse)
  | (_, .option .help attached) :: _ =>
      match attached with
      | .nothing => .help
      | .value cs => .refused (.surplus .help (String.ofList cs))
      | .tail cs => askHelp cs
  | (_, .option .devMode attached) :: rest =>
      match ofAttached attached with
      | none => take { o with devMode := true } left rest
      | some s => .refused (.surplus .devMode s)
  | [(_, .option f attached)] =>
      match ofAttached attached with
      | none => .refused (.noValue f)
      | some s =>
          match o.give f s with
          | .ok o => take o left []
          | .error e => .refused e
  | (_, .option f attached) :: (next, t) :: rest =>
      match ofAttached attached, t with
      | some s, _ =>
          match o.give f s with
          | .ok o => take o left ((next, t) :: rest)
          | .error e => .refused e
      | none, .plain =>
          match o.give f next with
          | .ok o => take o left rest
          | .error e => .refused e
      | none, _ => .refused (.noValue f)
  | (s, _) :: rest => take o (s :: left) rest

def read (args : List String) : Outcome :=
  match sort args with
  | .ok ts => take {} [] ts
  | .error e => .refused e

/-!
# What is printed
-/

def choiceText (f : Flag) : String :=
  "\x7b" ++ String.intercalate "," f.choices ++ "\x7d"

def spaces (n : Nat) : String :=
  String.ofList (List.replicate n ' ')

def usage (program : String) : String :=
  let lead := "usage: " ++ program ++ " "
  lead ++ "[-h] [--logic " ++ choiceText .picture ++
    "] [--fps FPS] [--dev-mode]\n"
    ++ spaces lead.length ++ "[--log-level " ++ choiceText .logLevel ++ "]\n"

def description : String :=
  "Keyboard-driven 3D wireframe cube. Arrow keys spin it, R resets, P pauses, "
    ++ "Esc\nquits.\n"

def helpColumn : Nat := 24

def helpLine (option explanation : String) : String :=
  let lead := "  " ++ option
  (if lead.length + 2 ≤ helpColumn then
      lead ++ spaces (helpColumn - lead.length)
    else
      lead ++ "\n" ++ spaces helpColumn) ++ explanation ++ "\n"

def helpText (program : String) : String :=
  usage program ++ "\n" ++ description ++ "\noptions:\n"
    ++ helpLine "-h, --help" "show this help message and exit"
    ++ helpLine ("--logic " ++ choiceText .picture)
      "What to draw (default: cube)"
    ++ helpLine "--fps FPS"
      ("Repaint rate cap (default: " ++ Settings.targetRate.repr ++ ")")
    ++ helpLine "--dev-mode" "Reserved development flag"
    ++ helpLine ("--log-level " ++ choiceText .logLevel)
      "Logging verbosity (default: INFO)"

/-- An end of the program before it has started: its code and what it prints. -/
structure Exit where
  code : Nat
  output : String
  errors : String
  deriving DecidableEq, Repr

def exitOf (program : String) : Outcome -> Except Exit Options
  | .run o => .ok o
  | .help => .error ⟨0, helpText program, ""⟩
  | .refused e =>
      .error ⟨2, "",
        usage program ++ program ++ ": error: " ++ e.message ++ "\n"⟩

def options (program : String) (args : List String) : Except Exit Options :=
  exitOf program (read args)

end CommandLine
end WireView
