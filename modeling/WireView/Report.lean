import WireView.Session
import WireView.Text.Whole

/-!
# Sessions as text

A batch of input is a line: the clock in thousandths of a second, then the keys
that went down or up and the closing of the window.  What a session notes is
written line by line: strokes with their pixels, captions, and the remarks that
pass the log level.
-/

namespace WireView
namespace Report

def inputEvent (word : String) : InputEvent :=
  if word = "quit" then .quit
  else
    match word.splitOn ":" with
    | ["down", code] =>
        ((Text.whole? code).map fun n => InputEvent.key .down n.toNat).getD
          .other
    | ["up", code] =>
        ((Text.whole? code).map fun n => InputEvent.key .up n.toNat).getD .other
    | _ => .other

def seconds (thousandths : Int) : Float :=
  let x := Float.ofScientific thousandths.natAbs true 3
  if thousandths < 0 then -x else x

def batch? (line : String) : Option (Float × List InputEvent) :=
  match (line.splitOn " ").filter fun w => !w.isEmpty with
  | [] => none
  | time :: words =>
      (Text.whole? time).map fun n => (seconds n, words.map inputEvent)

def pixelText (p : Pixel) : String :=
  toString p.x ++ " " ++ toString p.y

def strokeText : Stroke -> String
  | .fill _ => "clear"
  | .line _ p q _ => "line " ++ pixelText p ++ " " ++ pixelText q
  | .circle _ p r => "circle " ++ pixelText p ++ " " ++ r.repr
  | .font name size => "font " ++ name ++ " " ++ size.repr
  | .render text _ => "render " ++ text
  | .blit text p => "text " ++ pixelText p ++ " " ++ text

def noteText (level : LogLevel) : Note -> Option String
  | .stroke s => some (strokeText s)
  | .caption text => some ("caption " ++ text)
  | .remark r =>
      if r.passes level then
        some (r.level.name ++ " " ++ r.source ++ ": " ++ r.message)
      else
        none
  | .polled => none
  | .paced _ => none
  | .tick _ _ => none
  | .key _ _ => none

def session (o : CommandLine.Options) (lines : List String) :
    Except Failure (List String) := do
  let level ← o.level?
  let batches := lines.filterMap batch?
  let now := (batches.head?.map Prod.fst).getD 0.0
  let s ← Session.open? o now
  let (s, r) := (Session.run batches).perform s
  let written := s.host.journal.reverse.filterMap (noteText level)
  match r with
  | .ok _ => .ok written
  | .error e => .error e

end Report
end WireView
