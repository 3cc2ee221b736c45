import WireView.Host.World

/-!
# Opening and mounting

Windows open and shut, viewers come into being on them, canvases move between
containers.  None of this calls outside code, so each is a single act.

A viewer needs a window, a document that makes its canvas, and a container that
takes it.  What is missing is reported in this order, and a refusal of the host
becomes the cause of the failure to start.
-/

namespace WireView

def Failure.isDisplayRefusal : Failure -> Bool
  | .refused .surface _ | .surfaceSize | .outOfMemory | .windowSize
  | .windowTooLarge | .videoClosed | .screenClosed => true
  | _ => false

def Failure.isBadValue : Failure -> Bool
  | .refused .value _ | .surfaceSizeTooLarge | .noColor | .zeroInTitle
  | .alreadyAttached | .notAChild => true
  | _ => false

namespace Host

variable {K L : Type}

def act (f : Host K L -> Host K L) : Act (Host K L) Unit :=
  modify f

/-!
# Windows
-/

def sizeDisplay (width height : Int) : Act (Host K L) Unit := do
  act fun h => { h with display := { h.display with isOpen := true } }
  match Number.lowHalf? width, Number.lowHalf? height with
  | some w, some h =>
      if w < 0 ∨ h < 0 then
        throw .windowSize
      let size ← Act.ofResult ((← get).display.sizeFor? w.toNat h.toNat)
      act fun h => { h with display := { h.display with size := some size } }
  | _, _ => throw .windowSizeTooLarge

def showTitle (title : String) : Act (Host K L) Unit := do
  act fun h => h.note (.caption title)
  if title.contains (Char.ofNat 0) then
    throw .zeroInTitle

def openWindow (width height : Int) (title : String) : Act (Host K L) Nat := do
  sizeDisplay width height
  showTitle title
  let h ← get
  let a := h.windows.size
  let (t, body) := h.tree.addContainer {}
  let w : Window K :=
    { width := width, height := height, document := some { body := some body },
      session := h.display.session }
  set { h with
    tree := t
    windows := h.windows.push w
    current := some a }
  act fun h => h.remark (.windowOpened width height title)
  pure a

/-- Closes a window and, with it, the display; input that is still queued is
lost. -/
def shutDown (a : Nat) : Act (Host K L) Unit :=
  act fun h =>
    match h.windows[a]? with
    | none => h
    | some w =>
        if w.isClosed then h
        else
          let h := h.onWindow a fun w => { w with isClosed := true }
          { h with
            current := if h.current = some a then none else h.current
            input := []
            display := { session := h.display.session + 1 }
            journal := .remark .windowClosed :: h.journal }

def body? (h : Host K L) (a : Nat) : Option Nat :=
  (h.windows[a]?).bind fun w => w.document.bind Document.body

def swapBy (place : Image.Placing) (a : Nat) : Act (Host K L) Image := do
  let h ← get
  match h.windows[a]? with
  | none => throw .screenClosed
  | some w =>
      if !h.display.isOpen || h.display.session != w.session then
        throw .screenClosed
      let (width, height) := h.display.size.getD (0, 0)
      let blank := Image.plain width height Settings.windowColor
      match h.body? a with
      | some c => Act.ofResult (h.tree.composeBy place c blank)
      | none => pure blank

def swap (a : Nat) : Act (Host K L) Image :=
  swapBy Image.place? a

/-!
# Viewers
-/

def createElement (d : Document) (width height : Int) : Act (Host K L) Nat := do
  match d.refusal with
  | some (how, text) => throw (.refused how text)
  | none =>
      let i ← Act.ofResult (Image.ofSize? width height)
      let h ← get
      let (t, k) := h.tree.addCanvas i
      set { h with tree := t }
      act fun h => h.remark (.canvasCreated width height)
      pure k

def makeCanvas (d : Document) : Act (Host K L) Nat :=
  tryCatch (createElement d Settings.canvasWidth Settings.canvasHeight) fun e =>
    throw (if e.isDisplayRefusal || e.isBadValue then .canvasRefused e else e)

def attachCanvas (c k : Nat) : Act (Host K L) Unit := do
  let h ← get
  let t ← Act.ofResult (h.tree.append? c k)
  set { h with tree := t }

def mountCanvas (c k : Nat) : Act (Host K L) Unit :=
  tryCatch (attachCanvas c k) fun e =>
    throw (if e.isBadValue then .mountRefused e else e)

/-- Makes a canvas and mounts it in the given container, else in the body of the
window's document. -/
def provideCanvas (window container : Option Nat) :
    Act (Host K L) (Nat × Nat) := do
  let h ← get
  match window <|> h.current with
  | none => throw .noWindow
  | some a =>
      match (h.windows[a]?).bind Window.document with
      | none => throw .noDocument
      | some d =>
          let k ← makeCanvas d
          match container <|> d.body with
          | none => throw .noContainer
          | some c =>
              mountCanvas c k
              pure (a, k)

def createViewer [LoopLogic L] (window container : Option Nat) (devMode : Bool)
    (logic : L) :
    Act (Host K L) Nat := do
  let (a, k) ← provideCanvas window container
  let h ← get
  let i := h.tree.image k
  let v : Viewer K L :=
    { window := a, canvas := k, easel := h.easel, logic := logic,
      devMode := devMode }
  set { h with viewers := h.viewers.push v }
  act fun h =>
    h.remark (.viewerCreated i.width i.height (LoopLogic.name logic) devMode)
  pure h.viewers.size

def detachCanvas (k : Nat) : Act (Host K L) Unit := do
  let h ← get
  let t ← Act.ofResult (h.tree.remove? k)
  set { h with tree := t }

def closeViewer [DecidableEq K] (g : Nat) : Act (Host K L) Unit := do
  match (← get).viewers[g]? with
  | none => pure ()
  | some v =>
      if v.isClosed then
        pure ()
      else
        act fun h => h.onLoop g fun v w => v.shut g w
        detachCanvas v.canvas
        act fun h => h.remark .viewerClosed

/-!
# Other canvases
-/

def addContainer (c : Container) : Act (Host K L) Nat := do
  let h ← get
  let (t, c) := h.tree.addContainer c
  set { h with tree := t }
  pure c

def removeChild (c k : Nat) : Act (Host K L) Unit := do
  let h ← get
  let t ← Act.ofResult (h.tree.removeChild? c k)
  set { h with tree := t }

def addCanvas (width height : Int) (shares : List Int) :
    Act (Host K L) Nat := do
  let i ← Act.ofResult (Image.ofSize? width height)
  let color ← Act.ofResult (Color.ofShares? shares)
  let h ← get
  let (t, k) := h.tree.addCanvas (i.fill color)
  set { h with tree := t }
  pure k

end Host
end WireView
