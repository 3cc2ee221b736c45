import Mathlib.Data.List.ReduceOption
import WireView.Proofs.Host.Arranging

/-!
# Starting a viewer

A viewer needs a window with a document that makes its canvas, and a place that
takes it.  Each of these can be in the way on its own, and a host can have
several of them in the way at once; the first one is reported.  The canvas is
made before its place is known, so that a viewer may fail with a canvas made:
that canvas lies nowhere, and nothing else has changed.
-/

namespace WireView
namespace Host

open Act

variable {K L : Type}

/-!
# What a viewer needs
-/

def windowFor (h : Host K L) (window : Option Nat) : Option Nat :=
  window <|> h.current

def documentFor (h : Host K L) (window : Option Nat) : Option Document :=
  (h.windowFor window).bind fun a => (h.windows[a]?).bind Window.document

def placeFor (h : Host K L) (window container : Option Nat) : Option Nat :=
  container <|> (h.documentFor window).bind Document.body

/-- All that is in the way of a viewer, each thing looked at on its own. -/
def obstacles (h : Host K L) (window container : Option Nat) : List Failure :=
  [ if (h.windowFor window).isNone then some .noWindow else none,
    if (h.documentFor window).isNone then some .noDocument else none,
    ((h.documentFor window).bind Document.refusal).map fun r =>
      .canvasRefused (.refused r.1 r.2),
    if (h.placeFor window container).isNone then some .noContainer else none,
    ((h.placeFor window container).bind h.tree.refusal).map fun r =>
      .mountRefused (.refused r.1 r.2) ].reduceOption

/-- A host on which at most a canvas has been made that lies nowhere. -/
structure Untouched (h h' : Host K L) : Prop where
  containers : h'.tree.containers = h.tree.containers
  parents : forall k, h'.tree.parent k = h.tree.parent k
  images : forall k,
    k < h.tree.canvases.size -> h'.tree.image k = h.tree.image k
  windows : h'.windows = h.windows
  viewers : h'.viewers = h.viewers
  elsewhere : { h' with tree := h.tree, journal := h.journal } = h

theorem Untouched.refl (h : Host K L) : Untouched h h :=
  ⟨rfl, fun _ => rfl, fun _ _ => rfl, rfl, rfl, rfl⟩

def blankCanvas : Image :=
  .plain Settings.canvasWidth Settings.canvasHeight Image.black

def withCanvas (h : Host K L) : Host K L :=
  { h with
    tree := (h.tree.addCanvas blankCanvas).1
    journal :=
      .remark (.canvasCreated Settings.canvasWidth Settings.canvasHeight) ::
        h.journal }

theorem untouched_withCanvas (h : Host K L) : Untouched h h.withCanvas where
  containers := rfl
  parents := Tree.parent_addCanvas h.tree blankCanvas
  images k hk := by
    show (h.tree.addCanvas blankCanvas).1.image k = _
    rw [Tree.image_addCanvas, if_neg (Nat.ne_of_lt hk)]
  windows := rfl
  viewers := rfl
  elsewhere := rfl

/-!
# Making and mounting
-/

theorem perform_makeCanvas_willing {d : Document} (willing : d.refusal = none)
    (h : Host K L) :
    (makeCanvas d).perform h = (h.withCanvas, .ok h.tree.canvases.size) := by
  unfold makeCanvas createElement
  rw [perform_tryCatch, willing]
  rfl

theorem perform_makeCanvas_refusing {d : Document} {how : Refusal}
    {text : String} (refuses : d.refusal = some (how, text))
    (known : how ≠ .other) (h : Host K L) :
    (makeCanvas d).perform h =
      (h, .error (.canvasRefused (.refused how text))) := by
  unfold makeCanvas createElement
  rw [perform_tryCatch, refuses]
  cases how with
  | surface => rfl
  | value => rfl
  | other => exact absurd rfl known

theorem perform_mountCanvas_willing {c k : Nat} {h : Host K L}
    (willing : h.tree.refusal c = none) (free : h.tree.parent k = none) :
    (mountCanvas c k).perform h =
      ({ h with tree := h.tree.link c k }, .ok ()) := by
  unfold mountCanvas
  rw [perform_tryCatch, attachCanvas_willing willing, free]
  rfl

theorem perform_mountCanvas_refusing {c : Nat} {text : String} {h : Host K L}
    (refuses : h.tree.refusal c = some (.value, text)) (k : Nat) :
    (mountCanvas c k).perform h =
      (h, .error (.mountRefused (.refused .value text))) := by
  unfold mountCanvas attachCanvas Tree.append?
  rw [perform_tryCatch, perform_bind, perform_get]
  dsimp only
  rw [refuses, perform_bind]
  rfl

/-- The documents and containers of a viewer that is to start: the place exists,
a document gives up as the display does or because of the value, and a container
because of the value. -/
structure Usual (h : Host K L) (window container : Option Nat) : Prop where
  place : forall {c},
    h.placeFor window container = some c -> c < h.tree.containers.size
  document : forall {d how text},
    h.documentFor window = some d -> d.refusal = some (how, text) ->
    how ≠ .other
  container : forall {c how text}, h.placeFor window container = some c ->
    h.tree.refusal c = some (how, text) -> how = .value

section Cases

variable {h : Host K L} {window container : Option Nat} {a : Nat} {d : Document}

theorem provideCanvas_noWindow (hwindow : h.windowFor window = none) :
    (provideCanvas window container).perform h = (h, .error .noWindow) := by
  unfold provideCanvas
  rw [perform_bind, perform_get]
  dsimp only
  rw [show (window <|> h.current) = none from hwindow]
  rfl

theorem documentFor_of_window (hwindow : h.windowFor window = some a) :
    h.documentFor window = (h.windows[a]?).bind Window.document := by
  unfold documentFor
  rw [hwindow]
  rfl

theorem provideCanvas_noDocument (hwindow : h.windowFor window = some a)
    (hdocument : h.documentFor window = none) :
    (provideCanvas window container).perform h = (h, .error .noDocument) := by
  unfold provideCanvas
  rw [perform_bind, perform_get]
  dsimp only
  rw [show (window <|> h.current) = some a from hwindow]
  dsimp only
  rw [← documentFor_of_window hwindow, hdocument]
  rfl

def mountIn (a k : Nat) : Option Nat -> Act (Host K L) (Nat × Nat)
  | none => throw .noContainer
  | some c => do
      mountCanvas c k
      pure (a, k)

theorem provideCanvas_document (hwindow : h.windowFor window = some a)
    (hdocument : h.documentFor window = some d) :
    (provideCanvas window container).perform h =
      (makeCanvas d >>=
        fun k => mountIn a k (h.placeFor window container)).perform h := by
  have hplace : h.placeFor window container = (container <|> d.body) := by
    unfold placeFor
    rw [hdocument]
    rfl
  unfold provideCanvas
  rw [perform_bind, perform_get, hplace]
  dsimp only
  rw [show (window <|> h.current) = some a from hwindow]
  dsimp only
  rw [← documentFor_of_window hwindow, hdocument]
  rfl

theorem provideCanvas_willing (hwindow : h.windowFor window = some a)
    (hdocument : h.documentFor window = some d) (willing : d.refusal = none) :
    (provideCanvas window container).perform h =
      (mountIn a h.tree.canvases.size (h.placeFor window container)).perform
        h.withCanvas := by
  rw [provideCanvas_document hwindow hdocument, perform_bind,
    perform_makeCanvas_willing willing]

end Cases

/-- A canvas is provided if nothing is in the way, and otherwise the first
obstacle is reported. -/
theorem provideCanvas_outcome {h : Host K L} {window container : Option Nat}
    (usual : Usual h window container) :
    (exists e rest h', h.obstacles window container = e :: rest
        ∧ (provideCanvas window container).perform h = (h', .error e)
        ∧ Untouched h h')
      ∨ h.obstacles window container = []
        ∧ exists a c,
          h.windowFor window = some a ∧ h.placeFor window container = some c
          ∧ (provideCanvas window container).perform h =
            ({ h.withCanvas with
                tree := h.withCanvas.tree.link c h.tree.canvases.size },
              .ok (a, h.tree.canvases.size)) := by
  unfold obstacles
  cases hwindow : h.windowFor window with
  | none =>
      exact .inl ⟨.noWindow, _, h, rfl, provideCanvas_noWindow hwindow, .refl h⟩
  | some a =>
      cases hdocument : h.documentFor window with
      | none =>
          exact .inl
            ⟨.noDocument, _, h, rfl, provideCanvas_noDocument hwindow hdocument,
             .refl h⟩
      | some d =>
          rw [Option.bind_some]
          cases hrefusal : d.refusal with
          | some r =>
              refine .inl
                ⟨.canvasRefused (.refused r.1 r.2), _, h, rfl, ?_, .refl h⟩
              rw [provideCanvas_document hwindow hdocument, perform_bind,
                perform_makeCanvas_refusing hrefusal
                  (usual.document hdocument hrefusal)]
          | none =>
              -- The canvas is there by now, and only its place can still be in
              -- the way.
              have hmounts : (provideCanvas window container).perform h = _ :=
                provideCanvas_willing hwindow hdocument hrefusal
              cases hplace : h.placeFor window container with
              | none =>
                  rw [hplace] at hmounts
                  exact .inl
                    ⟨.noContainer, _, _, rfl, hmounts, untouched_withCanvas h⟩
              | some c =>
                  rw [hplace, mountIn, perform_bind] at hmounts
                  rw [Option.bind_some]
                  cases htakes : h.tree.refusal c with
                  | some r =>
                      obtain ⟨how, text⟩ := r
                      obtain rfl := usual.container hplace htakes
                      rw [perform_mountCanvas_refusing (h := h.withCanvas)
                        htakes] at hmounts
                      exact .inl
                        ⟨.mountRefused (.refused .value text), _, _, rfl,
                        hmounts, untouched_withCanvas h⟩
                  | none =>
                      rw [perform_mountCanvas_willing (h := h.withCanvas) htakes
                        (fresh_canvas h.tree blankCanvas).2] at hmounts
                      exact .inr ⟨rfl, a, c, rfl, rfl, hmounts⟩

/-!
# Why a viewer does not start
-/

theorem mem_obstacles {h : Host K L} {window container : Option Nat}
    {e : Failure} :
    e ∈ h.obstacles window container ↔
      h.windowFor window = none ∧ e = .noWindow
      ∨ h.documentFor window = none ∧ e = .noDocument
      ∨ (exists d how text,
        h.documentFor window = some d ∧ d.refusal = some (how, text)
          ∧ e = .canvasRefused (.refused how text))
      ∨ h.placeFor window container = none ∧ e = .noContainer
      ∨ exists c how text, h.placeFor window container = some c
          ∧ h.tree.refusal c = some (how, text)
          ∧ e = .mountRefused (.refused how text) := by
  have missing {α : Type} (o : Option α) (f : Failure) :
      some e = (if o.isNone then some f else none) ↔ o = none ∧ e = f := by
    cases o <;> simp
  have refused {α : Type} (o : Option α) (g : α -> Option (Refusal × String))
      (f : Failure -> Failure) :
      some e = (o.bind g).map (fun r => f (.refused r.1 r.2))
        ↔ exists x how text,
          o = some x ∧ g x = some (how, text) ∧ e = f (.refused how text) := by
    rcases o with _ | x
    · simp
    · rcases hx : g x with _ | ⟨how, text⟩ <;> simp [hx]
  unfold obstacles
  rw [List.reduceOption_mem_iff]
  simp only [List.mem_cons, List.not_mem_nil, or_false, missing, refused]

/-- If a failure has a cause, then the document or the container has refused
with the text that the failure repeats. -/
def Explained (h : Host K L) (window container : Option Nat) (e : Failure) :
    Prop :=
  forall cause, e.cause? = some cause -> exists how text,
    cause = .refused how text
    ∧ ((exists d, h.documentFor window = some d ∧ d.refusal = some (how, text)
          ∧ e = .canvasRefused cause
          ∧ e.message = "canvas creation failed\n" ++ text)
      ∨ exists c,
        h.placeFor window container = some c
          ∧ h.tree.refusal c = some (how, text)
          ∧ e = .mountRefused cause
          ∧ e.message = "failed to append child\n" ++ text)

theorem explained_of_mem {h : Host K L} {window container : Option Nat}
    {e : Failure} (he : e ∈ h.obstacles window container) :
    Explained h window container e := by
  intro cause hcause
  rcases mem_obstacles.mp he with
    ⟨_, rfl⟩ | ⟨_, rfl⟩ | ⟨d, how, text, hd, hrefusal, rfl⟩ | ⟨_, rfl⟩
      | ⟨c, how, text, hc, hrefusal, rfl⟩
  · cases hcause
  · cases hcause
  · cases hcause
    exact ⟨how, text, rfl, .inl ⟨d, hd, hrefusal, rfl, rfl⟩⟩
  · cases hcause
  · cases hcause
    exact ⟨how, text, rfl, .inr ⟨c, hc, hrefusal, rfl, rfl⟩⟩

/-!
# All or nothing
-/

section Starting

variable [LoopLogic L]

def withViewerOn (h : Host K L) (a c : Nat) (devMode : Bool) (logic : L) :
    Host K L :=
  { h with
    tree := (h.tree.addCanvas blankCanvas).1.link c h.tree.canvases.size
    viewers := h.viewers.push
      { window := a, canvas := h.tree.canvases.size, easel := h.easel,
        logic := logic, devMode := devMode }
    journal := .remark (.viewerCreated 480 360 (LoopLogic.name logic) devMode)
      :: .remark (.canvasCreated 480 360) :: h.journal }

theorem image_withViewerOn (h : Host K L) (a c : Nat) (devMode : Bool)
    (logic : L) (k : Nat) :
    (h.withViewerOn a c devMode logic).tree.image k =
      if k = h.tree.canvases.size then blankCanvas else h.tree.image k := by
  unfold withViewerOn
  rw [Tree.image_link, Tree.image_addCanvas]

theorem appended_withViewerOn {h : Host K L} {c : Nat}
    (place : c < h.tree.containers.size) (a : Nat) (devMode : Bool)
    (logic : L) :
    Appended h.tree c h.tree.canvases.size
      (h.withViewerOn a c devMode logic).tree := by
  have hlink := appended_link (t := (h.tree.addCanvas blankCanvas).1) place
    (fresh_canvas h.tree blankCanvas).1
  constructor
  · exact hlink.last
  · exact hlink.elsewhere
  · intro j
    have hparents := hlink.parents j
    rw [Tree.parent_addCanvas] at hparents
    exact hparents

theorem createViewer_outcome {h : Host K L} {window container : Option Nat}
    (usual : Usual h window container) (devMode : Bool) (logic : L) :
    (exists e rest h', h.obstacles window container = e :: rest
        ∧ (createViewer window container devMode logic).perform h =
          (h', .error e)
        ∧ Untouched h h')
      ∨ h.obstacles window container = []
        ∧ exists a c,
          h.windowFor window = some a ∧ h.placeFor window container = some c
          ∧ (createViewer window container devMode logic).perform h =
              (h.withViewerOn a c devMode logic, .ok h.viewers.size) := by
  unfold createViewer
  rw [perform_bind]
  rcases provideCanvas_outcome usual with
    ⟨e, rest, h', hobstacles, hfails, same⟩
      | ⟨hobstacles, a, c, hwindow, hplace, hprovides⟩
  · rw [hfails]
    exact .inl ⟨e, rest, h', hobstacles, rfl, same⟩
  · rw [hprovides]
    refine .inr ⟨hobstacles, a, c, hwindow, hplace, ?_⟩
    have himage := image_withViewerOn h a c devMode logic h.tree.canvases.size
    rw [if_pos rfl] at himage
    dsimp only
    rw [perform_bind, perform_get]
    dsimp only
    rw [show (h.withCanvas.tree.link c h.tree.canvases.size).image
      h.tree.canvases.size = _
      from himage]
    rfl

/-- If nothing is in the way, a viewer starts with a blank canvas that lies last
in its place, and all else is as before.  Otherwise the first obstacle in the
order of looking is the failure, with the refusal behind it as the cause, and
nothing has changed but that a canvas may have been made.  A container that
refuses nothing is never in the way. -/
theorem viewer_starts_or_nothing_changes {h : Host K L}
    {window container : Option Nat} (usual : Usual h window container)
    (devMode : Bool) (logic : L) :
    (h.obstacles window container = [] -> exists a c,
        h.windowFor window = some a ∧ h.placeFor window container = some c
        ∧ (createViewer window container devMode logic).perform h =
            (h.withViewerOn a c devMode logic, .ok h.viewers.size)
        ∧ Appended h.tree c h.tree.canvases.size
          (h.withViewerOn a c devMode logic).tree
        ∧ (h.withViewerOn a c devMode logic).tree.image h.tree.canvases.size =
            .plain 480 360 Image.black
        ∧ forall k, k ≠ h.tree.canvases.size ->
            (h.withViewerOn a c devMode logic).tree.image k = h.tree.image k)
      ∧ (forall e rest, h.obstacles window container = e :: rest -> exists h',
          (createViewer window container devMode logic).perform h =
            (h', .error e)
          ∧ Untouched h h' ∧ Explained h window container e)
      ∧ ((forall c,
            h.placeFor window container = some c -> h.tree.refusal c = none) ->
          forall cause,
            ((createViewer window container devMode logic).perform h).2
              ≠ .error (.mountRefused cause)) := by
  rcases createViewer_outcome usual devMode logic with
    ⟨e, rest, h', hobstacles, hfails, same⟩
      | ⟨hobstacles, a, c, hwindow, hplace, hstarts⟩
  · have explained : Explained h window container e :=
      explained_of_mem (hobstacles ▸ List.mem_cons_self)
    rw [hobstacles, hfails]
    refine ⟨nofun, ?_, ?_⟩
    · rintro e' rest' hcons
      obtain ⟨rfl, rfl⟩ := List.cons.inj hcons
      exact ⟨h', rfl, same, explained⟩
    · rintro own cause hmount
      cases hmount
      rcases explained cause rfl with
        ⟨how, text, _, ⟨_, _, _, hcanvas, _⟩ | ⟨c, hc, hrefusal, _⟩⟩
      · cases hcanvas
      · rw [own c hc] at hrefusal
        cases hrefusal
  · rw [hobstacles, hstarts]
    refine ⟨fun _ => ?_, nofun, fun _ _ => nofun⟩
    refine ⟨a, c, hwindow, hplace, rfl, ?_, ?_, ?_⟩
    · exact appended_withViewerOn (usual.place hplace) a devMode logic
    · rw [image_withViewerOn, if_pos rfl]
      rfl
    · intro k hk
      rw [image_withViewerOn, if_neg hk]

end Starting

/-- The document of the first window makes no canvas and has no body; that of
the second has a body in which a canvas lies.  A further container is full. -/
def crowdedHost : Host String Logic :=
  { oneViewer .standard with
    windows := #[
      { width := 8, height := 6, session := 0
        document := some
          { body := none, refusal := some (.surface, "out of video memory") } },
      { width := 8, height := 6, session := 0
        document := some { body := some 0 } }]
    tree :=
      { containers := #[{ children := [0] },
          { refusal := some (.value, "container is full") }]
        canvases := #[{ image := .plain 4 3 Image.black, parent := some 0 }] }
    current := some 1 }

/-- A new canvas comes second in the body; the document that fails in two ways
is reported for the first; the full container leaves everything as it was. -/
theorem viewers_of_crowdedHost :
    ((createViewer none none false Logic.standard).perform
      crowdedHost).1.tree.children 0 = [0, 1]
      ∧ (exists h',
        (createViewer (some 0) none false Logic.standard).perform crowdedHost =
          (h',
            .error (.canvasRefused (.refused .surface "out of video memory")))
          ∧ Untouched crowdedHost h')
      ∧ exists h',
          (createViewer none (some 1) false Logic.standard).perform
            crowdedHost =
          (h', .error (.mountRefused (.refused .value "container is full")))
          ∧ Untouched crowdedHost h' := by
  refine ⟨?_, ?_, ?_⟩
  · have usual : Usual crowdedHost none none := by
      constructor
      · rintro c ⟨⟩
        decide
      · rintro d how text ⟨⟩ ⟨⟩
      · rintro c how text ⟨⟩ ⟨⟩
    rcases (viewer_starts_or_nothing_changes usual false Logic.standard).1
      rfl with
      ⟨a, c, hwindow, hplace, hstarts, happended, _⟩
    cases hplace
    rw [hstarts]
    exact happended.last
  · have usual : Usual crowdedHost (some 0) none := by
      constructor
      · rintro c ⟨⟩
      · rintro d how text ⟨⟩ ⟨⟩
        nofun
      · rintro c how text ⟨⟩
    rcases (viewer_starts_or_nothing_changes usual false Logic.standard).2.1 _ _
      rfl with
      ⟨h', hfails, same, _⟩
    exact ⟨h', hfails, same⟩
  · have usual : Usual crowdedHost none (some 1) := by
      constructor
      · rintro c ⟨⟩
        decide
      · rintro d how text ⟨⟩ ⟨⟩
      · rintro c how text ⟨⟩ ⟨⟩
        rfl
    rcases (viewer_starts_or_nothing_changes usual false Logic.standard).2.1 _ _
      rfl with
      ⟨h', hfails, same, _⟩
    exact ⟨h', hfails, same⟩

end Host
end WireView
