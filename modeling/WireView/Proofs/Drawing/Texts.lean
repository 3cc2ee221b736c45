import Mathlib.Data.List.Dedup
import WireView.Drawing.Easel
import WireView.Proofs.Act
import WireView.Proofs.Number.Nearest
import WireView.Proofs.Projection.Requests

/-!
# Texts that are kept

An easel keeps the texts that it has rendered and renders none of them again.
This cannot be seen: whatever is drawn, and whatever fails on the way, the
drawing is that of an easel which looks up the font and renders the text anew
each time.  What is rendered is told by the texts that were asked for: each of
them once, in the order in which they were first asked for.

All other drawing leaves texts alone.  It does the same on all easels with the
same tools, whatever they keep.

A history lists its drawings from the newest to the oldest.
-/

namespace WireView

namespace EaselNote

def rendered? : EaselNote -> Option String
  | .stroke (.render s _) => some s
  | _ => none

def isFont : EaselNote -> Bool
  | .stroke (.font _ _) => true
  | _ => false

/-- Everything but looking up the font and rendering texts leaves its mark on
the surface or in the log. -/
def isDrawn (n : EaselNote) : Bool :=
  !n.isFont && n.rendered?.isNone

def isPlain : EaselNote -> Bool
  | .stroke (.font _ _) => false
  | .stroke (.render _ _) => false
  | .stroke (.blit _ _) => false
  | _ => true

theorem rendered?_of_isPlain {n : EaselNote} (h : n.isPlain = true) :
    n.rendered? = none := by
  cases n with
  | stroke s => cases s <;> first | rfl | cases h
  | remark r => rfl

theorem isFont_of_isPlain {n : EaselNote} (h : n.isPlain = true) :
    n.isFont = false := by
  cases n with
  | stroke s => cases s <;> first | rfl | cases h
  | remark r => rfl

end EaselNote

namespace Easel

def drawn (record : List EaselNote) : List EaselNote :=
  record.filter EaselNote.isDrawn

def rendersIn (record : List EaselNote) : List String :=
  record.filterMap EaselNote.rendered?

/-!
# Drawing that leaves texts alone
-/

structure SameTools (e f : Easel) : Prop where
  width : e.width = f.width
  height : e.height = f.height
  projector : e.projector = f.projector

def withNotes (e : Easel) (p : Projector Float) (notes : List EaselNote) :
    Easel :=
  { e with projector := p, record := notes ++ e.record }

theorem SameTools.withNotes {e f : Easel} (h : SameTools e f)
    (p : Projector Float) (notes : List EaselNote) :
    SameTools (e.withNotes p notes) (f.withNotes p notes) :=
  ⟨h.width, h.height, rfl⟩

theorem withNotes_withNotes (e : Easel) (p q : Projector Float)
    (first rest : List EaselNote) :
    (e.withNotes p first).withNotes q rest = e.withNotes q (rest ++ first) := by
  unfold withNotes
  rw [List.append_assoc]

section wordless

variable {α β : Type}

/-- An act that leaves texts alone: with the same tools it notes the same
things, none of them about a text, and comes to the same end, whatever is
kept. -/
def Wordless (a : Act Easel α) : Prop :=
  forall e f, SameTools e f -> exists p notes r,
    (forall n, n ∈ notes -> n.isPlain = true)
    ∧ a.perform e = (e.withNotes p notes, r)
    ∧ a.perform f = (f.withNotes p notes, r)

theorem wordless_ofResult (r : Except Failure α) :
    Wordless (Act.ofResult r) := by
  intro e f same
  refine ⟨e.projector, [], r, nofun, rfl, ?_⟩
  rw [same.projector]
  rfl

theorem wordless_pure (a : α) : Wordless (pure a : Act Easel α) :=
  wordless_ofResult (.ok a)

theorem wordless_note {n : EaselNote} (h : n.isPlain = true) :
    Wordless (note n) := by
  intro e f same
  refine ⟨e.projector, [n], .ok (), ?_, rfl, ?_⟩
  · intro m hm
    rw [List.mem_singleton.mp hm]
    exact h
  · rw [same.projector]
    rfl

theorem wordless_bind {a : Act Easel α} {k : α -> Act Easel β} (ha : Wordless a)
    (hk : forall x, Wordless (k x)) : Wordless (a >>= k) := by
  intro e f same
  rcases ha e f same with ⟨p, notes, r, hplain, he, hf⟩
  rw [Act.perform_bind, Act.perform_bind, he, hf]
  cases r with
  | error failure => exact ⟨p, notes, .error failure, hplain, rfl, rfl⟩
  | ok x =>
      rcases hk x _ _ (same.withNotes p notes) with
        ⟨q, rest, r, hrest, he', hf'⟩
      refine ⟨q, rest ++ notes, r, ?_, ?_, ?_⟩
      · intro n hn
        exact (List.mem_append.mp hn).elim (hrest n) (hplain n)
      · rw [← withNotes_withNotes]
        exact he'
      · rw [← withNotes_withNotes]
        exact hf'

theorem wordless_get_bind {k : Easel -> Act Easel β}
    (tools : forall e f, SameTools e f -> k e = k f)
    (hk : forall e, Wordless (k e)) :
    Wordless (get >>= k) := by
  intro e f same
  rw [Act.perform_bind, Act.perform_bind, Act.perform_get, Act.perform_get]
  dsimp only
  rw [← tools e f same]
  exact hk e e f same

theorem wordless_drawPoint (p : ScreenPoint Float) : Wordless (drawPoint p) :=
  wordless_bind (wordless_ofResult _) fun _ => wordless_note rfl

theorem wordless_drawLine (p q : ScreenPoint Float) : Wordless (drawLine p q) :=
  wordless_bind (wordless_ofResult _) fun _ =>
    wordless_bind (wordless_ofResult _) fun _ => wordless_note rfl

theorem wordless_drawEdges (ps : List (ScreenPoint Float))
    (edges : List (Int × Int)) (skipped : Nat) :
    Wordless (drawEdges ps edges skipped) := by
  induction edges generalizing skipped with
  | nil => exact wordless_pure skipped
  | cons edge rest ih =>
      refine wordless_bind (wordless_ofResult _) fun p =>
        wordless_bind (wordless_ofResult _) fun q => ?_
      split
      · exact wordless_bind (wordless_drawLine p q) fun _ => ih skipped
      · exact ih (skipped + 1)

theorem wordless_drawPoints (ps : List (ScreenPoint Float)) (skipped : Nat) :
    Wordless (drawPoints ps skipped) := by
  induction ps generalizing skipped with
  | nil => exact wordless_pure skipped
  | cons p rest ih =>
      unfold drawPoints
      split
      · exact wordless_bind (wordless_drawPoint p) fun _ => ih skipped
      · exact ih (skipped + 1)

theorem wordless_drawProjected (ps : List (ScreenPoint Float))
    (edges : List (Int × Int)) :
    Wordless (drawProjected ps edges) := by
  refine wordless_bind (wordless_drawEdges ps edges 0) fun first =>
    wordless_bind (wordless_drawPoints ps first) fun skipped => ?_
  split
  · exact wordless_note rfl
  · exact wordless_pure ()

theorem wordless_drawWireframe (model : Wireframe Float) (rx ry rz : Float) :
    Wordless (drawWireframe model rx ry rz) := by
  refine wordless_get_bind (fun e f same => ?_) fun e => ?_
  · rw [same.projector]
  · exact wordless_bind (wordless_ofResult _) fun ps =>
      wordless_bind (wordless_drawProjected ps model.edges) fun _ =>
        wordless_pure ps

theorem wordless_drawWings (tip : ScreenPoint Float) (direction : Float)
    (offsets : List Float) :
    Wordless (drawWings tip direction offsets) := by
  induction offsets with
  | nil => exact wordless_pure ()
  | cons offset rest ih =>
      exact wordless_bind (wordless_ofResult _) fun wing =>
        wordless_bind (wordless_drawLine tip wing) fun _ => ih

theorem wordless_configure (changes : List (String × Float)) :
    Wordless (configure changes) := by
  intro e f same
  have hset : forall g : Easel, (configure changes).perform g =
      ((do
        Act.ofResult ((Projector.configure changes).perform g.projector).2
        note (.remark
          (.reconfigured
            ((Projector.configure changes).perform g.projector).1.config)) :
          Act Easel Unit)).perform
        (g.withNotes ((Projector.configure changes).perform g.projector).1
          []) := by
    intro g
    rfl
  rw [hset, hset, ← same.projector]
  generalize (Projector.configure changes).perform e.projector = outcome
  have hrest : Wordless (do
      Act.ofResult outcome.2
      note (.remark (.reconfigured outcome.1.config)) : Act Easel Unit) :=
    wordless_bind (wordless_ofResult _) fun _ => wordless_note rfl
  rcases hrest _ _ (same.withNotes outcome.1 []) with
    ⟨p, notes, r, hplain, he, hf⟩
  refine ⟨p, notes, r, hplain, ?_, ?_⟩
  · rw [he, withNotes_withNotes, List.append_nil]
  · rw [hf, withNotes_withNotes, List.append_nil]

end wordless

/-!
# Texts
-/

def fontNote : EaselNote :=
  .stroke (.font Settings.fontName Settings.fontSize)

def renderNote (s : String) : EaselNote :=
  .stroke (.render s Settings.textColor)

/-- What is kept for a text, or what it is rendered to. -/
def shown (e : Easel) (s : String) : Rendering :=
  (e.rendered.lookup s).getD s

def keeping (e : Easel) (s : String) : Easel :=
  if (e.rendered.lookup s).isSome then e
  else
    { e with
      hasFont := true
      rendered := (s, s) :: e.rendered
      record := renderNote s ::
        ((if e.hasFont then [] else [fontNote]) ++ e.record) }

def placed (r : Rendering) (corner : Except Failure Pixel) : List EaselNote :=
  match corner with
  | .ok c => [.stroke (.blit r c)]
  | .error _ => []

theorem perform_renderText (e : Easel) (s : String) :
    (renderText s).perform e = (e.keeping s, .ok (e.shown s)) := by
  unfold renderText keeping shown
  rw [Act.perform_bind, Act.perform_get]
  dsimp only
  cases e.rendered.lookup s with
  | some r => rfl
  | none =>
      rcases e with ⟨width, height, projector, hasFont, rendered, record⟩
      cases hasFont <;> rfl

theorem perform_drawText (e : Easel) (s : String) (p : ScreenPoint Float) :
    (drawText s p).perform e
      = ({ e.keeping s with
            record := placed (e.shown s) p.corner? ++ (e.keeping s).record },
        p.corner?.map fun _ => ()) := by
  unfold drawText
  simp only [Act.perform_bind, perform_renderText, Act.perform_ofResult]
  cases p.corner? <;> rfl

def drawTextAfresh (s : String) (p : ScreenPoint Float) : Act Easel Unit := do
  note fontNote
  let r ← render s
  let corner ← Act.ofResult p.corner?
  stroke (.blit r corner)

theorem perform_drawTextAfresh (e : Easel) (s : String)
    (p : ScreenPoint Float) :
    (drawTextAfresh s p).perform e
      = ({ e with
            record :=
              placed s p.corner? ++ renderNote s :: fontNote :: e.record },
        p.corner?.map fun _ => ()) := by
  have hrender : forall f : Easel, (render s).perform f =
      ({ f with record := renderNote s :: f.record }, .ok s) := fun _ => rfl
  unfold drawTextAfresh
  simp only [Act.perform_bind, Act.perform_ofResult, note, Act.perform_modify,
    hrender]
  cases p.corner? <;> rfl

/-!
# Drawings
-/

def drawShaft (direction : Float) : Act Easel Unit := do
  let c := (← get).center
  let tip ← Act.ofResult
      (towards? c direction fun v => v * Settings.arrowLength)
  drawLine c tip
  drawWings tip direction [2.6, -2.6]
  drawPoint c

def arrowLabel (direction : Float) : String :=
  Number.fixed 0 (degrees direction) ++ " deg"

def labelPlace : ScreenPoint Float :=
  ⟨8.0, 8.0⟩

inductive Drawing where
  | clear
  | point (p : ScreenPoint Float)
  | line (p q : ScreenPoint Float)
  | text (s : String) (p : ScreenPoint Float)
  | wireframe (model : Wireframe Float) (rx ry rz : Float)
  | arrow (direction : Float)
  | configure (changes : List (String × Float))

namespace Drawing

def actBy (write : String -> ScreenPoint Float -> Act Easel Unit) :
    Drawing -> Act Easel Unit
  | clear => Easel.clear
  | point p => drawPoint p
  | line p q => drawLine p q
  | text s p => write s p
  | wireframe model rx ry rz => do
      let _ ← drawWireframe model rx ry rz
  | arrow direction => do
      drawShaft direction
      write (arrowLabel direction) labelPlace
  | configure changes => Easel.configure changes

def text? (e : Easel) : Drawing -> Option String
  | text s _ => some s
  | arrow direction =>
      match ((drawShaft direction).perform e).2 with
      | .ok _ => some (arrowLabel direction)
      | .error _ => none
  | _ => none

end Drawing

theorem actBy_arrow (direction : Float) :
    (Drawing.arrow direction).actBy drawText = drawArrow direction := by
  unfold Drawing.actBy drawShaft drawArrow
  simp only [bind_assoc]
  rfl

/-- The easel after a history of drawings; a drawing that fails leaves what it
has done. -/
def afterDrawings (write : String -> ScreenPoint Float -> Act Easel Unit)
    (blank : Easel) :
    List Drawing -> Easel
  | [] => blank
  | d :: earlier =>
      ((d.actBy write).perform (afterDrawings write blank earlier)).1

def asked (blank : Easel) : List Drawing -> List String
  | [] => []
  | d :: earlier =>
      (d.text? (afterDrawings drawText blank earlier)).toList ++
        asked blank earlier

theorem wordless_drawShaft (direction : Float) :
    Wordless (drawShaft direction) := by
  refine wordless_get_bind (fun e f same => ?_) fun e => ?_
  · unfold center
    rw [same.width, same.height]
  · exact wordless_bind (wordless_ofResult _) fun tip =>
      wordless_bind (wordless_drawLine _ tip) fun _ =>
        wordless_bind (wordless_drawWings tip direction _) fun _ =>
          wordless_drawPoint _

/-- The ways in which a drawing goes on two easels of which only the first keeps
its texts: without a text, or with one at its end. -/
inductive Goes (d : Drawing) (e f : Easel) : Prop where
  | wordless (p : Projector Float) (notes : List EaselNote)
      (r : Except Failure Unit)
      (plain : forall n, n ∈ notes -> n.isPlain = true)
      (silent : d.text? e = none)
      (kept : (d.actBy drawText).perform e = (e.withNotes p notes, r))
      (afresh : (d.actBy drawTextAfresh).perform f = (f.withNotes p notes, r))
  | text (s : String) (place : ScreenPoint Float) (p : Projector Float)
      (notes : List EaselNote)
      (plain : forall n, n ∈ notes -> n.isPlain = true)
      (asks : d.text? e = some s)
      (kept : (d.actBy drawText).perform e =
        (drawText s place).perform (e.withNotes p notes))
      (afresh : (d.actBy drawTextAfresh).perform f
        = (drawTextAfresh s place).perform (f.withNotes p notes))

theorem Wordless.goes {d : Drawing} {a : Act Easel Unit} (h : Wordless a)
    {e f : Easel} (same : SameTools e f) (silent : d.text? e = none)
    (acts : forall write, d.actBy write = a) : Goes d e f := by
  rcases h e f same with ⟨p, notes, r, hplain, he, hf⟩
  refine .wordless p notes r hplain silent ?_ ?_
  · rw [acts]
    exact he
  · rw [acts]
    exact hf

theorem goes (d : Drawing) {e f : Easel} (same : SameTools e f) :
    Goes d e f := by
  cases d with
  | clear => exact Wordless.goes (wordless_note rfl) same rfl fun _ => rfl
  | point p => exact (wordless_drawPoint p).goes same rfl fun _ => rfl
  | line p q => exact (wordless_drawLine p q).goes same rfl fun _ => rfl
  | text s place =>
      refine .text s place e.projector [] nofun rfl rfl ?_
      rw [same.projector]
      rfl
  | wireframe model rx ry rz =>
      have hdraws :
          Wordless (do let _ ← drawWireframe model rx ry rz : Act Easel Unit) :=
        wordless_bind (wordless_drawWireframe model rx ry rz) fun _ =>
          wordless_pure ()
      exact hdraws.goes same rfl fun _ => rfl
  | arrow direction =>
      rcases wordless_drawShaft direction e f same with
        ⟨p, notes, r, hplain, he, hf⟩
      cases r with
      | error failure =>
          refine .wordless p notes (.error failure) hplain ?_ ?_ ?_
          · simp only [Drawing.text?, he]
          · simp only [Drawing.actBy, Act.perform_bind, he]
          · simp only [Drawing.actBy, Act.perform_bind, hf]
      | ok u =>
          refine .text (arrowLabel direction) labelPlace p notes hplain ?_ ?_ ?_
          · simp only [Drawing.text?, he]
          · simp only [Drawing.actBy, Act.perform_bind, he]
          · simp only [Drawing.actBy, Act.perform_bind, hf]
  | configure changes =>
      exact (wordless_configure changes).goes same rfl fun _ => rfl

/-!
# What is kept
-/

/-- The font is looked up once, right before the text that is asked for first is
rendered. -/
def FontFirst (asked : List String) (record : List EaselNote) : Prop :=
  match asked.getLast? with
  | none => forall n, n ∈ record -> n.isFont = false
  | some s =>
      exists later earlier,
        record = later ++ renderNote s :: fontNote :: earlier
        ∧ (forall n, n ∈ later ++ earlier -> n.isFont = false)
        ∧ rendersIn earlier = []

theorem rendersIn_append (notes record : List EaselNote) :
    rendersIn (notes ++ record) = rendersIn notes ++ rendersIn record :=
  List.filterMap_append

theorem rendersIn_eq_nil {notes : List EaselNote}
    (h : forall n, n ∈ notes -> n.rendered? = none) : rendersIn notes = [] :=
  List.filterMap_eq_nil_iff.mpr h

theorem FontFirst.append {asked : List String} {notes record : List EaselNote}
    (h : FontFirst asked record)
    (other : forall n, n ∈ notes -> n.isFont = false) :
    FontFirst asked (notes ++ record) := by
  unfold FontFirst at h ⊢
  split
  · rename_i hlast
    rw [hlast] at h
    intro n hn
    exact (List.mem_append.mp hn).elim (other n) (h n)
  · rename_i s hlast
    rw [hlast] at h
    rcases h with ⟨later, earlier, rfl, hfont, hnone⟩
    refine ⟨notes ++ later, earlier, (List.append_assoc ..).symm, ?_, hnone⟩
    intro n hn
    rw [List.append_assoc] at hn
    exact (List.mem_append.mp hn).elim (other n) (hfont n)

/-- An easel keeps the texts that have been asked for, and its drawing is that
of one which keeps none. -/
structure Keeps (asked : List String) (e f : Easel) : Prop where
  tools : SameTools e f
  drawn : drawn e.record = drawn f.record
  hasFont : e.hasFont = !asked.isEmpty
  rendered : e.rendered = asked.dedup.map fun s => (s, s)
  renders : rendersIn e.record = asked.dedup
  fontFirst : FontFirst asked e.record

theorem keeps_blank (width height : Nat) (projector : Projector Float) :
    let blank : Easel :=
      { width := width, height := height, projector := projector }
    Keeps [] blank blank := by
  intro blank
  exact ⟨⟨rfl, rfl, rfl⟩, rfl, rfl, rfl, rfl, nofun⟩

section keeps

variable {texts : List String} {e f : Easel}

theorem Keeps.withNotes (h : Keeps texts e f) (p : Projector Float)
    {notes : List EaselNote} (plain : forall n, n ∈ notes -> n.isPlain = true) :
    Keeps texts (e.withNotes p notes) (f.withNotes p notes) := by
  have hnone : rendersIn notes = [] :=
    rendersIn_eq_nil fun n hn => EaselNote.rendered?_of_isPlain (plain n hn)
  constructor
  · exact h.tools.withNotes p notes
  · show (notes ++ e.record).filter _ = (notes ++ f.record).filter _
    rw [List.filter_append, List.filter_append]
    exact congrArg _ h.drawn
  · exact h.hasFont
  · exact h.rendered
  · show rendersIn (notes ++ e.record) = _
    rw [rendersIn_append, hnone]
    exact h.renders
  · exact h.fontFirst.append fun n hn =>
      EaselNote.isFont_of_isPlain (plain n hn)

theorem Keeps.lookup (h : Keeps texts e f) (s : String) :
    e.rendered.lookup s = if s ∈ texts then some s else none := by
  rw [h.rendered]
  by_cases hs : s ∈ texts
  · rw [if_pos hs]
    exact List.lookup_graph id (List.mem_dedup.mpr hs)
  · rw [if_neg hs, List.lookup_eq_none_iff]
    intro entry hentry
    rcases List.mem_map.mp hentry with ⟨t, ht, rfl⟩
    have hne : s ≠ t := fun heq => hs (List.mem_dedup.mp (heq ▸ ht))
    simpa using hne

theorem Keeps.shown (h : Keeps texts e f) (s : String) : e.shown s = s := by
  unfold Easel.shown
  rw [h.lookup]
  split <;> rfl

theorem Keeps.isKept (h : Keeps texts e f) (s : String) :
    (e.rendered.lookup s).isSome = true ↔ s ∈ texts := by
  rw [h.lookup]
  by_cases hs : s ∈ texts <;> simp [hs]

theorem Keeps.keeping (h : Keeps texts e f) (s : String) :
    Keeps (s :: texts) (e.keeping s)
      { f with record := renderNote s :: fontNote :: f.record } := by
  have hknown := h.isKept s
  have hother : forall n, n ∈ [renderNote s] -> n.isFont = false := by
    intro n hn
    rw [List.mem_singleton.mp hn]
    rfl
  have hunseen :
      Easel.drawn (renderNote s :: fontNote :: f.record) =
        Easel.drawn f.record := rfl
  unfold Easel.keeping
  by_cases hs : s ∈ texts
  · rcases List.exists_cons_of_ne_nil (List.ne_nil_of_mem hs) with
      ⟨t, rest, rfl⟩
    rw [if_pos (hknown.mpr hs)]
    refine ⟨⟨h.tools.width, h.tools.height, h.tools.projector⟩,
      h.drawn.trans hunseen.symm, h.hasFont, ?_, ?_, ?_⟩
    · rw [List.dedup_cons_of_mem hs]
      exact h.rendered
    · rw [List.dedup_cons_of_mem hs]
      exact h.renders
    · have hfirst := h.fontFirst
      unfold FontFirst at hfirst ⊢
      rw [List.getLast?_cons_cons]
      exact hfirst
  · rw [if_neg (mt hknown.mp hs)]
    refine ⟨⟨h.tools.width, h.tools.height, h.tools.projector⟩, ?_, rfl, ?_, ?_,
      ?_⟩
    · refine Eq.trans ?_ (h.drawn.trans hunseen.symm)
      cases e.hasFont <;> rfl
    · rw [List.dedup_cons_of_notMem hs, h.rendered]
      rfl
    · rw [List.dedup_cons_of_notMem hs, ← h.renders]
      cases e.hasFont <;> rfl
    · have hfont := h.hasFont
      cases texts with
      | nil =>
          have hnew : e.hasFont = false := hfont
          rw [hnew]
          exact ⟨[], e.record, rfl, h.fontFirst, h.renders⟩
      | cons t rest =>
          have hold : e.hasFont = true := hfont
          rw [hold]
          have hfirst := h.fontFirst.append hother
          unfold FontFirst at hfirst ⊢
          rw [List.getLast?_cons_cons]
          exact hfirst

theorem Keeps.placed (h : Keeps texts e f) (s : Rendering)
    (corner : Except Failure Pixel) :
    Keeps texts { e with record := Easel.placed s corner ++ e.record }
      { f with record := Easel.placed s corner ++ f.record } := by
  have hother : forall n,
      n ∈ Easel.placed s corner -> n.isFont = false ∧ n.rendered? = none := by
    intro n hn
    cases corner with
    | ok c =>
        rw [List.mem_singleton.mp hn]
        exact ⟨rfl, rfl⟩
    | error failure => cases hn
  constructor
  · exact ⟨h.tools.width, h.tools.height, h.tools.projector⟩
  · show (_ ++ e.record).filter _ = (_ ++ f.record).filter _
    rw [List.filter_append, List.filter_append]
    exact congrArg _ h.drawn
  · exact h.hasFont
  · exact h.rendered
  · show rendersIn (_ ++ e.record) = _
    rw [rendersIn_append, rendersIn_eq_nil fun n hn => (hother n hn).2]
    exact h.renders
  · exact h.fontFirst.append fun n hn => (hother n hn).1

theorem Keeps.step (h : Keeps texts e f) (d : Drawing) :
    ((d.actBy drawText).perform e).2 = ((d.actBy drawTextAfresh).perform f).2
      ∧ Keeps ((d.text? e).toList ++ texts) ((d.actBy drawText).perform e).1
        ((d.actBy drawTextAfresh).perform f).1 := by
  cases goes d h.tools with
  | wordless p notes r plain silent kept afresh =>
      rw [kept, afresh, silent]
      exact ⟨rfl, h.withNotes p plain⟩
  | text s place p notes plain asks kept afresh =>
      rw [kept, afresh, asks, perform_drawText, perform_drawTextAfresh,
        (h.withNotes p plain).shown s]
      exact ⟨rfl, ((h.withNotes p plain).keeping s).placed s place.corner?⟩

end keeps

theorem keeps_afterDrawings (width height : Nat) (projector : Projector Float)
    (past : List Drawing) :
    let blank : Easel :=
      { width := width, height := height, projector := projector }
    Keeps (asked blank past) (afterDrawings drawText blank past)
      (afterDrawings drawTextAfresh blank past) := by
  intro blank
  induction past with
  | nil => exact keeps_blank width height projector
  | cons d earlier ih => exact (ih.step d).2

/-!
# Nothing of it is seen
-/

/-- What goes before the placing of a text, the latest first, after other texts
have been asked for. -/
def preparing (texts : List String) (s : String) : List EaselNote :=
  if s ∈ texts then []
    else renderNote s :: if texts = [] then [fontNote] else []

theorem Keeps.record_keeping {texts : List String} {e f : Easel}
    (h : Keeps texts e f) (s : String) :
    (e.keeping s).record = preparing texts s ++ e.record := by
  unfold Easel.keeping preparing
  by_cases hs : s ∈ texts
  · rw [if_pos ((h.isKept s).mpr hs), if_pos hs]
    rfl
  · rw [if_neg (mt (h.isKept s).mp hs), if_neg hs, h.hasFont]
    cases texts <;> rfl

theorem corner?_toOption (p : ScreenPoint Float) :
    p.corner?.toOption = (Number.value? p.x).bind fun x =>
      (Number.value? p.y).map fun y =>
        ⟨Number.towardsZero x, Number.towardsZero y⟩ := by
  have hnone : forall z : Float, Number.value? z = none ->
      exists failure, (Number.Reading.ofFloat z).truncate = .error failure := by
    intro z hz
    unfold Number.value? at hz
    cases hr : Number.Reading.ofFloat z with
    | nan => exact ⟨_, rfl⟩
    | infinite s => exact ⟨_, rfl⟩
    | finite s m q =>
        rw [hr] at hz
        cases hz
  unfold ScreenPoint.corner?
  cases hx : Number.value? p.x with
  | none =>
      rcases hnone p.x hx with ⟨failure, h⟩
      rw [h]
      rfl
  | some x =>
      rw [Number.Reading.truncate_eq hx]
      cases hy : Number.value? p.y with
      | none =>
          rcases hnone p.y hy with ⟨failure, h⟩
          rw [h]
          rfl
      | some y =>
          rw [Number.Reading.truncate_eq hy]
          rfl

/-- Whatever a new easel has drawn, and whatever has failed: it places a text
just if both coordinates of its place are finite, at the whole numbers towards
zero.  Before that it renders the text if it has not been asked for before, and
before the very first text it looks up the font; it does so too if the text
cannot be placed.  The drawing, and how each call ends, is the same as without
keeping anything.  The texts rendered so far are those asked for, each once, in
the order of the first calls for them, and the font is looked up once at most,
right before the first of them is rendered. -/
theorem kept_texts_unseen (width height : Nat) (projector : Projector Float)
    (past : List Drawing) :
    let blank : Easel :=
      { width := width, height := height, projector := projector }
    let e := afterDrawings drawText blank past
    let texts := asked blank past
    (forall s p, ((drawText s p).perform e).2 = p.corner?.map (fun _ => ())
        ∧ ((drawText s p).perform e).1.record =
          placed s p.corner? ++ preparing texts s ++ e.record)
      ∧ (forall p : ScreenPoint Float,
        p.corner?.toOption.isSome = (p.x.isFinite && p.y.isFinite)
          ∧ p.corner?.toOption = (Number.value? p.x).bind fun x =>
            (Number.value? p.y).map fun y =>
              ⟨Number.towardsZero x, Number.towardsZero y⟩)
      ∧ drawn e.record = drawn (afterDrawings drawTextAfresh blank past).record
      ∧ (forall d : Drawing, ((d.actBy drawText).perform e).2
        = ((d.actBy drawTextAfresh).perform
          (afterDrawings drawTextAfresh blank past)).2)
      ∧ (forall direction,
        (Drawing.arrow direction).actBy drawText = drawArrow direction)
      ∧ rendersIn e.record = texts.dedup
      ∧ FontFirst texts e.record := by
  intro blank e texts
  have hkeeps : Keeps texts e (afterDrawings drawTextAfresh blank past) :=
    keeps_afterDrawings width height projector past
  refine ⟨fun s p => ?_, fun p => ⟨?_, corner?_toOption p⟩, hkeeps.drawn,
    fun d => (hkeeps.step d).1, actBy_arrow, hkeeps.renders, hkeeps.fontFirst⟩
  · rw [perform_drawText, hkeeps.record_keeping, hkeeps.shown,
      List.append_assoc]
    exact ⟨rfl, rfl⟩
  · rw [corner?_toOption, ← Number.isSome_value?, ← Number.isSome_value?]
    cases Number.value? p.x <;> cases Number.value? p.y <;> rfl

example :
    let blank : Easel :=
      { width := 480, height := 360, projector := Projector.squareScreen }
    (afterDrawings drawText blank
      [.text "b" ⟨2.5, -1.5⟩, .text "a" ⟨0, 0⟩, .text "b" ⟨0.0 / 0.0, 0⟩,
       .text "a" ⟨-0.5, 9⟩]).record
        = [.stroke (.blit "b" ⟨2, -1⟩), .stroke (.blit "a" ⟨0, 0⟩),
          renderNote "b", .stroke (.blit "a" ⟨0, 9⟩), renderNote "a",
          fontNote] := by
  decide +kernel

end Easel
end WireView
