import Nullxes.Frame.Handlers

/-!
# Collecting a frame

`render.rs`: the panel bitmap is brought up to date, the elements of an output are collected into
one list, and smithay draws the list front to back over the clear colour.

The windows are asked of smithay's space, whose answer has more in it than windows: it begins with
the upper layers of the output and ends with the lower ones, and leaves out whatever is off the
output. `collect_elements` pushes the layers itself as well, so a layer is in the list twice.
-/

namespace Nullxes

namespace Frame

/-- `RenderElementVariant`: where an element came from. -/
inductive RenderElementVariant
  | surface (e : RenderElement)
  | space (e : RenderElement)
  | memory (e : RenderElement)

def RenderElementVariant.element : RenderElementVariant → RenderElement
  | .surface e | .space e | .memory e => e

/-- `Rectangle::overlaps`. -/
def Rect.overlaps (r r' : Rect) : Bool :=
  r.loc.1 < r'.loc.1 + r'.size.1 && r'.loc.1 < r.loc.1 + r.size.1 &&
    (r.loc.2 < r'.loc.2 + r'.size.2 && r'.loc.2 < r.loc.2 + r.size.2)

/-- `BG`, the clear colour. -/
def clearColor : Rgba := ⟨392 / 10000, 392 / 10000, 392 / 10000, 1⟩

namespace NullxesState

variable (s : NullxesState)

/-- `update_panel_bitmap`; `painted` is what the panel's modules paint this time. -/
def updatePanelBitmap (painted : ℕ → ℕ → Rgba) : NullxesState :=
  let primaryW := ((s.primary.bind Output.currentMode).map fun m => m.1.toNat).getD 1920
  let panel := (s.panel.resize primaryW panelHeight).render painted
  let s := { s with panel := panel }
  if s.panelGen ≠ panel.generation then
    { s with panelMemory := some panel.buffer, panelGen := panel.generation }
  else s

/-- `push_layer_elements` for every surface of one layer. -/
def layerElements (o : Output) (l : Layer) : List RenderElementVariant :=
  (o.layersOn l).flatMap fun layer =>
    let d := s.surfaceData layer.wlSurface
    (d.renderElements d.layerLoc).map .surface

/-- The bounding box of a mapped window overlaps the output. -/
def onOutput (o : Output) (e : Window × Point ℤ) : Bool :=
  match e.1.wlSurface, o.geometry with
  | some surface, some geo =>
    let bbox := (s.surfaceData surface).bbox
    geo.overlaps ⟨e.2 + bbox.loc, bbox.size⟩
  | _, _ => false

/-- The bounding box of a layer surface overlaps the output. -/
def layerOnOutput (o : Output) (layer : LayerSurface) : Bool :=
  match o.geometry with
  | some geo =>
    let d := s.surfaceData layer.wlSurface
    geo.overlaps ⟨d.layerLoc + d.bbox.loc, d.bbox.size⟩
  | none => false

/-- The windows of a space that are on the output, from the top of the stack down. -/
def spaceWindowElements (o : Output) (space : Space) : List RenderElementVariant :=
  (space.entries.reverse.filter (s.onOutput o)).flatMap fun e =>
    match e.1.wlSurface with
    | some surface => ((s.surfaceData surface).renderElements e.2).map .space
    | none => []

/-- One layer of the output as it comes with a space. -/
def spaceLayerElements (o : Output) (l : Layer) : List RenderElementVariant :=
  ((o.layersOn l).reverse.filter (s.layerOnOutput o)).flatMap fun layer =>
    let d := s.surfaceData layer.wlSurface
    (d.renderElements d.layerLoc).map .space

/-- `Space::render_elements_for_output`: the windows of the space and the layers of the output,
sorted by z-index. -/
def spaceElements (o : Output) (space : Space) : List RenderElementVariant :=
  s.spaceLayerElements o .overlay ++ s.spaceLayerElements o .top ++
    s.spaceWindowElements o space ++
    s.spaceLayerElements o .bottom ++ s.spaceLayerElements o .background

/-- The panel element, at the bottom of the output. -/
def panelElements (o : Output) : List RenderElementVariant :=
  match s.panelMemory with
  | none => []
  | some buf =>
    let panelH : ℤ := s.panel.buffer.height
    let outH := (o.currentMode.map Prod.snd).getD 1080
    [.memory ⟨(0, outH - panelH), buf⟩]

/-- The elements of the lock surfaces, in the order they were created. -/
def lockElements : List RenderElementVariant :=
  match s.lock with
  | none => []
  | some lock =>
    lock.surfaces.flatMap fun surf =>
      ((s.surfaceData surf.wlSurface).renderElements (0, 0)).map .surface

/-- `collect_elements`, in the order in which the groups are pushed. -/
def collectElements (o : Output) : List RenderElementVariant :=
  s.layerElements o .background ++ s.layerElements o .bottom ++ s.spaceElements o s.activeSpace ++
    s.layerElements o .top ++ s.layerElements o .overlay ++ s.panelElements o ++ s.lockElements

/-- The image `OutputDamageTracker::render_output` draws from a list of elements: the first
element is topmost, and what nothing covers has the clear colour. -/
def renderOutput (es : List RenderElementVariant) : Point ℤ → Rgba :=
  Compositing.compose (es.map fun e => e.element.ink) clearColor

/-- The composed frame of an output. -/
def composedFrame (o : Output) : Point ℤ → Rgba := renderOutput (s.collectElements o)

end NullxesState

end Frame

end Nullxes
