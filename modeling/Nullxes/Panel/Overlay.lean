import Nullxes.Theme.Text

/-!
# The panel

`frame/src/panel` and the listener of `system/nm.rs` that fills in the network. The panel is painted
by the CPU into a bitmap, whole each time. Its pixel helpers are FRAME's own copies of those of
`wlcommon`; an index or a slice that is out of range panics.

The time of the clock is an input. `paint` is `render` up to the flags of the bitmap, with a record
of the pixels that were painted.
-/

namespace Nullxes

namespace Panel

open Wlcommon (Canvas Color)
open Theme (TextRenderer)

/-! ## Colours -/

/-- `color::SURFACE_1`. -/
def surface1 : Color := .rgb 0x11 0x11 0x11

/-- `color::SURFACE_2`. -/
def surface2 : Color := .rgb 0x13 0x13 0x13

/-- `color::DIVIDER`. -/
def divider : Color := .rgb 0x25 0x25 0x25

/-- `color::ACCENT`. -/
def accent : Color := .rgb 0xc0 0xc0 0xc0

/-- `color::TEXT_SECONDARY`. -/
def textSecondary : Color := .rgb 0x80 0x80 0x80

/-- `color::TEXT_DISABLED`. -/
def textDisabled : Color := .rgb 0x40 0x40 0x40

/-! ## Pixels -/

section

variable {n : ℕ}

def clear (pixels : Canvas n) (c : Color) : Option (Canvas n) := Wlcommon.clear pixels c

def fillRect (pixels : Canvas n) (stride : ℕ) (bufW bufH : UInt32) (x y : Int32) (w h : UInt32)
    (color : Color) : Option (Canvas n) :=
  Wlcommon.fillRect pixels stride bufW bufH x y w h color

def wlcommonHline (pixels : Canvas n) (stride : ℕ) (bufW bufH : UInt32) (y x0 x1 : Int32)
    (color : Color) : Option (Canvas n) :=
  Wlcommon.hline pixels stride bufW bufH y x0 x1 color

end

/-! ## What the modules show -/

/-- `NetworkKind`. -/
inductive NetworkKind
  | none
  | wired
  | wireless
  | other
  deriving DecidableEq, Repr

/-- `NetworkSnapshot`; the signal strength is never read. -/
structure NetworkSnapshot where
  kind : NetworkKind := .none
  connected : Bool := false
  ssid : Option String := Option.none
  deriving DecidableEq, Repr

/-- `ModuleSnapshot`. -/
structure ModuleSnapshot where
  batteryPct : Option UInt8 := none
  onAc : Bool := false
  network : NetworkSnapshot := {}
  volumePct : Option UInt8 := none
  volumeMute : Bool := false
  deriving DecidableEq, Repr

/-- The type and the name of an active connection, if they can be read. -/
structure ActiveConnection where
  connectionType : Option String
  id : Option String

/-- What NetworkManager answers. -/
structure NetworkManager where
  state : Option UInt32
  primaryConnection : Option String
  /-- The proxy of the primary connection, if it can be made. -/
  active : Option ActiveConnection

/-- `update_once` of `nm.rs`. -/
def updateOnce (nm : NetworkManager) : NetworkSnapshot :=
  let connected := 70 ≤ nm.state.getD 0
  let unread : NetworkSnapshot := { connected := connected }
  match nm.primaryConnection with
  | none => unread
  | some path =>
    if path.isEmpty || path = "/" then unread
    else
      match nm.active with
      | none => unread
      | some active =>
        let kind : NetworkKind :=
          match active.connectionType with
          | none => .none
          | some t =>
            if t = "802-3-ethernet" then .wired
            else if t = "802-11-wireless" then .wireless
            else .other
        ⟨kind, connected, if kind = .wireless then active.id else none⟩

/-! ## Modules -/

section Modules

variable {n : ℕ} (pixels : Canvas n) (stride : ℕ) (bufW bufH : UInt32)

/-- `-r..=r`. -/
def around (r : ℕ) : List ℤ := (List.range (2 * r + 1)).map fun i => (i : ℤ) - r

def fillCircle (cx cy : Int32) (r : ℕ) (c : Color) : Option (Canvas n) :=
  let r2 : ℤ := r * r
  (around r).foldlM (fun pixels dy =>
    (around r).foldlM (fun pixels dx =>
      if dx * dx + dy * dy ≤ r2 then
        fillRect pixels stride bufW bufH (cx + Int32.ofInt dx) (cy + Int32.ofInt dy) 1 1 c
      else some pixels) pixels) pixels

def ringCircle (cx cy : Int32) (r : ℕ) (c : Color) : Option (Canvas n) :=
  let ro2 : ℤ := r * r
  let ri2 : ℤ := (r - 1) * (r - 1)
  (around r).foldlM (fun pixels dy =>
    (around r).foldlM (fun pixels dx =>
      let d2 := dx * dx + dy * dy
      if d2 ≤ ro2 ∧ ri2 < d2 then
        fillRect pixels stride bufW bufH (cx + Int32.ofInt dx) (cy + Int32.ofInt dy) 1 1 c
      else some pixels) pixels) pixels

/-- `DOT_ACTIVE`. -/
def dotActive : ℕ := 8

/-- `DOT_IDLE`. -/
def dotIdle : ℕ := 6

/-- `DOT_GAP`. -/
def dotGap : ℕ := 10

/-- `START_X`. -/
def startX : ℕ := 60

/-- `workspaces::draw`. -/
def workspaces (active : ℕ) (occupied : List ℕ) : Option (Canvas n) :=
  let cy := bufH.toInt32 / 2
  (List.range 9).foldlM (fun pixels i =>
    let cx := Int32.ofNat (startX + i * (dotIdle + dotGap) + dotIdle / 2)
    if i = active then fillCircle pixels stride bufW bufH cx cy (dotActive / 2) accent
    else if occupied.contains i then
      ringCircle pixels stride bufW bufH cx cy (dotIdle / 2) textSecondary
    else ringCircle pixels stride bufW bufH cx cy (dotIdle / 2 - 1) textDisabled) pixels

/-- A label that ends at `penX`, and where it begins. -/
def drawLabel (text : TextRenderer) (penX baselineY : Int32) (label : String) (color : Color) :
    Option (TextRenderer × Canvas n × Int32) := do
  let (width, text) := text.measureText label 13 .regular
  let x := penX - width
  let (text, pixels, _) ← text.drawText pixels stride bufW bufH x baselineY label 13 color .regular
  some (text, pixels, x)

/-- `clock::draw`. -/
def clock (text : TextRenderer) (penX baselineY : Int32) (now : String) :
    Option (TextRenderer × Canvas n × Int32) :=
  drawLabel pixels stride bufW bufH text penX baselineY now textSecondary

/-- `battery::draw`. -/
def battery (text : TextRenderer) (penX baselineY : Int32) (snap : ModuleSnapshot) :
    Option (TextRenderer × Canvas n × Int32) :=
  match snap.batteryPct with
  | none => some (text, pixels, penX)
  | some pct =>
    let glyph := if snap.onAc then "⚡" else "·"
    let label := glyph ++ toString pct.toNat ++ "%"
    drawLabel pixels stride bufW bufH text penX baselineY label textSecondary

/-- `&s[..n]`: a character must end at byte `n`. -/
def sliceTo : List Char → ℕ → Option (List Char)
  | _, 0 => some []
  | [], _ + 1 => none
  | c :: cs, n + 1 =>
    if c.utf8Size ≤ n + 1 then (sliceTo cs (n + 1 - c.utf8Size)).map (c :: ·) else none

/-- The label of `network::draw`, cut; the inner `none` is that nothing is drawn. -/
def networkLabel (network : NetworkSnapshot) : Option (Option String) :=
  let label : Option String :=
    match network.kind with
    | .none => none
    | .wired => some "ETH"
    | .wireless => some (network.ssid.getD "WIFI")
    | .other => some "NET"
  match label with
  | none => some none
  | some label =>
    if label.isEmpty then some none
    else if 16 < label.utf8ByteSize then
      (sliceTo label.toList 15).map fun cut => some (String.ofList cut ++ "…")
    else some (some label)

/-- `network::draw`. -/
def network (text : TextRenderer) (penX baselineY : Int32) (snap : ModuleSnapshot) :
    Option (TextRenderer × Canvas n × Int32) := do
  match ← networkLabel snap.network with
  | none => some (text, pixels, penX)
  | some label =>
    let color := if snap.network.connected then textSecondary else textDisabled
    drawLabel pixels stride bufW bufH text penX baselineY label color

/-- `volume::draw`. -/
def volume (text : TextRenderer) (penX baselineY : Int32) (snap : ModuleSnapshot) :
    Option (TextRenderer × Canvas n × Int32) :=
  match snap.volumePct with
  | none => some (text, pixels, penX)
  | some pct =>
    let label := if snap.volumeMute then "MUTE" else toString pct.toNat ++ "%"
    let color := if snap.volumeMute then textDisabled else textSecondary
    drawLabel pixels stride bufW bufH text penX baselineY label color

end Modules

/-! ## The overlay -/

/-- `PanelBitmap`. -/
structure PanelBitmap where
  width : UInt32
  height : UInt32
  pixels : Vector UInt8 (width.toNat * height.toNat * 4)
  dirty : Bool
  generation : UInt64

namespace PanelBitmap

def new (width height : UInt32) : PanelBitmap := ⟨width, height, .replicate _ 0, true, 0⟩

def resize (me : PanelBitmap) (width height : UInt32) : PanelBitmap :=
  if me.width = width ∧ me.height = height then me
  else ⟨width, height, .replicate _ 0, true, me.generation + 1⟩

def stride (me : PanelBitmap) : ℕ := me.width.toNat * 4

end PanelBitmap

/-- `PanelOverlay`. -/
structure PanelOverlay where
  bitmap : PanelBitmap
  modules : ModuleSnapshot
  text : Option TextRenderer

/-- `theme::spacing::height::PANEL`. -/
def panelHeight : UInt32 := 48

namespace PanelOverlay

/-- `PanelOverlay::new`, with the fonts that were found. -/
def new (text : Option TextRenderer) : PanelOverlay := ⟨.new 1920 panelHeight, {}, text⟩

def resize (me : PanelOverlay) (outputWidth : UInt32) : PanelOverlay :=
  { me with bitmap := me.bitmap.resize outputWidth panelHeight }

variable {n : ℕ}

/-- The indicator modules, from the right edge. -/
def paintModules (pixels : Canvas n) (stride : ℕ) (w h : UInt32) (snap : ModuleSnapshot)
    (now : String) (text : TextRenderer) : Option (Canvas n × TextRenderer) := do
  let baseline := h.toInt32 / 2 + 5
  let x := w.toInt32 - 16
  let (text, pixels, x) ← clock pixels stride w h text x baseline now
  let (text, pixels, x) ← battery pixels stride w h text (x - 16) baseline snap
  let (text, pixels, x) ← network pixels stride w h text (x - 16) baseline snap
  let (text, pixels, _) ← volume pixels stride w h text (x - 16) baseline snap
  some (pixels, text)

/-- Everything but the text. -/
def paintBackground (pixels : Canvas n) (stride : ℕ) (w h : UInt32) (activeIndex : ℕ)
    (occupied : List ℕ) : Option (Canvas n) := do
  let pixels ← clear pixels surface1
  let pixels ← wlcommonHline pixels stride w h 0 0 w.toInt32 divider
  let pixels ← fillRect pixels stride w h 0 0 48 h surface2
  let pixels ← [((18 : Int32), (16 : Int32)), (26, 16), (18, 24), (26, 24)].foldlM
    (fun pixels d => fillRect pixels stride w h d.1 d.2 4 4 accent) pixels
  workspaces pixels stride w h activeIndex occupied

/-- What `render` does to the pixels, and to the glyph cache. -/
def paint (me : PanelOverlay) (activeIndex : ℕ) (occupied : List ℕ) (now : String) :
    Option (Canvas (me.bitmap.width.toNat * me.bitmap.height.toNat * 4) × Option TextRenderer) := do
  let w := me.bitmap.width
  let h := me.bitmap.height
  let stride := me.bitmap.stride
  let pixels ← paintBackground ⟨me.bitmap.pixels, []⟩ stride w h activeIndex occupied
  match me.text with
  | none => some (pixels, none)
  | some text =>
    let (pixels, text) ← paintModules pixels stride w h me.modules now text
    some (pixels, some text)

/-- `render`. -/
def render (me : PanelOverlay) (activeIndex : ℕ) (occupied : List ℕ) (now : String) :
    Option PanelOverlay := do
  let (canvas, text) ← me.paint activeIndex occupied now
  let bitmap := { me.bitmap with
    pixels := canvas.pixels, dirty := false, generation := me.bitmap.generation + 1 }
  some { me with bitmap := bitmap, text := text }

end PanelOverlay

end Panel

end Nullxes
