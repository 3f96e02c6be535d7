import Nullxes.Wlcommon.Strides

/-!
# The protocol of a client with one window

What a compositor holds against a client that has one surface and draws it in shared memory: the
rules of `wl_shm`, `wl_surface`, `wl_seat` and of the shell the surface has its role from, as a
machine that sees what passes on the connection, in both directions. A request that is not enabled
is a protocol error, for which a client is disconnected. The compositor has one rule to keep: it
releases what it holds.

## Main definitions

* `Wire.Entry` — what passes on the connection
* `Wire.Connection`, `Wire.protocol` — what a compositor keeps of it, and its rules
* `Wire.Affordable` — the sizes whose buffers a pool can be made for
* `Wire.Granted` — requests on `wl_shm` that are within the rules

## Main results

* `Wire.granted_allocated` — what is requested for one buffer
-/

namespace Nullxes

namespace Wire

open Wlcommon

/-- What the compositor tells a client, as far as a rule is about it. -/
inductive Event
  /-- `xdg_surface.configure` or `zwlr_layer_surface_v1.configure`. -/
  | configure (serial : UInt32)
  /-- `xdg_wm_base.ping`. -/
  | ping (serial : UInt32)
  /-- `wl_seat.capabilities`. -/
  | capabilities (keyboard : Bool)
  /-- `wl_buffer.release`. -/
  | release (wlBuf : ℕ)
  | other
  deriving DecidableEq, Repr

/-- What a client asks of the compositor. -/
inductive Request
  /-- A `wl_surface` with its role, and its first commit, without a buffer. -/
  | surface
  | ackConfigure (serial : UInt32)
  | pong (serial : UInt32)
  | getKeyboard
  | shm (r : ShmRequest)
  /-- `attach` of a buffer, `damage_buffer` of this size, and `commit`. -/
  | commit (wlBuf : ℕ) (w h : UInt32)
  deriving DecidableEq, Repr

/-- What passes on the connection. -/
inductive Entry
  | event (e : Event)
  | request (r : Request)
  deriving DecidableEq, Repr

/-- What the compositor keeps of a connection. -/
structure Connection where
  /-- The surface has its role. -/
  surface : Bool
  /-- The serials of the configures that no acknowledged one came after. -/
  unacked : List UInt32
  /-- A configure was acknowledged. -/
  acked : Bool
  unanswered : List UInt32
  /-- The seat has had a keyboard. -/
  hasKeyboard : Bool
  /-- The size of the pool that was made last. -/
  pool : Option Int32
  /-- The buffers, with their sizes. -/
  buffers : List (ℕ × Int32 × Int32)
  /-- The buffers that were committed and not released since. -/
  held : List ℕ
  deriving DecidableEq, Repr

namespace Connection

/-- A connection on which nothing has passed. -/
def new : Connection := ⟨false, [], false, [], false, none, [], []⟩

variable (c : Connection)

/-- A buffer that is new, and lies within the pool with all of its rows. -/
def AllowsBuffer (wlBuf : ℕ) (offset width height stride : Int32) : Prop :=
  (∀ b ∈ c.buffers, b.1 ≠ wlBuf) ∧ ∃ size ∈ c.pool,
    0 ≤ offset.toInt ∧ 0 < width.toInt ∧ 0 < height.toInt ∧ 4 * width.toInt ≤ stride.toInt ∧
      offset.toInt + stride.toInt * height.toInt ≤ size.toInt

/-- **The rules.** -/
def Allows : Entry → Prop
  | .event (.release wlBuf) => wlBuf ∈ c.held
  | .event _ => True
  | .request .surface => c.surface = false
  | .request (.ackConfigure serial) => serial ∈ c.unacked
  | .request (.pong serial) => serial ∈ c.unanswered
  | .request .getKeyboard => c.hasKeyboard = true
  | .request (.shm (.createPool size)) => 0 < size.toInt
  | .request (.shm (.createBuffer wlBuf offset width height stride)) =>
    c.AllowsBuffer wlBuf offset width height stride
  | .request (.commit wlBuf w h) =>
    c.surface = true ∧ c.acked = true ∧ (wlBuf, w.toInt32, h.toInt32) ∈ c.buffers ∧
      wlBuf ∉ c.held

/-- What an entry changes. -/
def note : Entry → Connection
  | .event (.configure serial) => { c with unacked := c.unacked ++ [serial] }
  | .event (.ping serial) => { c with unanswered := c.unanswered ++ [serial] }
  | .event (.capabilities keyboard) => { c with hasKeyboard := c.hasKeyboard || keyboard }
  | .event (.release wlBuf) => { c with held := c.held.filter (· ≠ wlBuf) }
  | .event .other => c
  | .request .surface => { c with surface := true }
  | .request (.ackConfigure serial) =>
    { c with unacked := (c.unacked.dropWhile (· ≠ serial)).drop 1, acked := true }
  | .request (.pong serial) => { c with unanswered := c.unanswered.erase serial }
  | .request .getKeyboard => c
  | .request (.shm (.createPool size)) => { c with pool := some size }
  | .request (.shm (.createBuffer wlBuf _ width height _)) =>
    { c with buffers := c.buffers ++ [(wlBuf, width, height)] }
  | .request (.commit wlBuf _ _) => { c with held := wlBuf :: c.held }

instance (wlBuf : ℕ) (offset width height stride : Int32) :
    Decidable (c.AllowsBuffer wlBuf offset width height stride) :=
  inferInstanceAs (Decidable (_ ∧ _))

instance (e : Entry) : Decidable (c.Allows e) := by
  rcases e with ⟨_ | _ | _ | _ | _⟩ | ⟨_ | _ | _ | _ | ⟨_ | _⟩ | _⟩ <;> unfold Allows <;>
    infer_instance

end Connection

/-- **The protocol.** -/
def protocol : EventMachine Connection Entry where
  Init c := c = .new
  Enabled := Connection.Allows
  step := Connection.note

instance (c : Connection) (e : Entry) : Decidable (protocol.Enabled c e) :=
  inferInstanceAs (Decidable (c.Allows e))

/-! ## Sizes -/

/-- Neither side is empty, and a square of the longer one has a size in bytes that fits in an
`i32`. -/
structure Affordable (w h : UInt32) : Prop where
  w_pos : 0 < w.toNat
  h_pos : 0 < h.toNat
  w_le : w.toNat ≤ 23170
  h_le : h.toNat ≤ 23170

namespace Affordable

variable {w h : UInt32}

theorem addressable (hs : Affordable w h) : ShmDoubleBuffer.Addressable w h := by
  have hmul : w.toNat * h.toNat ≤ 23170 * 23170 := Nat.mul_le_mul hs.w_le hs.h_le
  have hw := hs.w_le
  refine ⟨by omega, ?_⟩
  rw [Nat.mul_assoc]
  omega

/-- A side that is no longer than that is the same as an `i32`. -/
theorem toInt_toInt32 {x : UInt32} (hx : x.toNat ≤ 23170) : x.toInt32.toInt = x.toNat := by
  rw [← Int32.toInt_toBitVec, UInt32.toBitVec_toInt32, BitVec.toInt_eq_toNat_of_lt]
  · rfl
  · show 2 * x.toNat < 2 ^ 32
    omega

theorem toInt_size (hs : Affordable w h) :
    (Int32.ofNat (ShmDoubleBuffer.size w h)).toInt = 4 * w.toNat * h.toNat := by
  have hsize := ShmDoubleBuffer.size_eq hs.addressable
  rw [Int32.toInt_ofNat_of_lt (by rw [hsize]; exact hs.addressable.2), hsize]
  push_cast
  rfl

theorem size_pos (hs : Affordable w h) : 0 < 4 * w.toNat * h.toNat := by
  have hw := hs.w_pos
  exact Nat.mul_pos (by omega) hs.h_pos

/-- A proposed side that is not left to the client. -/
theorem side {x : Int32} (hpos : 0 < x) (hx : x.toInt ≤ 23170) :
    0 < x.toUInt32.toNat ∧ x.toUInt32.toNat ≤ 23170 := by
  have hpos' : 0 < x.toInt := by simpa [Int32.lt_iff_toInt_lt] using hpos
  have hnat : x.toUInt32.toNat = x.toInt.toNat := by
    rw [Int32.toNat_toUInt32_of_le (Int32.le_of_lt hpos), ← Int32.toNat_toInt]
  omega

theorem side_or {x : Int32} {old : UInt32} (hx : x.toInt ≤ 23170) (hpos : 0 < old.toNat)
    (hle : old.toNat ≤ 23170) :
    0 < (if 0 < x then x.toUInt32 else old).toNat ∧
      (if 0 < x then x.toUInt32 else old).toNat ≤ 23170 := by
  split
  next h => exact side h hx
  next => exact ⟨hpos, hle⟩

/-- Proposed sides, with others for those that are left to the client. -/
theorem sides {x y : Int32} (hs : Affordable w h) (hx : x.toInt ≤ 23170) (hy : y.toInt ≤ 23170) :
    Affordable (if 0 < x then x.toUInt32 else w) (if 0 < y then y.toUInt32 else h) := by
  obtain ⟨hw₀, hw₁⟩ := side_or hx hs.w_pos hs.w_le
  obtain ⟨hh₀, hh₁⟩ := side_or hy hs.h_pos hs.h_le
  exact ⟨hw₀, hh₀, hw₁, hh₁⟩

end Affordable

/-! ## What is asked of `wl_shm` -/

/-- The entry of a request on `wl_shm`. -/
def shmEntry (r : ShmRequest) : Entry := .request (.shm r)

/-- Requests on `wl_shm` that are within the rules, and what they leave. -/
structure Granted (c : Connection) (rs : List ShmRequest) (c' : Connection) : Prop where
  legal : protocol.Legal c (rs.map shmEntry)
  run : protocol.run c (rs.map shmEntry) = c'
  surface : c'.surface = c.surface
  acked : c'.acked = c.acked
  held : c'.held = c.held
  buffers : c.buffers ⊆ c'.buffers

namespace Granted

variable {c c' c'' : Connection} {rs rs' : List ShmRequest}

theorem refl (c : Connection) : Granted c [] c :=
  ⟨trivial, rfl, rfl, rfl, rfl, List.Subset.refl _⟩

theorem trans (h : Granted c rs c') (h' : Granted c' rs' c'') : Granted c (rs ++ rs') c'' where
  legal := by
    rw [List.map_append, EventMachine.legal_append, h.run]
    exact ⟨h.legal, h'.legal⟩
  run := by rw [List.map_append, EventMachine.run_append, h.run, h'.run]
  surface := h'.surface.trans h.surface
  acked := h'.acked.trans h.acked
  held := h'.held.trans h.held
  buffers := List.Subset.trans h.buffers h'.buffers

end Granted

/-- The connection after a buffer of this size was made. -/
def Connection.allocated (c : Connection) (w h : UInt32) (wlBuf : ℕ) : Connection :=
  { c with
    pool := some (Int32.ofNat (ShmDoubleBuffer.size w h))
    buffers := c.buffers ++ [(wlBuf, w.toInt32, h.toInt32)] }

/-- **What is requested for one buffer** is within the rules: the pool has room for its rows. -/
theorem granted_allocated {c : Connection} {w h : UInt32} {wlBuf : ℕ} (hs : Affordable w h)
    (hnew : ∀ b ∈ c.buffers, b.1 ≠ wlBuf) :
    Granted c (ShmDoubleBuffer.allocated w h wlBuf) (c.allocated w h wlBuf) := by
  have hsize := hs.toInt_size
  have hstride := ShmDoubleBuffer.toInt_stride hs.addressable.1
  have hw := Affordable.toInt_toInt32 hs.w_le
  have hh := Affordable.toInt_toInt32 hs.h_le
  have hpos := hs.size_pos
  have hpool : 0 < (Int32.ofNat (ShmDoubleBuffer.size w h)).toInt := by
    rw [hsize]
    exact_mod_cast hpos
  refine ⟨⟨hpool, ⟨hnew, _, rfl, ?_⟩, trivial⟩, rfl, rfl, rfl, rfl, List.subset_append_left _ _⟩
  rw [hsize, hstride, hw, hh]
  refine ⟨Int.le_refl _, ?_, ?_, Int.le_refl _, ?_⟩
  · exact_mod_cast hs.w_pos
  · exact_mod_cast hs.h_pos
  · exact Int.le_of_eq (by rw [Int32.toInt_zero, Int.zero_add])

end Wire

end Nullxes
