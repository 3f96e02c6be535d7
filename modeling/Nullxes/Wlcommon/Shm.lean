import Mathlib.Data.Int.Notation
import Mathlib.Data.Nat.Notation

/-!
# Shared-memory buffers of the clients

`wlcommon/src/shm.rs`: `ShmDoubleBuffer`, the pool of buffers a client draws into. What is in a
buffer is a parameter `γ`, changed only by the paint closure. Creating and mapping a memfd can fail;
`Shm.failure` says how the next attempts go. A buffer is named by the number of the attempt that
made it, which is never used again, so a `Release` can name a buffer that is gone.
-/

namespace Nullxes

namespace Wlcommon

/-- `MAX_BUFFERS`. -/
def maxBuffers : ℕ := 4

/-- `ClientError`, as far as `shm.rs` returns it. -/
inductive ClientError
  | bufferPoolExhausted (count : ℕ)
  | shm (message : String)
  deriving DecidableEq, Repr

/-- Requests on `wl_shm` and its pools. -/
inductive ShmRequest
  | createPool (size : Int32)
  | createBuffer (wlBuf : ℕ) (offset width height stride : Int32)
  deriving DecidableEq, Repr

/-- The `wl_shm` global: how many buffers were attempted, how each attempt fails if it does, and
what was requested. -/
structure Shm where
  attempted : ℕ
  failure : ℕ → Option String
  sent : List ShmRequest

/-- `Buffer` with the flag of its `BufferUserData`. -/
structure ShmBuffer (γ : Type) where
  wlBuf : ℕ
  pixels : γ
  released : Bool
  w : UInt32
  h : UInt32
  deriving DecidableEq, Repr

/-- `ShmDoubleBuffer`. -/
structure ShmDoubleBuffer (γ : Type) where
  buffers : List (ShmBuffer γ)
  w : UInt32
  h : UInt32
  deriving DecidableEq, Repr

/-- A pool with the index of one of its buffers. -/
structure Slot (γ : Type) where
  pool : ShmDoubleBuffer γ
  idx : Fin pool.buffers.length

/-- `DrawnBuffer`, with what is in the buffer. -/
structure DrawnBuffer (γ : Type) where
  wlBuf : ℕ
  w : UInt32
  h : UInt32
  pixels : γ
  deriving DecidableEq, Repr

namespace ShmDoubleBuffer

variable {γ : Type}

/-- The pool after a buffer was pushed, with the buffer's index. -/
def push (me : ShmDoubleBuffer γ) (b : ShmBuffer γ) : Slot γ where
  pool := { me with buffers := me.buffers ++ [b] }
  idx := ⟨me.buffers.length, by simp⟩

/-- `BufferUserData::mark_released` of the buffer with this name, if the pool still has it. -/
def markReleased (me : ShmDoubleBuffer γ) (wlBuf : ℕ) : ShmDoubleBuffer γ :=
  { me with
    buffers := me.buffers.map fun b => if b.wlBuf = wlBuf then { b with released := true } else b }

variable [Inhabited γ]

/-- `allocate_one`; a failed attempt leaves the pool as it is. The stride is a `u32` product cast to
`i32`, and cast on, sign-extended, to the `usize` of the size. -/
def allocateOne (me : ShmDoubleBuffer γ) (shm : Shm) : Except ClientError (Slot γ) × Shm :=
  if me.buffers.length ≥ maxBuffers then (.error (.bufferPoolExhausted maxBuffers), shm)
  else
    let stride : Int32 := (me.w * 4).toInt32
    let size : ℕ := min (stride.toInt64.toUInt64.toNat * me.h.toNat) (UInt64.size - 1)
    let wlBuf := shm.attempted
    match shm.failure wlBuf with
    | some message => (.error (.shm message), { shm with attempted := wlBuf + 1 })
    | none =>
      (.ok (me.push ⟨wlBuf, default, true, me.w, me.h⟩),
        { shm with
          attempted := wlBuf + 1
          sent := shm.sent ++ [.createPool (Int32.ofNat size),
            .createBuffer wlBuf 0 me.w.toInt32 me.h.toInt32 stride] })

/-- `ShmDoubleBuffer::new`. -/
def new (shm : Shm) (w h : UInt32) : Except ClientError (ShmDoubleBuffer γ) × Shm :=
  match (⟨[], w, h⟩ : ShmDoubleBuffer γ).allocateOne shm with
  | (.error e, shm) => (.error e, shm)
  | (.ok first, shm) =>
    match first.pool.allocateOne shm with
    | (.error e, shm) => (.error e, shm)
    | (.ok second, shm) => (.ok second.pool, shm)

/-- `resize`; when it fails half way the pool has the new size already. -/
def resize (me : ShmDoubleBuffer γ) (shm : Shm) (w h : UInt32) :
    Except ClientError Unit × ShmDoubleBuffer γ × Shm :=
  if w = me.w ∧ h = me.h then (.ok (), me, shm)
  else
    let me : ShmDoubleBuffer γ := ⟨[], w, h⟩
    match me.allocateOne shm with
    | (.error e, shm) => (.error e, me, shm)
    | (.ok first, shm) =>
      match first.pool.allocateOne shm with
      | (.error e, shm) => (.error e, first.pool, shm)
      | (.ok second, shm) => (.ok (), second.pool, shm)

/-- `find_free_or_grow`. -/
def findFreeOrGrow (me : ShmDoubleBuffer γ) (shm : Shm) : Except ClientError (Slot γ) × Shm :=
  match me.buffers.findFinIdx? fun b => b.released with
  | some i => (.ok ⟨me, i⟩, shm)
  | none => me.allocateOne shm

/-- `draw`; the closure gets the pixels, the stride, the width and the height. -/
def draw (me : ShmDoubleBuffer γ) (shm : Shm) (paint : γ → ℕ → UInt32 → UInt32 → γ) :
    Except ClientError (ShmDoubleBuffer γ × DrawnBuffer γ) × Shm :=
  match me.findFreeOrGrow shm with
  | (.error e, shm) => (.error e, shm)
  | (.ok slot, shm) =>
    let stride := (slot.pool.w * 4).toNat
    let buf := slot.pool.buffers.get slot.idx
    let pixels := paint buf.pixels stride buf.w buf.h
    let buf := { buf with pixels := pixels, released := false }
    (.ok ({ slot.pool with buffers := slot.pool.buffers.set slot.idx buf },
      ⟨buf.wlBuf, buf.w, buf.h, pixels⟩), shm)

end ShmDoubleBuffer

end Wlcommon

end Nullxes
