import Nullxes.Wlcommon.Wire
import Mathlib.Tactic.Set

/-!
# Clients with one window

What the clients with one window have in common: the `wl_shm` global, the size and the pool of the
window, and what they have asked of the compositor. `Window.redraw` is the `redraw` that each of
them has, with the closure as a parameter. What a client does of an event is a list of moves.

A window *agrees* with a connection if the compositor has what the window relies on: its buffers are
there, and those that the compositor holds are not free. Every move of a window that agrees keeps to
the protocol, and leaves it in agreement.

## Main definitions

* `Wire.Window`, `Wire.Move` — the common part of a client, and what changes it
* `Wire.Answers` — the moves that are due after an event
* `Wire.Agrees` — what the window and the compositor know of each other

## Main results

* `Wire.Agrees.answers` — due moves are within the protocol
-/

namespace Nullxes

namespace Wire

open Wlcommon

/-- What a client with one window keeps. -/
structure Window (γ : Type) where
  shm : Shm
  /-- `surface.is_some()`. -/
  surface : Bool
  configured : Bool
  width : UInt32
  height : UInt32
  buffer : Option (ShmDoubleBuffer γ)
  sent : List Request

/-- What a client does with its window. -/
inductive Move (γ : Type)
  | ack (serial : UInt32)
  | pong (serial : UInt32)
  | askKeyboard
  | redraw (paint : γ → ℕ → UInt32 → UInt32 → γ)
  /-- Another size, of which the pool is not told. -/
  | propose (w h : UInt32)
  /-- The pool gets the size of the window. -/
  | resize
  | release (wlBuf : ℕ)

namespace Window

variable {γ : Type} (s : Window γ)

/-- A request is made. -/
def request (r : Request) : Window γ := { s with sent := s.sent ++ [r] }

/-- What `ShmDoubleBuffer` requested was requested. -/
def setShm (shm : Shm) : Window γ :=
  { s with shm := { shm with sent := [] }, sent := s.sent ++ shm.sent.map .shm }

variable [Inhabited γ]

/-- The pool, made when there is none yet. -/
def pool : Option (ShmDoubleBuffer γ) × Shm :=
  match s.buffer with
  | some pool => (some pool, s.shm)
  | none =>
    match ShmDoubleBuffer.new s.shm s.width s.height with
    | (.ok b, shm) => (some b, shm)
    | (.error _, shm) => (none, shm)

/-- `redraw` from `pool.draw` on. -/
def drawInto (paint : γ → ℕ → UInt32 → UInt32 → γ) (pool : ShmDoubleBuffer γ) : Window γ :=
  let (drawn, shm) := pool.draw s.shm paint
  let s := s.setShm shm
  match drawn with
  | .error _ => s
  | .ok (pool, drawn) =>
    let s := { s with buffer := some pool }
    if s.surface then s.request (.commit drawn.wlBuf drawn.w drawn.h) else s

/-- `redraw`. -/
def redraw (paint : γ → ℕ → UInt32 → UInt32 → γ) : Window γ :=
  if !s.configured then s
  else
    let (buffer, shm) := s.pool
    let s := { s.setShm shm with buffer := buffer }
    match buffer with
    | none => s
    | some pool => s.drawInto paint pool

/-- The pool resized. -/
def resize : Window γ :=
  match s.buffer with
  | none => s
  | some b =>
    let (_, b, shm) := b.resize s.shm s.width s.height
    { s.setShm shm with buffer := some b }

/-- A move. -/
def move : Move γ → Window γ
  | .ack serial => { s.request (.ackConfigure serial) with configured := true }
  | .pong serial => s.request (.pong serial)
  | .askKeyboard => s.request .getKeyboard
  | .redraw paint => s.redraw paint
  | .propose w h => { s with width := w, height := h }
  | .resize => s.resize
  | .release wlBuf => { s with buffer := s.buffer.map fun b => b.markReleased wlBuf }

/-- Moves, in order. -/
def moves (ms : List (Move γ)) : Window γ := ms.foldl (fun s m => s.move m) s

end Window

/-- The window is drawn, or gets a size that can be afforded. -/
inductive Move.Paints {γ : Type} : Move γ → Prop
  | redraw (paint : γ → ℕ → UInt32 → UInt32 → γ) : Paints (.redraw paint)
  | propose {w h : UInt32} (hs : Affordable w h) : Paints (.propose w h)
  | resize : Paints .resize

/-- The moves that are due after an event. -/
inductive Answers {γ : Type} : Event → List (Move γ) → Prop
  | paints {told : Event} {ms : List (Move γ)} (h : ∀ m ∈ ms, m.Paints) : Answers told ms
  | ack {serial : UInt32} {ms : List (Move γ)} (h : ∀ m ∈ ms, m.Paints) :
    Answers (.configure serial) (.ack serial :: ms)
  | pong (serial : UInt32) : Answers (.ping serial) [.pong serial]
  | keyboard : Answers (.capabilities true) [.askKeyboard]
  | release (wlBuf : ℕ) : Answers (.release wlBuf) [.release wlBuf]

/-- A window that was drawn and resized, or left as it was. -/
def Window.Repaints {γ : Type} [Inhabited γ] (s s' : Window γ) : Prop :=
  ∃ ms : List (Move γ), (∀ m ∈ ms, m.Paints) ∧ s' = s.moves ms

namespace Window.Repaints

variable {γ : Type} [Inhabited γ] {s s' s'' : Window γ} {w h : UInt32}

theorem refl (s : Window γ) : s.Repaints s := ⟨[], nofun, rfl⟩

theorem trans (h : s.Repaints s') (h' : s'.Repaints s'') : s.Repaints s'' := by
  obtain ⟨ms, hms, rfl⟩ := h
  obtain ⟨ms', hms', rfl⟩ := h'
  refine ⟨ms ++ ms', fun m hm => ?_, List.foldl_append.symm⟩
  exact (List.mem_append.mp hm).elim (hms m) (hms' m)

theorem redraw (s : Window γ) (paint : γ → ℕ → UInt32 → UInt32 → γ) :
    s.Repaints (s.redraw paint) :=
  ⟨[.redraw paint], fun _ hm => List.mem_singleton.mp hm ▸ .redraw paint, rfl⟩

theorem propose (s : Window γ) (hs : Affordable w h) :
    s.Repaints { s with width := w, height := h } :=
  ⟨[.propose w h], fun _ hm => List.mem_singleton.mp hm ▸ .propose hs, rfl⟩

theorem resize (s : Window γ) : s.Repaints s.resize :=
  ⟨[.resize], fun _ hm => List.mem_singleton.mp hm ▸ .resize, rfl⟩

/-- Drawing and resizing is due after any event. -/
theorem answers (h : s.Repaints s') (told : Event) :
    ∃ ms, Answers told ms ∧ s' = s.moves ms := by
  obtain ⟨ms, hms, heq⟩ := h
  exact ⟨ms, .paints hms, heq⟩

/-- It is after a configure that was acknowledged. -/
theorem answers_configure {serial : UInt32} (h : (s.move (.ack serial)).Repaints s') :
    ∃ ms, Answers (.configure serial) ms ∧ s' = s.moves ms := by
  obtain ⟨ms, hms, heq⟩ := h
  exact ⟨.ack serial :: ms, .ack hms, heq⟩

end Window.Repaints

/-! ## The pool and the compositor -/

section

variable {γ : Type}

/-- The pool is as the compositor has it: its buffers are there, and what the compositor holds is
not free. -/
structure Stocked (c : Connection) (attempted : ℕ) (pool : ShmDoubleBuffer γ) : Prop where
  sound : pool.Sound attempted
  size : Affordable pool.w pool.h
  known : ∀ b ∈ pool.buffers, (b.wlBuf, b.w.toInt32, b.h.toInt32) ∈ c.buffers
  held : ∀ b ∈ pool.buffers, b.wlBuf ∈ c.held → b.released = false

/-- No buffer of the connection was made by an attempt that is still to come. -/
def Past (c : Connection) (attempted : ℕ) : Prop :=
  (∀ b ∈ c.buffers, b.1 < attempted) ∧ ∀ n ∈ c.held, n < attempted

theorem Past.mono {c : Connection} {m n : ℕ} (h : Past c m) (hle : m ≤ n) : Past c n :=
  ⟨fun b hb => (h.1 b hb).trans_le hle, fun k hk => (h.2 k hk).trans_le hle⟩

namespace Stocked

variable {c c' : Connection} {m n : ℕ} {pool : ShmDoubleBuffer γ} {rs : List ShmRequest}

theorem mono (h : Stocked c m pool) (hle : m ≤ n) : Stocked c n pool :=
  ⟨h.sound.mono hle, h.size, h.known, h.held⟩

theorem empty {w h : UInt32} (hs : Affordable w h) (n : ℕ) :
    Stocked c n (⟨[], w, h⟩ : ShmDoubleBuffer γ) :=
  ⟨.empty w h n, hs, nofun, nofun⟩

/-- What becomes free is no longer held. -/
theorem markReleased (h : Stocked c n pool) (wlBuf : ℕ) :
    Stocked { c with held := c.held.filter (· ≠ wlBuf) } n (pool.markReleased wlBuf) where
  sound := h.sound.markReleased wlBuf
  size := h.size
  known b hb := by
    obtain ⟨b', hb', rfl⟩ := List.mem_map.mp hb
    have hknown := h.known b' hb'
    split <;> exact hknown
  held b hb hheld := by
    obtain ⟨b', hb', rfl⟩ := List.mem_map.mp hb
    split at hheld
    next heq =>
      have hne := (List.mem_filter.mp hheld).2
      exact absurd heq (by simpa using hne)
    next hne =>
      rw [if_neg hne]
      exact h.held b' hb' (List.mem_filter.mp hheld).1

end Stocked

end

section

variable {γ : Type} [Inhabited γ] {c : Connection} {pool : ShmDoubleBuffer γ} {shm shm' : Shm}

/-- What the requests of a successful operation leave. -/
structure Restocked (c : Connection) (shm : Shm) (pool : ShmDoubleBuffer γ) (shm' : Shm)
    (rs : List ShmRequest) (c' : Connection) : Prop where
  sent : shm'.sent = shm.sent ++ rs
  granted : Granted c rs c'
  past : Past c' shm'.attempted
  stocked : Stocked c' shm'.attempted pool

theorem attempted_lt_allocateOne {slot : Slot γ} (ha : pool.allocateOne shm = (.ok slot, shm')) :
    shm.attempted < shm'.attempted := by
  rw [ShmDoubleBuffer.allocateOne] at ha
  split at ha
  · cases ha
  dsimp only at ha
  split at ha
  · cases ha
  · cases ha
    exact Nat.lt_succ_self _

/-- **What `allocate_one` requests** when it succeeds. -/
theorem restocked_allocateOne (h : Stocked c shm.attempted pool) (hp : Past c shm.attempted)
    {slot : Slot γ} (ha : pool.allocateOne shm = (.ok slot, shm')) :
    ∃ rs c', Restocked c shm slot.pool shm' rs c' := by
  obtain ⟨hsent, hw, hh⟩ := ShmDoubleBuffer.allocateOne_sent ha
  have hgrows := ShmDoubleBuffer.allocateOne_grows ha
  have hnew : ∀ b ∈ c.buffers, b.1 ≠ shm.attempted := fun b hb => (hp.1 b hb).ne
  have hgranted := granted_allocated h.size hnew
  have hle := hgrows.attempted_le
  have hatt := attempted_lt_allocateOne ha
  refine ⟨_, _, hsent, hgranted, ⟨fun b hb => ?_, fun n hn => (hp.2 n hn).trans_le hle⟩,
    h.sound.grows hgrows, by rw [hw, hh]; exact h.size, fun b hb => ?_, fun b hb hheld => ?_⟩
  · rcases List.mem_append.mp hb with hb | hb
    · exact (hp.1 b hb).trans_le hle
    · rw [List.mem_singleton.mp hb]
      exact hatt
  · rcases hgrows.mem hb with hb | rfl
    · exact List.mem_append_left _ (h.known b hb)
    · exact List.mem_append_right _ (List.mem_singleton.mpr rfl)
  · rcases hgrows.mem hb with hb | rfl
    · exact h.held b hb hheld
    · exact absurd (hp.2 _ hheld) (Nat.lt_irrefl _)

/-- When it fails it has requested nothing. -/
theorem sent_allocateOne {e : ClientError} (ha : pool.allocateOne shm = (.error e, shm')) :
    shm'.sent = shm.sent := by
  rw [ShmDoubleBuffer.allocateOne] at ha
  split at ha
  · cases ha
    rfl
  dsimp only at ha
  split at ha
  · cases ha
    rfl
  · cases ha

omit [Inhabited γ] in
/-- Two operations, one after the other. -/
theorem Restocked.trans {c' c'' : Connection} {shm'' : Shm} {pool' : ShmDoubleBuffer γ}
    {rs rs' : List ShmRequest} (h : Restocked c shm pool shm' rs c')
    (h' : Restocked c' shm' pool' shm'' rs' c'') :
    Restocked c shm pool' shm'' (rs ++ rs') c'' where
  sent := by rw [h'.sent, h.sent, List.append_assoc]
  granted := h.granted.trans h'.granted
  past := h'.past
  stocked := h'.stocked

omit [Inhabited γ] in
/-- Nothing is requested, though something may have been attempted. -/
theorem Restocked.refl (h : Stocked c shm.attempted pool) (hp : Past c shm.attempted)
    (hsent : shm'.sent = shm.sent) (hle : shm.attempted ≤ shm'.attempted) :
    Restocked c shm pool shm' [] c :=
  ⟨by rw [hsent, List.append_nil], .refl c, hp.mono hle, h.mono hle⟩

/-- **What a new or resized pool requests**, also when it fails half way. -/
theorem restocked_refilled {w h : UInt32} (hs : Affordable w h) (hp : Past c shm.attempted)
    {r : Except ClientError Unit} (hr : ShmDoubleBuffer.Refilled w h shm r pool shm') :
    ∃ rs c', Restocked c shm pool shm' rs c' := by
  have hempty : Stocked c shm.attempted (⟨[], w, h⟩ : ShmDoubleBuffer γ) := .empty hs _
  cases hr with
  | none h₁ =>
    exact ⟨[], c, .refl hempty hp (sent_allocateOne h₁) (ShmDoubleBuffer.attempted_allocateOne h₁)⟩
  | one h₁ h₂ =>
    obtain ⟨rs, c', hfirst⟩ := restocked_allocateOne hempty hp h₁
    exact ⟨_, c', hfirst.trans (.refl hfirst.stocked hfirst.past (sent_allocateOne h₂)
      (ShmDoubleBuffer.attempted_allocateOne h₂))⟩
  | two h₁ h₂ =>
    obtain ⟨rs, c', hfirst⟩ := restocked_allocateOne hempty hp h₁
    obtain ⟨rs', c'', hsecond⟩ := restocked_allocateOne hfirst.stocked hfirst.past h₂
    exact ⟨_, c'', hfirst.trans hsecond⟩

/-- When `new` fails, one buffer may have been requested. -/
theorem granted_new {w h : UInt32} (hs : Affordable w h) (hp : Past c shm.attempted)
    {e : ClientError}
    (hnew : ShmDoubleBuffer.new (γ := γ) shm w h = (.error e, shm')) :
    ∃ rs c', shm'.sent = shm.sent ++ rs ∧ Granted c rs c' ∧ Past c' shm'.attempted := by
  have hempty : Stocked c shm.attempted (⟨[], w, h⟩ : ShmDoubleBuffer γ) := .empty hs _
  rw [ShmDoubleBuffer.new] at hnew
  split at hnew
  next h₁ =>
    cases hnew
    exact ⟨[], c, by rw [sent_allocateOne h₁, List.append_nil], .refl c,
      hp.mono (ShmDoubleBuffer.attempted_allocateOne h₁)⟩
  next h₁ =>
    split at hnew
    next h₂ =>
      cases hnew
      obtain ⟨rs, c', hfirst⟩ := restocked_allocateOne hempty hp h₁
      exact ⟨rs, c', by rw [sent_allocateOne h₂, hfirst.sent], hfirst.granted,
        hfirst.past.mono (ShmDoubleBuffer.attempted_allocateOne h₂)⟩
    next => cases hnew

/-- **What `find_free_or_grow` requests.** -/
theorem restocked_findFreeOrGrow (h : Stocked c shm.attempted pool) (hp : Past c shm.attempted) :
    (∃ e shm', pool.findFreeOrGrow shm = (.error e, shm') ∧ Restocked c shm pool shm' [] c) ∨
      ∃ slot shm' rs c', pool.findFreeOrGrow shm = (.ok slot, shm') ∧
        Restocked c shm slot.pool shm' rs c' ∧
        (slot.pool.buffers.get slot.idx).released = true := by
  rcases hf : pool.findFreeOrGrow shm with ⟨⟨e⟩ | ⟨slot⟩, shm'⟩
  · refine .inl ⟨e, shm', rfl, ?_⟩
    rw [ShmDoubleBuffer.findFreeOrGrow] at hf
    split at hf
    · cases hf
    · exact .refl h hp (sent_allocateOne hf) (ShmDoubleBuffer.attempted_allocateOne hf)
  · right
    have hfree : (slot.pool.buffers.get slot.idx).released = true := by
      rcases pool.findFreeOrGrow_cases shm with ⟨e, shm₁, herr, -⟩ | ⟨slot₁, shm₁, hok, -, hfree⟩
      · cases herr.symm.trans hf
      · cases hok.symm.trans hf
        exact hfree
    rw [ShmDoubleBuffer.findFreeOrGrow] at hf
    split at hf
    · cases hf
      exact ⟨_, _, [], c, rfl, .refl h hp rfl le_rfl, hfree⟩
    · obtain ⟨rs, c', hr⟩ := restocked_allocateOne h hp hf
      exact ⟨slot, shm', rs, c', rfl, hr, hfree⟩

/-- **What `draw` requests**, and what it gives to be committed: a buffer of the connection that is
not held, and will not be free as long as it is. -/
theorem restocked_draw (h : Stocked c shm.attempted pool) (hp : Past c shm.attempted)
    (paint : γ → ℕ → UInt32 → UInt32 → γ) :
    (∃ e shm', pool.draw shm paint = (.error e, shm') ∧ Restocked c shm pool shm' [] c) ∨
      ∃ pool' drawn shm' rs c', pool.draw shm paint = (.ok (pool', drawn), shm') ∧
        Restocked c shm pool' shm' rs c' ∧
        (drawn.wlBuf, drawn.w.toInt32, drawn.h.toInt32) ∈ c'.buffers ∧ drawn.wlBuf ∉ c'.held ∧
        Stocked { c' with held := drawn.wlBuf :: c'.held } shm'.attempted pool' := by
  rcases restocked_findFreeOrGrow h hp with ⟨e, shm', hf, hr⟩ | ⟨slot, shm', rs, c', hf, hr, hfree⟩
  · exact .inl ⟨e, shm', by rw [ShmDoubleBuffer.draw, hf], hr⟩
  right
  set buf := slot.pool.buffers.get slot.idx with hbuf
  set pixels := paint buf.pixels (slot.pool.w * 4).toNat buf.w buf.h
  have hmem : buf ∈ slot.pool.buffers := List.get_mem _ _
  have hst := hr.stocked
  have hknown := hst.known buf hmem
  have hset := hst.sound.set slot.idx (b := { buf with pixels := pixels, released := false })
    ⟨rfl, rfl, rfl⟩
  have hnew := List.mem_set slot.idx.isLt { buf with pixels := pixels, released := false }
  have hknown' : ∀ b ∈ slot.pool.buffers.set slot.idx { buf with
      pixels := pixels, released := false }, (b.wlBuf, b.w.toInt32, b.h.toInt32) ∈ c'.buffers := by
    intro b hb
    rcases List.mem_or_eq_of_mem_set hb with hb | rfl
    · exact hst.known b hb
    · exact hknown
  have hheld : buf.wlBuf ∉ c'.held := by
    intro hheld
    have hbusy := hst.held buf hmem hheld
    rw [hfree] at hbusy
    cases hbusy
  have hlater : ∀ b ∈ slot.pool.buffers.set slot.idx { buf with
      pixels := pixels, released := false }, b.wlBuf ∈ buf.wlBuf :: c'.held →
      b.released = false := by
    intro b hb hbusy
    rcases List.mem_cons.mp hbusy with hname | hbusy
    · rw [List.inj_on_of_nodup_map hset.nodup hb hnew hname]
    · rcases List.mem_or_eq_of_mem_set hb with hb | rfl
      · exact hst.held b hb hbusy
      · rfl
  refine ⟨_, _, shm', rs, c', by rw [ShmDoubleBuffer.draw, hf], ⟨hr.sent, hr.granted, hr.past, ?_⟩,
    hknown, hheld, ?_⟩
  · exact ⟨hset, hst.size, hknown', fun b hb hbusy =>
      hlater b hb (List.mem_cons_of_mem _ hbusy)⟩
  · exact ⟨hset, hst.size, hknown', hlater⟩

end

/-! ## The window and the compositor -/

section

variable {γ : Type} {c c' c'' : Connection} {s s' s'' : Window γ}

/-- What the window and the compositor know of each other. -/
structure Agrees (c : Connection) (s : Window γ) : Prop where
  surface : s.surface = true → c.surface = true
  acked : s.configured = true → c.acked = true
  size : Affordable s.width s.height
  quiet : s.shm.sent = []
  past : Past c s.shm.attempted
  stocked : ∀ pool ∈ s.buffer, Stocked c s.shm.attempted pool

/-- Requests within the protocol that lead from one agreement to another. -/
structure Keeps (c : Connection) (s : Window γ) (rs : List Request) (c' : Connection)
    (s' : Window γ) : Prop where
  sent : s'.sent = s.sent ++ rs
  legal : protocol.Legal c (rs.map .request)
  run : protocol.run c (rs.map .request) = c'
  agrees : Agrees c' s'

namespace Keeps

variable {rs rs' : List Request}

theorem refl (h : Agrees c s) : Keeps c s [] c s :=
  ⟨(List.append_nil _).symm, trivial, rfl, h⟩

theorem trans (h : Keeps c s rs c' s') (h' : Keeps c' s' rs' c'' s'') :
    Keeps c s (rs ++ rs') c'' s'' where
  sent := by rw [h'.sent, h.sent, List.append_assoc]
  legal := by
    rw [List.map_append, EventMachine.legal_append, h.run]
    exact ⟨h.legal, h'.legal⟩
  run := by rw [List.map_append, EventMachine.run_append, h.run, h'.run]
  agrees := h'.agrees

/-- Granted requests on `wl_shm`, whatever they leave of the pool. -/
theorem setShm (h : Agrees c s) {shm : Shm} {rs : List ShmRequest} (hsent : shm.sent = rs)
    (hg : Granted c rs c') (hp : Past c' shm.attempted)
    {buffer : Option (ShmDoubleBuffer γ)}
    (hbuf : ∀ pool ∈ buffer, Stocked c' shm.attempted pool) :
    Keeps c s (rs.map .shm) c' { s.setShm shm with buffer := buffer } where
  sent := by rw [← hsent]; rfl
  legal := by
    rw [List.map_map]
    exact hg.legal
  run := by
    rw [List.map_map]
    exact hg.run
  agrees :=
    ⟨fun hs => by rw [hg.surface]; exact h.surface hs, fun hc => by rw [hg.acked]; exact h.acked hc,
      h.size, rfl, hp, hbuf⟩

end Keeps

/-- Neither the pool nor what the compositor has of it has changed. -/
theorem Agrees.congr (h : Agrees c s) (hbuffers : c'.buffers = c.buffers) (hheld : c'.held = c.held)
    (hrole : c'.surface = c.surface) (hsurface : s'.surface = s.surface) (hshm : s'.shm = s.shm)
    (hbuf : s'.buffer = s.buffer) (hacked : s'.configured = true → c'.acked = true)
    (hsize : Affordable s'.width s'.height) : Agrees c' s' where
  surface hs := by
    rw [hrole]
    exact h.surface (hsurface ▸ hs)
  acked := hacked
  size := hsize
  quiet := hshm ▸ h.quiet
  past := by
    rw [Past, hbuffers, hheld, hshm]
    exact h.past
  stocked pool hp := by
    rw [hbuf] at hp
    obtain ⟨hsound, hsize, hknown, hfree⟩ := h.stocked pool hp
    exact ⟨hshm ▸ hsound, hsize, by rwa [hbuffers], by rwa [hheld]⟩

end

/-! ## The moves -/

section

variable {γ : Type} [Inhabited γ] {c : Connection} {s : Window γ}

/-- The pool that is drawn into is there, or is made. -/
theorem keeps_pool (h : Agrees c s) :
    ∃ rs c', Keeps c s rs c' { s.setShm s.pool.2 with buffer := s.pool.1 } := by
  rw [Window.pool]
  cases hbuf : s.buffer with
  | some pool =>
    refine ⟨_, c, Keeps.setShm h h.quiet (.refl c) h.past fun p hp => ?_⟩
    exact h.stocked p (hbuf ▸ hp)
  | none =>
    rcases hnew : ShmDoubleBuffer.new (γ := γ) s.shm s.width s.height with ⟨⟨e⟩ | ⟨pool⟩, shm⟩
    · obtain ⟨rs, c', hsent, hg, hp⟩ := granted_new h.size h.past hnew
      rw [h.quiet, List.nil_append] at hsent
      exact ⟨_, c', Keeps.setShm h hsent hg hp nofun⟩
    · obtain ⟨rs, c', hr⟩ :=
        restocked_refilled h.size h.past (ShmDoubleBuffer.refilled_of_new s.shm hnew)
      have hsent := hr.sent
      rw [h.quiet, List.nil_append] at hsent
      refine ⟨_, c', Keeps.setShm h hsent hr.granted hr.past fun pool' hp => ?_⟩
      cases hp
      exact hr.stocked

/-- What is drawn may be committed. -/
theorem keeps_drawInto (h : Agrees c s) (hc : s.configured = true) {pool : ShmDoubleBuffer γ}
    (hbuf : s.buffer = some pool) (paint : γ → ℕ → UInt32 → UInt32 → γ) :
    ∃ rs c', Keeps c s rs c' (s.drawInto paint pool) := by
  rw [Window.drawInto]
  rcases restocked_draw (h.stocked pool hbuf) h.past paint with
    ⟨e, shm, hd, hr⟩ | ⟨pool', drawn, shm, rs, c', hd, hr, hknown, hfree, hst⟩
  · rw [hd]
    have hsent := hr.sent
    rw [h.quiet] at hsent
    refine ⟨_, c, Keeps.setShm h hsent hr.granted hr.past fun p hp => ?_⟩
    have heq : p = pool := by simpa [hbuf, eq_comm] using hp
    rw [heq]
    exact hr.stocked
  · rw [hd]
    have hsent := hr.sent
    rw [h.quiet, List.nil_append] at hsent
    have hdrawn : Keeps c s (rs.map .shm) c' { s.setShm shm with buffer := some pool' } := by
      refine Keeps.setShm h hsent hr.granted hr.past fun p hp => ?_
      cases hp
      exact hr.stocked
    dsimp only
    split
    next hs =>
      refine ⟨_, _, hdrawn.trans ⟨rfl, ⟨⟨?_, ?_, hknown, hfree⟩, trivial⟩, rfl, ?_⟩⟩
      · exact hdrawn.agrees.surface hs
      · exact hdrawn.agrees.acked hc
      · refine ⟨hdrawn.agrees.surface, hdrawn.agrees.acked, h.size, rfl,
          ⟨hr.past.1, fun n hn => ?_⟩, fun p hp => ?_⟩
        · rcases List.mem_cons.mp hn with rfl | hn
          · exact hr.past.1 _ hknown
          · exact hr.past.2 n hn
        · cases hp
          exact hst
    next => exact ⟨_, c', hdrawn⟩

theorem keeps_redraw (h : Agrees c s) (paint : γ → ℕ → UInt32 → UInt32 → γ) :
    ∃ rs c', Keeps c s rs c' (s.redraw paint) := by
  rw [Window.redraw]
  cases hc : s.configured with
  | false => exact ⟨[], c, .refl h⟩
  | true =>
    obtain ⟨rs, c', hpool⟩ := keeps_pool h
    rcases hp : s.pool with ⟨_ | pool, shm⟩
    · rw [hp] at hpool
      exact ⟨rs, c', hpool⟩
    · rw [hp] at hpool
      obtain ⟨rs', c'', hdraw⟩ := keeps_drawInto hpool.agrees hc rfl paint
      exact ⟨_, c'', hpool.trans hdraw⟩

theorem keeps_resize (h : Agrees c s) : ∃ rs c', Keeps c s rs c' s.resize := by
  rw [Window.resize]
  cases hbuf : s.buffer with
  | none => exact ⟨[], c, .refl h⟩
  | some pool =>
    dsimp only
    by_cases hsame : s.width = pool.w ∧ s.height = pool.h
    · rw [ShmDoubleBuffer.resize_same pool s.shm hsame]
      refine ⟨_, c, Keeps.setShm h h.quiet (.refl c) h.past fun p hp => ?_⟩
      exact h.stocked p (hbuf ▸ hp)
    · obtain ⟨r, pool', shm, heq, hr⟩ := pool.refilled_of_resize s.shm hsame
      obtain ⟨rs, c', hrest⟩ := restocked_refilled h.size h.past hr
      have hsent := hrest.sent
      rw [h.quiet, List.nil_append] at hsent
      rw [heq]
      refine ⟨_, c', Keeps.setShm h hsent hrest.granted hrest.past fun p hp => ?_⟩
      cases hp
      exact hrest.stocked

theorem keeps_paints (h : Agrees c s) {ms : List (Move γ)} (hms : ∀ m ∈ ms, m.Paints) :
    ∃ rs c', Keeps c s rs c' (s.moves ms) := by
  induction ms generalizing c s with
  | nil => exact ⟨[], c, .refl h⟩
  | cons m ms ih =>
    have hm : ∃ rs c', Keeps c s rs c' (s.move m) := by
      cases hms m List.mem_cons_self with
      | redraw paint => exact keeps_redraw h paint
      | propose hs =>
        exact ⟨[], c, (List.append_nil _).symm, trivial, rfl,
          h.congr rfl rfl rfl rfl rfl rfl h.acked hs⟩
      | resize => exact keeps_resize h
    obtain ⟨rs, c', hfirst⟩ := hm
    obtain ⟨rs', c'', hrest⟩ := ih hfirst.agrees fun m hm => hms m (List.mem_cons_of_mem _ hm)
    exact ⟨_, c'', hfirst.trans hrest⟩

omit [Inhabited γ] in
/-- What an event tells does not contradict what the window relies on: a release leaves less that is
held. -/
theorem Agrees.note (h : Agrees c s) (told : Event) : Agrees (c.note (.event told)) s := by
  cases told with
  | release wlBuf =>
    refine ⟨h.surface, h.acked, h.size, h.quiet, ⟨h.past.1, fun n hn => ?_⟩, fun pool hp => ?_⟩
    · exact h.past.2 n (List.mem_of_mem_filter hn)
    · obtain ⟨hsound, hsize, hknown, hfree⟩ := h.stocked pool hp
      exact ⟨hsound, hsize, hknown, fun b hb hheld => hfree b hb (List.mem_of_mem_filter hheld)⟩
  | _ => exact h.congr rfl rfl rfl rfl rfl rfl h.acked h.size

/-- **Due moves are within the protocol.** -/
theorem Agrees.answers (h : Agrees c s) {told : Event} {ms : List (Move γ)}
    (hms : Answers told ms) :
    ∃ rs c', Keeps (c.note (.event told)) s rs c' (s.moves ms) := by
  cases hms with
  | paints hp => exact keeps_paints (h.note told) hp
  | @ack serial ms hp =>
    have hack : Keeps (c.note (.event (.configure serial))) s [.ackConfigure serial]
        ((c.note (.event (.configure serial))).note (.request (.ackConfigure serial)))
        (s.move (.ack serial)) :=
      ⟨rfl, ⟨List.mem_append_right _ (List.mem_singleton.mpr rfl), trivial⟩, rfl,
        h.congr rfl rfl rfl rfl rfl rfl (fun _ => rfl) h.size⟩
    obtain ⟨rs, c', hrest⟩ := keeps_paints hack.agrees hp
    exact ⟨_, c', hack.trans hrest⟩
  | pong serial =>
    exact ⟨[.pong serial], _, rfl, ⟨List.mem_append_right _ (List.mem_singleton.mpr rfl), trivial⟩,
      rfl, h.congr rfl rfl rfl rfl rfl rfl h.acked h.size⟩
  | keyboard =>
    exact ⟨[.getKeyboard], _, rfl, ⟨Bool.or_true _, trivial⟩, rfl,
      h.congr rfl rfl rfl rfl rfl rfl h.acked h.size⟩
  | release wlBuf =>
    -- unlike the other moves it changes the pool, and must come after what it answers
    refine ⟨[], _, (List.append_nil _).symm, trivial, rfl, h.surface, h.acked, h.size,
      h.quiet, ⟨h.past.1, fun n hn => h.past.2 n (List.mem_of_mem_filter hn)⟩, fun pool hp => ?_⟩
    obtain ⟨pool', hbuf, rfl⟩ := Option.map_eq_some_iff.mp hp
    exact (h.stocked pool' hbuf).markReleased wlBuf

end

end Wire

end Nullxes
