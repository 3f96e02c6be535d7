import Nullxes.Slate.State
import Nullxes.Wlcommon.Pool

/-!
# The sizes of the terminal

A window of the terminal has one size and three things that must follow it: the pool that is drawn
into, the grid of the `Term`, and the size the PTY tells the shell. The pool and the session are
made on the first redraw, separately, of the size there is then, and either can fail to be made; a
configure resizes what there is.

The pool and the grid are resized with the window. The size of the PTY is sent, and is right once
its event loop has taken what it was sent: a session is followed by its *settled* PTY.

## Main definitions

* `TerminalSession.settled` — the PTY after everything on the channel
* `SlateState.Agree` — the three sizes
* `SlateState.Commits` — what a step commits has the size of the window

## Main results

* `TerminalSession.work_iterate` — the event loop settles a session
* `geometry_agrees` — the sizes agree in every state, and every commit has them
-/

namespace Nullxes

namespace Slate

open Wlcommon

/-! ## A session -/

namespace TerminalSession

variable (t : TerminalSession)

/-- The PTY once its event loop has taken what is on the channel. -/
def settled : Pty := t.channel.foldl Pty.handle t.pty

@[simp] theorem settled_send (msg : AlacMsg) : (t.send msg).settled = t.settled.handle msg := by
  simp [settled, send]

@[simp] theorem settled_work : t.work.settled = t.settled := by
  rw [work]
  cases h : t.channel with
  | nil => rfl
  | cons msg rest => simp [settled, h]

@[simp] theorem term_work : t.work.term = t.term := by
  rw [work]
  cases t.channel <;> rfl

/-- **The event loop settles a session**, in as many turns as there are messages. -/
theorem work_iterate : work^[t.channel.length] t = { t with pty := t.settled, channel := [] } := by
  obtain ⟨term, pty, channel⟩ := t
  induction channel generalizing pty with
  | nil => rfl
  | cons msg rest ih => exact ih (pty.handle msg)

@[simp] theorem term_write (bytes : List UInt8) : (t.write bytes).term = t.term := by
  rw [write]
  split <;> rfl

@[simp] theorem winsize_write (bytes : List UInt8) :
    (t.write bytes).settled.winsize = t.settled.winsize := by
  rw [write]
  split
  · rfl
  · rw [settled_send]
    rfl

end TerminalSession

/-! ## The window -/

namespace SlateState

/-- The size of the grid that the window has room for. -/
def dims (s : SlateState) : AlacDims :=
  ⟨(cellGridForWindow s.width s.height).1.toNat, (cellGridForWindow s.width s.height).2.toNat⟩

/-- The same for the PTY. -/
def windowSize (s : SlateState) : WindowSize :=
  ⟨(cellGridForWindow s.width s.height).1, (cellGridForWindow s.width s.height).2,
    cellW.toUInt16, cellH.toUInt16⟩

/-- The three sizes are those of the window. -/
structure Agree (s : SlateState) : Prop where
  pool : ∀ pool ∈ s.buffer, pool.w = s.width ∧ pool.h = s.height
  grid : ∀ t ∈ s.term, t.term = s.dims
  winsize : ∀ t ∈ s.term, t.settled.winsize = s.windowSize

/-- What a reaction commits has the size of the window. -/
def Commits (s : SlateState) (e : Event) : Prop :=
  ∀ drawn, .attachAndCommit drawn ∈ (s.react e).sent.drop s.sent.length →
    drawn.w = (s.react e).width ∧ drawn.h = (s.react e).height

/-- The sizes agree, down to the buffers of the pool. -/
structure Fits (s : SlateState) : Prop extends Agree s where
  size : ∀ pool ∈ s.buffer, ∀ b ∈ pool.buffers, b.w = pool.w ∧ b.h = pool.h

/-- What a reaction does that leaves the size of the window. -/
structure Paints (s s' : SlateState) : Prop where
  fits : s'.Fits
  width : s'.width = s.width
  height : s'.height = s.height
  sent : ∃ new, s'.sent = s.sent ++ new ∧
    ∀ drawn, .attachAndCommit drawn ∈ new → drawn.w = s.width ∧ drawn.h = s.height

variable {s s' s'' : SlateState}

theorem Fits.congr (h : s.Fits) (hb : s'.buffer = s.buffer) (hw : s'.width = s.width)
    (hh : s'.height = s.height) (ht : s'.term = s.term) : s'.Fits := by
  obtain ⟨⟨hpool, hgrid, hwin⟩, hsize⟩ := h
  have hdims : s'.dims = s.dims := by rw [dims, dims, hw, hh]
  have hwindow : s'.windowSize = s.windowSize := by rw [windowSize, windowSize, hw, hh]
  refine ⟨⟨?_, ?_, ?_⟩, ?_⟩
  · rwa [hb, hw, hh]
  · rwa [ht, hdims]
  · rwa [ht, hwindow]
  · rwa [hb]

/-- Something is sent to the session, or taken from it. -/
theorem Fits.map_term (h : s.Fits) {f : TerminalSession → TerminalSession}
    (hterm : ∀ t, (f t).term = t.term)
    (hwin : ∀ t, (f t).settled.winsize = t.settled.winsize) :
    Fits { s with term := s.term.map f } := by
  refine ⟨⟨h.pool, fun t ht => ?_, fun t ht => ?_⟩, h.size⟩
  · obtain ⟨t', ht', rfl⟩ := Option.map_eq_some_iff.mp ht
    exact (hterm t').trans (h.grid t' ht')
  · obtain ⟨t', ht', rfl⟩ := Option.map_eq_some_iff.mp ht
    exact (hwin t').trans (h.winsize t' ht')

theorem not_mem_shm {rs : List ShmRequest} {drawn : DrawnBuffer (Option Picture)} :
    WlRequest.attachAndCommit drawn ∉ rs.map .shm := by
  intro h
  obtain ⟨r, -, hr⟩ := List.mem_map.mp h
  cases hr

namespace Paints

theorem trans (h : Paints s s') (h' : Paints s' s'') : Paints s s'' := by
  obtain ⟨new, hs, hnew⟩ := h.sent
  obtain ⟨new', hs', hnew'⟩ := h'.sent
  refine ⟨h'.fits, h'.width.trans h.width, h'.height.trans h.height, new ++ new', ?_,
    fun drawn hd => ?_⟩
  · rw [hs', hs, List.append_assoc]
  · rcases List.mem_append.mp hd with hd | hd
    · exact hnew drawn hd
    · rw [← h.width, ← h.height]
      exact hnew' drawn hd

/-- Nothing is requested. -/
theorem quiet (h : s'.Fits) (hw : s'.width = s.width) (hh : s'.height = s.height)
    (hs : s'.sent = s.sent) : Paints s s' :=
  ⟨h, hw, hh, [], by rw [hs, List.append_nil], nofun⟩

/-- A request that is no commit. -/
theorem request (h : s.Fits) {r : WlRequest} (hr : ∀ drawn, r ≠ .attachAndCommit drawn) :
    Paints s (s.request r) := by
  refine ⟨h.congr rfl rfl rfl rfl, rfl, rfl, [r], rfl, fun drawn hd => ?_⟩
  exact absurd (List.mem_singleton.mp hd).symm (hr drawn)

theorem commit (h : s.Fits) {drawn : DrawnBuffer (Option Picture)} (hw : drawn.w = s.width)
    (hh : drawn.h = s.height) : Paints s (s.request (.attachAndCommit drawn)) := by
  refine ⟨h.congr rfl rfl rfl rfl, rfl, rfl, [.attachAndCommit drawn], rfl, fun d hd => ?_⟩
  cases List.mem_singleton.mp hd
  exact ⟨hw, hh⟩

/-- The pool is replaced by one of the size of the window. -/
theorem buffer (h : s.Fits) (shm : Shm) {buffer : Option (ShmDoubleBuffer (Option Picture))}
    (hpool : ∀ pool ∈ buffer, pool.w = s.width ∧ pool.h = s.height ∧
      ∀ b ∈ pool.buffers, b.w = pool.w ∧ b.h = pool.h) :
    Paints s { s.setShm shm with buffer := buffer } := by
  refine ⟨⟨⟨fun pool hp => ?_, h.grid, h.winsize⟩, fun pool hp => (hpool pool hp).2.2⟩, rfl, rfl,
    shm.sent.map .shm, rfl, fun drawn hd => absurd hd not_mem_shm⟩
  exact ⟨(hpool pool hp).1, (hpool pool hp).2.1⟩

end Paints

/-! ## Redrawing -/

/-- A new session has the size of the window. -/
theorem ensureTerm_paints (h : s.Fits) : Paints s s.ensureTerm := by
  rw [ensureTerm]
  split
  · exact .quiet h rfl rfl rfl
  dsimp only
  split
  · exact .quiet (h.congr rfl rfl rfl rfl) rfl rfl rfl
  · refine .quiet ⟨⟨h.pool, fun t ht => ?_, fun t ht => ?_⟩, h.size⟩ rfl rfl rfl
    · obtain rfl := Option.some.inj ht
      rfl
    · obtain rfl := Option.some.inj ht
      rfl

/-- The pool that is painted into. -/
theorem pool_fits (h : s.Fits) : ∀ pool ∈ s.pool.1, pool.w = s.width ∧ pool.h = s.height ∧
    ∀ b ∈ pool.buffers, b.w = pool.w ∧ b.h = pool.h := by
  intro pool hp
  rw [SlateState.pool] at hp
  split at hp
  next b hb =>
    cases hp
    exact ⟨(h.pool _ hb).1, (h.pool _ hb).2, h.size _ hb⟩
  next =>
    split at hp
    next b shm hnew =>
      cases hp
      obtain ⟨hw, hh, hs⟩ := ShmDoubleBuffer.new_ok hnew
      exact ⟨hw, hh, hs.size⟩
    next => cases hp

/-- **What a redraw commits.** -/
theorem drawInto_paints (h : s.Fits) {pool : ShmDoubleBuffer (Option Picture)}
    (hbuf : s.buffer = some pool) : Paints s (s.drawInto pool) := by
  obtain ⟨hw, hh⟩ := h.pool pool hbuf
  have hsize := h.size pool hbuf
  rw [drawInto]
  rcases hdraw : pool.draw s.shm s.paint with ⟨⟨e⟩ | ⟨pool', drawn⟩, shm⟩
  · -- nothing is drawn, and the pool stays
    have hkept : Paints s { s.setShm shm with buffer := s.buffer } :=
      .buffer h shm fun p hp => ⟨(h.pool p hp).1, (h.pool p hp).2, h.size p hp⟩
    exact hkept
  obtain ⟨hw', hh', hsize', hdw, hdh⟩ := ShmDoubleBuffer.draw_size hsize hdraw
  have hpainted : Paints s { s.setShm shm with buffer := some pool' } := by
    refine .buffer h shm fun p hp => ?_
    obtain rfl := Option.some.inj hp
    exact ⟨hw'.trans hw, hh'.trans hh, hsize'⟩
  dsimp only
  split
  · exact hpainted.trans (.commit hpainted.fits (hdw.trans hw) (hdh.trans hh))
  · exact hpainted

theorem redrawPool_paints (h : s.Fits) : Paints s s.redrawPool := by
  have hmade : Paints s { s.setShm s.pool.2 with buffer := s.pool.1 } := .buffer h _ (pool_fits h)
  rw [redrawPool]
  rcases hp : s.pool with ⟨_ | pool, shm⟩
  · rw [hp] at hmade
    exact hmade
  · rw [hp] at hmade
    exact hmade.trans (drawInto_paints hmade.fits rfl)

theorem redraw_paints (h : s.Fits) : Paints s s.redraw := by
  rw [redraw]
  split
  · exact .quiet h rfl rfl rfl
  · have hterm := ensureTerm_paints h
    exact hterm.trans (redrawPool_paints hterm.fits)

/-! ## Reactions -/

/-- The pool has the new size already when the grid is resized. -/
theorem resizeTerm_fits {w h : UInt32} (hw : s.width = w) (hh : s.height = h)
    (hpool : ∀ pool ∈ s.buffer, pool.w = w ∧ pool.h = h ∧
      ∀ b ∈ pool.buffers, b.w = pool.w ∧ b.h = pool.h) : (s.resizeTerm w h).Fits := by
  subst hw hh
  refine ⟨⟨fun pool hp => ?_, fun t ht => ?_, fun t ht => ?_⟩, fun pool hp => (hpool pool hp).2.2⟩
  · exact ⟨(hpool pool hp).1, (hpool pool hp).2.1⟩
  · obtain ⟨t', -, rfl⟩ := Option.map_eq_some_iff.mp ht
    rfl
  · obtain ⟨t', -, rfl⟩ := Option.map_eq_some_iff.mp ht
    exact congrArg Pty.winsize (t'.settled_send _)

/-- **What a configure resizes.** It commits nothing. -/
theorem dispatchToplevel_fits (h : s.Fits) (width height : Int32) :
    (s.dispatchToplevel width height).Fits ∧ ∃ rs : List ShmRequest,
      (s.dispatchToplevel width height).sent = s.sent ++ rs.map .shm := by
  rw [dispatchToplevel]
  generalize (if 0 < width then width.toUInt32 else defaultW) = w
  generalize (if 0 < height then height.toUInt32 else defaultH) = hgt
  split
  next hne =>
    rw [resizeBuffer]
    rcases hb : s.buffer with _ | pool
    · refine ⟨resizeTerm_fits rfl rfl fun pool hp => ?_, [], (List.append_nil _).symm⟩
      have hnone : none = some pool := hp
      cases hnone
    · have hne' : ¬ (w = pool.w ∧ hgt = pool.h) := by
        rw [(h.pool pool hb).1, (h.pool pool hb).2]
        rintro ⟨rfl, rfl⟩
        exact hne.elim (fun hw => hw rfl) fun hh => hh rfl
      obtain ⟨r, pool', shm, hr, hw, hh, hs, -⟩ := pool.exists_resize s.shm hne'
      dsimp only
      rw [hr]
      refine ⟨resizeTerm_fits rfl rfl fun p hp => ?_, shm.sent, rfl⟩
      obtain rfl := Option.some.inj hp
      exact ⟨hw, hh, hs.size⟩
  next => exact ⟨h, [], (List.append_nil _).symm⟩

theorem dispatchKey_paints (h : s.Fits) (key : UInt32) (pressed : Bool) :
    Paints s (s.dispatchKey key pressed) := by
  have hwrite : ∀ bytes, Paints s { s with term := s.term.map fun t => t.write bytes } :=
    fun bytes => .quiet (h.map_term (fun t => t.term_write bytes) fun t => t.winsize_write bytes)
      rfl rfl rfl
  rw [dispatchKey]
  split
  · cases s.keymap.processKey key with
    | action a => exact hwrite _
    | text t => exact hwrite _
    | none => exact .quiet h rfl rfl rfl
  · exact .quiet h rfl rfl rfl

/-- A release changes no size. -/
theorem dispatchRelease_paints (h : s.Fits) (wlBuf : ℕ) :
    Paints s (s.dispatch (.release wlBuf)) := by
  refine .quiet ⟨⟨fun pool hp => ?_, h.grid, h.winsize⟩, fun pool hp => ?_⟩ rfl rfl rfl
  · obtain ⟨pool', hp', rfl⟩ := Option.map_eq_some_iff.mp hp
    exact h.pool pool' hp'
  · obtain ⟨pool', hp', rfl⟩ := Option.map_eq_some_iff.mp hp
    exact ShmDoubleBuffer.markReleased_size (h.size pool' hp') wlBuf

/-- Everything but a configure of the toplevel leaves the size of the window. -/
theorem dispatch_paints (h : s.Fits) {e : ServerEvent}
    (he : ∀ width height, e ≠ .toplevelConfigure width height) : Paints s (s.dispatch e) := by
  have hsame : ∀ {t : SlateState}, t.buffer = s.buffer → t.width = s.width →
      t.height = s.height → t.term = s.term → t.sent = s.sent → Paints s t :=
    fun hb hw hh ht hs => .quiet (h.congr hb hw hh ht) hw hh hs
  cases e with
  | ping serial => exact .request h nofun
  | configure serial =>
    have hack : Paints s (s.request (.ackConfigure serial)) := .request h nofun
    have hset : Fits { s.request (.ackConfigure serial) with configured := true } :=
      hack.fits.congr rfl rfl rfl rfl
    exact (hack.trans (.quiet hset rfl rfl rfl)).trans (redraw_paints hset)
  | toplevelConfigure width height => exact absurd rfl (he width height)
  | close => exact hsame rfl rfl rfl rfl rfl
  | capabilities keyboard =>
    show Paints s (s.dispatchCapabilities keyboard)
    rw [dispatchCapabilities]
    split
    · have hget : Paints s (s.request .getKeyboard) := .request h nofun
      exact hget.trans (.quiet (hget.fits.congr rfl rfl rfl rfl) rfl rfl rfl)
    · exact hsame rfl rfl rfl rfl rfl
  | keymap xkbV1 loaded =>
    show Paints s (if xkbV1 then _ else s)
    split <;> exact hsame rfl rfl rfl rfl rfl
  | modifiers mods => exact hsame rfl rfl rfl rfl rfl
  | key key pressed => exact dispatchKey_paints h key pressed
  | release wlBuf => exact dispatchRelease_paints h wlBuf
  | other => exact hsame rfl rfl rfl rfl rfl

/-- The main loop, and the other threads. -/
theorem drain_paints (h : s.Fits) : Paints s s.drain := by
  rw [drain]
  split
  · have hquiet : Fits { s with dirtyRx := some 0 } := h.congr rfl rfl rfl rfl
    exact .trans (.quiet hquiet rfl rfl rfl) (redraw_paints hquiet)
  · exact .quiet h rfl rfl rfl

theorem Paints.commits {e : Event} (h : Paints s (s.react e)) : s.Commits e := by
  intro drawn hd
  obtain ⟨new, hs, hnew⟩ := h.sent
  rw [hs, List.drop_left] at hd
  rw [h.width, h.height]
  exact hnew drawn hd

/-- **Every reaction keeps the sizes**, and commits only what has them. -/
theorem react_fits (h : s.Fits) (e : Event) : (s.react e).Fits ∧ s.Commits e := by
  have of_paints : Paints s (s.react e) → (s.react e).Fits ∧ s.Commits e :=
    fun hp => ⟨hp.fits, hp.commits⟩
  cases e with
  | dispatch e =>
    by_cases he : ∀ width height, e ≠ .toplevelConfigure width height
    · exact of_paints (dispatch_paints h he)
    · simp only [ne_eq, not_forall, not_not] at he
      obtain ⟨width, height, rfl⟩ := he
      obtain ⟨hfits, rs, hs⟩ := dispatchToplevel_fits h width height
      refine ⟨hfits, fun drawn hd => ?_⟩
      have hsent : (s.react (.dispatch (.toplevelConfigure width height))).sent =
        s.sent ++ rs.map .shm := hs
      rw [hsent, List.drop_left] at hd
      exact absurd hd not_mem_shm
  | drain => exact of_paints (drain_paints h)
  | sendEvent => exact of_paints (.quiet (h.congr rfl rfl rfl rfl) rfl rfl rfl)
  | work =>
    refine of_paints (.quiet (h.map_term TerminalSession.term_work fun t => ?_) rfl rfl rfl)
    rw [t.settled_work]

end SlateState

/-! ## The terminal -/

/-- The terminal: how its allocations go, and its attempts to start a session. -/
def slate (failure ptyFailure : ℕ → Option String) : EventMachine SlateState Event where
  Init s := s = (SlateState.new failure ptyFailure).initSurface
  Enabled _ _ := True
  step := SlateState.react

/-- Every state of a run fits. -/
theorem always_fits (failure ptyFailure : ℕ → Option String) (es : List Event) :
    (slate failure ptyFailure).Always SlateState.Fits
      (SlateState.new failure ptyFailure).initSurface es :=
  .of_invariant (fun _ e h _ => (SlateState.react_fits h e).1)
    ⟨⟨nofun, nofun, nofun⟩, nofun⟩
    (EventMachine.legal_of_enabled (fun _ _ => trivial) _ es)

/-- **The sizes agree**: in every state the pool has the size of the window and the grid and the
settled PTY the cells it has room for, and every commit has the size of the window. -/
theorem geometry_agrees (failure ptyFailure : ℕ → Option String) (es : List Event) :
    (slate failure ptyFailure).Always SlateState.Agree
        (SlateState.new failure ptyFailure).initSurface es ∧
      (slate failure ptyFailure).EachStep SlateState.Commits
        (SlateState.new failure ptyFailure).initSurface es := by
  have hfits := always_fits failure ptyFailure es
  exact ⟨hfits.mono fun s h => h.toAgree, hfits.eachStep fun s e h => (SlateState.react_fits h e).2⟩

/-- A session is started at 800×500, and the window made smaller. -/
def shrunk : List Event := [.dispatch (.configure 1), .dispatch (.toplevelConfigure 400 300)]

/-- The shell is still told 98 columns when the window has room for 48. -/
theorem not_winsize_agrees :
    ((slate (fun _ => none) fun _ => none).run
        (SlateState.new (fun _ => none) fun _ => none).initSurface shrunk).term.map
        (fun t => (t.pty.winsize.numCols, t.settled.winsize.numCols)) = some (98, 48) ∧
      ¬ ∀ (failure ptyFailure : ℕ → Option String) (es : List Event),
        (slate failure ptyFailure).Always (fun s => ∀ t ∈ s.term, t.pty.winsize = s.windowSize)
          (SlateState.new failure ptyFailure).initSurface es := by
  have hrun : ((slate (fun _ => none) fun _ => none).run
      (SlateState.new (fun _ => none) fun _ => none).initSurface shrunk).term.map
      (fun t => (t.pty.winsize.numCols, t.settled.winsize.numCols)) = some (98, 48) := by decide
  have hroom : ((slate (fun _ => none) fun _ => none).run
      (SlateState.new (fun _ => none) fun _ => none).initSurface
      shrunk).windowSize.numCols = 48 := by
    decide
  refine ⟨hrun, fun h => ?_⟩
  obtain ⟨t, ht, hcols⟩ := Option.map_eq_some_iff.mp hrun
  have hlast := (h (fun _ => none) (fun _ => none) shrunk).last t ht
  rw [← hlast] at hroom
  exact absurd ((congrArg Prod.fst hcols).symm.trans hroom) (by decide)

end Slate

end Nullxes
