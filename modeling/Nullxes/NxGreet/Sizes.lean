import Nullxes.NxGreet.Protocol
import Nullxes.NxLock.Sizes

/-!
# What the greeter commits

The sizes of what the greeter commits, against the sizes it acknowledged. An `xdg_toplevel`
configure proposes a size, the `xdg_surface` configure after it is acknowledged; a dimension that is
not positive is left to the client. As in the lock client the pool is made once, of the size there
is then, and stays.

## Main definitions

* `Meets`, `paintLaw` — what may be committed after the configures there were
* `Window`, `window` — the greeter with that log
* `Steady` — the steps that leave the size as it is

## Main results

* `GreetState.redraw_paints` — what a redraw commits
* `committed_size_configured` — in the lock client and in the greeter, every commit of a steady run
  has the size of the last configure
-/

namespace Nullxes

namespace NxGreet

open Wlcommon

/-! ## The log -/

/-- A configure that is acknowledged, or a request. -/
inductive PaintEntry
  | configured (width height : Int32)
  | request (r : WlRequest)
  deriving DecidableEq, Repr

/-- The size of a configure. -/
def PaintEntry.size : PaintEntry → Option (Int32 × Int32)
  | .configured w h => some (w, h)
  | .request _ => none

/-- The size of the last configure. -/
def lastConfigure (log : List PaintEntry) : Option (Int32 × Int32) :=
  (log.filterMap PaintEntry.size).getLast?

/-- A size is as configured, where the configure asks for anything. -/
def Meets (size : Int32 × Int32) (w h : UInt32) : Prop :=
  (0 < size.1 → w = size.1.toUInt32) ∧ (0 < size.2 → h = size.2.toUInt32)

instance (size : Int32 × Int32) (w h : UInt32) : Decidable (Meets size w h) :=
  inferInstanceAs (Decidable (_ ∧ _))

/-- **The law.** What is committed has the size of the last configure. -/
def paintLaw (past : List PaintEntry) : PaintEntry → Prop
  | .request (.attachAndCommit drawn) =>
    ∃ size, lastConfigure past = some size ∧ Meets size drawn.w drawn.h
  | _ => True

section Log

variable {log : List PaintEntry} {w h : Int32}

@[simp] theorem lastConfigure_configured :
    lastConfigure (log ++ [.configured w h]) = some (w, h) := by
  simp [lastConfigure, PaintEntry.size]

@[simp] theorem lastConfigure_requests (rs : List WlRequest) :
    lastConfigure (log ++ rs.map .request) = lastConfigure log := by
  have hnone : (rs.map PaintEntry.request).filterMap PaintEntry.size = [] := by
    simp [List.filterMap_map, PaintEntry.size, Function.comp_def]
  rw [lastConfigure, List.filterMap_append, hnone, List.append_nil, lastConfigure]

/-- More requests change nothing of what may be committed. -/
theorem paintLaw_requests {e : PaintEntry} (rs : List WlRequest) :
    paintLaw (log ++ rs.map .request) e ↔ paintLaw log e := by
  unfold paintLaw
  split
  · rw [lastConfigure_requests]
  · rfl

theorem lawful_requests {rs : List WlRequest} (hrs : ∀ r ∈ rs, paintLaw log (.request r)) :
    Logs.Lawful (fun pre => paintLaw (log ++ pre)) (rs.map .request) :=
  Logs.lawful_map hrs fun _ before hr => (paintLaw_requests before).mpr hr

end Log

/-! ## The window -/

/-- The pool as configured. -/
def Pooled (size : Int32 × Int32) (pool : ShmDoubleBuffer (Option Picture)) : Prop :=
  Meets size pool.w pool.h ∧ ∀ b ∈ pool.buffers, b.w = pool.w ∧ b.h = pool.h

/-- A greeter as the log has it. -/
structure Fitting (s : GreetState) (log : List PaintEntry) : Prop where
  unconfigured : s.configured = false → s.buffer = none
  configured : s.configured = true →
    ∃ size, lastConfigure log = some size ∧ ∀ pool ∈ s.buffer, Pooled size pool

/-- The pool that a redraw would make has the configured size. -/
def GreetState.Ready (s : GreetState) (log : List PaintEntry) : Prop :=
  s.configured = true → s.buffer = none →
    ∀ size ∈ lastConfigure log, Meets size s.width s.height

/-- What a step does: what it requests is within the law. -/
structure Steps (log : List PaintEntry) (s s' : GreetState) : Prop where
  sent : ∃ new, s'.sent = s.sent ++ new ∧ (∀ r ∈ new, paintLaw log (.request r)) ∧
    Fitting s' (log ++ new.map .request)

namespace GreetState

variable {log : List PaintEntry} {s : GreetState}

/-- The pool that is painted into has the configured size. -/
theorem pool_size (h : Fitting s log) (hr : s.Ready log) (hc : s.configured = true) :
    ∃ size, lastConfigure log = some size ∧ ∀ pool, s.pool.1 = some pool → Pooled size pool := by
  obtain ⟨size, hlast, hpool⟩ := h.configured hc
  refine ⟨size, hlast, fun pool hp => ?_⟩
  rw [GreetState.pool] at hp
  split at hp
  next p hbuf =>
    cases hp
    exact hpool _ hbuf
  next hnone =>
    split at hp
    next b shm hnew =>
      cases hp
      obtain ⟨hw, hh, hs⟩ := ShmDoubleBuffer.new_ok hnew
      have hmeets : Meets size pool.w pool.h := by
        rw [hw, hh]
        exact hr hc hnone size hlast
      exact ⟨hmeets, hs.size⟩
    next => cases hp

/-- **What a redraw commits.** -/
theorem redraw_paints (h : Fitting s log) (hr : s.Ready log) : Steps log s s.redraw := by
  rcases s.redraw_cases with heq | ⟨shm, buffer, made, commit, hc, heq, hcases⟩
  · rw [heq]
    exact ⟨[], (List.append_nil _).symm, nofun, by simpa using h⟩
  rw [heq]
  obtain ⟨size, hlast, hpool⟩ := pool_size h hr hc
  -- Whether it commits or not, the pool it leaves is as configured.
  obtain ⟨hbuffer, hcommit⟩ : (∀ pool ∈ buffer, Pooled size pool) ∧
      ∀ r ∈ commit, paintLaw log (.request r) := by
    rcases hcases with ⟨rfl, rfl⟩ | ⟨pool, pool', drawn, hd⟩
    · exact ⟨hpool, nofun⟩
    · obtain ⟨hmeets, hsize⟩ := hpool pool hd.had
      obtain ⟨shm₁, shm₂, hdraw⟩ := hd.draw
      obtain ⟨hw, hh, hs, hdw, hdh⟩ := ShmDoubleBuffer.draw_size hsize hdraw
      refine ⟨fun p hp => ?_, fun r hr => ?_⟩
      · rw [hd.buffer] at hp
        cases hp
        exact ⟨by rw [hw, hh]; exact hmeets, hs⟩
      · rw [hd.commit] at hr
        split at hr
        · obtain rfl := List.mem_singleton.mp hr
          exact ⟨size, hlast, by rw [hdw, hdh]; exact hmeets⟩
        · cases hr
  refine ⟨made.map .shm ++ commit, ?_, fun r hr => ?_, fun hu => ?_, fun _ => ?_⟩
  · exact List.append_assoc _ _ _
  · rcases List.mem_append.mp hr with hr | hr
    · obtain ⟨q, -, rfl⟩ := List.mem_map.mp hr
      trivial
    · exact hcommit r hr
  · have hu' : s.configured = false := hu
    rw [hc] at hu'
    cases hu'
  · exact ⟨size, by rw [lastConfigure_requests, hlast], hbuffer⟩

end GreetState

/-! ## Keys -/

/-- What a redraw goes by, and what it changes. -/
structure Canvas where
  shm : Shm
  surface : Bool
  buffer : Option (ShmDoubleBuffer (Option Picture))
  width : UInt32
  height : UInt32
  configured : Bool
  sent : List WlRequest

namespace GreetState

variable {log : List PaintEntry} {s t : GreetState}

/-- The canvas of a greeter. -/
def canvas (s : GreetState) : Canvas :=
  ⟨s.shm, s.surface, s.buffer, s.width, s.height, s.configured, s.sent⟩

/-- The form changes, and may be painted. -/
inductive Repaints (s : GreetState) : GreetState → Prop
  | quiet (t : GreetState) (h : t.canvas = s.canvas) : s.Repaints t
  | redrawn (t : GreetState) (h : t.canvas = s.canvas) : s.Repaints t.redraw

theorem canvas_talk (s : GreetState) (r : Request) : (s.talk r).1.canvas = s.canvas := by
  rw [talk_eq]
  rfl

theorem canvas_submitRequest (s : GreetState) : s.submitRequest.1.canvas = s.canvas := by
  unfold submitRequest
  split
  · exact s.canvas_talk _
  · exact canvas_talk _ _

theorem canvas_submitAnswer (s : GreetState) (a : Answer) :
    (s.submitAnswer a).canvas = s.canvas := by
  have htalk : ∀ (t : GreetState) r, (if s.greetd then (t.talk r).1 else t).canvas = t.canvas := by
    intro t r
    split
    · exact t.canvas_talk r
    · rfl
  match a with
  | .response (.authMessage ..) => rfl
  | .response .success => exact htalk s _
  | .response (.error ..) => exact htalk _ _
  | .unwritten _ => rfl
  | .unread _ => rfl

theorem submitOver_repaints (h : t.canvas = s.canvas) : s.Repaints t.submitOver := by
  rw [submitOver_eq]
  refine .redrawn _ ?_
  rw [canvas_submitAnswer, canvas_submitRequest]
  exact h

theorem submit_repaints (s : GreetState) : s.Repaints s.submit := by
  unfold submit
  split
  · exact .quiet s rfl
  split
  · exact .redrawn _ rfl
  split
  · dsimp only
    split
    · exact submitOver_repaints rfl
    · exact .redrawn _ rfl
  · exact submitOver_repaints rfl

/-- **What a key does to the surface**: at most one redraw. -/
theorem dispatchKey_repaints (s : GreetState) (key : UInt32) (pressed : Bool) :
    s.Repaints (s.dispatchKey key pressed) := by
  rw [dispatchKey]
  split
  · cases s.keymap.processKey key with
    | action a =>
      show s.Repaints (s.handleAction a)
      unfold handleAction
      split
      · exact .redrawn _ rfl
      · split <;> exact .redrawn _ rfl
      · split
        · exact .redrawn _ rfl
        · exact s.submit_repaints
      · refine .redrawn _ ?_
        dsimp only
        split
        · exact canvas_talk _ _
        · rfl
      · exact .redrawn s rfl
    | text t =>
      show s.Repaints (s.handleText t)
      unfold handleText
      split
      · exact .quiet s rfl
      · split <;> exact .redrawn _ rfl
    | none => exact .quiet s rfl
  · exact .quiet s rfl

theorem redraw_size (s : GreetState) : s.redraw.width = s.width ∧ s.redraw.height = s.height := by
  rcases s.redraw_cases with heq | ⟨_, _, _, _, -, heq, -⟩
  · rw [heq]
    exact ⟨rfl, rfl⟩
  · rw [heq]
    exact ⟨rfl, rfl⟩

theorem Repaints.size (h : s.Repaints t) : t.width = s.width ∧ t.height = s.height := by
  cases h with
  | quiet t h => exact ⟨congrArg Canvas.width h, congrArg Canvas.height h⟩
  | redrawn t h =>
    rw [t.redraw_size.1, t.redraw_size.2]
    exact ⟨congrArg Canvas.width h, congrArg Canvas.height h⟩

end GreetState

/-! ## Steps -/

section Steps

variable {log : List PaintEntry} {s t : GreetState}

/-- A state whose surface is as it was. -/
theorem Steps.of_eq (h : Fitting s log) (hb : t.buffer = s.buffer)
    (hc : t.configured = s.configured) (hs : t.sent = s.sent) : Steps log s t := by
  refine ⟨[], by rw [hs, List.append_nil], nofun, ?_, ?_⟩
  · rw [hb, hc]
    exact h.unconfigured
  · rw [hb, hc]
    simpa using h.configured

theorem GreetState.Repaints.steps (h : s.Repaints t) (hfit : Fitting s log) (hr : s.Ready log) :
    Steps log s t := by
  cases h with
  | quiet t h =>
    exact .of_eq hfit (congrArg Canvas.buffer h) (congrArg Canvas.configured h)
      (congrArg Canvas.sent h)
  | redrawn t h =>
    have hb : t.buffer = s.buffer := congrArg Canvas.buffer h
    have hc : t.configured = s.configured := congrArg Canvas.configured h
    have hw : t.width = s.width := congrArg Canvas.width h
    have hh : t.height = s.height := congrArg Canvas.height h
    have hs : t.sent = s.sent := congrArg Canvas.sent h
    have hfit' : Fitting t log := ⟨by rw [hb, hc]; exact hfit.unconfigured,
      by rw [hb, hc]; exact hfit.configured⟩
    have hr' : t.Ready log := by
      unfold GreetState.Ready
      rwa [hb, hc, hw, hh]
    obtain ⟨new, hnew, hn⟩ := redraw_paints hfit' hr'
    exact ⟨new, by rw [hnew, hs], hn⟩

end Steps

/-! ## The greeter -/

/-- The greeter, with the size that is proposed, its configures and its requests. -/
structure Window where
  client : GreetState
  proposed : Int32 × Int32
  log : List PaintEntry

namespace Window

/-- The size that is proposed after an event. -/
def propose (size : Int32 × Int32) : ServerEvent → Int32 × Int32
  | .toplevelConfigure w h => (w, h)
  | _ => size

/-- The configure that is acknowledged. -/
def acknowledged (w : Window) : ServerEvent → List PaintEntry
  | .configure _ => [.configured w.proposed.1 w.proposed.2]
  | _ => []

/-- What an event adds to the log. -/
def entries (w : Window) (e : ServerEvent) : List PaintEntry :=
  w.acknowledged e ++ ((w.client.dispatch e).sent.drop w.client.sent.length).map .request

/-- What holds of a window: what is drawn is as configured, and what would be drawn as proposed. -/
structure Fits (w : Window) : Prop where
  client : Fitting w.client w.log
  proposed : Meets w.proposed w.client.width w.client.height
  lawful : Logs.Lawful paintLaw w.log

end Window

/-- The greeter from its start on, as what it shows. -/
def window (failure : ℕ → Option String) (link : Link) : EventMachine Window ServerEvent where
  Init w := w = ⟨(GreetState.new failure link).initSurface, (0, 0),
    (GreetState.new failure link).initSurface.sent.map .request⟩
  Enabled _ _ := True
  step w e := ⟨w.client.dispatch e, Window.propose w.proposed e, w.log ++ w.entries e⟩

/-- A configure is for the size of the pool if there is one; what a key paints without a pool has
its configured size. -/
def Steady (w : Window) : ServerEvent → Prop
  | .configure _ => ∀ pool ∈ w.client.buffer, Meets w.proposed pool.w pool.h
  | .key .. => w.client.Ready w.log
  | _ => True

section Window

variable {log : List PaintEntry} {s : GreetState}

/-- Configures and requests of the log do not matter beyond the last configure. -/
theorem Fitting.congr {log' : List PaintEntry} (h : Fitting s log)
    (heq : lastConfigure log' = lastConfigure log) : Fitting s log' :=
  ⟨h.unconfigured, by rw [heq]; exact h.configured⟩

/-- The `xdg_surface` configure: acknowledged, and painted. -/
theorem GreetState.dispatchConfigure_steps (h : Fitting s log) (serial : UInt32) {w hgt : Int32}
    (hpool : ∀ pool ∈ s.buffer, Meets (w, hgt) pool.w pool.h)
    (hsize : Meets (w, hgt) s.width s.height) :
    Steps (log ++ [.configured w hgt]) s (s.dispatchConfigure serial) := by
  set t : GreetState := { s.request (.ackConfigure serial) with configured := true }
  have hfit : Fitting t (log ++ [.configured w hgt]) := by
    refine ⟨nofun, fun _ => ⟨(w, hgt), lastConfigure_configured, fun pool hp => ?_⟩⟩
    have hp' : s.buffer = some pool := hp
    refine ⟨hpool pool hp', ?_⟩
    cases hc : s.configured with
    | false =>
      rw [h.unconfigured hc] at hp'
      cases hp'
    | true =>
      obtain ⟨size, _, hall⟩ := h.configured hc
      exact (hall pool hp').2
  have hready : t.Ready (log ++ [.configured w hgt]) := by
    intro _ _ size hlast
    rw [lastConfigure_configured] at hlast
    cases hlast
    exact hsize
  obtain ⟨new, hnew, hn, hfit'⟩ := redraw_paints hfit hready
  refine ⟨.ackConfigure serial :: new, ?_, fun r hr => ?_, hfit'.congr ?_⟩
  · exact hnew.trans (List.append_assoc _ _ _)
  · rcases List.mem_cons.mp hr with rfl | hr
    · trivial
    · exact hn r hr
  · rw [lastConfigure_requests, lastConfigure_requests]

/-- A request that is no commit. -/
theorem Steps.of_request {t : GreetState} (h : Fitting s log) {r : WlRequest}
    (hr : paintLaw log (.request r)) (hb : t.buffer = s.buffer) (hc : t.configured = s.configured)
    (hs : t.sent = s.sent ++ [r]) : Steps log s t := by
  have hfit : Fitting t log := ⟨by rw [hb, hc]; exact h.unconfigured,
    by rw [hb, hc]; exact h.configured⟩
  refine ⟨[r], hs, by simpa using hr, hfit.congr (lastConfigure_requests [r])⟩

namespace Window

variable {w : Window}

theorem steps (h : w.Fits) {e : ServerEvent} (hs : Steady w e) :
    Steps (w.log ++ w.acknowledged e) w.client (w.client.dispatch e) := by
  have hfit : Fitting w.client (w.log ++ []) := by rw [List.append_nil]; exact h.client
  cases e with
  | configure serial =>
    exact GreetState.dispatchConfigure_steps h.client serial hs h.proposed
  | key key pressed =>
    refine (w.client.dispatchKey_repaints key pressed).steps hfit ?_
    show w.client.Ready (w.log ++ [])
    rw [List.append_nil]
    exact hs
  | ping serial => exact .of_request hfit (r := .pong serial) trivial rfl rfl rfl
  | capabilities keyboard =>
    show Steps _ _ (w.client.dispatchCapabilities keyboard)
    rw [GreetState.dispatchCapabilities]
    split
    · exact .of_request hfit (r := .getKeyboard) trivial rfl rfl rfl
    · exact .of_eq hfit rfl rfl rfl
  | keymap xkbV1 loaded =>
    show Steps _ _ (if xkbV1 then _ else _)
    split <;> exact .of_eq hfit rfl rfl rfl
  | toplevelConfigure width height =>
    show Steps _ _ (w.client.dispatchToplevel width height)
    rw [GreetState.dispatchToplevel]
    split <;> split <;> exact .of_eq hfit rfl rfl rfl
  | release wlBuf =>
    refine ⟨[], (List.append_nil _).symm, fun r hr => absurd hr List.not_mem_nil,
      fun hu => ?_, fun hc => ?_⟩
    · show w.client.buffer.map _ = none
      rw [h.client.unconfigured hu]
      rfl
    · obtain ⟨size, hlast, hpool⟩ := hfit.configured hc
      refine ⟨size, (lastConfigure_requests _).trans hlast, fun pool hp => ?_⟩
      obtain ⟨pool', hp', rfl⟩ := Option.map_eq_some_iff.mp hp
      obtain ⟨hmeets, hs⟩ := hpool pool' hp'
      exact ⟨hmeets, ShmDoubleBuffer.markReleased_size hs wlBuf⟩
  | close => exact .of_eq hfit rfl rfl rfl
  | modifiers mods => exact .of_eq hfit rfl rfl rfl
  | other => exact .of_eq hfit rfl rfl rfl

/-- The size that would be painted is the proposed one. -/
theorem meets_dispatch (h : w.Fits) (e : ServerEvent) :
    Meets (propose w.proposed e) (w.client.dispatch e).width (w.client.dispatch e).height := by
  cases e with
  | toplevelConfigure width height =>
    show Meets (width, height) (w.client.dispatchToplevel width height).width
      (w.client.dispatchToplevel width height).height
    rw [GreetState.dispatchToplevel]
    split <;> split <;> constructor <;> intro hpos <;> first | rfl | contradiction
  | configure serial =>
    have hsame := GreetState.redraw_size
      { w.client.request (.ackConfigure serial) with configured := true }
    show Meets w.proposed (w.client.dispatchConfigure serial).width
      (w.client.dispatchConfigure serial).height
    rw [GreetState.dispatchConfigure, hsame.1, hsame.2]
    exact h.proposed
  | key key pressed =>
    show Meets w.proposed (w.client.dispatchKey key pressed).width
      (w.client.dispatchKey key pressed).height
    have hsame := (w.client.dispatchKey_repaints key pressed).size
    rw [hsame.1, hsame.2]
    exact h.proposed
  | capabilities keyboard =>
    show Meets w.proposed (w.client.dispatchCapabilities keyboard).width
      (w.client.dispatchCapabilities keyboard).height
    rw [GreetState.dispatchCapabilities]
    split <;> exact h.proposed
  | keymap xkbV1 loaded => cases xkbV1 <;> exact h.proposed
  | _ => exact h.proposed

/-- A steady step keeps within the law. -/
theorem fits_step (failure : ℕ → Option String) (link : Link) (h : w.Fits) {e : ServerEvent}
    (hs : Steady w e) : ((window failure link).step w e).Fits := by
  obtain ⟨new, hnew, hn, hfit⟩ := steps h hs
  have hentries : w.log ++ w.entries e = w.log ++ w.acknowledged e ++ new.map .request := by
    rw [entries, hnew, List.drop_left, List.append_assoc]
  have hack : Logs.Lawful paintLaw (w.log ++ w.acknowledged e) := by
    rw [Logs.lawful_append]
    refine ⟨h.lawful, Logs.lawful_of_forall fun a ha pre => ?_⟩
    cases a with
    | configured width height => trivial
    | request r =>
      unfold acknowledged at ha
      split at ha <;> simp at ha
  refine ⟨?_, meets_dispatch h e, ?_⟩
  · show Fitting (w.client.dispatch e) (w.log ++ w.entries e)
    rw [hentries]
    exact hfit
  · show Logs.Lawful paintLaw (w.log ++ w.entries e)
    rw [hentries]
    exact Logs.lawful_append.mpr ⟨hack, lawful_requests hn⟩

end Window

end Window

/-- **Every commit of the greeter has the configured size**, in a run whose steps are all steady. -/
theorem window_lawful (failure : ℕ → Option String) (link : Link) {w : Window}
    (hw : (window failure link).Init w) {es : List ServerEvent}
    (hs : (window failure link).EachStep Steady w es) :
    (window failure link).Always (fun w => Logs.Lawful paintLaw w.log) w es := by
  have hlegal : (window failure link).Legal w es :=
    EventMachine.legal_of_enabled (fun _ _ => trivial) w es
  subst hw
  refine (EventMachine.Always.of_eachStep (I := Window.Fits)
    (fun w e hI _ hC => Window.fits_step failure link hI hC) ?_ hlegal hs).mono
      fun w hI => hI.lawful
  have hnone : ¬ (0 : Int32) < 0 := by decide
  exact ⟨⟨fun _ => rfl, nofun⟩, ⟨fun h => (hnone h).elim, fun h => (hnone h).elim⟩,
    Logs.lawful_singleton.mpr trivial⟩

instance (past : List PaintEntry) (e : PaintEntry) : Decidable (paintLaw past e) := by
  unfold paintLaw
  split
  next drawn =>
    exact decidable_of_iff (∃ size ∈ lastConfigure past, Meets size drawn.w drawn.h) Iff.rfl
  next => infer_instance

instance (s : GreetState) (log : List PaintEntry) : Decidable (s.Ready log) :=
  inferInstanceAs (Decidable (_ → _ → ∀ size ∈ lastConfigure log, Meets size s.width s.height))

instance (w : Window) (e : ServerEvent) : Decidable (Steady w e) := by
  unfold Steady
  split <;> infer_instance

/-- A size, and a login. -/
def shown : List ServerEvent := [.toplevelConfigure 4 2, .configure 1] ++ login

end NxGreet

/-- An output of the lock client that is shown and typed at. -/
def NxLock.shown : List (Exchange ServerEvent) :=
  [.dispatch (.mode 9 8 8), .dispatch .locked, .dispatch (.configure 6 1 4 2),
    .dispatch (.keymap true (some letterKeymap)), .dispatch (.key 30 true)]

/-! ## Both clients -/

/-- **Every commit has the configured size**, in the lock client and in the greeter, in runs whose
steps are all steady. -/
theorem committed_size_configured (username : String) (failure failure' : ℕ → Option String)
    (link : NxGreet.Link) {p : NxLock.Painter} (hp : (NxLock.painter username failure).Init p)
    {es : List (NxLock.Exchange NxLock.ServerEvent)}
    (hl : (NxLock.painter username failure).Legal p es)
    (hes : (NxLock.painter username failure).EachStep NxLock.Steady p es)
    {w : NxGreet.Window} (hw : (NxGreet.window failure' link).Init w)
    {fs : List NxGreet.ServerEvent}
    (hfs : (NxGreet.window failure' link).EachStep NxGreet.Steady w fs) :
    (NxLock.painter username failure).Always
        (fun p => Logs.Lawful NxLock.paintLaw p.log) p es ∧
      (NxGreet.window failure' link).Always
        (fun w => Logs.Lawful NxGreet.paintLaw w.log) w fs :=
  ⟨NxLock.paint_lawful username failure hp hl hes, NxGreet.window_lawful failure' link hw hfs⟩

theorem committed_size_configured_shown :
    (NxLock.painter "u" fun _ => none).Always (fun p => Logs.Lawful NxLock.paintLaw p.log)
        ⟨(NxLock.LockState.new "u" fun _ => none).engage,
          (NxLock.LockState.new "u" fun _ => none).engage.sent.map .request⟩ NxLock.shown ∧
      (NxGreet.window (fun _ => none) NxGreet.passwordLink).Always
        (fun w => Logs.Lawful NxGreet.paintLaw w.log)
        ⟨(NxGreet.GreetState.new (fun _ => none) NxGreet.passwordLink).initSurface, (0, 0),
          (NxGreet.GreetState.new (fun _ => none) NxGreet.passwordLink).initSurface.sent.map
            .request⟩ NxGreet.shown := by
  have hlegal : (NxLock.painter "u" fun _ => none).Legal
      ⟨(NxLock.LockState.new "u" fun _ => none).engage,
        (NxLock.LockState.new "u" fun _ => none).engage.sent.map .request⟩ NxLock.shown :=
    ⟨rfl, rfl, rfl, rfl, rfl, trivial⟩
  exact committed_size_configured "u" (fun _ => none) (fun _ => none) NxGreet.passwordLink rfl
    hlegal (by decide) rfl (by decide)

/-- The same output with another size. -/
def NxLock.resized : List (Exchange ServerEvent) :=
  NxLock.shown ++ [.dispatch (.configure 6 2 8 2)]

/-- A second configure, of another size, is answered with a commit of the first size. -/
theorem not_committed_size_configured :
    (¬ ∀ (username : String) (failure : ℕ → Option String) (p : NxLock.Painter)
        (es : List (NxLock.Exchange NxLock.ServerEvent)),
        (NxLock.painter username failure).Init p → (NxLock.painter username failure).Legal p es →
        (NxLock.painter username failure).Always
          (fun p => Logs.Lawful NxLock.paintLaw p.log) p es) ∧
      ¬ ∀ (failure : ℕ → Option String) (link : NxGreet.Link) (w : NxGreet.Window)
        (es : List NxGreet.ServerEvent), (NxGreet.window failure link).Init w →
        (NxGreet.window failure link).Always
          (fun w => Logs.Lawful NxGreet.paintLaw w.log) w es := by
  constructor
  · intro h
    have hlast := (h "u" (fun _ => none) _ NxLock.resized rfl
      ⟨rfl, rfl, rfl, rfl, rfl, rfl, trivial⟩).last
    exact absurd hlast (by decide)
  · intro h
    have hlast := (h (fun _ => none) NxGreet.passwordLink _
      [.toplevelConfigure 4 2, .configure 1, .toplevelConfigure 8 2, .configure 2] rfl).last
    exact absurd hlast (by decide)

end Nullxes
