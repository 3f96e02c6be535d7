import Nullxes.Ipc.Callers
import Nullxes.NxSettings.Redraws

/-!
# Reloading from the settings window

The settings window and FRAME, with all the other clients. Each `Enter` starts a task of its own; a
task connects, if need be after some attempts, asks once for a reload over its own connection, and
writes the outcome to the status line. Tasks, window and server run in any order, and FRAME may stop
listening at any time. The end of FRAME's process, which the client would see as an end of file, is
not modelled.

## Main definitions

* `Desktop`, `desktop` — the window, its tasks, and the server with its clients

## Main results

* `truthful` — what the status line says of a reload is what FRAME did
* `status_shown_iff` — when the screen shows what the status line says
-/

namespace Nullxes

namespace NxSettings

open Nullxes.Frame Nullxes.Ipc
open Wlcommon (Action)

/-! ## The code -/

/-- The window and the system it is part of. -/
structure Desktop where
  window : SettingsState
  system : System

inductive DesktopEvent
  | window (e : WindowEvent)
  /-- An attempt of a task to connect fails, and it sleeps. -/
  | connectFails (i : ℕ)
  /-- It connects, and asks. -/
  | connects (i : ℕ)
  /-- It has its response, and drops its connection. -/
  | returns (i : ℕ)
  /-- It sets the status. -/
  | reports (i : ℕ)
  /-- The process ends, and with it the task, where it awaits. -/
  | aborts (i : ℕ)
  /-- Anything else. -/
  | system (e : SystemEvent)

namespace ReloadTask

/-- The rest of `Client::connect` after an attempt that failed. -/
def connectFails (t : ReloadTask) : ReloadTask :=
  match t.step with
  | .connecting attempt delayMs =>
    { t with
      step := if attempt = reconnectMaxTries then .reporting (.error .connect)
        else .connecting (attempt + 1) (min (delayMs * 2) reconnectCapMs) }
  | _ => t

/-- It has not connected yet. -/
def IsConnecting (t : ReloadTask) : Prop :=
  match t.step with
  | .connecting _ _ => True
  | _ => False

/-- It is about to set the status. -/
def IsReporting (t : ReloadTask) : Prop :=
  match t.step with
  | .reporting _ => True
  | _ => False

theorem IsConnecting.step_eq {t : ReloadTask} (h : t.IsConnecting) :
    ∃ attempt delayMs, t.step = .connecting attempt delayMs := by
  rw [IsConnecting] at h
  split at h
  · exact ⟨_, _, ‹_›⟩
  · cases h

theorem IsReporting.step_eq {t : ReloadTask} (h : t.IsReporting) :
    ∃ result, t.step = .reporting result := by
  rw [IsReporting] at h
  split at h
  · exact ⟨_, ‹_›⟩
  · cases h

end ReloadTask

namespace SettingsState

variable (s : SettingsState)

def setTask (i : ℕ) (t : ReloadTask) : SettingsState := { s with tasks := s.tasks.set i t }

/-- The end of the closure that `Enter` spawns. -/
def reports (i : ℕ) : SettingsState :=
  match s.tasks[i]? with
  | some ⟨conn, .reporting result⟩ =>
    { s.setTask i ⟨conn, .finished result⟩ with
      ui := { s.ui with status := some (reloaded result) } }
  | _ => s

end SettingsState

namespace Desktop

variable (ctx : Context) (rd : Reader) (s : Desktop)

/-- The connections of the tasks. -/
def conns : List ℕ := s.window.tasks.filterMap ReloadTask.conn

/-- What the client of a connection has been returned, if its call has returned. -/
def result (c : ℕ) : Option (Except ClientError Response) :=
  match s.system.callers[c]? with
  | some (some k) => k.returned.getLast?
  | _ => none

def Enabled : DesktopEvent → Prop
  | .window _ => s.window.shouldClose = false
  | .connectFails i | .connects i => ∃ t ∈ s.window.tasks[i]?, t.IsConnecting
  | .returns i => ∃ c, s.window.tasks[i]? = some ⟨some c, .requesting⟩ ∧ (s.result c).isSome
  | .reports i => ∃ t ∈ s.window.tasks[i]?, t.IsReporting
  | .aborts i => s.window.shouldClose = true ∧
    ∃ t ∈ s.window.tasks[i]?, t.IsConnecting ∨ t.step = .requesting
  | .system e => s.system.Enabled e ∧
    ∀ c ∈ s.conns, e ≠ .caller c .leave ∧ ∀ req, e ≠ .caller c (.request req)

def step : DesktopEvent → Desktop
  | .window e => { s with window := s.window.dispatch ctx e }
  | .connectFails i =>
    match s.window.tasks[i]? with
    | some t => { s with window := s.window.setTask i t.connectFails }
    | none => s
  | .connects i =>
    let c := s.system.callers.length
    { window := s.window.setTask i ⟨some c, .requesting⟩
      system := (s.system.step rd .connect).step rd (.caller c (.request .reloadConfig)) }
  | .returns i =>
    match s.window.tasks[i]? with
    | some ⟨some c, .requesting⟩ =>
      match s.result c with
      | some result =>
        { window := s.window.setTask i ⟨some c, .reporting (reloadFrame result)⟩
          system := s.system.step rd (.caller c .leave) }
      | none => s
    | _ => s
  | .reports i => { s with window := s.window.reports i }
  | .aborts i =>
    match s.window.tasks[i]? with
    | some ⟨some c, .requesting⟩ =>
      { window := s.window.setTask i ⟨some c, .aborted⟩
        system := s.system.step rd (.caller c .leave) }
    | some t => { s with window := s.window.setTask i { t with step := .aborted } }
    | none => s
  | .system e => { s with system := s.system.step rd e }

end Desktop

/-- The settings window with FRAME and its other clients. -/
def desktop (ctx : Context) (rd : Reader) : EventMachine Desktop DesktopEvent where
  Init s := ∃ failure, s.window = (SettingsState.new failure).initSurface ∧
    (Ipc.system rd).Reachable s.system
  Enabled s e := s.Enabled e
  step s e := s.step ctx rd e

/-! ## What a task has done -/

/-- The client of a connection is a task's, and has asked for a reload. -/
def Asks (sys : System) (c : ℕ) (k : Caller) : Prop :=
  sys.callers[c]? = some (some k) ∧ k.calls = [.reloadConfig]

/-- A task that has its outcome never connected, or was answered and has left. -/
def Ended (sys : System) (conn : Option ℕ) (result : Except ReloadError Unit) : Prop :=
  conn = none ∧ result = .error .connect ∨
    ∃ c k response, conn = some c ∧ Asks sys c k ∧ k.task = .gone ∧
      k.returned = [.ok response] ∧ result = reloadFrame (.ok response)

/-- What a task has done so far. -/
def ReloadTask.Inv (sys : System) (t : ReloadTask) : Prop :=
  match t.step with
  | .connecting attempt _ => t.conn = none ∧ attempt ≤ reconnectMaxTries
  | .requesting => ∃ c k, t.conn = some c ∧ Asks sys c k ∧ k.task ≠ .gone
  | .reporting result | .finished result => Ended sys t.conn result
  | .aborted => ∀ c, t.conn = some c → ∃ k, Asks sys c k ∧ k.task = .gone

/-- The clients of these connections have neither asked for more nor left, nor come back. -/
def Keeps (sys sys' : System) (conns : List ℕ) : Prop :=
  ∀ c ∈ conns, ∀ k, sys.callers[c]? = some (some k) → ∃ k', sys'.callers[c]? = some (some k') ∧
    k'.calls = k.calls ∧ (k.task ≠ .gone → k'.task ≠ .gone) ∧ (k.task = .gone → k' = k)

theorem ReloadTask.Inv.keeps {sys sys' : System} {t : ReloadTask} (h : t.Inv sys)
    (hkeeps : Keeps sys sys' t.conn.toList) : t.Inv sys' := by
  have hended : ∀ result, Ended sys t.conn result → Ended sys' t.conn result := by
    rintro result (hnone | ⟨c, k, response, hconn, ⟨hk, hcalls⟩, hgone, hrest⟩)
    · exact .inl hnone
    · obtain ⟨k', hk', -, -, hsame⟩ := hkeeps c (by simp [hconn]) k hk
      obtain rfl := hsame hgone
      exact .inr ⟨c, k', response, hconn, ⟨hk', hcalls⟩, hgone, hrest⟩
  rw [ReloadTask.Inv] at h ⊢
  split at h
  · exact h
  · obtain ⟨c, k, hconn, ⟨hk, hcalls⟩, hlive⟩ := h
    obtain ⟨k', hk', hcalls', hlive', -⟩ := hkeeps c (by simp [hconn]) k hk
    exact ⟨c, k', hconn, ⟨hk', hcalls'.trans hcalls⟩, hlive' hlive⟩
  · exact hended _ h
  · exact hended _ h
  · intro c hconn
    obtain ⟨k, ⟨hk, hcalls⟩, hgone⟩ := h c hconn
    obtain ⟨k', hk', -, -, hsame⟩ := hkeeps c (by simp [hconn]) k hk
    obtain rfl := hsame hgone
    exact ⟨k', ⟨hk', hcalls⟩, hgone⟩

/-- The status is what `Enter` or a task that is done has set. -/
def SettingsState.StatusInv (s : SettingsState) : Prop :=
  match s.ui.status with
  | none => s.tasks = []
  | some text => s.tasks ≠ [] ∧
    (text = reloading ∨ ∃ t ∈ s.tasks, ∃ result, t.step = .finished result ∧ text = reloaded result)

/-- Elsewhere in the system something happens. -/
theorem keeps_step {rd : Reader} {sys : System} {e : SystemEvent} (he : sys.Enabled e) {c : ℕ}
    (hleave : e ≠ .caller c .leave) (hrequest : ∀ req, e ≠ .caller c (.request req)) :
    Keeps sys (sys.step rd e) [c] := by
  intro c' hc' k hk
  obtain rfl := List.mem_singleton.mp hc'
  exact System.callers_step hk he hleave hrequest

theorem Keeps.trans {sys sys' sys'' : System} {conns : List ℕ} (h : Keeps sys sys' conns)
    (h' : Keeps sys' sys'' conns) : Keeps sys sys'' conns := by
  intro c hc k hk
  obtain ⟨k', hk', hcalls, hlive, hgone⟩ := h c hc k hk
  obtain ⟨k'', hk'', hcalls', hlive', hgone'⟩ := h' c hc k' hk'
  refine ⟨k'', hk'', hcalls'.trans hcalls, hlive' ∘ hlive, fun hg => ?_⟩
  obtain rfl := hgone hg
  exact hgone' hg

/-- The client of a task leaves. -/
theorem leave_step {rd : Reader} {sys : System} (h : sys.Inv rd) {c : ℕ} {k : Caller}
    (hk : sys.callers[c]? = some (some k)) (hlive : k.task ≠ .gone) :
    sys.Enabled (.caller c .leave) ∧
      (sys.step rd (.caller c .leave)).callers[c]? = some (some { k with task := .gone }) := by
  obtain ⟨conn, hc, -, -⟩ := h.conn_of_caller hk
  refine ⟨⟨conn, k, hc, hk, hlive⟩, ?_⟩
  rw [System.step, hc, hk]
  exact (EventMachine.getElem?_set_eq_some hk).mpr (.inl ⟨rfl, rfl⟩)

/-- A client that has asked once and was returned something has its response, and nothing else. -/
theorem returned_of_asks {rd : Reader} {sys : System} (h : sys.Inv rd) {c : ℕ} {k : Caller}
    (hk : Asks sys c k) (hlive : k.task ≠ .gone) {result : Except ClientError Response}
    (hlast : k.returned.getLast? = some result) :
    ∃ response, result = .ok response ∧ k.returned = [.ok response] := by
  obtain ⟨conn, -, -, hold⟩ := h.conn_of_caller hk.1
  have hlen : k.returned.length ≤ 1 := by
    have hcounted := (hold.live hlive).returned
    rw [hk.2, List.length_singleton] at hcounted
    omega
  have hone : k.returned = [result] := by
    match hr : k.returned with
    | [] => simp [hr] at hlast
    | [x] => simpa [hr] using hlast
    | _ :: _ :: _ => simp [hr] at hlen
  obtain ⟨-, -, response, -, -, rfl, -⟩ := hold.returned 0 result (by rw [hone]; rfl)
  exact ⟨response, rfl, hone⟩

/-- A task that is not done changes. -/
theorem SettingsState.StatusInv.setTask {s : SettingsState} (h : s.StatusInv) {i : ℕ}
    {t : ReloadTask} (ht : s.tasks[i]? = some t) (hnot : ∀ result, t.step ≠ .finished result)
    (t' : ReloadTask) : (s.setTask i t').StatusInv := by
  have hne : s.tasks ≠ [] := List.ne_nil_of_mem (List.mem_of_getElem? ht)
  rw [SettingsState.StatusInv] at h ⊢
  rw [SettingsState.setTask]
  dsimp only
  split at h
  · exact absurd h hne
  · refine ⟨by simpa using hne, h.2.imp_right ?_⟩
    rintro ⟨u, hu, result, hstep, htext⟩
    obtain ⟨j, hj⟩ := List.getElem?_of_mem hu
    have hij : j ≠ i := by
      rintro rfl
      obtain rfl := Option.some.inj (ht.symm.trans hj)
      exact hnot result hstep
    have hset := (EventMachine.getElem?_set_eq_some ht (b := t')).mpr (.inr ⟨hij, hj⟩)
    exact ⟨u, List.mem_of_getElem? hset, result, hstep, htext⟩

namespace Desktop

variable (rd : Reader) (s : Desktop)

/-- The invariant of the window with its tasks. -/
structure Inv : Prop where
  system : s.system.Inv rd
  tasks : ∀ t ∈ s.window.tasks, t.Inv s.system
  lt : ∀ c ∈ s.conns, c < s.system.callers.length
  nodup : s.conns.Nodup
  status : s.window.StatusInv

variable {rd s}

theorem conn_mem_conns {i : ℕ} {t : ReloadTask} (ht : s.window.tasks[i]? = some t) {c : ℕ}
    (hc : t.conn = some c) : c ∈ s.conns :=
  List.mem_filterMap.mpr ⟨t, List.mem_of_getElem? ht, hc⟩

/-- The connections when a task changes and keeps its own. -/
theorem filterMap_set_of_conn {tasks : List ReloadTask} {i : ℕ} {t t' : ReloadTask}
    (ht : tasks[i]? = some t) (hconn : t'.conn = t.conn) :
    (tasks.set i t').filterMap ReloadTask.conn = tasks.filterMap ReloadTask.conn := by
  induction tasks generalizing i with
  | nil => rfl
  | cons x tasks ih =>
    cases i with
    | zero =>
      obtain rfl : x = t := by simpa using ht
      rw [List.set_cons_zero, List.filterMap_cons, List.filterMap_cons, hconn]
    | succ i =>
      rw [List.set_cons_succ, List.filterMap_cons, List.filterMap_cons, ih (by simpa using ht)]

/-- The connections when a task gets one. -/
theorem perm_filterMap_set {tasks : List ReloadTask} {i c : ℕ} {t t' : ReloadTask}
    (ht : tasks[i]? = some t) (hnone : t.conn = none) (hconn : t'.conn = some c) :
    ((tasks.set i t').filterMap ReloadTask.conn).Perm (c :: tasks.filterMap ReloadTask.conn) := by
  induction tasks generalizing i with
  | nil => cases ht
  | cons x tasks ih =>
    cases i with
    | zero =>
      obtain rfl : x = t := by simpa using ht
      rw [List.set_cons_zero, List.filterMap_cons_some hconn, List.filterMap_cons_none hnone]
    | succ i =>
      have hrest := ih (i := i) (by simpa using ht)
      rw [List.set_cons_succ]
      cases hx : x.conn with
      | none =>
        rw [List.filterMap_cons_none hx, List.filterMap_cons_none hx]
        exact hrest
      | some c' =>
        rw [List.filterMap_cons_some hx, List.filterMap_cons_some hx]
        exact (hrest.cons c').trans (List.Perm.swap c c' _)

/-- No two tasks share a connection. -/
theorem Inv.conn_ne (h : s.Inv rd) {i j c : ℕ} {t u : ReloadTask}
    (ht : s.window.tasks[i]? = some t) (hu : s.window.tasks[j]? = some u) (hij : j ≠ i)
    (hc : t.conn = some c) : u.conn ≠ some c := by
  intro hc'
  have hpair := List.pairwise_iff_getElem.mp (List.pairwise_filterMap.mp h.nodup)
  obtain ⟨hi, hti⟩ := List.getElem?_eq_some_iff.mp ht
  obtain ⟨hj, huj⟩ := List.getElem?_eq_some_iff.mp hu
  rcases Nat.lt_or_gt_of_ne hij with hlt | hlt
  · exact hpair j i hj hi hlt c (huj ▸ hc') c (hti ▸ hc) rfl
  · exact hpair i j hi hj hlt c (hti ▸ hc) c (huj ▸ hc') rfl

namespace Inv

/-- A task changes, and the system with it. -/
theorem setTask (h : s.Inv rd) {i : ℕ} {t t' : ReloadTask} {sys' : System}
    (ht : s.window.tasks[i]? = some t) (hconn : t'.conn = t.conn)
    (hnot : ∀ result, t.step ≠ .finished result) (hsys : sys'.Inv rd)
    (hlen : s.system.callers.length ≤ sys'.callers.length) (ht' : t'.Inv sys')
    (hkeeps : ∀ c ∈ s.conns, t.conn ≠ some c → Keeps s.system sys' [c]) :
    Inv rd ⟨s.window.setTask i t', sys'⟩ where
  system := hsys
  tasks u hu := by
    obtain ⟨j, hj⟩ := List.getElem?_of_mem hu
    rcases (EventMachine.getElem?_set_eq_some ht).mp hj with ⟨-, rfl⟩ | ⟨hij, hj⟩
    · exact ht'
    · refine (h.tasks u (List.mem_of_getElem? hj)).keeps fun c hc => ?_
      have hc' : u.conn = some c := by simpa using hc
      exact hkeeps c (conn_mem_conns hj hc')
        (fun heq => h.conn_ne ht hj hij heq hc') c List.mem_cons_self
  lt c hc := by
    rw [conns, SettingsState.setTask, filterMap_set_of_conn ht hconn] at hc
    exact (h.lt c hc).trans_le hlen
  nodup := by
    rw [conns, SettingsState.setTask, filterMap_set_of_conn ht hconn]
    exact h.nodup
  status := h.status.setTask ht hnot t'

theorem system_step (h : s.Inv rd) {e : SystemEvent} (he : s.Enabled (.system e)) :
    Inv rd { s with system := s.system.step rd e } where
  system := h.system.step he.1
  tasks t ht := by
    obtain ⟨i, hi⟩ := List.getElem?_of_mem ht
    refine (h.tasks t ht).keeps fun c hc => ?_
    have hc' := conn_mem_conns hi (show t.conn = some c by simpa using hc)
    obtain ⟨hleave, hrequest⟩ := he.2 c hc'
    exact keeps_step he.1 hleave hrequest c List.mem_cons_self
  lt c hc := (h.lt c hc).trans_le (System.length_callers_step s.system e)
  nodup := h.nodup
  status := h.status

theorem window_step (ctx : Context) (h : s.Inv rd) (e : WindowEvent) :
    Inv rd { s with window := s.window.dispatch ctx e } := by
  rcases SettingsState.tasks_dispatch ctx (s := s.window) e with
    ⟨htasks, hstatus⟩ | ⟨htasks, hstatus⟩
  · refine ⟨h.system, htasks ▸ h.tasks, ?_, ?_, ?_⟩
    · rw [conns, htasks]
      exact h.lt
    · rw [conns, htasks]
      exact h.nodup
    · rw [SettingsState.StatusInv, hstatus, htasks]
      exact h.status
  · have hconns : (s.window.dispatch ctx e).tasks.filterMap ReloadTask.conn = s.conns := by
      rw [htasks, List.filterMap_append, conns]
      simp [ReloadTask.spawned]
    refine ⟨h.system, fun t ht => ?_, ?_, ?_, ?_⟩
    · rw [htasks] at ht
      rcases List.mem_append.mp ht with hold | hnew
      · exact h.tasks t hold
      · rw [List.mem_singleton.mp hnew]
        exact ⟨rfl, by decide⟩
    · rw [conns, hconns]
      exact h.lt
    · rw [conns, hconns]
      exact h.nodup
    · rw [SettingsState.StatusInv, hstatus, htasks]
      exact ⟨by simp, .inl rfl⟩

theorem connectFails (h : s.Inv rd) {i : ℕ} {t : ReloadTask} (ht : s.window.tasks[i]? = some t)
    (hconnecting : t.IsConnecting) :
    Inv rd { s with window := s.window.setTask i t.connectFails } := by
  obtain ⟨attempt, delayMs, hstep⟩ := hconnecting.step_eq
  have hinv := h.tasks t (List.mem_of_getElem? ht)
  rw [ReloadTask.Inv, hstep] at hinv
  have hnext : t.connectFails = ⟨t.conn, if attempt = reconnectMaxTries then
      .reporting (.error .connect)
      else .connecting (attempt + 1) (min (delayMs * 2) reconnectCapMs)⟩ := by
    rw [ReloadTask.connectFails, hstep]
  refine h.setTask ht (by rw [hnext]) (by simp [hstep]) h.system le_rfl ?_
    fun c _ _ c' _ k hk => ⟨k, hk, rfl, id, fun _ => rfl⟩
  rw [hnext, ReloadTask.Inv]
  by_cases hlast : attempt = reconnectMaxTries
  · rw [if_pos hlast]
    exact .inl ⟨hinv.1, rfl⟩
  · rw [if_neg hlast]
    exact ⟨hinv.1, Nat.lt_of_le_of_ne hinv.2 hlast⟩

/-- The client of a task leaves, and the task goes on or is dropped. -/
theorem leaves (h : s.Inv rd) {i c : ℕ} {k : Caller} {step' : ReloadStep}
    (ht : s.window.tasks[i]? = some ⟨some c, .requesting⟩) (hk : Asks s.system c k)
    (hlive : k.task ≠ .gone)
    (ht' : ReloadTask.Inv (s.system.step rd (.caller c .leave)) ⟨some c, step'⟩) :
    Inv rd ⟨s.window.setTask i ⟨some c, step'⟩, s.system.step rd (.caller c .leave)⟩ := by
  obtain ⟨henabled, -⟩ := leave_step h.system hk.1 hlive
  refine h.setTask ht rfl nofun (h.system.step henabled)
    (System.length_callers_step s.system _) ht' fun c' _ hne => keeps_step henabled ?_ nofun
  intro heq
  cases heq
  exact hne rfl

theorem returns (h : s.Inv rd) {i c : ℕ} {result : Except ClientError Response}
    (ht : s.window.tasks[i]? = some ⟨some c, .requesting⟩) (hresult : s.result c = some result) :
    Inv rd ⟨s.window.setTask i ⟨some c, .reporting (reloadFrame result)⟩,
      s.system.step rd (.caller c .leave)⟩ := by
  obtain ⟨c', k, hc, hk, hlive⟩ := h.tasks _ (List.mem_of_getElem? ht)
  obtain rfl : c = c' := Option.some.inj hc
  have hlast : k.returned.getLast? = some result := by
    rw [Desktop.result, hk.1] at hresult
    exact hresult
  obtain ⟨response, rfl, hreturned⟩ := returned_of_asks h.system hk hlive hlast
  obtain ⟨-, hgone⟩ := leave_step h.system hk.1 hlive
  exact h.leaves ht hk hlive
    (.inr ⟨c, _, response, rfl, ⟨hgone, hk.2⟩, rfl, hreturned, rfl⟩)

theorem aborts (h : s.Inv rd) {i : ℕ} (he : s.Enabled (.aborts i)) :
    Inv rd (s.step ctx rd (.aborts i)) := by
  obtain ⟨-, ⟨conn, step⟩, ht, hnot⟩ := he
  have ht : s.window.tasks[i]? = some ⟨conn, step⟩ := ht
  have hinv := h.tasks _ (List.mem_of_getElem? ht)
  rw [Desktop.step, ht]
  rcases hnot with hconnecting | hrequesting
  · obtain ⟨attempt, delayMs, hstep⟩ := hconnecting.step_eq
    obtain rfl : step = .connecting attempt delayMs := hstep
    obtain rfl : conn = none := hinv.1
    exact h.setTask ht rfl nofun h.system le_rfl nofun
      fun c _ _ c' _ k hk => ⟨k, hk, rfl, id, fun _ => rfl⟩
  · obtain rfl : step = .requesting := hrequesting
    obtain ⟨c, k, hc, hk, hlive⟩ := hinv
    obtain rfl : conn = some c := hc
    obtain ⟨-, hgone⟩ := leave_step h.system hk.1 hlive
    refine h.leaves ht hk hlive fun c' hc' => ?_
    obtain rfl := Option.some.inj hc'
    exact ⟨_, ⟨hgone, hk.2⟩, rfl⟩

theorem reports (h : s.Inv rd) {i : ℕ} {t : ReloadTask} (ht : s.window.tasks[i]? = some t)
    (hreporting : t.IsReporting) : Inv rd { s with window := s.window.reports i } := by
  obtain ⟨result, hstep⟩ := hreporting.step_eq
  obtain ⟨conn, step⟩ := t
  obtain rfl : step = .reporting result := hstep
  have hinv := h.tasks _ (List.mem_of_getElem? ht)
  have hnext : Inv rd { s with window := s.window.setTask i ⟨conn, .finished result⟩ } :=
    h.setTask ht rfl nofun h.system le_rfl hinv
      fun c _ _ c' _ k hk => ⟨k, hk, rfl, id, fun _ => rfl⟩
  rw [SettingsState.reports, ht]
  refine ⟨hnext.system, hnext.tasks, hnext.lt, hnext.nodup, ?_⟩
  have hmem : (⟨conn, .finished result⟩ : ReloadTask) ∈
      s.window.tasks.set i ⟨conn, .finished result⟩ :=
    List.mem_of_getElem? ((EventMachine.getElem?_set_eq_some ht).mpr (.inl ⟨rfl, rfl⟩))
  exact ⟨List.ne_nil_of_mem hmem, .inr ⟨_, hmem, result, rfl, rfl⟩⟩

/-- A task connects and asks. -/
theorem connects (h : s.Inv rd) {i : ℕ} (he : s.Enabled (.connects i)) :
    Inv rd (s.step ctx rd (.connects i)) := by
  obtain ⟨t, ht, hconnecting⟩ := he
  have ht : s.window.tasks[i]? = some t := ht
  obtain ⟨attempt, delayMs, hstep⟩ := hconnecting.step_eq
  have hnone : t.conn = none := by
    have hinv := h.tasks t (List.mem_of_getElem? ht)
    rw [ReloadTask.Inv, hstep] at hinv
    exact hinv.1
  set c := s.system.callers.length
  set sys₁ := s.system.step rd .connect
  have hsys₁ : sys₁.Inv rd := h.system.step (e := .connect) trivial
  have hlast : sys₁.callers[c]? = some (some .connected) := List.getElem?_concat_length
  obtain ⟨conn, hc, -, -⟩ := hsys₁.conn_of_caller hlast
  have henabled : sys₁.Enabled (.caller c (.request .reloadConfig)) :=
    ⟨conn, .connected, hc, hlast, rfl, trivial⟩
  have hasks : Asks (sys₁.step rd (.caller c (.request .reloadConfig))) c
      (Caller.connected.request .reloadConfig) := by
    refine ⟨?_, rfl⟩
    rw [System.step, hc, hlast]
    exact (EventMachine.getElem?_set_eq_some hlast).mpr (.inl ⟨rfl, rfl⟩)
  have hlen : s.system.callers.length <
      (sys₁.step rd (.caller c (.request .reloadConfig))).callers.length :=
    (List.getElem?_eq_some_iff.mp hasks.1).1
  have hkeeps : ∀ c' ∈ s.conns, Keeps s.system
      (sys₁.step rd (.caller c (.request .reloadConfig))) [c'] := by
    intro c' hc'
    have hne : c ≠ c' := (h.lt c' hc').ne'
    refine (keeps_step (e := .connect) trivial (by simp) (by simp)).trans
      (keeps_step henabled (by simp) fun req heq => hne ?_)
    cases heq
    rfl
  have hperm : ((s.window.tasks.set i ⟨some c, .requesting⟩).filterMap ReloadTask.conn).Perm
      (c :: s.conns) := perm_filterMap_set ht hnone rfl
  refine ⟨hsys₁.step henabled, fun u hu => ?_, fun c' hc' => ?_, ?_, ?_⟩
  · obtain ⟨j, hj⟩ := List.getElem?_of_mem hu
    rcases (EventMachine.getElem?_set_eq_some ht).mp hj with ⟨-, rfl⟩ | ⟨-, hj⟩
    · exact ⟨c, _, rfl, hasks, fun hd => by cases hd⟩
    · refine (h.tasks u (List.mem_of_getElem? hj)).keeps fun c' hc' => ?_
      exact hkeeps c' (conn_mem_conns hj (by simpa using hc')) c' List.mem_cons_self
  · rcases List.mem_cons.mp (hperm.mem_iff.mp hc') with rfl | hold
    · exact hlen
    · exact (h.lt c' hold).trans hlen
  · refine hperm.nodup_iff.mpr (List.nodup_cons.mpr ⟨fun hmem => ?_, h.nodup⟩)
    exact Nat.lt_irrefl _ (h.lt c hmem)
  · exact h.status.setTask ht (by simp [hstep]) _

theorem step (ctx : Context) (h : s.Inv rd) {e : DesktopEvent} (he : s.Enabled e) :
    (s.step ctx rd e).Inv rd := by
  cases e with
  | window e => exact h.window_step ctx e
  | connectFails i =>
    obtain ⟨t, ht, hconnecting⟩ := he
    have ht : s.window.tasks[i]? = some t := ht
    rw [Desktop.step, ht]
    exact h.connectFails ht hconnecting
  | connects i => exact h.connects he
  | returns i =>
    obtain ⟨c, ht, hresult⟩ := he
    obtain ⟨result, hresult⟩ := Option.isSome_iff_exists.mp hresult
    rw [Desktop.step, ht]
    dsimp only
    rw [hresult]
    exact h.returns ht hresult
  | reports i =>
    obtain ⟨t, ht, hreporting⟩ := he
    exact h.reports ht hreporting
  | aborts i => exact h.aborts he
  | system e => exact h.system_step he

end Inv

theorem inv_of_reachable {ctx : Context} (h : (desktop ctx rd).Reachable s) : s.Inv rd := by
  refine h.invariant ?_ fun _ _ hs he => hs.step ctx he
  rintro s ⟨failure, hwindow, hsystem⟩
  have hnone : s.window.tasks = [] := by rw [hwindow]; rfl
  refine ⟨System.inv_of_reachable hsystem, ?_, ?_, ?_, ?_⟩
  · simp [hnone]
  · simp [conns, hnone]
  · simp [conns, hnone]
  · rw [hwindow]
    rfl

/-! ## What the window says -/

variable (s) in
/-- What the window says of a reload is what FRAME did. -/
structure Truthful : Prop where
  /-- A task that succeeded has had FRAME reload once. -/
  succeeded : ∀ t ∈ s.window.tasks, t.step = .reporting (.ok ()) ∨ t.step = .finished (.ok ()) →
    ∃ c call, t.conn = some c ∧
      s.system.server.channel.executions (c, 0) = [⟨call, .reloadConfig, .ok none⟩]
  /-- One that failed never reached FRAME, or its main loop was gone; FRAME did not reload. -/
  failed : ∀ t ∈ s.window.tasks, ∀ e,
    t.step = .reporting (.error e) ∨ t.step = .finished (.error e) →
      t.conn = none ∧ e = .connect ∨ ∃ c message, t.conn = some c ∧
        e = .server (.internal message) ∧ s.system.server.channel.executions (c, 0) = []
  /-- For no task FRAME does anything but reload, and that at most once. -/
  once : ∀ t ∈ s.window.tasks, ∀ c, t.conn = some c → ∀ i,
    ∀ x ∈ s.system.server.channel.executions (c, i),
      i = 0 ∧ x.request = .reloadConfig ∧ s.system.server.channel.executions (c, i) = [x]
  /-- No two tasks share a connection. -/
  conns : s.conns.Nodup
  /-- The status is set by nobody else. -/
  status : ∀ text, s.window.ui.status = some text → text = reloading ∨
    ∃ t ∈ s.window.tasks, ∃ result, t.step = .finished result ∧ text = reloaded result

/-- The client of a task, whatever the task does. -/
theorem Inv.asks (h : s.Inv rd) {t : ReloadTask} (ht : t ∈ s.window.tasks) {c : ℕ}
    (hc : t.conn = some c) : ∃ k, Asks s.system c k := by
  have hended : ∀ result, Ended s.system t.conn result → ∃ k, Asks s.system c k := by
    rintro result (⟨hnone, -⟩ | ⟨c', k, -, hc', hk, -⟩)
    · rw [hc] at hnone
      cases hnone
    · obtain rfl := Option.some.inj (hc.symm.trans hc')
      exact ⟨k, hk⟩
  have hinv := h.tasks t ht
  rw [ReloadTask.Inv] at hinv
  split at hinv
  · rw [hc] at hinv
    cases hinv.1
  · obtain ⟨c', k, hc', hk, -⟩ := hinv
    obtain rfl := Option.some.inj (hc.symm.trans hc')
    exact ⟨k, hk⟩
  · exact hended _ hinv
  · exact hended _ hinv
  · obtain ⟨k, hk, -⟩ := hinv c hc
    exact ⟨k, hk⟩

/-- What has come of a task that was answered. -/
theorem Inv.answered (h : s.Inv rd) {c : ℕ} {k : Caller} {response : Response}
    (hk : Asks s.system c k) (hreturned : k.returned = [.ok response]) :
    (∃ call, s.system.server.channel.executions (c, 0) = [⟨call, .reloadConfig, .ok none⟩] ∧
        response = .ok none) ∨
      s.system.server.channel.executions (c, 0) = [] ∧
        ∃ message, response = .err (.internal message) := by
  have hserved := h.system.callersServed
  obtain ⟨req, response', hreq, hok, hcases⟩ :=
    hserved.returned c k hk.1 0 (.ok response) (by rw [hreturned]; rfl)
  obtain rfl : response = response' := Except.ok.inj hok
  obtain rfl : Request.reloadConfig = req := by simpa [hk.2] using hreq
  rcases hcases with ⟨call, hexec⟩ | hnone
  · have hmem := (Calls.mem_executions.mp (hexec ▸ List.mem_singleton_self _)).1
    obtain ⟨state, disk, hmain⟩ := hserved.main _ hmem
    obtain rfl : response = .ok none := hmain
    exact .inl ⟨call, hexec, rfl⟩
  · exact .inr hnone

theorem Inv.linesTruthful (h : s.Inv rd) : s.Truthful := by
  have hended : ∀ t ∈ s.window.tasks, ∀ result, t.step = .reporting result ∨
      t.step = .finished result → Ended s.system t.conn result := by
    rintro t ht result hstep
    have hinv := h.tasks t ht
    rcases hstep with hstep | hstep <;> rw [ReloadTask.Inv, hstep] at hinv <;> exact hinv
  refine ⟨fun t ht hstep => ?_, fun t ht e hstep => ?_, fun t ht c hc i x hx => ?_, h.nodup,
    fun text htext => ?_⟩
  · rcases hended t ht _ hstep with ⟨-, hfail⟩ | ⟨c, k, response, hc, hk, -, hreturned, hresult⟩
    · cases hfail
    · rcases h.answered hk hreturned with ⟨call, hexec, -⟩ | ⟨-, message, rfl⟩
      · exact ⟨c, call, hc, hexec⟩
      · cases hresult
  · rcases hended t ht _ hstep with ⟨hnone, hfail⟩ | ⟨c, k, response, hc, hk, -, hreturned, hresult⟩
    · exact .inl ⟨hnone, Except.error.inj hfail⟩
    · rcases h.answered hk hreturned with ⟨call, hexec, rfl⟩ | ⟨hnone, message, rfl⟩
      · cases hresult
      · exact .inr ⟨c, message, hc, Except.error.inj hresult, hnone⟩
  · obtain ⟨k, hk⟩ := h.asks ht hc
    obtain ⟨hcall, honce⟩ := h.system.callersServed.executed c k hk.1 i x hx
    rw [hk.2] at hcall
    match i, hcall with
    | 0, hcall => exact ⟨rfl, (Option.some.inj hcall).symm, honce⟩
  · have hstatus := h.status
    rw [SettingsState.StatusInv, htext] at hstatus
    exact hstatus.2

end Desktop

/-! ## Coming to rest -/

/-- A task does it, or the system by itself. -/
def DesktopEvent.Own : DesktopEvent → Prop
  | .connectFails _ | .connects _ | .returns _ | .reports _ => True
  | .window _ | .aborts _ => False
  | .system e => e.Own

/-- How far a task is from its end. -/
def ReloadTask.rank (t : ReloadTask) : ℕ :=
  match t.step with
  | .connecting attempt _ => 3 + (reconnectMaxTries - attempt)
  | .requesting => 2
  | .reporting _ => 1
  | .finished _ | .aborted => 0

namespace Desktop

variable {ctx : Context} {rd : Reader} {s : Desktop}

/-- None of their own events can happen. -/
def AtRest (s : Desktop) : Prop := ∀ e : DesktopEvent, e.Own → ¬ s.Enabled e

/-- Every task has set its status, or has been dropped. -/
def AllDone (s : Desktop) : Prop :=
  ∀ t ∈ s.window.tasks, (∃ result, t.step = .finished result) ∨ t.step = .aborted

theorem AtRest.system (h : s.AtRest) : s.system.AtRest := by
  intro e hown he
  refine h (.system e) hown ⟨he, fun c _ => ⟨?_, fun req => ?_⟩⟩
  · rintro rfl
    cases hown
  · rintro rfl
    cases hown

/-- **No task hangs.** -/
theorem Inv.allDone (h : s.Inv rd) (hrest : s.AtRest) : s.AllDone := by
  intro t ht
  obtain ⟨i, hi⟩ := List.getElem?_of_mem ht
  cases hstep : t.step with
  | finished result => exact .inl ⟨result, rfl⟩
  | aborted => exact .inr rfl
  | connecting attempt delayMs =>
    refine absurd ⟨t, hi, ?_⟩ (hrest (.connects i) trivial)
    rw [ReloadTask.IsConnecting, hstep]
    trivial
  | reporting result =>
    refine absurd ⟨t, hi, ?_⟩ (hrest (.reports i) trivial)
    rw [ReloadTask.IsReporting, hstep]
    trivial
  | requesting =>
    obtain ⟨conn, step⟩ := t
    obtain rfl : step = .requesting := hstep
    obtain ⟨c, k, hc, hk, hlive⟩ := h.tasks _ ht
    obtain rfl : conn = some c := hc
    obtain ⟨-, hreturned⟩ := h.system.allReturned hrest.system c k hk.1 hlive
    refine absurd ⟨c, hi, ?_⟩ (hrest (.returns i) trivial)
    rw [result, hk.1]
    dsimp only
    rw [List.getLast?_isSome]
    refine List.ne_nil_of_length_pos ?_
    rw [hreturned, hk.2]
    exact Nat.one_pos

/-- What there is to do, the weightiest first. -/
def work (s : Desktop) : ℕ ×ₗ ℕ ×ₗ (ℕ ×ₗ ℕ ×ₗ ℕ) ×ₗ ℕ :=
  toLex ((s.window.tasks.map ReloadTask.rank).sum, s.system.work)

theorem work_lt_of_rank {i : ℕ} {t t' : ReloadTask} {w' : SettingsState} {sys' : System}
    (ht : s.window.tasks[i]? = some t) (hw' : w'.tasks = s.window.tasks.set i t')
    (hrank : t'.rank < t.rank) : (⟨w', sys'⟩ : Desktop).work < s.work := by
  have hsum := sum_map_set ReloadTask.rank t' ht
  rw [work, work, Prod.Lex.toLex_lt_toLex]
  left
  simp only [hw']
  omega

theorem Inv.step_work_lt (h : s.Inv rd) {e : DesktopEvent} (hown : e.Own) (he : s.Enabled e) :
    (s.step ctx rd e).work < s.work := by
  cases e with
  | window e => cases hown
  | aborts i => cases hown
  | system e =>
    rw [work, work, Prod.Lex.toLex_lt_toLex]
    exact .inr ⟨rfl, System.step_work_lt hown he.1⟩
  | connectFails i =>
    obtain ⟨t, ht, hconnecting⟩ := he
    have ht : s.window.tasks[i]? = some t := ht
    obtain ⟨attempt, delayMs, hstep⟩ := hconnecting.step_eq
    have hinv := h.tasks t (List.mem_of_getElem? ht)
    rw [ReloadTask.Inv, hstep] at hinv
    rw [Desktop.step, ht]
    refine work_lt_of_rank ht rfl ?_
    rw [ReloadTask.connectFails, hstep]
    simp only [ReloadTask.rank, hstep]
    by_cases hlast : attempt = reconnectMaxTries
    · rw [if_pos hlast]
      dsimp only
      omega
    · rw [if_neg hlast]
      have hlt := Nat.lt_of_le_of_ne hinv.2 hlast
      dsimp only
      omega
  | connects i =>
    obtain ⟨t, ht, hconnecting⟩ := he
    have ht : s.window.tasks[i]? = some t := ht
    obtain ⟨attempt, delayMs, hstep⟩ := hconnecting.step_eq
    refine work_lt_of_rank ht rfl ?_
    simp only [ReloadTask.rank, hstep]
    omega
  | returns i =>
    obtain ⟨c, ht, hresult⟩ := he
    obtain ⟨result, hresult⟩ := Option.isSome_iff_exists.mp hresult
    rw [Desktop.step, ht]
    dsimp only
    rw [hresult]
    exact work_lt_of_rank ht rfl Nat.one_lt_two
  | reports i =>
    obtain ⟨⟨conn, step⟩, ht, hreporting⟩ := he
    have ht : s.window.tasks[i]? = some ⟨conn, step⟩ := ht
    obtain ⟨result, hstep⟩ := hreporting.step_eq
    obtain rfl : step = .reporting result := hstep
    have htasks : (s.window.reports i).tasks =
        s.window.tasks.set i ⟨conn, .finished result⟩ := by
      rw [SettingsState.reports, ht]
      rfl
    exact work_lt_of_rank ht htasks Nat.one_pos

/-- Unless keys are pressed, everything stops sooner or later. -/
theorem Inv.comes_to_rest (run : ℕ → Desktop) (hinv : (run 0).Inv rd) :
    ¬ ∀ n, ∃ e : DesktopEvent,
      e.Own ∧ (run n).Enabled e ∧ run (n + 1) = (run n).step ctx rd e := by
  intro hrun
  have hall : ∀ n, (run n).Inv rd := by
    intro n
    induction n with
    | zero => exact hinv
    | succ n ih =>
      obtain ⟨e, -, he, hnext⟩ := hrun n
      exact hnext ▸ ih.step ctx he
  obtain ⟨n, hn⟩ := WellFounded.not_rel_apply_succ (r := (· < ·)) fun n => (run n).work
  obtain ⟨e, hown, he, hnext⟩ := hrun n
  refine hn ?_
  rw [hnext]
  exact (hall n).step_work_lt hown he

end Desktop

/-- **What the window says of a reload is what FRAME did.** In every state that window, tasks, FRAME
and its other clients reach, each `Enter` has had FRAME reload its configuration at most once; a
task that reports success has had it do so, one that reports a failure has not. Left alone, every
task comes to its end. -/
theorem truthful {ctx : Context} {rd : Reader} {s : Desktop}
    (h : (desktop ctx rd).Reachable s) :
    s.Truthful ∧ (s.AtRest → s.AllDone) ∧
      ∀ run : ℕ → Desktop, run 0 = s →
        ¬ ∀ n, ∃ e : DesktopEvent,
          e.Own ∧ (run n).Enabled e ∧ run (n + 1) = (run n).step ctx rd e := by
  have hinv := Desktop.inv_of_reachable h
  refine ⟨hinv.linesTruthful, hinv.allDone, fun run hrun => Desktop.Inv.comes_to_rest run ?_⟩
  rw [hrun]
  exact hinv

/-! ### A run of one reload -/

/-- `Return` on every key. -/
def returnKey : Wlcommon.Keymap := ⟨fun _ _ => 0xff0d, fun _ _ => ""⟩

/-- The paths do not matter. -/
def Context.empty : Context := ⟨"", "", "", id⟩

/-- The window is opened, `Enter` is pressed, an attempt to connect fails, the next does not, and
the task writes its line. -/
def pressed : List DesktopEvent :=
  [.window (.configure 1 {}), .window (.keymap true (some returnKey)), .window (.key 28 true {}),
    .connectFails 0, .connects 0, .system (.caller 0 (.write (firstLine .reloadConfig).length))]

/-- The reload is answered, and the task reports it. -/
def oneReload : List DesktopEvent :=
  pressed ++ (answering .reloadConfig {}).map .system ++ [.returns 0, .reports 0]

/-- The window and FRAME before any event. -/
def Desktop.opened : Desktop :=
  ⟨(SettingsState.new fun _ => none).initSurface, ⟨.desktop, []⟩⟩

theorem init_opened (ctx : Context) (rd : Reader) : (desktop ctx rd).Init .opened :=
  ⟨_, rfl, .init (init_system rd)⟩

section

variable (ctx : Context) (rd : Reader)

theorem run_map_system (s : Desktop) (es : List SystemEvent) :
    (desktop ctx rd).run s (es.map .system) =
      { s with system := (Ipc.system rd).run s.system es } := by
  induction es generalizing s with
  | nil => rfl
  | cons e es ih => exact ih _

/-- The system goes on by itself, as long as nobody else calls for a task or drops its client. -/
theorem legal_map_system {s : Desktop} {es : List SystemEvent}
    (hl : (Ipc.system rd).Legal s.system es)
    (hes : ∀ e ∈ es, ∀ c, e ≠ .caller c .leave ∧ ∀ req, e ≠ .caller c (.request req)) :
    (desktop ctx rd).Legal s (es.map .system) := by
  induction es generalizing s with
  | nil => trivial
  | cons e es ih =>
    obtain ⟨he, hrest⟩ := List.forall_mem_cons.mp hes
    exact ⟨⟨hl.1, fun c _ => he c⟩, ih hl.2 hrest⟩

theorem system_pressed :
    ((desktop .empty rd).run .opened pressed).system = .asked .reloadConfig :=
  System.run_asking rd .reloadConfig

theorem run_answered :
    (desktop .empty rd).run .opened (pressed ++ (answering .reloadConfig {}).map .system) =
      ⟨((desktop .empty rd).run .opened pressed).window,
        (Ipc.system rd).run (.asked .reloadConfig) (answering .reloadConfig {})⟩ := by
  rw [EventMachine.run_append, run_map_system, system_pressed]

/-- The task is told that FRAME reloaded. -/
theorem result_answered :
    ((desktop .empty rd).run .opened
      (pressed ++ (answering .reloadConfig {}).map .system)).result 0 = some (.ok (.ok none)) := by
  have hfits : Request.reloadConfig.Fits := trivial
  rw [run_answered, Desktop.result, callers_answering rd hfits {}]
  rfl

theorem window_returned :
    ((desktop .empty rd).run .opened
      (pressed ++ (answering .reloadConfig {}).map .system ++ [.returns 0])).window =
      ((desktop .empty rd).run .opened pressed).window.setTask 0
        ⟨some 0, .reporting (.ok ())⟩ := by
  have hresult := result_answered rd
  rw [EventMachine.run_append, EventMachine.run_cons, EventMachine.run_nil]
  generalize hs : (desktop .empty rd).run .opened
    (pressed ++ (answering .reloadConfig {}).map .system) = s at hresult
  have hwindow : s.window = ((desktop .empty rd).run .opened pressed).window := by
    rw [← hs, run_answered]
  have htask : s.window.tasks[0]? = some ⟨some 0, .requesting⟩ := by
    rw [hwindow]
    rfl
  show (s.step .empty rd (.returns 0)).window = _
  rw [Desktop.step, htask]
  dsimp only
  rw [hresult, hwindow]
  rfl

theorem legal_oneReload : (desktop .empty rd).Legal .opened oneReload := by
  have hfits : Request.reloadConfig.Fits := trivial
  have hwrite := (legal_asking rd hfits).2.2.1
  rw [oneReload, EventMachine.legal_append, EventMachine.legal_append]
  refine ⟨⟨⟨rfl, rfl, rfl, ⟨⟨none, .connecting 1 100⟩, rfl, trivial⟩,
    ⟨⟨none, .connecting 2 200⟩, rfl, trivial⟩, ⟨hwrite, fun c _ => ⟨nofun, nofun⟩⟩, trivial⟩, ?_⟩,
    ⟨0, ?_, ?_⟩, ⟨⟨some 0, .reporting (.ok ())⟩, ?_, trivial⟩, trivial⟩
  · refine legal_map_system _ rd ?_ (by simp [answering])
    rw [system_pressed]
    exact legal_answering rd hfits {}
  · rw [run_answered]
    rfl
  · rw [result_answered]
    rfl
  · have hwindow := window_returned rd
    rw [EventMachine.run_append, EventMachine.run_cons, EventMachine.run_nil] at hwindow
    rw [hwindow]
    rfl

end

theorem truthful_oneReload : ((desktop .empty .lax).run .opened oneReload).Truthful ∧
    ((desktop .empty .lax).run .opened oneReload).window.ui.status =
      some (reloaded (.ok ())) := by
  refine ⟨(truthful ((EventMachine.Reachable.init (init_opened _ _)).run (legal_oneReload .lax))).1,
    ?_⟩
  have hsplit : oneReload =
      pressed ++ (answering .reloadConfig {}).map .system ++ [.returns 0] ++ [.reports 0] := by
    simp [oneReload]
  rw [hsplit, EventMachine.run_append]
  show (((desktop .empty .lax).run .opened (pressed ++ (answering .reloadConfig {}).map .system ++
    [.returns 0])).window.reports 0).ui.status = _
  rw [window_returned]
  rfl

/-! ## On the screen -/

/-- After the event the screen shows the window as it is. What a task sets is not drawn: it is on
the screen only if it was there before. -/
def Desktop.Shows (s : Desktop) : DesktopEvent → Prop
  | .window e => s.window.Shows e
  | .reports i => s.window.configured = true → ∀ conn result,
    s.window.tasks[i]? = some ⟨conn, .reporting result⟩ →
      s.window.ui.status = some (reloaded result)
  | _ => True

theorem SettingsState.UpToDate.reports_iff {s : SettingsState} (h : s.UpToDate) {i : ℕ}
    {conn : Option ℕ} {result : Except ReloadError Unit}
    (ht : s.tasks[i]? = some ⟨conn, .reporting result⟩) :
    (s.reports i).UpToDate ↔
      (s.configured = true → s.ui.status = some (reloaded result)) := by
  rw [SettingsState.reports, ht]
  refine imp_congr_right fun hc => ?_
  show s.lastFrame.map Picture.ui = some { s.ui with status := some (reloaded result) } ↔ _
  rw [h hc, Option.some.injEq]
  constructor
  · intro heq
    exact congrArg UiState.status heq
  · intro hstatus
    rw [← hstatus]

/-- **One event.** -/
theorem Desktop.upToDate_step {ctx : Context} {rd : Reader} {s : Desktop} {e : DesktopEvent}
    (hs : s.window.Started) (h : s.window.UpToDate) (he : s.Enabled e) :
    (s.step ctx rd e).window.UpToDate ↔ s.Shows e := by
  cases e with
  | window e => exact h.dispatch_iff ctx hs e
  | reports i =>
    obtain ⟨⟨conn, step⟩, ht, hreporting⟩ := he
    have ht : s.window.tasks[i]? = some ⟨conn, step⟩ := ht
    obtain ⟨result, hstep⟩ := hreporting.step_eq
    obtain rfl : step = .reporting result := hstep
    refine (h.reports_iff ht).trans ⟨fun hc hconf conn' result' ht' => ?_, fun hall hconf =>
      hall hconf conn result ht⟩
    cases ht.symm.trans ht'
    exact hc hconf
  | connectFails i =>
    obtain ⟨t, ht, -⟩ := he
    rw [Desktop.step, show s.window.tasks[i]? = some t from ht]
    exact iff_of_true h trivial
  | connects i => exact iff_of_true h trivial
  | returns i =>
    obtain ⟨c, ht, hresult⟩ := he
    obtain ⟨result, hresult⟩ := Option.isSome_iff_exists.mp hresult
    rw [Desktop.step, ht]
    dsimp only
    rw [hresult]
    exact iff_of_true h trivial
  | aborts i =>
    refine iff_of_true ?_ trivial
    rw [Desktop.step]
    split
    · exact h
    · exact h
    · exact h
  | system e => exact iff_of_true h trivial

/-- A task does not draw. -/
theorem SettingsState.Started.reports {s : SettingsState} (h : s.Started) (i : ℕ) :
    (s.reports i).Started := by
  rw [SettingsState.reports]
  split <;> exact ⟨h.surface, h.blank⟩

theorem Desktop.started_step {ctx : Context} {rd : Reader} {s : Desktop}
    (hs : s.window.Started) (e : DesktopEvent) : (s.step ctx rd e).window.Started := by
  have hset : ∀ i t, (s.window.setTask i t).Started := fun _ _ => ⟨hs.surface, hs.blank⟩
  cases e with
  | window e => exact hs.dispatch ctx e
  | reports i => exact hs.reports i
  | connects i => exact hset i _
  | system e => exact hs
  | connectFails i =>
    rw [Desktop.step]
    split
    · exact hset i _
    · exact hs
  | returns i =>
    rw [Desktop.step]
    split
    · split
      · exact hset i _
      · exact hs
    · exact hs
  | aborts i =>
    rw [Desktop.step]
    split
    · exact hset i _
    · exact hset i _
    · exact hs

/-- **When the screen shows the window.** Throughout a run what was committed last shows the section
and the status that the window has, exactly if a buffer was there for the first configure and
whenever a key changed them, and no task set a status that was not there before. -/
theorem status_shown_iff {ctx : Context} {rd : Reader} {s : Desktop} {es : List DesktopEvent}
    (hinit : (desktop ctx rd).Init s) (hl : (desktop ctx rd).Legal s es) :
    (desktop ctx rd).Always (fun s => s.window.UpToDate) s es ↔
      (desktop ctx rd).EachStep Desktop.Shows s es := by
  obtain ⟨failure, hwindow, -⟩ := hinit
  have hstarted : s.window.Started := by
    rw [hwindow]
    exact ⟨rfl, fun _ => rfl⟩
  have hshown : s.window.UpToDate := by
    rw [hwindow]
    intro hc
    cases hc
  exact EventMachine.always_iff_eachStep (I := fun s => s.window.Started)
    (fun s e hs _ => Desktop.started_step hs e)
    (fun s e hs h he => Desktop.upToDate_step hs h he) hstarted hshown hl

theorem status_shown_iff_oneReload :
    (desktop .empty .lax).Always (fun s => s.window.UpToDate) .opened oneReload ↔
      (desktop .empty .lax).EachStep Desktop.Shows .opened oneReload :=
  status_shown_iff (init_opened _ _) (legal_oneReload _)

end NxSettings

end Nullxes
