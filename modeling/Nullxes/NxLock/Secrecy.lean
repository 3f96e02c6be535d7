import Nullxes.Library.Compartment
import Nullxes.Library.SideBySide
import Nullxes.NxLock.Unlock
import Nullxes.Wlcommon.Typing

/-!
# What the lock client shows of a password

Two runs of the lock client in which the same things happen, but for the texts that are typed: these
have the same shape, character by character. The compositor gets the same requests at the same
moments, with the same pictures in the buffers; the password goes to PAM and nowhere else. What is
left of it on the screen is its shape, since `repaint_output` paints one dot for each byte.

## Main definitions

* `LockState.Alike` — two states that differ in what was typed, and not in its shape
* `Watched.Retyped` — what may happen in the one run where the other thing happens in the other

## Main results

* `LockState.Alike.dispatch`, `LockState.Alike.pollAuth` — what the client does keeps states alike
* `password_hidden` — the logs of the two runs are the same
-/

namespace Nullxes

namespace NxLock

open Wlcommon

/-! ## States that show the same -/

/-- The parts of a state that hold a password. -/
structure Secrets where
  password : String
  requests : List AuthRequest
  checking : Option AuthRequest

/-- A request to PAM, with the shape of its password only. -/
def AuthRequest.shape (r : AuthRequest) : String × List ℕ := (r.username, Wlcommon.shape r.password)

/-- Secrets of the same shape. -/
structure Secrets.Alike (k k' : Secrets) : Prop where
  password : shape k.password = shape k'.password
  requests : k.requests.map AuthRequest.shape = k'.requests.map AuthRequest.shape
  checking : k.checking.map AuthRequest.shape = k'.checking.map AuthRequest.shape

namespace LockState

variable {s s' : LockState}

def secrets (s : LockState) : Secrets := ⟨s.password, s.requests, s.checking⟩

/-- The state with these secrets. -/
def withSecrets (s : LockState) (k : Secrets) : LockState :=
  { s with password := k.password, requests := k.requests, checking := k.checking }

/-- Where a state keeps its secrets. -/
def safe : Compartment LockState Secrets where
  get := secrets
  put := withSecrets
  get_put _ _ := rfl
  put_get _ := rfl

/-- The two states differ in their secrets, and these have the same shape. -/
abbrev Alike (s s' : LockState) : Prop := safe.Alike Secrets.Alike s s'

/-! ### Repainting -/

/-- What is painted shows the length of the password only. -/
theorem paint_withSecrets (s : LockState) {k : Secrets} (hk : shape s.password = shape k.password) :
    (s.withSecrets k).paint = s.paint := by
  have hsize := utf8ByteSize_eq_of_shape hk.symm
  funext pixels stride w h
  simp only [paint, withSecrets, hsize]

/-- The state in which a repaint draws into the pool of an output. -/
def prepared (s : LockState) (i : ℕ) (out : LockOutput)
    (pool : Option (ShmDoubleBuffer (Option Picture)) × Shm) : LockState :=
  { s.setShm pool.2 with outputs := s.outputs.set i { out with buffer := pool.1 } }

/-- What a repaint does once it has drawn. -/
def finished (s : LockState) (i : ℕ) (out : LockOutput) :
    Except ClientError (ShmDoubleBuffer (Option Picture) × DrawnBuffer (Option Picture)) × Shm →
      LockState
  | (.error _, shm) => s.setShm shm
  | (.ok (pool, drawn), shm) =>
    let s := { s.setShm shm with outputs := s.outputs.set i { out with buffer := some pool } }
    match out.surface with
    | none => s
    | some surface => s.request (.attachAndCommit surface drawn)

theorem repaintOutput_eq {s : LockState} {i : ℕ} {out : LockOutput} (hout : s.outputs[i]? = some out)
    (hc : out.configured = true) :
    s.repaintOutput i =
      match (s.pool out).1 with
      | none => s.prepared i out (s.pool out)
      | some pool =>
        (s.prepared i out (s.pool out)).finished i out (pool.draw
          (s.prepared i out (s.pool out)).shm (s.prepared i out (s.pool out)).paint) := by
  rw [repaintOutput, hout]
  dsimp only
  rw [if_neg (by rw [hc]; decide)]
  rcases s.pool out with ⟨_ | pool, shm⟩
  · rfl
  · dsimp only
    rcases hd : pool.draw (s.prepared i out (some pool, shm)).shm
      (s.prepared i out (some pool, shm)).paint with ⟨e | ⟨pool', drawn⟩, shm'⟩
    · simp only [prepared] at hd ⊢
      rw [hd]
      rfl
    · simp only [prepared] at hd ⊢
      rw [hd]
      rfl

theorem repaintOutput_withSecrets (s : LockState) (i : ℕ) {k : Secrets}
    (hk : shape s.password = shape k.password) :
    (s.withSecrets k).repaintOutput i = (s.repaintOutput i).withSecrets k := by
  have houtputs : (s.withSecrets k).outputs = s.outputs := rfl
  cases hout : s.outputs[i]? with
  | none => rw [repaintOutput, repaintOutput, houtputs, hout]
  | some out =>
    cases hc : out.configured with
    | false =>
      rw [repaintOutput, repaintOutput, houtputs, hout]
      simp [hc]
    | true =>
      have hpool : (s.withSecrets k).pool out = s.pool out := rfl
      have hprep : (s.withSecrets k).prepared i out (s.pool out) =
          (s.prepared i out (s.pool out)).withSecrets k := rfl
      have hpaint := paint_withSecrets (s.prepared i out (s.pool out)) hk
      rw [repaintOutput_eq hout hc, repaintOutput_eq (houtputs ▸ hout) hc, hpool, hprep, hpaint]
      cases (s.pool out).1 with
      | none => rfl
      | some pool =>
        dsimp only
        have hshm : ((s.prepared i out (s.pool out)).withSecrets k).shm =
          (s.prepared i out (s.pool out)).shm := rfl
        rw [hshm]
        -- Both draw the same into the same pool.
        rcases pool.draw (s.prepared i out (s.pool out)).shm
          (s.prepared i out (s.pool out)).paint with ⟨e | ⟨pool', drawn⟩, shm'⟩
        · rfl
        · simp only [finished]
          cases out.surface <;> rfl

theorem secrets_repaintOutput (s : LockState) (i : ℕ) : (s.repaintOutput i).secrets = s.secrets := by
  rcases s.repaintOutput_cases i with h | ⟨out, shm, buffer, made, commit, -, -, h, -⟩
  · rw [h]
  · rw [h]
    rfl

namespace Alike

theorem pending_eq (h : s.Alike s') : s'.pending = s.pending := h.congr pending fun _ _ => rfl

theorem keymap_eq (h : s.Alike s') : s'.keymap = s.keymap := h.congr keymap fun _ _ => rfl

theorem results_eq (h : s.Alike s') : s'.results = s.results := h.congr results fun _ _ => rfl

theorem sent_eq (h : s.Alike s') : s'.sent = s.sent := h.congr sent fun _ _ => rfl

theorem shouldQuit_eq (h : s.Alike s') : s'.shouldQuit = s.shouldQuit :=
  h.congr shouldQuit fun _ _ => rfl

theorem exitCode_eq (h : s.Alike s') : s'.exitCode = s.exitCode := h.congr exitCode fun _ _ => rfl

theorem shape_password (h : s.Alike s') : shape s.password = shape s'.password := h.rel.password

/-- The passwords are edited, and keep having the same shape. -/
theorem edit (h : s.Alike s') {p p' : String} (hp : shape p = shape p') :
    Alike { s with password := p } { s' with password := p' } := by
  obtain ⟨k, rfl, hk⟩ := h
  exact ⟨{ k with password := p' }, rfl, hp, hk.requests, hk.checking⟩

theorem repaintOutput (h : s.Alike s') (i : ℕ) : (s.repaintOutput i).Alike (s'.repaintOutput i) := by
  obtain ⟨k, rfl, hk⟩ := h
  refine ⟨k, repaintOutput_withSecrets s i hk.password, ?_⟩
  show (s.repaintOutput i).secrets.Alike k
  rw [secrets_repaintOutput]
  exact hk

theorem repaintAll (h : s.Alike s') : s.repaintAll.Alike s'.repaintAll := by
  have houtputs := h.congr outputs fun _ _ => rfl
  rw [LockState.repaintAll, LockState.repaintAll, houtputs]
  exact h.foldl (fun i h => Alike.repaintOutput h i) _

/-! ### Typing -/

theorem submitPassword (h : s.Alike s') : s.submitPassword.Alike s'.submitPassword := by
  have hempty : s'.password.isEmpty = s.password.isEmpty := by
    rw [isEmpty_eq_isEmpty_shape, isEmpty_eq_isEmpty_shape, h.shape_password]
  rw [LockState.submitPassword, LockState.submitPassword, hempty, h.pending_eq]
  split
  · exact h
  · have hpending : safe.Blind fun s => { s with pending := true } := fun _ _ => rfl
    have hpaint := Alike.repaintAll (hpending.alike h)
    dsimp only
    generalize LockState.repaintAll { s with pending := true } = t at hpaint ⊢
    generalize LockState.repaintAll { s' with pending := true } = t' at hpaint ⊢
    obtain ⟨k, rfl, hk⟩ := hpaint
    refine ⟨⟨"", k.requests ++ [⟨t.username, k.password⟩], k.checking⟩, rfl, rfl, ?_, hk.checking⟩
    show (t.requests ++ [(⟨t.username, t.password⟩ : AuthRequest)]).map AuthRequest.shape =
      (k.requests ++ [(⟨t.username, k.password⟩ : AuthRequest)]).map AuthRequest.shape
    rw [List.map_append, List.map_append, show t.requests.map _ = _ from hk.requests,
      List.map_singleton, List.map_singleton, AuthRequest.shape, AuthRequest.shape,
      show shape t.password = _ from hk.password]

theorem handleAction (h : s.Alike s') (a : Action) : (s.handleAction a).Alike (s'.handleAction a) := by
  have hpop : shape (String.ofList s.password.toList.dropLast) =
      shape (String.ofList s'.password.toList.dropLast) := by
    rw [shape_dropLast, shape_dropLast, h.shape_password]
  cases a with
  | enter => exact h.submitPassword
  | backspace => exact (h.edit hpop).repaintAll
  | escape => exact (h.edit rfl).repaintAll
  | _ => exact h

theorem handleText (h : s.Alike s') {t t' : String} (ht : shape t = shape t') :
    (s.handleText t).Alike (s'.handleText t') := by
  have happend : shape (s.password ++ t) = shape (s'.password ++ t') := by
    rw [shape_append, shape_append, h.shape_password, ht]
  have hpaint := (h.edit happend).repaintAll
  obtain ⟨k, rfl, hk⟩ := h
  show Alike (if !s.pending then { s with password := s.password ++ t }.repaintAll else s)
    (if !s.pending then { s.withSecrets k with password := k.password ++ t' }.repaintAll
      else s.withSecrets k)
  split
  · exact hpaint
  · exact ⟨k, rfl, hk⟩

theorem dispatchKey (h : s.Alike s') (key : UInt32) (pressed : Bool) :
    (s.dispatchKey key pressed).Alike (s'.dispatchKey key pressed) := by
  rw [LockState.dispatchKey, LockState.dispatchKey, h.keymap_eq]
  split
  · cases s.keymap.processKey key with
    | action a => exact h.handleAction a
    | text t => exact h.handleText rfl
    | none => exact h
  · exact h

/-- Two keys that type texts of the same shape. -/
theorem dispatchKey_of_sameShape (h : s.Alike s') {key key' : UInt32}
    (hkeys : s.keymap.SameShape key key') :
    (s.dispatchKey key true).Alike (s'.dispatchKey key' true) := by
  obtain ⟨t, t', ht, ht', hshape⟩ := hkeys
  simp only [LockState.dispatchKey, h.keymap_eq, ht, ht', if_true]
  exact h.handleText hshape

end Alike

/-! ### The other events -/

theorem blind_createLockSurfaceFor (i : ℕ) (lock : Proxy) :
    safe.Blind fun s => s.createLockSurfaceFor i lock := by
  intro s k
  have houtputs : (safe.put s k).outputs = s.outputs := rfl
  dsimp only
  rw [createLockSurfaceFor, createLockSurfaceFor, houtputs]
  split
  · rfl
  · split <;> rfl

/-- What the mode of an output leads to, once the output is known. -/
def welcome (s : LockState) (outputs : List LockOutput) : LockState :=
  if s.locked then
    match s.lock with
    | some lock => { s with outputs := outputs }.createLockSurfaceFor (outputs.length - 1) lock
    | none => { s with outputs := outputs }
  else { s with outputs := outputs }

theorem blind_welcome (outputs : List LockOutput) : safe.Blind fun s => s.welcome outputs := by
  intro s k
  have hcreate : ∀ i lock, { safe.put s k with outputs := outputs }.createLockSurfaceFor i lock =
      safe.put ({ s with outputs := outputs }.createLockSurfaceFor i lock) k :=
    fun i lock => blind_createLockSurfaceFor i lock { s with outputs := outputs } k
  have hlock : (safe.put s k).lock = s.lock := rfl
  have hlocked : (safe.put s k).locked = s.locked := rfl
  dsimp only
  rw [welcome, welcome, hlock, hlocked]
  split
  · split
    · exact hcreate _ _
    · rfl
  · rfl

theorem blind_dispatchMode (output : Proxy) (width height : Int32) :
    safe.Blind fun s => s.dispatchMode output width height := by
  intro s k
  have houtputs : (safe.put s k).outputs = s.outputs := rfl
  simp only [dispatchMode, houtputs]
  cases s.outputs.findIdx? fun o => o.output = output with
  | none => exact blind_welcome _ s k
  | some idx => exact blind_welcome _ s k

theorem blind_dispatchCapabilities (keyboard : Bool) :
    safe.Blind fun s => s.dispatchCapabilities keyboard := by
  intro s k
  have hkeyboard : (safe.put s k).keyboard = s.keyboard := rfl
  dsimp only
  rw [dispatchCapabilities, dispatchCapabilities, hkeyboard]
  split <;> rfl

namespace Alike

theorem dispatchLocked (h : s.Alike s') (lock : Proxy) :
    (s.dispatchLocked lock).Alike (s'.dispatchLocked lock) := by
  have hlocked : safe.Blind fun s => { s with locked := true } := fun _ _ => rfl
  obtain ⟨k, rfl, hk⟩ := h
  exact (hlocked.alike ⟨k, rfl, hk⟩).foldl
    (fun i h => (blind_createLockSurfaceFor i lock).alike h) (List.range s.outputs.length)

theorem dispatchConfigure (h : s.Alike s') (surf : Proxy) (serial width height : UInt32) :
    (s.dispatchConfigure surf serial width height).Alike
      (s'.dispatchConfigure surf serial width height) := by
  have hrequest : safe.Blind fun s => s.request (.ackConfigure surf serial) := fun _ _ => rfl
  have hmodify : ∀ outputs, safe.Blind fun s => { s with outputs := outputs } := fun _ _ _ => rfl
  have hack := hrequest.alike h
  obtain ⟨k, rfl, -⟩ := h
  have houtputs : ((safe.put s k).request (.ackConfigure surf serial)).outputs =
    (s.request (.ackConfigure surf serial)).outputs := rfl
  rw [LockState.dispatchConfigure, LockState.dispatchConfigure, houtputs]
  split
  next => exact hack
  next idx _ => exact Alike.repaintOutput ((hmodify _).alike hack) idx

/-- **What the client is told changes nothing of what it shows**, whatever has been typed. -/
theorem dispatch (h : s.Alike s') (ev : ServerEvent) : (s.dispatch ev).Alike (s'.dispatch ev) := by
  cases ev with
  | locked =>
    have hlock := h.congr LockState.lock fun _ _ => rfl
    rw [LockState.dispatch, LockState.dispatch, hlock]
    exact h.dispatchLocked _
  | finished =>
    have hquit : safe.Blind dispatchFinished := fun _ _ => rfl
    exact hquit.alike h
  | configure surf serial width height => exact h.dispatchConfigure surf serial width height
  | mode output width height => exact (blind_dispatchMode output width height).alike h
  | capabilities keyboard => exact (blind_dispatchCapabilities keyboard).alike h
  | keymap xkbV1 loaded =>
    have hkeymap : safe.Blind fun s =>
        if xkbV1 then { s with keymap := s.keymap.applyKeymap loaded } else s := by
      intro s k
      cases xkbV1 <;> rfl
    exact hkeymap.alike h
  | modifiers mods =>
    have hmods : safe.Blind fun s => { s with keymap := s.keymap.updateModifiers mods } :=
      fun _ _ => rfl
    exact hmods.alike h
  | key key pressed => exact h.dispatchKey key pressed
  | release wlBuf =>
    have hrelease : safe.Blind fun s => s.dispatchRelease wlBuf := fun _ _ => rfl
    exact hrelease.alike h
  | other => exact h

theorem takeResult (h : s.Alike s') (result : AuthResult) :
    (s.takeResult result).Alike (s'.takeResult result) := by
  cases result with
  | ok =>
    have htake : safe.Blind fun s => s.takeResult .ok := by
      intro s k
      have hlock : (safe.put s k).lock = s.lock := rfl
      dsimp only [LockState.takeResult]
      rw [hlock]
      cases s.lock <;> rfl
    exact htake.alike h
  | fail reason =>
    have hfailed : safe.Blind fun s => { s with pending := false, failCount := s.failCount + 1 } :=
      fun _ _ => rfl
    exact Alike.repaintAll (Alike.edit (hfailed.alike h) rfl)

/-- **The same answers of PAM change nothing of what the client shows.** -/
theorem pollAuth (h : s.Alike s') : s.pollAuth.Alike s'.pollAuth := by
  have hnone : safe.Blind fun s => { s with results := [] } := fun _ _ => rfl
  rw [LockState.pollAuth, LockState.pollAuth, h.results_eq]
  exact (hnone.alike h).foldl (fun result h => Alike.takeResult h result) _

/-! ### The worker -/

theorem isEmpty_requests (h : s.Alike s') : s'.requests.isEmpty = s.requests.isEmpty := by
  have hmap := congrArg List.isEmpty h.rel.requests
  rw [List.isEmpty_map, List.isEmpty_map] at hmap
  exact hmap.symm

theorem isSome_checking (h : s.Alike s') : s'.checking.isSome = s.checking.isSome := by
  have hmap := congrArg Option.isSome h.rel.checking
  rw [Option.isSome_map, Option.isSome_map] at hmap
  exact hmap.symm

theorem takeRequest (h : s.Alike s') : (Process.takeRequest s).Alike (Process.takeRequest s') := by
  obtain ⟨k, rfl, hk⟩ := h
  have hrequests : s.requests.map AuthRequest.shape = k.requests.map AuthRequest.shape := hk.requests
  show Alike (Process.takeRequest s) (Process.takeRequest (s.withSecrets k))
  cases hs : s.requests with
  | nil =>
    have hnil : (s.withSecrets k).requests = [] := by
      rw [hs] at hrequests
      exact List.map_eq_nil_iff.mp hrequests.symm
    rw [Process.takeRequest, Process.takeRequest, hs, hnil]
    exact ⟨k, rfl, hk⟩
  | cons r rest =>
    rw [hs, List.map_cons] at hrequests
    obtain ⟨r', rest', hcons, hr, hrest⟩ := List.map_eq_cons_iff.mp hrequests.symm
    have hcons' : (s.withSecrets k).requests = r' :: rest' := hcons
    rw [Process.takeRequest, Process.takeRequest, hs, hcons']
    exact ⟨⟨k.password, rest', some r'⟩, rfl, hk.password, hrest.symm, congrArg some hr.symm⟩

theorem answer (h : s.Alike s') (result : AuthResult) :
    Alike { s with checking := none, results := s.results ++ [result] }
      { s' with checking := none, results := s'.results ++ [result] } := by
  obtain ⟨k, rfl, hk⟩ := h
  exact ⟨{ k with checking := none }, rfl, hk.password, hk.requests, rfl⟩

end Alike

end LockState

/-! ## Processes that show the same -/

/-- Two processes that differ in what was typed, and not in its shape. -/
inductive Process.Alike : Process → Process → Prop
  | absent : Alike .absent .absent
  | running {s s' : LockState} (phase : Phase) (h : s.Alike s') :
    Alike (.running s phase) (.running s' phase)
  | exited (code : ℤ) : Alike (.exited code) (.exited code)

namespace Process.Alike

variable {username : String} {failure : ℕ → Option String} {p p' : Process}

theorem isReady_eq (h : p.Alike p') : p'.isReady = p.isReady := by
  cases h with
  | absent => rfl
  | running phase h => cases phase <;> rfl
  | exited code => rfl

theorem canAct_eq (h : p.Alike p') (a : Act) : p'.canAct a = p.canAct a := by
  cases h with
  | absent => rfl
  | running phase h =>
    cases a with
    | start => cases phase <;> rfl
    | enter => cases phase <;> first | rfl | exact congrArg (!·) h.shouldQuit_eq
    | poll => cases phase <;> rfl
    | leave => cases phase <;> first | rfl | exact h.shouldQuit_eq
    | takeRequest =>
      cases phase <;>
        simp only [canAct, ← Option.not_isSome, h.isSome_checking, h.isEmpty_requests]
    | answer result => cases phase <;> exact h.isSome_checking
  | exited code => rfl

theorem unflushed_eq (h : p.Alike p') : p'.unflushed = p.unflushed := by
  cases h with
  | absent => rfl
  | running phase h => exact h.sent_eq
  | exited code => rfl

/-- The same happens to both. -/
structure Agree (username : String) (failure : ℕ → Option String) (p p' : Process)
    (h h' : Happening) : Prop where
  next : (p.happen username failure h).1.Alike (p'.happen username failure h').1
  flushed : (p'.happen username failure h').2 = (p.happen username failure h).2
  notes : p'.notes h' = p.notes h

theorem entries_eq_of_agree {h h' : Happening} (hp : p.Alike p')
    (hagree : Agree username failure p p' h h') :
    p'.entries username failure h' = p.entries username failure h := by
  simp only [entries, hagree.notes, hagree.flushed, hagree.next.unflushed_eq, hp.unflushed_eq]

theorem agree_receive (h : p.Alike p') (ev : ServerEvent) :
    Agree username failure p p' (.receive ev) (.receive ev) := by
  cases h with
  | absent => exact ⟨.absent, rfl, rfl⟩
  | running phase h => exact ⟨.running .dispatching (h.dispatch ev), rfl, by cases ev <;> rfl⟩
  | exited code => exact ⟨.exited code, rfl, rfl⟩

theorem agree_act (h : p.Alike p') {a : Act} (ha : p.canAct a) :
    Agree username failure p p' (.act a) (.act a) := by
  cases h with
  | absent =>
    cases a with
    | start => exact ⟨.running .test (.refl (fun _ => ⟨rfl, rfl, rfl⟩) _), rfl, rfl⟩
    | _ => cases ha
  | exited code => cases ha
  | running phase h =>
    cases a with
    | start => cases phase <;> cases ha
    | enter =>
      cases phase with
      | test =>
        have hflush : LockState.safe.Blind fun s => { s with sent := [] } := fun _ _ => rfl
        exact ⟨.running .waiting (hflush.alike h), h.sent_eq, rfl⟩
      | _ => cases ha
    | poll =>
      cases phase with
      | dispatching =>
        exact ⟨.running .test h.pollAuth, rfl, congrArg (List.map Entry.result) h.results_eq⟩
      | _ => cases ha
    | leave =>
      cases phase with
      | test =>
        refine ⟨?_, rfl, congrArg (fun code => [Entry.left code]) h.exitCode_eq⟩
        simp only [happen, act, h.exitCode_eq]
        exact .exited _
      | _ => cases ha
    | takeRequest => cases phase <;> exact ⟨.running _ h.takeRequest, rfl, rfl⟩
    | answer result => cases phase <;> exact ⟨.running _ (h.answer result), rfl, rfl⟩

end Process.Alike

/-- What may happen in a second run where the other thing happens in this one: the same, or another
key that types a text of the same shape. -/
inductive Watched.Retyped (w : Watched) : Happening → Happening → Prop
  | same (h : Happening) : w.Retyped h h
  | typed {s : LockState} {phase : Phase} {key key' : UInt32} (hw : w.process = .running s phase)
      (hkeys : s.keymap.SameShape key key') :
      w.Retyped (.receive (.key key true)) (.receive (.key key' true))

/-- Two processes that have shown the same. -/
structure Watched.Alike (w w' : Watched) : Prop where
  process : w.process.Alike w'.process
  log : w'.log = w.log

theorem Watched.Alike.step {username : String} {failure : ℕ → Option String} {w w' : Watched}
    {h h' : Happening} (hw : w.Alike w') (he : (watched username failure).Enabled w h)
    (hh : w.Retyped h h') :
    (watched username failure).Enabled w' h' ∧
      ((watched username failure).step w h).Alike ((watched username failure).step w' h') := by
  have hstep : Process.Alike.Agree username failure w.process w'.process h h' →
      ((watched username failure).step w h).Alike ((watched username failure).step w' h') := by
    intro hagree
    refine ⟨hagree.next, ?_⟩
    show w'.log ++ _ = w.log ++ _
    rw [hw.log, hw.process.entries_eq_of_agree hagree]
  cases hh with
  | same h =>
    cases h with
    | receive ev =>
      exact ⟨hw.process.isReady_eq.trans he, hstep (hw.process.agree_receive ev)⟩
    | act a => exact ⟨(hw.process.canAct_eq a).trans he, hstep (hw.process.agree_act he)⟩
  | @typed s phase key key' hrun hkeys =>
    refine ⟨hw.process.isReady_eq.trans he, hstep ?_⟩
    have hp := hw.process
    rw [hrun] at hp ⊢
    generalize w'.process = p' at hp ⊢
    cases hp with
    | running phase h =>
      exact ⟨.running .dispatching (h.dispatchKey_of_sameShape hkeys), rfl, rfl⟩

/-- **The lock client shows nothing of a password but its shape.** In two runs that differ in the
keys that type texts, of the same shape at every place, the same is requested, handed to the socket
and put into the buffers in the same order, the same results are taken, and the process leaves with
the same code. -/
theorem password_hidden (username : String) (failure : ℕ → Option String)
    {es es' : List Happening} (hl : (watched username failure).Legal ⟨.absent, []⟩ es)
    (h : (watched username failure).SideBySide Watched.Retyped ⟨.absent, []⟩ es es') :
    (watched username failure).Legal ⟨.absent, []⟩ es' ∧
      ((watched username failure).run ⟨.absent, []⟩ es').log =
        ((watched username failure).run ⟨.absent, []⟩ es).log := by
  obtain ⟨hlegal, hend⟩ := h.run (R := Watched.Alike)
    (fun _ _ _ _ hR he hE => hR.step he hE) ⟨.absent, rfl⟩ hl
  exact ⟨hlegal, hend.log⟩

/-- An output is locked and its lock surface painted, a letter is typed, and PAM refuses it. -/
def guess (key : UInt32) : List Happening :=
  [.act .start, .act .enter, .receive (.mode 9 64 32), .receive .locked,
    .receive (.configure 6 1 64 32), .receive (.keymap true (some twoLetters)),
    .receive (.key key true), .receive (.key 28 true), .act .poll, .act .takeRequest,
    .act (.answer (.fail "no"))]

theorem password_hidden_guess :
    (watched "u" fun _ => none).Legal ⟨.absent, []⟩ (guess 48) ∧
      ((watched "u" fun _ => none).run ⟨.absent, []⟩ (guess 48)).log =
        ((watched "u" fun _ => none).run ⟨.absent, []⟩ (guess 30)).log := by
  have hlegal : (watched "u" fun _ => none).Legal ⟨.absent, []⟩ (guess 30) :=
    ⟨rfl, rfl, rfl, rfl, rfl, rfl, rfl, rfl, rfl, rfl, rfl, trivial⟩
  have hside : (watched "u" fun _ => none).SideBySide Watched.Retyped ⟨.absent, []⟩ (guess 30)
      (guess 48) :=
    ⟨.same _, .same _, .same _, .same _, .same _, .same _,
      .typed rfl ⟨"a", "b", rfl, rfl, rfl⟩, .same _, .same _, .same _, .same _, trivial⟩
  exact password_hidden "u" (fun _ => none) hlegal hside

end NxLock

end Nullxes
