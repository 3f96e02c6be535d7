import Mathlib.Data.List.Infix
import Mathlib.Data.List.Nodup
import Nullxes.Library.EventMachine

/-!
# Calls through a queue

Many callers and one worker. A caller makes a one-shot reply, puts a command that holds the sending
end of it at the back of an unbounded queue, and waits; the worker takes a command from the front,
executes it and sends the reply. When the worker goes, the queue goes with it and every command in
it, so that whoever waits for one of them learns that no reply will come.

A one-shot reply is named by its place in the list of all that were made. The list also says who
made each of them and what for, and `executed` is the history of the worker; nothing depends on
either.

## Main results

* `Calls.Sound` — the invariant: a reply is pending exactly while its command is queued, and has
  been sent exactly if the command was executed, once
* `Calls.Sound.enqueue`, `Calls.Sound.serve`, `Calls.Sound.close` — every operation keeps it
* `Calls.Extends` — what no operation undoes
* `Calls.Sound.executions_of_sent`, `Calls.Sound.executions_eq_nil` — who calls once and gets a
  response was served once, with that response; who gets none was not served
-/

universe u v w

namespace Calls

/-- A one-shot reply, as the side that waits for it sees it. -/
inductive Reply (α : Type w)
  | pending
  | sent (a : α)
  /-- The sending end is gone. -/
  | dropped
  deriving DecidableEq, Repr

/-- What is queued: a request, and where its response goes. -/
structure Command (ρ : Type v) where
  request : ρ
  respond : ℕ
  deriving DecidableEq, Repr

/-- A one-shot reply, with who made it and what for. -/
structure Call (κ : Type u) (ρ : Type v) (α : Type w) where
  caller : κ
  request : ρ
  reply : Reply α
  deriving DecidableEq, Repr

/-- A command that was executed, and what came of it. -/
structure Execution (ρ : Type v) (α : Type w) where
  call : ℕ
  request : ρ
  response : α
  deriving DecidableEq, Repr

/-- The queue and the replies. -/
structure State (κ : Type u) (ρ : Type v) (α : Type w) where
  /-- The worker still holds its end of the queue. -/
  listening : Bool
  queue : List (Command ρ)
  calls : List (Call κ ρ α)
  executed : List (Execution ρ α)

variable {κ : Type u} {ρ : Type v} {α : Type w}

/-- Nobody has called yet. -/
def State.initial : State κ ρ α := ⟨true, [], [], []⟩

variable (s : State κ ρ α)

namespace State

/-- The commands in the queue, by the reply they send to. -/
def queued : List ℕ := s.queue.map Command.respond

/-- A new reply, and a command that holds its sending end. -/
def enqueue (caller : κ) (request : ρ) : State κ ρ α :=
  { s with
    queue := s.queue ++ [⟨request, s.calls.length⟩]
    calls := s.calls ++ [⟨caller, request, .pending⟩] }

/-- The worker takes the first command, executes it with this response, and sends it. -/
def serve (response : α) : State κ ρ α :=
  match s.queue with
  | [] => s
  | cmd :: rest =>
    { s with
      queue := rest
      calls := s.calls.modify cmd.respond fun c => { c with reply := .sent response }
      executed := s.executed ++ [⟨cmd.respond, cmd.request, response⟩] }

/-- The worker goes. -/
def close : State κ ρ α :=
  { s with
    listening := false
    queue := []
    calls := s.calls.mapIdx fun k c => if k ∈ s.queued then { c with reply := .dropped } else c }

/-- The executions of one caller. -/
def executions [DecidableEq κ] (caller : κ) : List (Execution ρ α) :=
  s.executed.filter fun x => s.calls[x.call]?.map Call.caller = some caller

@[simp] theorem queued_enqueue (caller : κ) (request : ρ) :
    (s.enqueue caller request).queued = s.queued ++ [s.calls.length] := by
  simp [queued, enqueue]

end State

/-! ## The invariant -/

/-- Pending means queued, sent means executed, and nothing is queued or executed twice. -/
structure Sound : Prop where
  queued_nodup : s.queued.Nodup
  pending_iff : ∀ k c, s.calls[k]? = some c → (c.reply = .pending ↔ k ∈ s.queued)
  queued_call : ∀ cmd ∈ s.queue, ∃ c, s.calls[cmd.respond]? = some c ∧ c.request = cmd.request
  executed_nodup : (s.executed.map Execution.call).Nodup
  executed_call : ∀ x ∈ s.executed,
    ∃ c, s.calls[x.call]? = some c ∧ c.request = x.request ∧ c.reply = .sent x.response
  sent_executed : ∀ k c a, s.calls[k]? = some c → c.reply = .sent a → ∃ x ∈ s.executed, x.call = k
  closed : s.listening = false → s.queue = []

theorem sound_initial : Sound (State.initial : State κ ρ α) where
  queued_nodup := List.nodup_nil
  pending_iff _ _ h := by cases h
  queued_call _ h := by cases h
  executed_nodup := List.nodup_nil
  executed_call _ h := by cases h
  sent_executed _ _ _ h := by cases h
  closed _ := rfl

namespace Sound

variable {s}

theorem queued_lt (h : Sound s) {k : ℕ} (hk : k ∈ s.queued) : k < s.calls.length := by
  obtain ⟨cmd, hcmd, rfl⟩ := List.mem_map.mp hk
  obtain ⟨c, hc, -⟩ := h.queued_call cmd hcmd
  exact (List.getElem?_eq_some_iff.mp hc).1

/-- A call after one more was made: an old one, or the new one. -/
theorem getElem?_enqueue {caller : κ} {request : ρ} {k : ℕ} {c : Call κ ρ α} :
    (s.enqueue caller request).calls[k]? = some c ↔
      s.calls[k]? = some c ∨ (k = s.calls.length ∧ c = ⟨caller, request, .pending⟩) :=
  EventMachine.getElem?_concat_eq_some

theorem enqueue (h : Sound s) (hl : s.listening = true) (caller : κ) (request : ρ) :
    Sound (s.enqueue caller request) where
  queued_nodup := by
    rw [State.queued_enqueue]
    refine List.nodup_append.mpr ⟨h.queued_nodup, List.nodup_singleton _, ?_⟩
    rintro k hk _ (_ | ⟨_, ⟨⟩⟩) rfl
    exact absurd (h.queued_lt hk) (Nat.lt_irrefl _)
  pending_iff k c hc := by
    rw [State.queued_enqueue]
    rcases getElem?_enqueue.mp hc with hold | ⟨rfl, rfl⟩
    · have hlt := (List.getElem?_eq_some_iff.mp hold).1
      rw [h.pending_iff k c hold]
      simp [Nat.ne_of_lt hlt]
    · simp
  queued_call cmd hcmd := by
    rcases List.mem_append.mp hcmd with hold | hnew
    · obtain ⟨c, hc, hreq⟩ := h.queued_call cmd hold
      exact ⟨c, getElem?_enqueue.mpr (.inl hc), hreq⟩
    · obtain rfl := List.mem_singleton.mp hnew
      exact ⟨_, getElem?_enqueue.mpr (.inr ⟨rfl, rfl⟩), rfl⟩
  executed_nodup := h.executed_nodup
  executed_call x hx := by
    obtain ⟨c, hc, hrest⟩ := h.executed_call x hx
    exact ⟨c, getElem?_enqueue.mpr (.inl hc), hrest⟩
  sent_executed k c a hc ha := by
    rcases getElem?_enqueue.mp hc with hold | ⟨rfl, rfl⟩
    · exact h.sent_executed k c a hold ha
    · cases ha
  closed hclosed := absurd hclosed (by simp [State.enqueue, hl])

/-- A call after the first command was served: only the reply of that command has changed. -/
theorem getElem?_serve {cmd : Command ρ} {rest : List (Command ρ)} (hq : s.queue = cmd :: rest)
    (response : α) (k : ℕ) :
    (s.serve response).calls[k]? =
      s.calls[k]?.map fun c =>
        if k = cmd.respond then { c with reply := .sent response } else c := by
  rw [State.serve, hq, List.getElem?_modify]
  by_cases hk : cmd.respond = k
  · simp [hk]
  · simp [hk, Ne.symm hk]

/-- What it means to serve a queue with a first command. -/
theorem serve_cons {cmd : Command ρ} {rest : List (Command ρ)} (hq : s.queue = cmd :: rest)
    (response : α) : s.serve response =
      { s with
        queue := rest
        calls := s.calls.modify cmd.respond fun c => { c with reply := .sent response }
        executed := s.executed ++ [⟨cmd.respond, cmd.request, response⟩] } := by
  rw [State.serve, hq]

/-- The command at the front of the queue has not been executed. -/
theorem front (h : Sound s) {cmd : Command ρ} {rest : List (Command ρ)}
    (hq : s.queue = cmd :: rest) :
    (∃ c, s.calls[cmd.respond]? = some c ∧ c.request = cmd.request ∧ c.reply = .pending) ∧
      (∀ x ∈ s.executed, x.call ≠ cmd.respond) ∧ cmd.respond ∉ rest.map Command.respond := by
  obtain ⟨c, hc, hrequest⟩ := h.queued_call cmd (by simp [hq])
  have hpending : c.reply = .pending := (h.pending_iff _ c hc).mpr (by simp [State.queued, hq])
  refine ⟨⟨c, hc, hrequest, hpending⟩, ?_, ?_⟩
  · rintro x hx heq
    obtain ⟨c', hc', -, hsent⟩ := h.executed_call x hx
    rw [heq, hc] at hc'
    obtain rfl := Option.some.inj hc'
    rw [hpending] at hsent
    cases hsent
  · have hnodup := h.queued_nodup
    rw [State.queued, hq, List.map_cons] at hnodup
    exact (List.nodup_cons.mp hnodup).1

theorem serve (h : Sound s) (response : α) : Sound (s.serve response) := by
  cases hq : s.queue with
  | nil =>
    rw [State.serve, hq]
    exact h
  | cons cmd rest =>
    obtain ⟨⟨call, hcall, hrequest, hpending⟩, hfresh, hrest⟩ := h.front hq
    have hget := getElem?_serve hq response
    have hqueued : ∀ k, k ∈ s.queued ↔ k = cmd.respond ∨ k ∈ rest.map Command.respond := by
      intro k
      rw [State.queued, hq, List.map_cons, List.mem_cons]
    rw [serve_cons hq] at hget ⊢
    -- a call other than the one served is what it was
    have hother : ∀ k, k ≠ cmd.respond → (s.calls.modify cmd.respond fun c =>
        { c with reply := .sent response })[k]? = s.calls[k]? := by
      intro k hk
      simp [hget k, hk]
    have hserved : (s.calls.modify cmd.respond fun c => { c with reply := .sent response })[
        cmd.respond]? = some { call with reply := .sent response } := by
      simp [hget, hcall]
    constructor
    case queued_nodup =>
      have hnodup := h.queued_nodup
      rw [State.queued, hq, List.map_cons] at hnodup
      exact (List.nodup_cons.mp hnodup).2
    case pending_iff =>
      intro k c hc
      by_cases hk : k = cmd.respond
      · subst hk
        obtain rfl := Option.some.inj (hserved.symm.trans hc)
        simpa [State.queued] using hrest
      · have hiff := h.pending_iff k c ((hother k hk).symm.trans hc)
        rw [hiff, hqueued k]
        exact or_iff_right hk
    case queued_call =>
      intro cmd' hcmd'
      have hk : cmd'.respond ≠ cmd.respond := by
        rintro heq
        exact hrest (heq ▸ List.mem_map_of_mem hcmd')
      obtain ⟨c, hc, hreq⟩ := h.queued_call cmd' (by simp [hq, show cmd' ∈ rest from hcmd'])
      exact ⟨c, (hother _ hk).trans hc, hreq⟩
    case executed_nodup =>
      rw [List.map_append]
      refine List.nodup_append.mpr ⟨h.executed_nodup, List.nodup_singleton _, ?_⟩
      rintro k hk _ (_ | ⟨_, ⟨⟩⟩) rfl
      obtain ⟨x, hx, heq⟩ := List.mem_map.mp hk
      exact hfresh x hx heq
    case executed_call =>
      intro x hx
      rcases List.mem_append.mp hx with hold | hnew
      · obtain ⟨c, hc, hx⟩ := h.executed_call x hold
        exact ⟨c, (hother _ (hfresh x hold)).trans hc, hx⟩
      · obtain rfl := List.mem_singleton.mp hnew
        exact ⟨_, hserved, hrequest, rfl⟩
    case sent_executed =>
      intro k c a hc ha
      by_cases hk : k = cmd.respond
      · exact ⟨_, List.mem_append_right _ (List.mem_singleton_self _), hk.symm⟩
      · obtain ⟨x, hx, heq⟩ := h.sent_executed k c a ((hother k hk).symm.trans hc) ha
        exact ⟨x, List.mem_append_left _ hx, heq⟩
    case closed =>
      intro hl
      rw [h.closed hl] at hq
      cases hq

/-- A call after the worker has gone. -/
theorem getElem?_close (k : ℕ) : s.close.calls[k]? =
    s.calls[k]?.map fun c => if k ∈ s.queued then { c with reply := .dropped } else c := by
  rw [State.close, List.getElem?_mapIdx]

theorem close (h : Sound s) : Sound s.close where
  queued_nodup := List.nodup_nil
  pending_iff k c hc := by
    rw [getElem?_close] at hc
    obtain ⟨c', hc', rfl⟩ := Option.map_eq_some_iff.mp hc
    have hiff := h.pending_iff k c' hc'
    have hnone : k ∉ s.close.queued := List.not_mem_nil
    by_cases hk : k ∈ s.queued
    · simp [hk, hnone]
    · simpa [hk, hnone] using hiff
  queued_call _ hcmd := by cases hcmd
  executed_nodup := h.executed_nodup
  executed_call x hx := by
    obtain ⟨c, hc, hrequest, hsent⟩ := h.executed_call x hx
    have hk : x.call ∉ s.queued := by
      rw [← h.pending_iff _ c hc, hsent]
      simp
    exact ⟨c, by simp [getElem?_close, hc, hk], hrequest, hsent⟩
  sent_executed k c a hc ha := by
    rw [getElem?_close] at hc
    obtain ⟨c', hc', rfl⟩ := Option.map_eq_some_iff.mp hc
    by_cases hk : k ∈ s.queued
    · simp [hk] at ha
    · rw [if_neg hk] at ha
      exact h.sent_executed k c' a hc' ha
  closed _ := rfl

end Sound

/-! ## What stays -/

/-- What was called stays called, by the same caller for the same reason; a reply that is no longer
pending stays as it is; what was executed stays executed; and new calls are made by `new` only. -/
structure Extends (new : κ → Prop) (s t : State κ ρ α) : Prop where
  calls : ∀ (k : ℕ) c, s.calls[k]? = some c → ∃ c', t.calls[k]? = some c' ∧
    c'.caller = c.caller ∧ c'.request = c.request ∧ (c.reply ≠ .pending → c'.reply = c.reply)
  fresh : ∀ (k : ℕ) c, t.calls[k]? = some c → s.calls[k]? = none → new c.caller
  executed : s.executed <+: t.executed

theorem Extends.refl (new : κ → Prop) : Extends new s s where
  calls _ c hc := ⟨c, hc, rfl, rfl, fun _ => rfl⟩
  fresh k c hc hnone := absurd (hnone.symm.trans hc) (by simp)
  executed := List.prefix_rfl

variable {s}

theorem extends_enqueue (caller : κ) (request : ρ) :
    Extends (fun who => who = caller) s (s.enqueue caller request) where
  calls _ c hc := ⟨c, Sound.getElem?_enqueue.mpr (.inl hc), rfl, rfl, fun _ => rfl⟩
  fresh k c hc hnone := by
    rcases Sound.getElem?_enqueue.mp hc with hold | ⟨-, rfl⟩
    · rw [hnone] at hold
      cases hold
    · rfl
  executed := List.prefix_rfl

theorem extends_serve (h : Sound s) (response : α) (new : κ → Prop) :
    Extends new s (s.serve response) := by
  cases hq : s.queue with
  | nil =>
    rw [State.serve, hq]
    exact Extends.refl s new
  | cons cmd rest =>
    obtain ⟨⟨call, hcall, -, hpending⟩, -⟩ := h.front hq
    constructor
    case calls =>
      intro k c hc
      refine ⟨if k = cmd.respond then { c with reply := .sent response } else c, ?_⟩
      rw [Sound.getElem?_serve hq, hc, Option.map_some]
      by_cases hk : k = cmd.respond
      · subst hk
        obtain rfl := Option.some.inj (hcall.symm.trans hc)
        simp [hpending]
      · simp [hk]
    case fresh =>
      intro k c hc hnone
      rw [Sound.getElem?_serve hq, hnone] at hc
      cases hc
    case executed =>
      rw [Sound.serve_cons hq]
      exact List.prefix_append _ _

theorem extends_close (h : Sound s) (new : κ → Prop) : Extends new s s.close where
  calls k c hc := by
    refine ⟨if k ∈ s.queued then { c with reply := .dropped } else c, ?_⟩
    rw [Sound.getElem?_close, hc, Option.map_some]
    by_cases hk : k ∈ s.queued
    · simp [hk, (h.pending_iff k c hc).mpr hk]
    · simp [hk]
  fresh k c hc hnone := by
    rw [Sound.getElem?_close, hnone] at hc
    cases hc
  executed := List.prefix_rfl

/-- No call of the caller will get a response. -/
def Unserved (caller : κ) (s : State κ ρ α) : Prop :=
  ∀ (k : ℕ) c, s.calls[k]? = some c → c.caller = caller → c.reply = .dropped

theorem Unserved.extend {new : κ → Prop} {t : State κ ρ α} {caller : κ} (h : Unserved caller s)
    (hext : Extends new s t) (hnew : ¬ new caller) : Unserved caller t := by
  rintro k c hc rfl
  cases hs : s.calls[k]? with
  | none => exact absurd (hext.fresh k c hc hs) hnew
  | some c' =>
    obtain ⟨c'', hc'', hcaller, -, hreply⟩ := hext.calls k c' hs
    obtain rfl := Option.some.inj (hc.symm.trans hc'')
    have hdropped := h k c' hs hcaller.symm
    rw [hreply (by simp [hdropped]), hdropped]

/-- Nobody calls twice under one name. -/
def Distinct (s : State κ ρ α) : Prop :=
  ∀ (j k : ℕ) c d, s.calls[j]? = some c → s.calls[k]? = some d → c.caller = d.caller → j = k

theorem Distinct.enqueue (h : Distinct s) {caller : κ} (request : ρ)
    (hnew : ∀ (k : ℕ) c, s.calls[k]? = some c → c.caller ≠ caller) :
    Distinct (s.enqueue caller request) := by
  intro j k c d hc hd heq
  rcases Sound.getElem?_enqueue.mp hc with hc | ⟨rfl, rfl⟩ <;>
    rcases Sound.getElem?_enqueue.mp hd with hd | ⟨rfl, rfl⟩
  · exact h j k c d hc hd heq
  · exact absurd heq (hnew j c hc)
  · exact absurd heq.symm (hnew k d hd)
  · rfl

/-- Where no call was made, every call is an old one. -/
theorem Extends.old {t : State κ ρ α} (hext : Extends (fun _ => False) s t) {k : ℕ}
    {c : Call κ ρ α} (hc : t.calls[k]? = some c) :
    ∃ c', s.calls[k]? = some c' ∧ c'.caller = c.caller ∧ c'.request = c.request := by
  cases hs : s.calls[k]? with
  | none => exact (hext.fresh k c hc hs).elim
  | some c' =>
    obtain ⟨c'', hc'', hcaller, hrequest, -⟩ := hext.calls k c' hs
    obtain rfl := Option.some.inj (hc.symm.trans hc'')
    exact ⟨c', rfl, hcaller.symm, hrequest.symm⟩

theorem Distinct.extend (h : Distinct s) {t : State κ ρ α} (hext : Extends (fun _ => False) s t) :
    Distinct t := by
  intro j k c d hc hd heq
  obtain ⟨c', hc', hcc, -⟩ := hext.old hc
  obtain ⟨d', hd', hdd, -⟩ := hext.old hd
  exact h j k c' d' hc' hd' (by rw [hcc, hdd, heq])

/-! ## Executions of a caller -/

section

variable [DecidableEq κ]

theorem mem_executions {caller : κ} {x : Execution ρ α} : x ∈ s.executions caller ↔
    x ∈ s.executed ∧ ∃ c, s.calls[x.call]? = some c ∧ c.caller = caller := by
  simp [State.executions]

namespace Sound

/-- A response that was sent comes from the only execution for its caller. -/
theorem executions_of_sent (h : Sound s) (hd : Distinct s) {k : ℕ} {c : Call κ ρ α} {a : α}
    (hc : s.calls[k]? = some c) (ha : c.reply = .sent a) :
    s.executions c.caller = [⟨k, c.request, a⟩] := by
  obtain ⟨x, hx, rfl⟩ := h.sent_executed k c a hc ha
  obtain ⟨c', hc', hrequest, hsent⟩ := h.executed_call x hx
  obtain rfl := Option.some.inj (hc.symm.trans hc')
  obtain rfl : a = x.response := by simpa [ha] using hsent
  have hnodup : (s.executions c.caller).Nodup := (h.executed_nodup.of_map _).filter _
  have hall : ∀ y ∈ s.executions c.caller, y = x := by
    intro y hy
    obtain ⟨hmem, d, hd', hcaller⟩ := mem_executions.mp hy
    have hcall : y.call = x.call := hd _ _ _ _ hd' hc hcaller
    exact List.inj_on_of_nodup_map h.executed_nodup hmem hx hcall
  have hself : x ∈ s.executions c.caller := mem_executions.mpr ⟨hx, c, hc, rfl⟩
  have hperm : (s.executions c.caller).Perm [x] := by
    refine (List.perm_ext_iff_of_nodup hnodup (List.nodup_singleton x)).mpr fun y => ?_
    rw [List.mem_singleton]
    exact ⟨hall y, fun heq => heq ▸ hself⟩
  rw [List.perm_singleton.mp hperm, hrequest]

/-- Without a response sent to it, a caller has no execution. -/
theorem executions_eq_nil (h : Sound s) {caller : κ}
    (hnone : ∀ (k : ℕ) c a, s.calls[k]? = some c → c.caller = caller → c.reply ≠ .sent a) :
    s.executions caller = [] := by
  refine List.eq_nil_iff_forall_not_mem.mpr fun x hx => ?_
  obtain ⟨hmem, c, hc, hcaller⟩ := mem_executions.mp hx
  obtain ⟨c', hc', -, hsent⟩ := h.executed_call x hmem
  obtain rfl := Option.some.inj (hc.symm.trans hc')
  exact hnone _ _ _ hc hcaller hsent

end Sound

end

end Calls
