import Nullxes.Wlcommon.Window

/-!
# Keeping to the protocol

A client with one window is a program whose common part makes the moves that are due, whatever else
it does. Its connection has a log of what passes on it, in both directions. As long as the
compositor releases only what it holds and proposes sizes that can be afforded, all of the log is
within the protocol: the client is not disconnected.

## Main definitions

* `Wire.Client`, `Wire.Client.machine` — a client, and its runs with the log of its connection

## Main results

* `Wire.Client.conforms` — the log is within the protocol
-/

namespace Nullxes

namespace Wire

open Wlcommon

/-- A window that has asked for its surface and for nothing else. -/
structure Window.Begun {γ : Type} (s : Window γ) : Prop where
  sent : s.sent = [.surface]
  quiet : s.shm.sent = []
  buffer : s.buffer = none
  configured : s.configured = false
  size : Affordable s.width s.height

/-- A client with one window: its reactions, seen from the connection. -/
structure Client (σ ε γ : Type) [Inhabited γ] where
  window : σ → Window γ
  react : σ → ε → σ
  /-- What an event of the client is on the connection. -/
  told : ε → Event
  /-- The sizes that an event proposes, if it does, can be afforded. -/
  Modest : ε → Prop
  Start : σ → Prop
  begun : ∀ s, Start s → (window s).Begun
  answers : ∀ s e, Affordable (window s).width (window s).height → Modest e →
    ∃ ms, Answers (told e) ms ∧ window (react s e) = (window s).moves ms

namespace Client

variable {σ ε γ : Type} [Inhabited γ] (C : Client σ ε γ)

/-- What a reaction asks for. -/
def asked (s : σ) (e : ε) : List Request :=
  (C.window (C.react s e)).sent.drop (C.window s).sent.length

/-- The client with the log of its connection, from its surface on. -/
def machine : EventMachine (σ × List Entry) ε where
  Init p := C.Start p.1 ∧ p.2 = [.request .surface]
  Enabled p e := (protocol.run .new p.2).Allows (.event (C.told e)) ∧ C.Modest e
  step p e := (C.react p.1 e, p.2 ++ .event (C.told e) :: (C.asked p.1 e).map .request)

instance [∀ e, Decidable (C.Modest e)] (p : σ × List Entry) (e : ε) :
    Decidable (C.machine.Enabled p e) :=
  inferInstanceAs (Decidable (_ ∧ C.Modest e))

/-- All that passes on the connection is within the protocol. -/
def Conforms : Prop :=
  ∀ p es, C.machine.Init p → C.machine.Legal p es → protocol.Legal .new (C.machine.run p es).2

/-- A log within the protocol, after which the window and the compositor agree. -/
structure Sound (p : σ × List Entry) : Prop where
  legal : protocol.Legal .new p.2
  agrees : Agrees (protocol.run .new p.2) (C.window p.1)

variable {C} {p : σ × List Entry} {e : ε}

theorem Sound.init (h : C.machine.Init p) : C.Sound p := by
  obtain ⟨hstart, hlog⟩ := h
  have hb := C.begun p.1 hstart
  refine ⟨?_, ?_⟩
  · rw [hlog]
    exact ⟨rfl, trivial⟩
  · rw [hlog]
    refine ⟨fun _ => rfl, fun hc => ?_, hb.size, hb.quiet, ⟨nofun, nofun⟩, fun pool hp => ?_⟩
    · rw [hb.configured] at hc
      cases hc
    · rw [hb.buffer] at hp
      cases hp

/-- **The step.** -/
theorem Sound.step (h : C.Sound p) (he : C.machine.Enabled p e) : C.Sound (C.machine.step p e) := by
  obtain ⟨hallows, hmodest⟩ := he
  obtain ⟨ms, hms, hwindow⟩ := C.answers p.1 e h.agrees.size hmodest
  obtain ⟨rs, c', hkeeps⟩ := h.agrees.answers hms
  have hasked : C.asked p.1 e = rs := by
    rw [asked, hwindow, hkeeps.sent, List.drop_left]
  refine ⟨?_, ?_⟩
  · show protocol.Legal .new (p.2 ++ .event (C.told e) :: (C.asked p.1 e).map .request)
    rw [EventMachine.legal_append, hasked]
    exact ⟨h.legal, hallows, hkeeps.legal⟩
  · show Agrees (protocol.run .new (p.2 ++ .event (C.told e) :: (C.asked p.1 e).map .request))
      (C.window (C.react p.1 e))
    rw [EventMachine.run_append, EventMachine.run_cons, hasked, hwindow]
    have hrun : protocol.run ((protocol.run .new p.2).note (.event (C.told e)))
      (rs.map .request) = c' := hkeeps.run
    exact hrun ▸ hkeeps.agrees

/-- **The log is within the protocol.** -/
theorem conforms (C : Client σ ε γ) : C.Conforms := by
  intro p es hinit hl
  have hall : C.machine.Always C.Sound p es :=
    .of_invariant (fun _ _ hp he => hp.step he) (.init hinit) hl
  exact hall.last.legal

end Client

end Wire

end Nullxes
