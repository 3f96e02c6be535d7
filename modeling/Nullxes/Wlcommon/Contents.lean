import Mathlib.Data.List.Forall2
import Nullxes.Library.Loops
import Nullxes.Wlcommon.Strides

/-!
# What is in the buffers

A pool does not look at what is in its buffers. So two pools that are used in the same way, but hold
contents of different kinds, stay alike as long as what is painted into the one and the other stays
related: the pool of pictures that the models of the clients keep is that of the bytes.

A client has a pool for each of its surfaces, and paints with tools that all of them share.

## Main definitions

* `ShmDoubleBuffer.drawWith` — `draw`, with a closure that may panic and changes its tools
* `ShmDoubleBuffer.Alike` — pools that differ in what their buffers hold
* `Client`, `client` — a client with the pools of its surfaces

## Main results

* `ShmDoubleBuffer.rel_drawWith` — alike pools draw alike
* `Client.alike_run` — alike clients stay alike
-/

namespace Nullxes

namespace Wlcommon

open Loops

namespace ShmDoubleBuffer

variable {γ δ τ υ : Type}

/-- `draw` with a closure that changes its tools, too, and may panic. -/
def drawWith [Inhabited γ] (me : ShmDoubleBuffer γ) (shm : Shm)
    (paint : γ → ℕ → UInt32 → UInt32 → Option (γ × τ)) :
    Option (Except ClientError (ShmDoubleBuffer γ × DrawnBuffer γ × τ) × Shm) :=
  match me.findFreeOrGrow shm with
  | (.error e, shm) => some (.error e, shm)
  | (.ok slot, shm) =>
    let stride := (slot.pool.w * 4).toNat
    let buf := slot.pool.buffers.get slot.idx
    (paint buf.pixels stride buf.w buf.h).map fun r =>
      let buf := { buf with pixels := r.1, released := false }
      (.ok ({ slot.pool with buffers := slot.pool.buffers.set slot.idx buf },
        ⟨buf.wlBuf, buf.w, buf.h, r.1⟩, r.2), shm)

/-- With a closure that just paints it is `draw`. -/
theorem drawWith_some [Inhabited γ] (me : ShmDoubleBuffer γ) (shm : Shm)
    (paint : γ → ℕ → UInt32 → UInt32 → γ) (t : τ) :
    me.drawWith shm (fun pixels stride w h => some (paint pixels stride w h, t)) =
      some ((me.draw shm paint).map (fun r => r.map fun d => (d.1, d.2, t)) id) := by
  rw [drawWith, draw]
  rcases me.findFreeOrGrow shm with ⟨e | slot, shm'⟩
  · rfl
  · rfl

end ShmDoubleBuffer

/-! ## Lists side by side -/

section

variable {α β : Type} {P : α → β → Prop} {l : List α} {l' : List β}

theorem forall₂_set (h : List.Forall₂ P l l') (i : ℕ) {a : α} {b : β} (hab : P a b) :
    List.Forall₂ P (l.set i a) (l'.set i b) := by
  induction h generalizing i with
  | nil => exact .nil
  | cons hhead htail ih =>
    cases i with
    | zero => exact .cons hab htail
    | succ i => exact .cons hhead (ih i)

theorem forall₂_eraseIdx (h : List.Forall₂ P l l') (i : ℕ) :
    List.Forall₂ P (l.eraseIdx i) (l'.eraseIdx i) := by
  induction h generalizing i with
  | nil => exact .nil
  | cons hhead htail ih =>
    cases i with
    | zero => exact htail
    | succ i => exact .cons hhead (ih i)

theorem findIdx?_eq_of_forall₂ (h : List.Forall₂ P l l') {p : α → Bool} {q : β → Bool}
    (hpq : ∀ a b, P a b → p a = q b) : l.findIdx? p = l'.findIdx? q := by
  induction h with
  | nil => rfl
  | cons hhead _ ih => rw [List.findIdx?_cons, List.findIdx?_cons, hpq _ _ hhead, ih]

end

/-! ## Pools side by side -/

section

variable {γ δ : Type} (R : γ → δ → Prop)

/-- Two buffers that differ in what they hold, which is related. -/
structure ShmBuffer.Alike (b : ShmBuffer γ) (b' : ShmBuffer δ) : Prop where
  wlBuf : b.wlBuf = b'.wlBuf
  pixels : R b.pixels b'.pixels
  released : b.released = b'.released
  w : b.w = b'.w
  h : b.h = b'.h

/-- Two drawn buffers that differ in what they hold, which is related. -/
structure DrawnBuffer.Alike (d : DrawnBuffer γ) (d' : DrawnBuffer δ) : Prop where
  wlBuf : d.wlBuf = d'.wlBuf
  w : d.w = d'.w
  h : d.h = d'.h
  pixels : R d.pixels d'.pixels

/-- Two pools that differ in what their buffers hold, which is related. -/
structure ShmDoubleBuffer.Alike (me : ShmDoubleBuffer γ) (you : ShmDoubleBuffer δ) : Prop where
  buffers : List.Forall₂ (ShmBuffer.Alike R) me.buffers you.buffers
  w : me.w = you.w
  h : me.h = you.h

/-- Both succeed, with related results, or both fail in the same way; and `wl_shm` is asked for the
same. -/
inductive Same {α β : Type} (S : α → β → Prop) :
    Except ClientError α × Shm → Except ClientError β × Shm → Prop
  | ok {a : α} {b : β} (shm : Shm) (h : S a b) : Same S (.ok a, shm) (.ok b, shm)
  | error (e : ClientError) (shm : Shm) : Same S (.error e, shm) (.error e, shm)

/-- The same buffer of two alike pools. -/
structure Slot.Alike (slot : Slot γ) (slot' : Slot δ) : Prop where
  pool : slot.pool.Alike R slot'.pool
  idx : (slot.idx : ℕ) = slot'.idx

end

namespace ShmDoubleBuffer

variable {γ δ τ υ : Type} {R : γ → δ → Prop} {me : ShmDoubleBuffer γ} {you : ShmDoubleBuffer δ}

/-- The buffer that is drawn into has the size of the pool. -/
theorem size_of_findFreeOrGrow [Inhabited γ] {slot : Slot γ} {shm' : Shm}
    (hme : ∀ b ∈ me.buffers, b.w = me.w ∧ b.h = me.h) (shm : Shm)
    (h : me.findFreeOrGrow shm = (.ok slot, shm')) :
    slot.pool.w = me.w ∧ (slot.pool.buffers.get slot.idx).w = me.w ∧
      (slot.pool.buffers.get slot.idx).h = me.h := by
  rcases me.findFreeOrGrow_cases shm with ⟨e, shm₁, herr, -⟩ | ⟨slot₁, shm₁, hok, hg, -⟩
  · cases herr.symm.trans h
  · cases hok.symm.trans h
    rcases hg.mem (List.get_mem slot.pool.buffers slot.idx) with hold | hnew
    · exact ⟨hg.w_eq, hme _ hold⟩
    · rw [hnew]
      exact ⟨hg.w_eq, rfl, rfl⟩

theorem alike_empty (w h : UInt32) :
    (⟨[], w, h⟩ : ShmDoubleBuffer γ).Alike R (⟨[], w, h⟩ : ShmDoubleBuffer δ) :=
  ⟨.nil, rfl, rfl⟩

namespace Alike

theorem markReleased (h : me.Alike R you) (wlBuf : ℕ) :
    (me.markReleased wlBuf).Alike R (you.markReleased wlBuf) := by
  refine ⟨?_, h.w, h.h⟩
  refine List.forall₂_map_left_iff.mpr (List.forall₂_map_right_iff.mpr (h.buffers.imp ?_))
  intro b b' hb
  obtain ⟨hname, hpixels, -, hw, hh⟩ := id hb
  rw [hname]
  split
  · exact ⟨rfl, hpixels, rfl, hw, hh⟩
  · exact hb

/-- A pool and the same pool, with the same buffer changed. -/
theorem set (h : me.Alike R you) (i : ℕ) {b : ShmBuffer γ} {b' : ShmBuffer δ}
    (hb : b.Alike R b') :
    Alike R { me with buffers := me.buffers.set i b }
      { you with buffers := you.buffers.set i b' } :=
  ⟨forall₂_set h.buffers i hb, h.w, h.h⟩

theorem get (h : me.Alike R you) {i : Fin me.buffers.length} {j : Fin you.buffers.length}
    (hij : (i : ℕ) = j) : (me.buffers.get i).Alike R (you.buffers.get j) := by
  have hlt : (i : ℕ) < you.buffers.length := hij ▸ j.isLt
  obtain rfl : j = ⟨i, hlt⟩ := Fin.ext hij.symm
  exact h.buffers.get i.isLt hlt

/-- The first free buffer is the same. -/
theorem findFinIdx? (h : me.Alike R you) :
    (me.buffers.findFinIdx? fun b => b.released).map Fin.val =
      (you.buffers.findFinIdx? fun b => b.released).map Fin.val := by
  rw [← List.findIdx?_eq_map_findFinIdx?_val, ← List.findIdx?_eq_map_findFinIdx?_val]
  exact findIdx?_eq_of_forall₂ h.buffers fun _ _ hb => hb.released

variable [Inhabited γ] [Inhabited δ] (hdefault : R default default)
include hdefault

theorem allocateOne (h : me.Alike R you) (shm : Shm) :
    Same (Slot.Alike R) (me.allocateOne shm) (you.allocateOne shm) := by
  have hlength := h.buffers.length_eq
  rw [ShmDoubleBuffer.allocateOne, ShmDoubleBuffer.allocateOne, hlength, h.w, h.h]
  split
  · exact .error _ _
  · dsimp only
    split
    · exact .error _ _
    · have hnew : (⟨shm.attempted, default, true, you.w, you.h⟩ : ShmBuffer γ).Alike R
          ⟨shm.attempted, default, true, you.w, you.h⟩ := ⟨rfl, hdefault, rfl, rfl, rfl⟩
      exact .ok _ ⟨⟨List.rel_append h.buffers (.cons hnew .nil), h.w, h.h⟩, hlength⟩

theorem findFreeOrGrow (h : me.Alike R you) (shm : Shm) :
    Same (Slot.Alike R) (me.findFreeOrGrow shm) (you.findFreeOrGrow shm) := by
  have hfind := h.findFinIdx?
  rw [ShmDoubleBuffer.findFreeOrGrow, ShmDoubleBuffer.findFreeOrGrow]
  cases hi : me.buffers.findFinIdx? fun b => b.released with
  | none =>
    rw [hi] at hfind
    rw [Option.map_eq_none_iff.mp hfind.symm]
    exact h.allocateOne hdefault shm
  | some i =>
    rw [hi] at hfind
    obtain ⟨j, hj, hval⟩ := Option.map_eq_some_iff.mp hfind.symm
    rw [hj]
    exact .ok shm ⟨h, hval.symm⟩

/-- **Alike pools draw alike**, if their closures do: both panic, or neither does. -/
theorem drawWith (h : me.Alike R you)
    (hyou : ∀ b ∈ you.buffers, b.w = you.w ∧ b.h = you.h) (shm : Shm)
    {S : τ → υ → Prop} {paint : γ → ℕ → UInt32 → UInt32 → Option (γ × τ)}
    {paint' : δ → ℕ → UInt32 → UInt32 → Option (δ × υ)}
    (hpaint : ∀ pixels pixels', R pixels pixels' →
      Option.Rel (fun r r' => R r.1 r'.1 ∧ S r.2 r'.2) (paint pixels (you.w * 4).toNat you.w you.h)
        (paint' pixels' (you.w * 4).toNat you.w you.h)) :
    Option.Rel (Same fun r r' => r.1.Alike R r'.1 ∧ r.2.1.Alike R r'.2.1 ∧ S r.2.2 r'.2.2)
      (me.drawWith shm paint) (you.drawWith shm paint') := by
  have hfind := h.findFreeOrGrow hdefault shm
  have hyours : ∀ (slot : Slot δ) shm', you.findFreeOrGrow shm = (.ok slot, shm') →
      slot.pool.w = you.w ∧ (slot.pool.buffers.get slot.idx).w = you.w ∧
        (slot.pool.buffers.get slot.idx).h = you.h :=
    fun _ _ hok => size_of_findFreeOrGrow hyou shm hok
  rw [ShmDoubleBuffer.drawWith, ShmDoubleBuffer.drawWith]
  generalize me.findFreeOrGrow shm = mine at hfind ⊢
  generalize you.findFreeOrGrow shm = yours at hfind hyours ⊢
  cases hfind with
  | error e shm => exact .some (.error e shm)
  | @ok slot slot' shm hslot =>
    obtain ⟨hpool, hidx⟩ := hslot
    obtain ⟨hw, hbw, hbh⟩ := hyours slot' shm rfl
    have hget := hpool.get hidx
    have hpainted : Option.Rel (fun r r' => R r.1 r'.1 ∧ S r.2 r'.2)
        (paint (slot.pool.buffers.get slot.idx).pixels (slot.pool.w * 4).toNat
          (slot.pool.buffers.get slot.idx).w (slot.pool.buffers.get slot.idx).h)
        (paint' (slot'.pool.buffers.get slot'.idx).pixels (slot'.pool.w * 4).toNat
          (slot'.pool.buffers.get slot'.idx).w (slot'.pool.buffers.get slot'.idx).h) := by
      rw [hpool.w, hw, hget.w, hbw, hget.h, hbh]
      exact hpaint _ _ hget.pixels
    refine rel_map hpainted fun r r' hr => ?_
    have hset : ShmBuffer.Alike R
        { slot.pool.buffers.get slot.idx with pixels := r.1, released := false }
        { slot'.pool.buffers.get slot'.idx with pixels := r'.1, released := false } :=
      ⟨hget.wlBuf, hr.1, rfl, hget.w, hget.h⟩
    refine .ok shm ⟨?_, ⟨hget.wlBuf, hget.w, hget.h, hr.1⟩, hr.2⟩
    rw [hidx]
    exact hpool.set _ hset

theorem new (shm : Shm) (w h : UInt32) :
    Same (Alike R) (ShmDoubleBuffer.new shm w h : Except ClientError (ShmDoubleBuffer γ) × Shm)
      (ShmDoubleBuffer.new shm w h : Except ClientError (ShmDoubleBuffer δ) × Shm) := by
  have hfirst := (alike_empty (R := R) w h).allocateOne hdefault shm
  rw [ShmDoubleBuffer.new, ShmDoubleBuffer.new]
  generalize (⟨[], w, h⟩ : ShmDoubleBuffer γ).allocateOne shm = mine at hfirst ⊢
  generalize (⟨[], w, h⟩ : ShmDoubleBuffer δ).allocateOne shm = yours at hfirst ⊢
  cases hfirst with
  | error e shm => exact .error e shm
  | @ok first first' shm₁ hslot =>
    have hsecond := hslot.pool.allocateOne hdefault shm₁
    dsimp only
    generalize first.pool.allocateOne shm₁ = mine at hsecond ⊢
    generalize first'.pool.allocateOne shm₁ = yours at hsecond ⊢
    cases hsecond with
    | error e shm => exact .error e shm
    | ok shm hslot' => exact .ok shm hslot'.pool

/-- `resize` leaves alike pools, also when it fails. -/
theorem resize (h : me.Alike R you) (shm : Shm) (w height : UInt32) :
    (me.resize shm w height).2.1.Alike R (you.resize shm w height).2.1 ∧
      (me.resize shm w height).2.2 = (you.resize shm w height).2.2 := by
  rw [ShmDoubleBuffer.resize, ShmDoubleBuffer.resize, h.w, h.h]
  split
  · exact ⟨h, rfl⟩
  · have hfirst := (alike_empty (R := R) w height).allocateOne hdefault shm
    dsimp only
    generalize (⟨[], w, height⟩ : ShmDoubleBuffer γ).allocateOne shm = mine at hfirst ⊢
    generalize (⟨[], w, height⟩ : ShmDoubleBuffer δ).allocateOne shm = yours at hfirst ⊢
    cases hfirst with
    | error e shm => exact ⟨alike_empty w height, rfl⟩
    | @ok first first' shm₁ hslot =>
      have hsecond := hslot.pool.allocateOne hdefault shm₁
      dsimp only
      generalize first.pool.allocateOne shm₁ = mine at hsecond ⊢
      generalize first'.pool.allocateOne shm₁ = yours at hsecond ⊢
      cases hsecond with
      | error e shm => exact ⟨hslot.pool, rfl⟩
      | ok shm hslot' => exact ⟨hslot'.pool, rfl⟩

end Alike

end ShmDoubleBuffer

/-! ## Clients -/

/-- A client: the pools of its surfaces, what it paints with, and what it has drawn. -/
structure Client (γ τ : Type) where
  pools : List (ShmDoubleBuffer γ)
  shm : Shm
  tools : τ
  frames : List (DrawnBuffer γ)
  panicked : Bool

/-- What a client does with its pools. -/
inductive ClientEvent (Picture : Type)
  /-- A surface gets its pool. -/
  | create (w h : UInt32)
  /-- A pool is dropped. -/
  | drop (i : ℕ)
  /-- The picture is made of the stride, the width and the height. -/
  | draw (i : ℕ) (picture : ℕ → UInt32 → UInt32 → Picture)
  | resize (i : ℕ) (w h : UInt32)
  /-- `wl_buffer.release`. -/
  | release (i wlBuf : ℕ)

namespace Client

variable {γ τ Picture : Type} [Inhabited γ] (s : Client γ τ)

/-- A frame is drawn into the pool at `i`. -/
def draw (paint : Picture → γ → τ → Option (γ × τ)) (i : ℕ) (pool : ShmDoubleBuffer γ)
    (picture : ℕ → UInt32 → UInt32 → Picture) : Client γ τ :=
  match pool.drawWith s.shm fun pixels stride w h => paint (picture stride w h) pixels s.tools with
  | none => { s with panicked := true }
  | some (.error _, shm) => { s with shm := shm }
  | some (.ok (pool, drawn, tools), shm) =>
    { s with
      pools := s.pools.set i pool, shm := shm, tools := tools, frames := s.frames ++ [drawn] }

/-- What an event does; `paint` is the closure, with its tools. -/
def step (paint : Picture → γ → τ → Option (γ × τ)) : ClientEvent Picture → Client γ τ
  | .create w h =>
    match ShmDoubleBuffer.new s.shm w h with
    | (.error _, shm) => { s with shm := shm }
    | (.ok pool, shm) => { s with pools := s.pools ++ [pool], shm := shm }
  | .drop i => { s with pools := s.pools.eraseIdx i }
  | .draw i picture =>
    match s.pools[i]? with
    | none => s
    | some pool => s.draw paint i pool picture
  | .resize i w h =>
    match s.pools[i]? with
    | none => s
    | some pool =>
      let (_, pool, shm) := pool.resize s.shm w h
      { s with pools := s.pools.set i pool, shm := shm }
  | .release i wlBuf =>
    match s.pools[i]? with
    | none => s
    | some pool => { s with pools := s.pools.set i (pool.markReleased wlBuf) }

end Client

/-- Sizes are addressable, and a picture says for what it was made. -/
def ClientEvent.Proper {Picture : Type} (Made : Picture → ℕ → UInt32 → UInt32 → Prop) :
    ClientEvent Picture → Prop
  | .create w h | .resize _ w h => ShmDoubleBuffer.Addressable w h
  | .draw _ picture => ∀ stride w h, Made (picture stride w h) stride w h
  | .drop _ | .release _ _ => True

/-- A client whose closure is `paint`, and starts with these tools. A panic ends it. -/
def client {γ τ Picture : Type} [Inhabited γ] (paint : Picture → γ → τ → Option (γ × τ))
    (Made : Picture → ℕ → UInt32 → UInt32 → Prop) (tools : τ) :
    EventMachine (Client γ τ) (ClientEvent Picture) where
  Init s := s.pools = [] ∧ s.tools = tools ∧ s.frames = [] ∧ s.panicked = false
  Enabled s e := s.panicked = false ∧ e.Proper Made
  step s e := s.step paint e

/-! ## Clients side by side -/

section

variable {γ δ τ υ Picture : Type}

/-- Two clients that differ in what their buffers hold, and in their tools, which are related. -/
structure Client.Alike (R : γ → δ → Prop) (S : τ → υ → Prop) (s : Client γ τ) (t : Client δ υ) :
    Prop where
  pools : List.Forall₂ (ShmDoubleBuffer.Alike R) s.pools t.pools
  shm : s.shm = t.shm
  tools : S s.tools t.tools
  frames : List.Forall₂ (DrawnBuffer.Alike R) s.frames t.frames
  panicked : s.panicked = t.panicked

/-- Two closures do related things to buffers and tools that are related, for pictures of an
addressable size. -/
def Lockstep (R : γ → δ → Prop) (S : τ → υ → Prop) (Made : Picture → ℕ → UInt32 → UInt32 → Prop)
    (paint : Picture → γ → τ → Option (γ × τ)) (paint' : Picture → δ → υ → Option (δ × υ)) : Prop :=
  ∀ picture w h, ShmDoubleBuffer.Addressable w h → Made picture (4 * w.toNat) w h →
    ∀ pixels pixels' t u, R pixels pixels' → S t u →
      Option.Rel (fun r r' => R r.1 r'.1 ∧ S r.2 r'.2) (paint picture pixels t)
        (paint' picture pixels' u)

/-- Every pool has an addressable size, and its buffers have it, too. -/
def Client.Sized (s : Client γ τ) : Prop :=
  ∀ pool ∈ s.pools, ShmDoubleBuffer.Addressable pool.w pool.h ∧
    ∀ b ∈ pool.buffers, b.w = pool.w ∧ b.h = pool.h

variable [Inhabited γ] [Inhabited δ]

/-- **What is drawn with a closure** is what the closure makes of some buffer of the pool's size; the
sizes stay. -/
theorem ShmDoubleBuffer.drawWith_ok {me pool : ShmDoubleBuffer γ} {shm shm' : Shm}
    {paint : γ → ℕ → UInt32 → UInt32 → Option (γ × τ)} {drawn : DrawnBuffer γ} {t : τ}
    (hme : ∀ b ∈ me.buffers, b.w = me.w ∧ b.h = me.h)
    (hd : me.drawWith shm paint = some (.ok (pool, drawn, t), shm')) :
    (∃ pixels stride, paint pixels stride drawn.w drawn.h = some (drawn.pixels, t)) ∧
      pool.w = me.w ∧ pool.h = me.h ∧ ∀ b ∈ pool.buffers, b.w = pool.w ∧ b.h = pool.h := by
  rw [drawWith] at hd
  rcases me.findFreeOrGrow_cases shm with ⟨e, shm₁, herr, -⟩ | ⟨slot, shm₁, hok, hg, -⟩
  · rw [herr] at hd
    cases hd
  · rw [hok] at hd
    obtain ⟨r, hr, heq⟩ := Option.map_eq_some_iff.mp hd
    cases heq
    have hsize : ∀ b ∈ slot.pool.buffers, b.w = me.w ∧ b.h = me.h := by
      intro b hb
      rcases hg.mem hb with hb | rfl
      · exact hme b hb
      · exact ⟨rfl, rfl⟩
    refine ⟨⟨_, _, hr⟩, hg.w_eq, hg.h_eq, fun b hb => ?_⟩
    show b.w = slot.pool.w ∧ b.h = slot.pool.h
    rw [hg.w_eq, hg.h_eq]
    rcases List.mem_or_eq_of_mem_set hb with hb | rfl
    · exact hsize b hb
    · exact hsize (slot.pool.buffers.get slot.idx) (List.get_mem _ _)

namespace Client

variable {paint : Picture → γ → τ → Option (γ × τ)} {paint' : Picture → δ → υ → Option (δ × υ)}
  {Made : Picture → ℕ → UInt32 → UInt32 → Prop} {R : γ → δ → Prop} {S : τ → υ → Prop}
  {s : Client γ τ} {t : Client δ υ}

omit [Inhabited δ] in
theorem Sized.set (h : t.Sized) (i : ℕ) (pool : ShmDoubleBuffer δ)
    (hpool : ShmDoubleBuffer.Addressable pool.w pool.h ∧
      ∀ b ∈ pool.buffers, b.w = pool.w ∧ b.h = pool.h) {u : Client δ υ}
    (hu : u.pools = t.pools.set i pool) : u.Sized := by
  intro pool' hpool'
  rw [hu] at hpool'
  rcases List.mem_or_eq_of_mem_set hpool' with hold | rfl
  · exact h _ hold
  · exact hpool

/-- A draw keeps the sizes. -/
theorem Sized.draw (h : t.Sized) {i : ℕ} {pool : ShmDoubleBuffer δ} (hpool : t.pools[i]? = some pool)
    (picture : ℕ → UInt32 → UInt32 → Picture) : (t.draw paint' i pool picture).Sized := by
  obtain ⟨haddr, hsize⟩ := h pool (List.mem_of_getElem? hpool)
  rw [Client.draw]
  split
  next => exact h
  next => exact h
  next hd =>
    obtain ⟨-, hw, hh, hsize'⟩ := ShmDoubleBuffer.drawWith_ok hsize hd
    exact h.set i _ ⟨by rwa [hw, hh], hsize'⟩ rfl

/-- **An event keeps the sizes.** -/
theorem Sized.step (h : t.Sized) {e : ClientEvent Picture} (he : e.Proper Made) :
    (t.step paint' e).Sized := by
  cases e with
  | create w height =>
    rw [Client.step]
    split
    next => exact h
    next hnew =>
      obtain ⟨hw, hh, hs⟩ := ShmDoubleBuffer.new_ok hnew
      intro pool hpool
      rcases List.mem_append.mp hpool with hold | hnew'
      · exact h pool hold
      · rw [List.mem_singleton.mp hnew']
        exact ⟨by rw [hw, hh]; exact he, hs.size⟩
  | drop i => exact fun pool hpool => h pool (List.mem_of_mem_eraseIdx hpool)
  | draw i picture =>
    rw [Client.step]
    split
    next => exact h
    next hpool => exact h.draw hpool picture
  | resize i w height =>
    rw [Client.step]
    split
    next => exact h
    next pool hpool =>
      refine h.set i _ ?_ rfl
      by_cases heq : w = pool.w ∧ height = pool.h
      · rw [pool.resize_same t.shm heq]
        exact h pool (List.mem_of_getElem? hpool)
      · obtain ⟨r, pool', shm', hres, hw, hh, hs, -, -⟩ := pool.exists_resize t.shm heq
        rw [hres]
        exact ⟨by rw [hw, hh]; exact he, hs.size⟩
  | release i wlBuf =>
    rw [Client.step]
    split
    next => exact h
    next pool hpool =>
      obtain ⟨haddr, hsize⟩ := h pool (List.mem_of_getElem? hpool)
      have hsize' := ShmDoubleBuffer.markReleased_size hsize wlBuf
      exact h.set i (pool.markReleased wlBuf) ⟨haddr, hsize'⟩ rfl

omit [Inhabited γ] [Inhabited δ] in
/-- The pool at `i` of two alike clients. -/
theorem Alike.pool_cases (h : s.Alike R S t) (i : ℕ) :
    s.pools[i]? = none ∧ t.pools[i]? = none ∨
      ∃ me you, s.pools[i]? = some me ∧ t.pools[i]? = some you ∧ me.Alike R you := by
  have hlength := h.pools.length_eq
  by_cases hi : i < s.pools.length
  · have hi' : i < t.pools.length := hlength ▸ hi
    exact .inr ⟨_, _, List.getElem?_eq_getElem hi, List.getElem?_eq_getElem hi',
      h.pools.get hi hi'⟩
  · exact .inl ⟨List.getElem?_eq_none (by omega), List.getElem?_eq_none (by omega)⟩

variable (hdefault : R default default) (hpaint : Lockstep R S Made paint paint')
include hdefault hpaint

/-- **Alike clients draw alike.** -/
theorem Alike.draw (h : s.Alike R S t) (i : ℕ) {me : ShmDoubleBuffer γ} {you : ShmDoubleBuffer δ}
    (hpool : me.Alike R you) (haddr : ShmDoubleBuffer.Addressable you.w you.h)
    (hsize : ∀ b ∈ you.buffers, b.w = you.w ∧ b.h = you.h)
    {picture : ℕ → UInt32 → UInt32 → Picture}
    (hmade : ∀ stride w h, Made (picture stride w h) stride w h) :
    (s.draw paint i me picture).Alike R S (t.draw paint' i you picture) := by
  have hstride := ShmDoubleBuffer.toNat_mul_four (haddr.1.trans (by decide))
  have hdrawn : Option.Rel
      (Same fun r r' => r.1.Alike R r'.1 ∧ r.2.1.Alike R r'.2.1 ∧ S r.2.2 r'.2.2)
      (me.drawWith s.shm fun pixels stride w h => paint (picture stride w h) pixels s.tools)
      (you.drawWith s.shm fun pixels stride w h => paint' (picture stride w h) pixels t.tools) := by
    refine hpool.drawWith hdefault hsize s.shm fun pixels pixels' hR => ?_
    rw [hstride]
    exact hpaint _ _ _ haddr (hmade _ _ _) _ _ _ _ hR h.tools
  rw [Client.draw, Client.draw, ← h.shm]
  generalize me.drawWith s.shm _ = mine at hdrawn ⊢
  generalize you.drawWith s.shm _ = yours at hdrawn ⊢
  cases hdrawn with
  | none => exact ⟨h.pools, rfl, h.tools, h.frames, rfl⟩
  | some hsame =>
    cases hsame with
    | error e shm => exact ⟨h.pools, rfl, h.tools, h.frames, h.panicked⟩
    | ok shm hr =>
      obtain ⟨hpool', hframe, htools⟩ := hr
      exact ⟨forall₂_set h.pools i hpool', rfl, htools,
        List.rel_append h.frames (.cons hframe .nil), h.panicked⟩

/-- **Alike clients stay alike**, event after event. -/
theorem Alike.step (h : s.Alike R S t) (ht : t.Sized) {e : ClientEvent Picture}
    (he : e.Proper Made) : (s.step paint e).Alike R S (t.step paint' e) := by
  cases e with
  | create w height =>
    have hnew := ShmDoubleBuffer.Alike.new hdefault s.shm w height
    rw [Client.step, Client.step, ← h.shm]
    generalize (ShmDoubleBuffer.new s.shm w height :
      Except ClientError (ShmDoubleBuffer γ) × Shm) = mine at hnew ⊢
    generalize (ShmDoubleBuffer.new s.shm w height :
      Except ClientError (ShmDoubleBuffer δ) × Shm) = yours at hnew ⊢
    cases hnew with
    | error e shm => exact ⟨h.pools, rfl, h.tools, h.frames, h.panicked⟩
    | ok shm hpool =>
      exact ⟨List.rel_append h.pools (.cons hpool .nil), rfl, h.tools, h.frames, h.panicked⟩
  | drop i => exact ⟨forall₂_eraseIdx h.pools i, h.shm, h.tools, h.frames, h.panicked⟩
  | draw i picture =>
    rw [Client.step, Client.step]
    rcases h.pool_cases i with ⟨hs, ht'⟩ | ⟨me, you, hs, ht', hpool⟩
    · rw [hs, ht']
      exact h
    · rw [hs, ht']
      obtain ⟨haddr, hsize⟩ := ht you (List.mem_of_getElem? ht')
      exact h.draw hdefault hpaint i hpool haddr hsize he
  | resize i w height =>
    rw [Client.step, Client.step]
    rcases h.pool_cases i with ⟨hs, ht'⟩ | ⟨me, you, hs, ht', hpool⟩
    · rw [hs, ht']
      exact h
    · rw [hs, ht', ← h.shm]
      obtain ⟨hpool', hshm⟩ := hpool.resize hdefault s.shm w height
      exact ⟨forall₂_set h.pools i hpool', hshm, h.tools, h.frames, h.panicked⟩
  | release i wlBuf =>
    rw [Client.step, Client.step]
    rcases h.pool_cases i with ⟨hs, ht'⟩ | ⟨me, you, hs, ht', hpool⟩
    · rw [hs, ht']
      exact h
    · rw [hs, ht']
      exact ⟨forall₂_set h.pools i (hpool.markReleased wlBuf), h.shm, h.tools, h.frames,
        h.panicked⟩

/-- **Alike clients stay alike** in a whole run, and what one can do the other can. -/
theorem Alike.run (h : s.Alike R S t) (ht : t.Sized) {tools : τ} (tools' : υ)
    {es : List (ClientEvent Picture)} (hl : (client paint Made tools).Legal s es) :
    (client paint' Made tools').Legal t es ∧
      ((client paint Made tools).run s es).Alike R S ((client paint' Made tools').run t es) := by
  induction es generalizing s t with
  | nil => exact ⟨trivial, h⟩
  | cons e es ih =>
    obtain ⟨⟨hpanicked, he⟩, hrest⟩ := hl
    have hstep := h.step hdefault hpaint ht he
    obtain ⟨hlegal, hrun⟩ := ih hstep (ht.step he) hrest
    exact ⟨⟨⟨h.panicked ▸ hpanicked, he⟩, hlegal⟩, hrun⟩

end Client

end

end Wlcommon

end Nullxes
