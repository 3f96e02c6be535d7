import Nullxes.Library.Radix
import Nullxes.Wlcommon.Pixels

/-!
# The accent

`theme/src/config.rs` and `Color::from_hex` of `color.rs`. The accent is documented as an `RRGGBB`
string and read as a number in radix 16, of which the lower three bytes are taken. So a sign, fewer
digits, up to eight of them and leading zeros are accepted too, and give some colour.

## Main definitions

* `Theme.accent` — the accent colour
* `rrggbb` — the documented format
* `Readable`, `EndsInPlatinum` — what is read as a number, and what of it is the default anyway

## Main results

* `accent_eq_iff` — the strings that give what is documented
* `not_rrggbb` — three digits
-/

namespace Nullxes

open Wlcommon Radix

/-- `Theme`. -/
structure Theme where
  accentHex : String
  deriving DecidableEq, Repr

namespace Theme

/-- `Color::from_hex`: a channel is a byte out of 255, which `to_u8` makes of it again. -/
def fromHex (hex : UInt32) : Color :=
  .rgb ((hex >>> 16) &&& 0xFF).toUInt8 ((hex >>> 8) &&& 0xFF).toUInt8 (hex &&& 0xFF).toUInt8

/-- `Theme::default`. -/
def default : Theme := ⟨"C0C0C0"⟩

/-- `Theme::accent`. -/
def accent (me : Theme) : Color :=
  fromHex (UInt32.ofNat ((fromStrRadix UInt32.size 16 me.accentHex.toList).getD 0xC0C0C0))

/-! ## The documented format -/

/-- The default. -/
def platinum : Color := .rgb 0xC0 0xC0 0xC0

/-- A channel, by its two digits. -/
def channel (c d : Char) : Option UInt8 :=
  (toDigit c 16).bind fun x => (toDigit d 16).map fun y => UInt8.ofNat (16 * x + y)

/-- The colour that six digits stand for. -/
def rrggbb : List Char → Option Color
  | [r₁, r₂, g₁, g₂, b₁, b₂] =>
    (channel r₁ r₂).bind fun r => (channel g₁ g₂).bind fun g => (channel b₁ b₂).map fun b =>
      .rgb r g b
  | _ => none

/-- Exactly six digits. -/
def SixDigits (cs : List Char) : Prop :=
  cs.length = 6 ∧ ∀ c ∈ cs, (toDigit c 16).isSome = true

/-- An optional plus sign and at least one digit, and no more than eight after leading zeros. -/
def Readable (cs : List Char) : Prop :=
  unsigned cs ≠ [] ∧ (∀ c ∈ unsigned cs, (toDigit c 16).isSome = true) ∧
    ((unsigned cs).dropWhile fun c => c = '0').length ≤ 8

/-- The last six characters are `C0C0C0`, in any case. -/
def EndsInPlatinum (cs : List Char) : Prop :=
  ∃ pre : List Char, ∃ c₁ ∈ ['c', 'C'], ∃ c₂ ∈ ['c', 'C'], ∃ c₃ ∈ ['c', 'C'],
    cs = pre ++ [c₁, '0', c₂, '0', c₃, '0']

/-! ## Channels -/

theorem toNat_mask (v : UInt32) : (v &&& 0xFF).toUInt8.toNat = v.toNat % 256 := by
  have hand : (v &&& 0xFF).toNat = v.toNat % 256 := by
    rw [UInt32.toNat_and]
    exact Nat.and_two_pow_sub_one_eq_mod v.toNat 8
  rw [UInt32.toNat_toUInt8, hand, Nat.mod_mod_of_dvd _ (Nat.dvd_refl 256)]

theorem ofNat_congr {m k : ℕ} (h : m % 256 = k % 256) : UInt8.ofNat m = UInt8.ofNat k := by
  rw [← UInt8.toNat_inj, UInt8.toNat_ofNat', UInt8.toNat_ofNat']
  exact h

/-- The three lower bytes of a number. -/
theorem fromHex_ofNat {v : ℕ} (h : v < UInt32.size) :
    fromHex (UInt32.ofNat v) =
      .rgb (UInt8.ofNat (v / 65536)) (UInt8.ofNat (v / 256)) (UInt8.ofNat v) := by
  have hv : (UInt32.ofNat v).toNat = v := UInt32.toNat_ofNat_of_lt' h
  have hbyte : ∀ (w : UInt32) (m : ℕ), w.toNat = m → (w &&& 0xFF).toUInt8 = UInt8.ofNat m := by
    intro w m hw
    refine UInt8.toNat_inj.mp ?_
    rw [toNat_mask, hw]
    exact (UInt8.toNat_ofNat' ..).symm
  have hr : (UInt32.ofNat v >>> 16).toNat = v / 65536 := by
    rw [UInt32.toNat_shiftRight, hv]
    exact Nat.shiftRight_eq_div_pow v 16
  have hg : (UInt32.ofNat v >>> 8).toNat = v / 256 := by
    rw [UInt32.toNat_shiftRight, hv]
    exact Nat.shiftRight_eq_div_pow v 8
  rw [fromHex, hbyte _ _ hr, hbyte _ _ hg, hbyte _ _ hv]

/-- A number whose lower bytes are the default. -/
theorem fromHex_eq_platinum_iff {v : ℕ} (h : v < UInt32.size) :
    fromHex (UInt32.ofNat v) = platinum ↔ v % 16 ^ 6 = 12632256 := by
  have hbyte : ∀ m : ℕ, UInt8.ofNat m = 0xC0 ↔ m % 256 = 192 := by
    intro m
    rw [← UInt8.toNat_inj]
    exact Iff.rfl
  rw [fromHex_ofNat h, platinum, Color.rgb, Color.rgb, Color.mk.injEq, hbyte, hbyte, hbyte,
    eq_self_iff_true, and_true]
  omega

/-! ## Six digits -/

theorem digit_eq {c : Char} {d : ℕ} (h : toDigit c 16 = some d) : digit 16 c = d := by
  rw [digit, h, Option.getD_some]

theorem channel_eq_some {c d : Char} (hc : (toDigit c 16).isSome = true)
    (hd : (toDigit d 16).isSome = true) :
    channel c d = some (UInt8.ofNat (16 * digit 16 c + digit 16 d)) := by
  obtain ⟨x, hx⟩ := Option.isSome_iff_exists.mp hc
  obtain ⟨y, hy⟩ := Option.isSome_iff_exists.mp hd
  rw [channel, hx, hy, digit_eq hx, digit_eq hy]
  rfl

theorem exists_six {α : Type} {l : List α} (h : l.length = 6) :
    ∃ a b c d e f, l = [a, b, c, d, e, f] := by
  obtain ⟨a, l, rfl⟩ := List.exists_cons_of_length_eq_add_one h
  obtain ⟨b, l, rfl⟩ := List.exists_cons_of_length_eq_add_one (Nat.succ.inj h)
  obtain ⟨c, l, rfl⟩ := List.exists_cons_of_length_eq_add_one (Nat.succ.inj (Nat.succ.inj h))
  have hthree : l.length = 3 := Nat.succ.inj (Nat.succ.inj (Nat.succ.inj h))
  obtain ⟨d, l, rfl⟩ := List.exists_cons_of_length_eq_add_one hthree
  obtain ⟨e, l, rfl⟩ := List.exists_cons_of_length_eq_add_one (Nat.succ.inj hthree)
  obtain ⟨f, rfl⟩ := List.length_eq_one_iff.mp (Nat.succ.inj (Nat.succ.inj hthree))
  exact ⟨a, b, c, d, e, f, rfl⟩

theorem value_six (a b c d e f : Char) :
    value 16 [a, b, c, d, e, f] = 1048576 * digit 16 a + 65536 * digit 16 b + 4096 * digit 16 c +
      256 * digit 16 d + 16 * digit 16 e + digit 16 f := by
  simp only [value_cons, List.length_cons, List.length_nil]
  have hnil : value 16 [] = 0 := rfl
  rw [hnil]
  omega

/-- **Six digits are read channel by channel.** -/
theorem rrggbb_of_sixDigits {cs : List Char} (h : SixDigits cs) :
    rrggbb cs = some (fromHex (UInt32.ofNat (value 16 cs))) := by
  obtain ⟨hlength, hdigits⟩ := h
  obtain ⟨a, b, c, d, e, f, rfl⟩ := exists_six hlength
  have hfits : value 16 [a, b, c, d, e, f] < UInt32.size :=
    (value_lt_pow (by decide) [a, b, c, d, e, f]).trans (by decide : 16 ^ 6 < UInt32.size)
  have hsome : ∀ x ∈ [a, b, c, d, e, f], (toDigit x 16).isSome = true := hdigits
  simp only [List.forall_mem_cons] at hsome
  obtain ⟨ha, hb, hc, hd, he, hf, -⟩ := hsome
  rw [fromHex_ofNat hfits, rrggbb, channel_eq_some ha hb, channel_eq_some hc hd,
    channel_eq_some he hf, value_six]
  have hlt : ∀ x, digit 16 x < 16 := digit_lt (by omega)
  have hb' := hlt b
  have hc' := hlt c
  have hd' := hlt d
  have he' := hlt e
  have hf' := hlt f
  generalize hv : 1048576 * digit 16 a + 65536 * digit 16 b + 4096 * digit 16 c +
    256 * digit 16 d + 16 * digit 16 e + digit 16 f = v
  have hred : UInt8.ofNat (16 * digit 16 a + digit 16 b) = UInt8.ofNat (v / 65536) :=
    ofNat_congr (by omega)
  have hgreen : UInt8.ofNat (16 * digit 16 c + digit 16 d) = UInt8.ofNat (v / 256) :=
    ofNat_congr (by omega)
  have hblue : UInt8.ofNat (16 * digit 16 e + digit 16 f) = UInt8.ofNat v :=
    ofNat_congr (by omega)
  rw [hred, hgreen, hblue]
  rfl

theorem isSome_of_channel {c d : Char} {v : UInt8} (h : channel c d = some v) :
    (toDigit c 16).isSome = true ∧ (toDigit d 16).isSome = true := by
  obtain ⟨x, hx, hrest⟩ := Option.bind_eq_some_iff.mp h
  obtain ⟨y, hy, -⟩ := Option.map_eq_some_iff.mp hrest
  exact ⟨Option.isSome_of_eq_some hx, Option.isSome_of_eq_some hy⟩

/-- Nothing else has the documented format. -/
theorem rrggbb_of_not_sixDigits {cs : List Char} (h : ¬ SixDigits cs) : rrggbb cs = none := by
  rw [rrggbb.eq_def]
  split
  next r₁ r₂ g₁ g₂ b₁ b₂ =>
    refine Option.eq_none_iff_forall_not_mem.mpr fun color hcolor => h ?_
    obtain ⟨r, hr, hrest⟩ := Option.bind_eq_some_iff.mp hcolor
    obtain ⟨g, hg, hrest⟩ := Option.bind_eq_some_iff.mp hrest
    obtain ⟨b, hb, -⟩ := Option.map_eq_some_iff.mp hrest
    refine ⟨rfl, ?_⟩
    simp only [List.forall_mem_cons]
    exact ⟨(isSome_of_channel hr).1, (isSome_of_channel hr).2, (isSome_of_channel hg).1,
      (isSome_of_channel hg).2, (isSome_of_channel hb).1, (isSome_of_channel hb).2,
      List.forall_mem_nil _⟩
  next => rfl

/-! ## What is read -/

theorem unsigned_of_sixDigits {cs : List Char} (h : SixDigits cs) : unsigned cs = cs := by
  rw [unsigned.eq_def]
  split
  next digits =>
    have hplus := h.2 '+' List.mem_cons_self
    exact absurd hplus (by decide)
  next => rfl

/-- What is read, and as which number. -/
theorem fromStrRadix_of_readable {cs : List Char} (h : Readable cs) :
    fromStrRadix UInt32.size 16 cs = some (value 16 (unsigned cs)) ∧
      value 16 (unsigned cs) < UInt32.size := by
  obtain ⟨hne, hdigits, hlength⟩ := h
  have hlt := (value_lt_pow_iff (by omega) hdigits 8).mpr hlength
  exact ⟨(fromStrRadix_eq_some_iff (by omega) (by decide)).mpr ⟨hne, hdigits, rfl, hlt⟩, hlt⟩

theorem fromStrRadix_of_not_readable {cs : List Char} (h : ¬ Readable cs) :
    fromStrRadix UInt32.size 16 cs = none := by
  refine Option.eq_none_iff_forall_not_mem.mpr fun v hv => h ?_
  obtain ⟨hne, hdigits, hvalue, hlt⟩ :=
    (fromStrRadix_eq_some_iff (by omega) (by decide)).mp hv
  rw [← hvalue] at hlt
  exact ⟨hne, hdigits, (value_lt_pow_iff (by omega) hdigits 8).mp hlt⟩

theorem readable_of_sixDigits {cs : List Char} (h : SixDigits cs) : Readable cs := by
  rw [Readable, unsigned_of_sixDigits h]
  refine ⟨?_, h.2, ?_⟩
  · rintro rfl
    exact absurd h.1 (by decide)
  · refine (List.dropWhile_suffix _).length_le.trans ?_
    rw [h.1]
    omega

/-! ## The default, in digits -/

theorem charValue_eq_twelve_iff {c : Char} : charValue c = 12 ↔ c ∈ ['c', 'C'] := by
  have hcodes : 'a'.toNat = 97 ∧ 'A'.toNat = 65 ∧ 'c'.toNat = 99 ∧ 'C'.toNat = 67 := by decide
  rw [charValue_eq_iff (by omega), List.mem_cons, List.mem_singleton, ← Char.toNat_inj,
    ← Char.toNat_inj]
  omega

theorem digit_of_isSome {c : Char} (h : (toDigit c 16).isSome = true) :
    digit 16 c = charValue c := by
  obtain ⟨d, hd⟩ := Option.isSome_iff_exists.mp h
  rw [digit_eq hd, (toDigit_eq_some_iff.mp hd).1]

/-- Six digits that stand for the default. -/
theorem value_eq_platinum_iff {a b c d e f : Char}
    (h : ∀ x ∈ [a, b, c, d, e, f], (toDigit x 16).isSome = true) :
    value 16 [a, b, c, d, e, f] = 12632256 ↔
      (a ∈ ['c', 'C'] ∧ b = '0') ∧ (c ∈ ['c', 'C'] ∧ d = '0') ∧ e ∈ ['c', 'C'] ∧ f = '0' := by
  simp only [List.forall_mem_cons] at h
  obtain ⟨ha, hb, hc, hd, he, hf, -⟩ := h
  have hlt : ∀ x, digit 16 x < 16 := digit_lt (by omega)
  have ha' := hlt a
  have hb' := hlt b
  have hc' := hlt c
  have hd' := hlt d
  have he' := hlt e
  have hf' := hlt f
  rw [value_six, ← charValue_eq_twelve_iff, ← charValue_eq_twelve_iff, ← charValue_eq_twelve_iff,
    ← charValue_eq_zero_iff, ← charValue_eq_zero_iff, ← charValue_eq_zero_iff, ← digit_of_isSome ha,
    ← digit_of_isSome hb, ← digit_of_isSome hc, ← digit_of_isSome hd, ← digit_of_isSome he,
    ← digit_of_isSome hf]
  omega

/-- **The lower six digits of a number**, if it has six. -/
theorem value_mod_eq_platinum_iff {cs : List Char}
    (h : ∀ x ∈ cs, (toDigit x 16).isSome = true) :
    value 16 cs % 16 ^ 6 = 12632256 ↔ EndsInPlatinum cs := by
  by_cases hshort : cs.length < 6
  · refine iff_of_false (fun hv => ?_) fun hends => ?_
    · have hlt := value_lt_pow (by omega : 0 < 16) cs
      have hpow : 16 ^ cs.length ≤ 16 ^ 5 := Nat.pow_le_pow_right (by omega) (by omega)
      omega
    · obtain ⟨pre, c₁, -, c₂, -, c₃, -, rfl⟩ := hends
      rw [List.length_append] at hshort
      exact absurd hshort (by simp)
  · have hlength : (cs.drop (cs.length - 6)).length = 6 := by
      rw [List.length_drop]
      omega
    obtain ⟨a, b, c, d, e, f, hlast⟩ := exists_six hlength
    have hsplit : cs = cs.take (cs.length - 6) ++ [a, b, c, d, e, f] := by
      rw [← hlast, List.take_append_drop]
    have hdigits : ∀ x ∈ [a, b, c, d, e, f], (toDigit x 16).isSome = true := fun x hx =>
      h x (List.mem_of_mem_drop (hlast ▸ hx))
    have hmod := value_append_mod (by omega : 0 < 16) (cs.take (cs.length - 6)) [a, b, c, d, e, f]
    rw [← hsplit] at hmod
    have hlower : value 16 cs % 16 ^ 6 = value 16 [a, b, c, d, e, f] := hmod
    rw [hlower, value_eq_platinum_iff hdigits]
    constructor
    · rintro ⟨⟨ha, rfl⟩, ⟨hc, rfl⟩, he, rfl⟩
      exact ⟨_, a, ha, c, hc, e, he, hsplit⟩
    · rintro ⟨pre, c₁, h₁, c₂, h₂, c₃, h₃, hends⟩
      rw [hsplit] at hends
      obtain ⟨-, hsix⟩ := List.append_inj' hends rfl
      simp only [List.cons.injEq, and_true] at hsix
      obtain ⟨rfl, rfl, rfl, rfl, rfl, rfl⟩ := hsix
      exact ⟨⟨h₁, rfl⟩, ⟨h₂, rfl⟩, h₃, rfl⟩

/-- A sign does not count. -/
theorem endsInPlatinum_unsigned_iff (cs : List Char) :
    EndsInPlatinum (unsigned cs) ↔ EndsInPlatinum cs := by
  rw [unsigned.eq_def]
  split
  next digits =>
    constructor
    · rintro ⟨pre, c₁, h₁, c₂, h₂, c₃, h₃, rfl⟩
      exact ⟨'+' :: pre, c₁, h₁, c₂, h₂, c₃, h₃, rfl⟩
    · rintro ⟨pre, c₁, h₁, c₂, h₂, c₃, h₃, hcs⟩
      cases pre with
      | nil =>
        obtain rfl := (List.cons.inj hcs).1
        exact absurd h₁ (by decide)
      | cons c pre => exact ⟨pre, c₁, h₁, c₂, h₂, c₃, h₃, (List.cons.inj hcs).2⟩
  next => exact Iff.rfl

/-! ## The accent -/

/-- **When the accent is what is documented**: the colour of six digits, and else the default. -/
theorem accent_eq_iff (s : String) :
    (Theme.mk s).accent = (rrggbb s.toList).getD platinum ↔
      SixDigits s.toList ∨ ¬ Readable s.toList ∨ EndsInPlatinum s.toList := by
  have haccent : (Theme.mk s).accent = fromHex (UInt32.ofNat
      ((fromStrRadix UInt32.size 16 s.toList).getD 0xC0C0C0)) := rfl
  rw [haccent]
  by_cases hsix : SixDigits s.toList
  · have hread := (fromStrRadix_of_readable (readable_of_sixDigits hsix)).1
    rw [unsigned_of_sixDigits hsix] at hread
    refine iff_of_true ?_ (.inl hsix)
    rw [hread, rrggbb_of_sixDigits hsix, Option.getD_some, Option.getD_some]
  rw [rrggbb_of_not_sixDigits hsix, Option.getD_none]
  by_cases hread : Readable s.toList
  · obtain ⟨hsome, hlt⟩ := fromStrRadix_of_readable hread
    rw [hsome, Option.getD_some, fromHex_eq_platinum_iff hlt,
      value_mod_eq_platinum_iff hread.2.1, endsInPlatinum_unsigned_iff]
    exact ⟨fun h => .inr (.inr h), fun h =>
      (h.resolve_left hsix).resolve_left (not_not_intro hread)⟩
  · refine iff_of_true ?_ (.inr (.inl hread))
    rw [fromStrRadix_of_not_readable hread, Option.getD_none]
    rfl

/-- The default is read as such. -/
example : default.accent = platinum := by decide

/-- **Three digits give a blue**, where the default is documented. -/
theorem not_rrggbb :
    (Theme.mk "FFF").accent = .rgb 0 0x0F 0xFF ∧ ¬ ∀ s : String,
      (Theme.mk s).accent = (rrggbb s.toList).getD platinum := by
  have hshort : (Theme.mk "FFF").accent = .rgb 0 0x0F 0xFF := by decide
  refine ⟨hshort, fun hall => ?_⟩
  exact absurd (hshort.symm.trans (hall "FFF")) (by decide)

end Theme

end Nullxes
