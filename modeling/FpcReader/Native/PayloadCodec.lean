/-
**The capture payload under any flags.**

The flags decide which sections a payload has.  Without the flag for features nothing but the count
is written, and the loaded view has nothing else; with it the header, the levels and the selected
arrays come back.  The loader accepts no bytes but those that the writer produces from what it
loads.

Main definitions:

* `Fpc.CapturePayloadView.reloaded` — what loading a written view gives back.

Main results:

* `Fpc.capturePayload_reloaded` — a written view loads back;
* `Fpc.captureLoadPayload_written` — loaded bytes are written back;
* `Fpc.capturePayload_codec` — **both directions, for all flags**.
-/

import FpcReader.Native.Canonical

set_option relaxedAutoImplicit false
set_option autoImplicit false

namespace Fpc

open Bytes Fallible

/-- What loading a written view gives back; without the flag for features that is the count. -/
def CapturePayloadView.reloaded (view : CapturePayloadView) (flags : UInt16) (fresh : ℕ) :
    LoadedCapture :=
  if hasFlag flags 0x400 then ⟨view.selected flags, some fresh⟩
  else ⟨CapturePayloadView.bare view.count, none⟩

section Codec

variable {flags : UInt16}

/-- Without the flag for features the count is written. -/
theorem capturePayload_bare (hflag : hasFlag flags 0x400 = false) {view : CapturePayloadView}
    (hcount : view.count ≤ 32767) :
    capturePayloadSize view flags = .ok 4 ∧
      ∀ capacity, 4 ≤ capacity →
        capturePayload view flags capacity = .ok (storeLe32 view.count) := by
  have hsize : capturePayloadSize view flags = .ok 4 := by
    rw [capturePayloadSize, if_neg (not_lt.2 hcount), hflag]
    rfl
  refine ⟨hsize, ?_⟩
  intro capacity hcapacity
  rw [capturePayload, hsize, ok_bind, if_neg (not_lt.2 hcapacity), hflag]
  rfl

/-- And the count is loaded. -/
theorem captureLoadPayload_bare (hflag : hasFlag flags 0x400 = false) {n : ℕ} (hn : n ≤ 32767)
    (fresh : ℕ) :
    captureLoadPayload (storeLe32 n) flags fresh = .ok ⟨CapturePayloadView.bare n, none⟩ := by
  have hlength := storeLe32_length n
  have hload : loadLe32 (storeLe32 n) 0 = .ok (BitVec.ofNat 32 n) := by
    have hword : n < 2 ^ 32 := by omega
    have := loadLe32_append [] [] hword
    rwa [List.nil_append, List.append_nil] at this
  have htoNat : (BitVec.ofNat 32 n).toNat = n := by
    rw [BitVec.toNat_ofNat, Nat.mod_eq_of_lt (by omega)]
  rw [captureLoadPayload, if_neg (by omega), hload, ok_bind]
  simp only [htoNat]
  rw [if_neg (not_lt.2 hn), hflag, if_pos (by simp), if_neg (by simp [hlength])]

/-- **A written view loads back**, and takes as many bytes as announced. -/
theorem capturePayload_reloaded {view : CapturePayloadView} (hcount : view.count ≤ 32767)
    (hfits : hasFlag flags 0x400 = true → view.Fits flags) (fresh : ℕ) :
    ∃ size bytes, capturePayloadSize view flags = .ok size ∧ bytes.length = size ∧
      (∀ capacity, size ≤ capacity → capturePayload view flags capacity = .ok bytes) ∧
      captureLoadPayload bytes flags fresh = .ok (view.reloaded flags fresh) := by
  cases hflag : hasFlag flags 0x400 with
  | false =>
      obtain ⟨hsize, hwrite⟩ := capturePayload_bare hflag hcount
      refine ⟨4, storeLe32 view.count, hsize, storeLe32_length _, hwrite, ?_⟩
      rw [captureLoadPayload_bare hflag hcount, CapturePayloadView.reloaded, hflag]
      rfl
  | true =>
      have hview := hfits hflag
      refine ⟨8 + (view.sizes flags).total, payloadBytes view flags,
        capturePayloadSize_eq hview hflag, payloadBytes_length hview, ?_, ?_⟩
      · intro capacity hcapacity
        exact capturePayload_eq hview hflag hcapacity
      · rw [captureLoadPayload_payloadBytes hview hflag, CapturePayloadView.reloaded, hflag]
        rfl

/-- **Loaded bytes are written back**, under the flags they were loaded with. -/
theorem captureLoadPayload_written {data : List UInt8} {fresh : ℕ} {loaded : LoadedCapture}
    (h : captureLoadPayload data flags fresh = .ok loaded) :
    capturePayloadSize loaded.view flags = .ok data.length ∧
      ∀ capacity, data.length ≤ capacity →
        capturePayload loaded.view flags capacity = .ok data := by
  cases hflag : hasFlag flags 0x400 with
  | false =>
      rw [captureLoadPayload] at h
      by_cases hshort : data.length < 4
      · rw [if_pos hshort] at h
        cases h
      rw [if_neg hshort, bind_eq_ok] at h
      obtain ⟨count, hload, h⟩ := h
      simp only [hflag, Bool.not_false, if_true] at h
      split_ifs at h with hmany hlength
      obtain rfl := Except.ok.inj h
      have hcount : (CapturePayloadView.bare count.toNat).count ≤ 32767 := not_lt.1 hmany
      obtain ⟨hsize, hwrite⟩ := capturePayload_bare hflag hcount
      have hdata : storeLe32 count.toNat = data := by
        have hbytes := (loadLe32_eq_ok hload).2
        rw [List.drop_zero, List.take_of_length_le (not_not.1 hlength).le] at hbytes
        exact hbytes.symm
      rw [not_not.1 hlength]
      refine ⟨hsize, ?_⟩
      intro capacity hcapacity
      rw [hwrite capacity hcapacity]
      exact congrArg Except.ok hdata
  | true =>
      have hview := (captureLoadPayload_fits hflag h).1
      have hdata := captureLoadPayload_bytes hflag h
      have hlength := payloadBytes_length hview
      rw [hdata] at hlength
      rw [hlength]
      refine ⟨capturePayloadSize_eq hview hflag, ?_⟩
      intro capacity hcapacity
      rw [capturePayload_eq hview hflag hcapacity, hdata]

end Codec

/-- **The codec under all flags.**  The size query announces the bytes that are written, the loader
accepts them and gives back what the flags select, and it accepts nothing that would not be written
again in the same way. -/
theorem capturePayload_codec (flags : UInt16) (fresh : ℕ) :
    (∀ view : CapturePayloadView, view.count ≤ 32767 →
      (hasFlag flags 0x400 = true → view.Fits flags) →
        ∃ size bytes, capturePayloadSize view flags = .ok size ∧ bytes.length = size ∧
          (∀ capacity, size ≤ capacity → capturePayload view flags capacity = .ok bytes) ∧
          captureLoadPayload bytes flags fresh = .ok (view.reloaded flags fresh)) ∧
    ∀ data loaded, captureLoadPayload data flags fresh = .ok loaded →
      capturePayloadSize loaded.view flags = .ok data.length ∧
        ∀ capacity, data.length ≤ capacity →
          capturePayload loaded.view flags capacity = .ok data :=
  ⟨fun _ hcount hfits => capturePayload_reloaded hcount hfits fresh,
    fun _ _ h => captureLoadPayload_written h⟩

/-- One feature on one level, with wide coordinates, a score and an angle. -/
def scoredView : CapturePayloadView :=
  { CapturePayloadView.bare 1 with
    mode := 2
    levels := 1
    levelFields := some [1, 0, 0, 0, 0]
    coordinates := some [7, 9]
    scores := some [5]
    angles := some [3] }

theorem capturePayload_codec_scored :
    ∃ size bytes, capturePayloadSize scoredView 0x406 = .ok size ∧ bytes.length = size ∧
      (∀ capacity, size ≤ capacity → capturePayload scoredView 0x406 capacity = .ok bytes) ∧
      captureLoadPayload bytes 0x406 0 = .ok (scoredView.reloaded 0x406 0) :=
  (capturePayload_codec 0x406 0).1 scoredView (by decide) fun _ =>
    ⟨by decide, by decide, by decide, by decide, by decide, by decide, by decide, by decide,
      by decide, by decide, by decide⟩

/-- Without the flag for features the mode is lost, and so is everything else but the count. -/
theorem capturePayload_forgets_mode :
    scoredView.Fits 0 ∧
      capturePayload scoredView 0 4 = .ok [1, 0, 0, 0] ∧
      ∃ loaded, captureLoadPayload [1, 0, 0, 0] 0 0 = .ok loaded ∧
        loaded.view.count = scoredView.count ∧ loaded.view.mode ≠ scoredView.mode ∧
        loaded.view.levels ≠ scoredView.levels ∧
        loaded.view.coordinates ≠ scoredView.coordinates :=
  ⟨⟨by decide, by decide, by decide, by decide, by decide, by decide, by decide, by decide,
      by decide, by decide, by decide⟩,
    rfl, ⟨CapturePayloadView.bare 1, none⟩, rfl, rfl, by decide, by decide, by decide⟩

end Fpc
