/- Unit: PscDigpid/Hdl/DigioLogic
   layer: model
   source: src/hw/hdl/digio_logic.vhd
   digest: Digital input and output of the supplies, and when an on command outlives its request. -/

import PscDigpid.Hdl.PscPkg
import PscDigpid.Hdl.PulseEnable

set_option autoImplicit false
set_option relaxedAutoImplicit false

namespace PscDigpid.Hdl.DigioLogic

open PscDigpid.Sync

/-- Input ports of `digio_logic`. -/
structure Ports where
  reset : Bool
  fault : FaultStat
  rsts : BitVec 20
  digCntrl : DigCntrl

/-- The four pulsed on commands, `chan1_on` to `chan4_on`. -/
abbrev Regs := PerChan PulseEnable.Regs

def powerUp : Regs := PerChan.of fun _ => PulseEnable.powerUp

/-- Ports of one channel's `pulse_enable`. -/
def chanOn (i : Ports) (c : Chan) : PulseEnable.Ports where
  reset := i.reset
  en := true
  enableIn := (i.digCntrl.get c).on1
  periodIn := 1000000#32

/-- One rising clock edge. -/
def step (s : Regs) (i : Ports) : Regs :=
  PerChan.of fun c => PulseEnable.step (s.get c) (chanOn i c)

/-- The signal `ps_on`. -/
def psOn (s : Regs) (i : Ports) (c : Chan) : Bool := PulseEnable.enOut (s.get c) (chanOn i c)

/-- Output port `rcom`, from bit 0 up. -/
def rcom (s : Regs) (i : Ports) : BitVec 20 :=
  BitVec.ofBoolListLE
    [ psOn s i .ps1 && !i.fault.ps1.fltTrig,
      i.digCntrl.ps1.on2, i.digCntrl.ps1.reset, i.digCntrl.ps1.spare,
      psOn s i .ps2 && !i.fault.ps2.fltTrig,
      i.digCntrl.ps2.on2, i.digCntrl.ps2.reset, i.digCntrl.ps2.spare,
      psOn s i .ps3 && !i.fault.ps3.fltTrig,
      i.digCntrl.ps3.on2, i.digCntrl.ps3.reset, i.digCntrl.ps3.spare,
      psOn s i .ps4 && !i.fault.ps4.fltTrig,
      i.digCntrl.ps4.on2, i.digCntrl.ps4.reset, i.digCntrl.ps4.spare,
      i.digCntrl.ps1.park, i.digCntrl.ps2.park, i.digCntrl.ps3.park, i.digCntrl.ps4.park ]

/-- Output port `dig_stat`. -/
def digStat (rsts : BitVec 20) : DigStat where
  ps1 := ⟨rsts.getLsbD 0, rsts.getLsbD 1, rsts.getLsbD 2, rsts.getLsbD 3, rsts.getLsbD 16⟩
  ps2 := ⟨rsts.getLsbD 4, rsts.getLsbD 5, rsts.getLsbD 6, rsts.getLsbD 7, rsts.getLsbD 17⟩
  ps3 := ⟨rsts.getLsbD 8, rsts.getLsbD 9, rsts.getLsbD 10, rsts.getLsbD 11, rsts.getLsbD 18⟩
  ps4 := ⟨rsts.getLsbD 12, rsts.getLsbD 13, rsts.getLsbD 14, rsts.getLsbD 15, rsts.getLsbD 19⟩

/-- The bit of `rcom` that carries a channel's on command. -/
def onBit : Chan → Nat
  | .ps1 => 0
  | .ps2 => 4
  | .ps3 => 8
  | .ps4 => 12

/-- The bit of `rcom` that carries a channel's park command. -/
def parkBit : Chan → Nat
  | .ps1 => 16
  | .ps2 => 17
  | .ps3 => 18
  | .ps4 => 19

theorem rcom_onBit (s : Regs) (i : Ports) (c : Chan) :
    (rcom s i).getLsbD (onBit c) = ((s.get c).chEnable && !(i.fault.get c).fltTrig) := by
  cases c <;> rw [rcom, BitVec.getLsbD_ofBoolListLE] <;> rfl

section Runs

variable (c : Chan) (inp : Nat → Ports)

/-- The last stretch of clocks at which a channel was requested on. -/
def onStretch (t : Nat) : PulseEnable.Stretch :=
  run PulseEnable.stretchStep ⟨false, 0⟩ (fun u => chanOn (inp u) c) t

/-- One channel's on command runs as a `pulse_enable` of its own. -/
theorem chan_run (t : Nat) : (run step powerUp inp t).get c =
    run PulseEnable.step PulseEnable.powerUp (fun u => chanOn (inp u) c) t := by
  have start : powerUp.get c = PulseEnable.powerUp := PerChan.get_of _ c
  rw [← start]
  exact run_project (fun s : Regs => s.get c) (fun _ i => chanOn i c)
    (fun u => PerChan.get_of _ c) t

/-- The output of one channel follows the last stretch of its request. -/
theorem follows_onStretch (t : Nat) :
    PulseEnable.Follows 1000000 ((run step powerUp inp t).get c) (onStretch c inp t) := by
  rw [chan_run]
  exact PulseEnable.follows_run (p := 1000000) (fun u => chanOn (inp u) c) (by decide)
    (fun _ => rfl) (fun _ => rfl) t

theorem onStretch_off {t : Nat} (off : ((inp t).digCntrl.get c).on1 = false) :
    (onStretch c inp (t + 1)).on = false := by
  have unrequested : (chanOn (inp t) c).enableIn = false := off
  rw [onStretch, run_succ, PulseEnable.stretchStep, unrequested]
  cases (chanOn (inp t) c).reset <;> rfl

theorem onStretch_never {t : Nat} (off : ∀ u, u < t → ((inp u).digCntrl.get c).on1 = false) :
    onStretch c inp t = ⟨false, 0⟩ := by
  induction t with
  | zero => rfl
  | succ t ih =>
      have unrequested : (chanOn (inp t) c).enableIn = false := off t (Nat.lt_succ_self t)
      rw [onStretch, run_succ, ← onStretch, ih fun u before => off u (Nat.lt_succ_of_lt before),
        PulseEnable.stretchStep, unrequested]
      cases (chanOn (inp t) c).reset <;> rfl

/-- A request that is on from clock `a` makes one stretch from there. -/
theorem onStretch_held {a t : Nat} (running : ∀ u, (inp u).reset = false)
    (start : ∀ u, u + 1 = a → ((inp u).digCntrl.get c).on1 = false)
    (on : ∀ u, a ≤ u → u < t → ((inp u).digCntrl.get c).on1 = true) (later : a < t) :
    onStretch c inp t = ⟨true, t - a⟩ := by
  have next {u : Nat} (low : a ≤ u) (high : u < t) : onStretch c inp (u + 1) =
      ⟨true, if (onStretch c inp u).on then (onStretch c inp u).length + 1 else 1⟩ := by
    have requested : (chanOn (inp u) c).enableIn = true := on u low high
    have unreset : (chanOn (inp u) c).reset = false := running u
    rw [onStretch, run_succ, ← onStretch, PulseEnable.stretchStep, requested, unreset]
    rfl
  apply stretch_induction (P := fun t => onStretch c inp t = ⟨true, t - a⟩) later
  · have fresh : (onStretch c inp a).on = false := by
      cases a with
      | zero => rfl
      | succ a => exact onStretch_off c inp (start a rfl)
    rw [next (Nat.le_refl a) later, fresh, show a.succ - a = 1 by omega]
    rfl
  · intro u low high ih
    rw [next (Nat.le_of_lt low) high, ih, show u + 1 - a = u - a + 1 by omega]
    rfl

/-- Off means off, where it does. Once the request has been off for three clocks
the on command is off exactly when the channel's fault gates it or the last
stretch of the request did not end in the second half of a pulse period. The
pulse generator writes its output only while the request is on, so a request
withdrawn there leaves the command on. -/
theorem off_means_off_iff (t : Nat)
    (off : ∀ u, t ≤ u → u < t + 3 → ((inp u).digCntrl.get c).on1 = false) :
    (rcom (run step powerUp inp (t + 3)) (inp (t + 3))).getLsbD (onBit c) = false ↔
      ((inp (t + 3)).fault.get c).fltTrig = true ∨
        PulseEnable.highAfter 1000000 (onStretch c inp (t + 3)).length = false := by
  have ended := onStretch_off c inp (off (t + 2) (by omega) (by omega))
  rw [rcom_onBit, (follows_onStretch c inp (t + 3)).left ended]
  cases PulseEnable.highAfter 1000000 (onStretch c inp (t + 3)).length <;>
    cases ((inp (t + 3)).fault.get c).fltTrig <;> simp

end Runs

/-- Ports with no fault, on which every channel is requested on or not. -/
def requested (on : Bool) : Ports where
  reset := false
  fault := PerChan.of fun _ => ⟨0, 0, false, false⟩
  rsts := 0
  digCntrl := PerChan.of fun _ => ⟨on, false, false, false, false⟩

/-- The request is on for the first `n` clocks and off from then on. -/
def onFor (n t : Nat) : Ports := requested (decide (t < n))

theorem onStretch_onFor (c : Chan) {n : Nat} (positive : 0 < n) (t : Nat) :
    onStretch c (onFor n) t =
      if t = 0 then ⟨false, 0⟩ else ⟨decide (t ≤ n), min t n⟩ := by
  induction t with
  | zero => rfl
  | succ t ih =>
      have enable : (chanOn (onFor n t) c).enableIn = decide (t < n) := by
        cases c <;> rfl
      have running : (chanOn (onFor n t) c).reset = false := rfl
      rw [onStretch, run_succ, ← onStretch, ih, PulseEnable.stretchStep, running, enable]
      by_cases on : t < n
      · have all : t + 1 ≤ n := on
        rcases Nat.eq_zero_or_pos t with rfl | later
        · simp [on, all]
        · simp [on, all, Nat.ne_of_gt later, Nat.le_of_lt on]
      · have past : n ≤ t := Nat.le_of_not_lt on
        have later : t ≠ 0 := by omega
        have off : ¬ t + 1 ≤ n := Nat.not_le_of_lt (Nat.lt_succ_of_le past)
        rw [if_neg later, if_neg (Nat.succ_ne_zero t), Nat.min_eq_right past,
          Nat.min_eq_right (Nat.le_succ_of_le past), decide_eq_false on, decide_eq_false off]
        rfl

/-- A request withdrawn just as the second half of the period begins. -/
theorem on_outlives_request :
    ¬ ∀ (inp : Nat → Ports) (c : Chan) (t : Nat),
      (∀ u, t ≤ u → u < t + 3 → ((inp u).digCntrl.get c).on1 = false) →
      (rcom (run step powerUp inp (t + 3)) (inp (t + 3))).getLsbD (onBit c) = false := by
  intro claim
  have off := claim (onFor 500001) .ps1 500001 (fun u low _ => decide_eq_false (by omega))
  have stretch := onStretch_onFor .ps1 (show 0 < 500001 by decide) (500001 + 3)
  have ended : (onStretch .ps1 (onFor 500001) (500001 + 3)).on = false := by rw [stretch]; rfl
  rw [rcom_onBit, (follows_onStretch .ps1 (onFor 500001) (500001 + 3)).left ended, stretch] at off
  exact absurd off (by decide)

/-- A request withdrawn in the first half of a period takes the command with it. -/
theorem off_means_off_early :
    (rcom (run step powerUp (onFor 10) 13) (onFor 10 13)).getLsbD (onBit .ps1) = false :=
  (off_means_off_iff .ps1 (onFor 10) 10 (fun u low _ => decide_eq_false (by omega))).2
    (Or.inr (by rw [onStretch_onFor .ps1 (by decide)]; rfl))

end PscDigpid.Hdl.DigioLogic
