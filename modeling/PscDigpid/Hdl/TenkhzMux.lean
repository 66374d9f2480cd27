/- Unit: PscDigpid/Hdl/TenkhzMux
   layer: model
   source: src/hw/hdl/tenkhz_mux.vhd
   digest: The 10 kHz clock source and the clocks at which it ticks. -/

import PscDigpid.Sync.Ticks

set_option autoImplicit false
set_option relaxedAutoImplicit false

namespace PscDigpid.Hdl.TenkhzMux

open PscDigpid.Sync

/-- Input ports of `tenkhz_mux`; the fold-back input is not connected inside. -/
structure Ports where
  reset : Bool
  switch : Bool
  evr10khz : Bool
  fofb10khz : Bool
  timer : BitVec 16

/-- Registers of `tenkhz_mux`. -/
structure Regs where
  sel : Bool
  clockCount : BitVec 32
  evrPulse : Bool
  dff0 : Bool
  dff1 : Bool
  external10khz : Bool
  cntInt : BitVec 16
  internal10khz : Bool

/-- Every register as the device configures it. -/
def powerUp : Regs where
  sel := false
  clockCount := 0
  evrPulse := false
  dff0 := false
  dff1 := false
  external10khz := false
  cntInt := 0
  internal10khz := false

/-- One rising clock edge: the edge detector of the event receiver's trigger,
the choice of an external trigger, the watch on it, and the internal divider. -/
def step (s : Regs) (i : Ports) : Regs where
  dff0 := !i.reset && i.evr10khz
  dff1 := !i.reset && s.dff0
  evrPulse := !i.reset && (s.dff1 && !s.dff0)
  external10khz := if i.switch then s.evrPulse else i.fofb10khz
  clockCount :=
    if i.reset then 0
    else if s.external10khz then 0
    else if s.clockCount = i.timer.setWidth 32 then s.clockCount
    else s.clockCount + 1
  sel :=
    if i.reset then false
    else if s.external10khz then false
    else if s.clockCount = i.timer.setWidth 32 then true
    else s.sel
  cntInt :=
    if i.reset then 0
    else if s.cntInt = 10000#16 then 0
    else s.cntInt + 1
  internal10khz := if i.reset then false else decide (s.cntInt = 10000#16)

/-- Output port `flt_10kHz`. -/
def flt10khz (s : Regs) : Bool := s.sel

/-- Output port `O`: the internal divider, whatever the external triggers do. -/
def o (s : Regs) : Bool := s.internal10khz

section Runs

variable {s : Regs} {inp : Nat → Ports}

/-- From reset the output is high at every 10001st clock and at no other. -/
theorem o_run {i : Ports} (reset : i.reset = true) (running : ∀ t, (inp t).reset = false)
    (t : Nat) : o (run step (step s i) inp t) = decide (0 < t ∧ t % 10001 = 0) := by
  have full (u : Nat) : (run step (step s i) inp u).cntInt = 10000#16 ↔ u % 10001 = 10000 := by
    refine counter_full (fun u => (run step (step s i) inp u).cntInt) 10000#16 ?_ ?_ u
    · simp [step, reset]
    · intro u
      simp [run_succ, step, running u]
  cases t with
  | zero => simp [o, step, reset]
  | succ t =>
      rw [o, run_succ, step, running t]
      simp only [full, if_false, Bool.false_eq_true, decide_eq_decide]
      omega

end Runs

end PscDigpid.Hdl.TenkhzMux
