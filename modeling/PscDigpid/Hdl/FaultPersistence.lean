/- Unit: PscDigpid/Hdl/FaultPersistence
   layer: result
   source: src/hw/hdl/fault_block.vhd
   digest: When the eleven fault counters keep their persistence law. -/

import PscDigpid.Hdl.FaultChecks

set_option autoImplicit false
set_option relaxedAutoImplicit false

namespace PscDigpid.Hdl.FaultBlock

open PscDigpid.Sync

/-- The persistence check of bit `b` along a run. -/
def checks (b : FaultBit) (s : Regs) (inp : Nat → Ports) (t : Nat) : Persist :=
  check b (run step s inp t)

/-- What that check sees along the run. -/
def samples (b : FaultBit) (s : Regs) (inp : Nat → Ports) (t : Nat) : Sample :=
  sample b (run step s inp t) (inp t)

section Runs

variable (b : FaultBit) (s : Regs) (inp : Nat → Ports)

/-- Outside reset, each fault bit runs as a persistence check of its own. -/
theorem checks_eq_run (running : ∀ t, (inp t).reset = false) (t : Nat) :
    checks b s inp t = run (persistStep b.cntWidth) (check b s) (samples b s inp) t :=
  run_project (check b) (sample b) (fun u => check_step b _ _ (running u)) t

/-- The persistence law holds in every run without reset in which no counter is
found past the limit in force while its bit is not yet live; from a counter at
zero it holds in no other run. The counter is compared with its limit for
equality, so a limit lowered below a running count is missed. -/
theorem fault_persistence (running : ∀ t, (inp t).reset = false) :
    (WithinLimit (checks b s inp) (samples b s inp) →
      PersistLaw (checks b s inp) (samples b s inp)) ∧
    (cnt s b = 0 → PersistLaw (checks b s inp) (samples b s inp) →
      WithinLimit (checks b s inp) (samples b s inp)) := by
  have same : checks b s inp = run (persistStep b.cntWidth) (check b s) (samples b s inp) :=
    funext (checks_eq_run b s inp running)
  have fits (t : Nat) : (samples b s inp t).limit < 2 ^ b.cntWidth := sample_fits b _ _
  rw [same]
  exact ⟨persist_law_of_within fits, fun clean => (persist_law_iff_within fits clean).1⟩

end Runs

/-- Ports at which no check trips and nothing is commanded. -/
def quiet : Ports where
  reset := false
  tenkhzTrig := false
  faultParams :=
    { clear := false, enable := 0
      ovc1Thresh := 1, ovc2Thresh := 1, ovvThresh := 1
      err1Thresh := 1, err2Thresh := 1, igndThresh := 1
      ovc1Cntlim := 0, ovc2Cntlim := 0, ovvCntlim := 0
      err1Cntlim := 0, err2Cntlim := 0, igndCntlim := 0
      dcctCntlim := 0, flt1Cntlim := 0, flt2Cntlim := 0, flt3Cntlim := 0
      onCntlim := 0, heartCntlim := 0 }
  dcctAdcs := ⟨0, 0⟩
  monAdcs := ⟨0, 0, 0⟩
  fault1 := false
  fault2 := false
  fault3 := false
  dcctFault := true
  acOnIn := false
  acOnOut := false
  park := false
  dacSetpoint := 0
  evrFltIn := false

/-- Fault input 1 is on from the start, under the given count limits. -/
def fault1Held (limit : Nat → BitVec 16) (t : Nat) : Ports :=
  { quiet with
    tenkhzTrig := true
    fault1 := true
    faultParams := { quiet.faultParams with flt1Cntlim := limit t } }

theorem fault_persistence_fault1_held :
    PersistLaw (checks .flt1 powerUp (fault1Held fun _ => 5))
      (samples .flt1 powerUp (fault1Held fun _ => 5)) := by
  refine (fault_persistence .flt1 powerUp (fault1Held fun _ => 5) (fun _ => rfl)).1 ?_
  have same := funext (checks_eq_run .flt1 powerUp (fault1Held fun _ => 5) (fun _ => rfl))
  rw [same]
  exact within_limit_of_steady (fun _ => rfl) (show 0 ≤ 5 by decide)

/-- A limit of 5 that is lowered to 1 after three counted ticks. -/
def loweredLimit (t : Nat) : BitVec 16 := if t < 6 then 5 else 1

theorem fault_persistence_lowered_limit :
    ¬ ∀ inp : Nat → Ports, (∀ t, (inp t).reset = false) → ∀ b : FaultBit,
      PersistLaw (checks b powerUp inp) (samples b powerUp inp) := by
  intro law
  have missed := (law (fault1Held loweredLimit) (fun _ => rfl) .flt1 6 (by decide)).1
    ⟨5, by decide, by decide, by decide, ?_⟩
  · exact absurd missed (by decide)
  · intro u low high _
    have near : u = 5 ∨ u = 6 := by omega
    rcases near with rfl | rfl <;> decide

end PscDigpid.Hdl.FaultBlock
