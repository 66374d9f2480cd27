/- Unit: PscDigpid/Hdl/AxiBurst
   layer: result
   source: src/hw/hdl/adc2ddr.vhd (write_word, WRDLAST, AWAITRESP)
   digest: A burst carries its record exactly when its last beat is taken at once. -/

import PscDigpid.Hdl.Adc2ddr
import PscDigpid.Sync.Run

set_option autoImplicit false
set_option relaxedAutoImplicit false

namespace PscDigpid.Hdl.Adc2ddr

open PscDigpid.Sync

/-- The beat the slave accepts at this clock edge, with its mark. -/
def beat (s : Regs) (i : Ports) : Option (BitVec 32 × Bool) :=
  if s.m2s.wvalid && i.s2m.wready then some (s.m2s.wdata, s.m2s.wlast) else none

/-- What is on the bus follows from the state: nothing before the second word's, a plain word
before the last, and with the last its mark, until it is dropped. -/
structure Offered (s : Regs) : Prop where
  early : s.state ≠ .awaitresp → s.m2s.wvalid = decide (0 < puts s.state) ∧ s.m2s.wlast = false
  late : s.state = .awaitresp → s.m2s.wlast = s.m2s.wvalid

section Step

variable {s : Regs} {i : Ports}

/-- Nothing is on the bus before the first word. -/
theorem Offered.nothing (offered : Offered s) (unwritten : puts s.state = 0) :
    s.m2s.wvalid = false ∧ s.m2s.wlast = false := by
  have early := offered.early (by
    intro awaits
    rw [awaits] at unwritten
    exact absurd unwritten (by decide))
  rw [unwritten] at early
  exact early

theorem offered_of_nothing (unwritten : puts s.state = 0) (valid : s.m2s.wvalid = false)
    (last : s.m2s.wlast = false) : Offered s := by
  refine ⟨fun _ => ⟨?_, last⟩, ?_⟩
  · rw [unwritten, valid]
    rfl
  · intro awaits
    rw [awaits] at unwritten
    exact absurd unwritten (by decide)

/-- The bus stays in step with the state, resets outside a burst included. -/
theorem Offered.step (offered : Offered s) (quiet : i.reset = true → s.state = .idle) :
    Offered (step s i) := by
  cases reset : i.reset with
  | true =>
      have low := (offered.nothing (by rw [quiet reset]; rfl)).2
      simp only [Adc2ddr.step, reset, if_true]
      exact offered_of_nothing rfl rfl low
  | false =>
      rcases state_cases s.state with idle | address | awaits | writes
      · obtain ⟨valid, last⟩ := offered.nothing (by rw [idle]; rfl)
        rw [step_idle reset idle, idleClock]
        split
        · exact offered_of_nothing rfl valid last
        · exact offered_of_nothing (by rw [idle]; rfl) valid last
      · obtain ⟨valid, last⟩ := offered.nothing (by rw [address]; rfl)
        rw [step_address reset address, addressClock]
        split
        · exact offered_of_nothing rfl valid last
        · exact offered
      · rw [step_awaitresp reset awaits, awaitrespClock]
        split
        · exact offered_of_nothing rfl rfl rfl
        · exact ⟨fun busy => absurd awaits busy, fun _ => rfl⟩
      · rw [step_writes reset writes, writeWord]
        split
        · obtain ⟨more, -, final⟩ := puts_next writes
          have low := (offered.early writes.2.2).2
          refine ⟨?_, ?_⟩
          · intro further
            have inner : s.state ≠ .wrdlast := by
              rw [Ne, wrdlast_iff writes, ← final]
              exact further
            refine ⟨?_, ?_⟩
            · rw [more]
              exact (decide_eq_true (Nat.succ_pos _)).symm
            · rw [if_neg inner, low]
          · intro done
            have marked : s.state = .wrdlast := by
              rw [wrdlast_iff writes, ← final]
              exact done
            rw [if_pos marked]
        · exact offered

end Step

section Bursts

variable (s : Regs) (inp : Nat → Ports) (a : Nat)

/-- A burst begins at clock `a`. -/
def Begins : Prop :=
  (run step s inp a).state = .idle ∧ (run step s inp (a + 1)).state = .address

/-- Clock `t` is in the burst that began at clock `a`, or is its return to IDLE. -/
def InBurst (t : Nat) : Prop := a < t ∧ ∀ u, a < u → u < t → (run step s inp u).state ≠ .idle

/-- The beats accepted at the clocks from `a` on and before `t`. -/
def accepted (t : Nat) : List (BitVec 32 × Bool) :=
  (List.range' a (t - a)).filterMap fun u => beat (run step s inp u) (inp u)

/-- A beat carries the `n`th word of the record, as it was when its state put it on the bus,
and the mark exactly with the last word. -/
def Carries (t n : Nat) (b : BitVec 32 × Bool) : Prop :=
  n < 40 ∧ b.2 = decide (n = 39) ∧ ∃ u, a < u ∧ u < t ∧
    (run step s inp u).state = wordState n ∧ (inp u).s2m.wready = true ∧
    b.1 = word (run step s inp u).datacnt (inp u) (wordState n)

/-- The beats accepted in a burst are the words of its record in order, all of them when it is
over, and no beat is taken from the bus before it is accepted. -/
structure BurstLaw : Prop where
  words : ∀ t n b, InBurst s inp a t → (accepted s inp a t)[n]? = some b → Carries s inp a t n b
  complete : ∀ t, InBurst s inp a t → (run step s inp t).state = .idle →
    (accepted s inp a t).length = 40
  held : ∀ t, InBurst s inp a t → (run step s inp t).m2s.wvalid = true →
    (inp t).s2m.wready = false → (run step s inp (t + 1)).m2s.wvalid = true

/-- Whenever the response is awaited with the last beat still on the bus, the slave takes it. -/
def LastTaken : Prop :=
  ∀ t, InBurst s inp a t → (run step s inp t).state = .awaitresp →
    (run step s inp t).m2s.wvalid = true → (inp t).s2m.wready = true

/-- What has been accepted by clock `t`, and what is on the bus then. -/
structure Progress (t : Nat) : Prop where
  count : (run step s inp t).state ≠ .idle →
    (accepted s inp a t).length + (if (run step s inp t).m2s.wvalid then 1 else 0) =
      puts (run step s inp t).state
  finished : (run step s inp t).state = .idle → (accepted s inp a t).length = 40
  words : ∀ n b, (accepted s inp a t)[n]? = some b → Carries s inp a t n b
  offer : (run step s inp t).m2s.wvalid = true →
    Carries s inp a t (puts (run step s inp t).state - 1)
      ((run step s inp t).m2s.wdata, (run step s inp t).m2s.wlast)

end Bursts

section Bursts

variable {s : Regs} {inp : Nat → Ports} {a t : Nat}

theorem accepted_succ (le : a ≤ t) : accepted s inp a (t + 1) =
    accepted s inp a t ++ (beat (run step s inp t) (inp t)).toList := by
  rw [accepted, accepted, Nat.succ_sub le, List.range'_concat, List.filterMap_append,
    Nat.one_mul, Nat.add_sub_cancel' le]
  rfl

theorem Carries.later {n : Nat} {b : BitVec 32 × Bool} {t' : Nat} (carries : Carries s inp a t n b)
    (le : t ≤ t') : Carries s inp a t' n b := by
  obtain ⟨low, mark, u, after, before, rest⟩ := carries
  exact ⟨low, mark, u, after, Nat.lt_of_lt_of_le before le, rest⟩

/-- The beat on the bus joins the accepted ones when the slave is ready. -/
theorem Progress.words_succ (progress : Progress s inp a t) (le : a ≤ t)
    (busy : (run step s inp t).state ≠ .idle) (n : Nat) (b : BitVec 32 × Bool)
    (entry : (accepted s inp a (t + 1))[n]? = some b) : Carries s inp a (t + 1) n b := by
  rw [accepted_succ le, beat] at entry
  by_cases accepts : ((run step s inp t).m2s.wvalid && (inp t).s2m.wready) = true
  · rw [if_pos accepts, Option.toList_some] at entry
    have valid := (Bool.and_eq_true_iff.1 accepts).1
    have count := progress.count busy
    rw [if_pos valid] at count
    rcases Nat.lt_trichotomy n (accepted s inp a t).length with inside | last | beyond
    · rw [List.getElem?_append_left inside] at entry
      exact (progress.words n b entry).later (Nat.le_succ t)
    · subst last
      rw [List.getElem?_concat_length] at entry
      obtain rfl := Option.some.inj entry
      rw [show (accepted s inp a t).length = puts (run step s inp t).state - 1 by omega]
      exact (progress.offer valid).later (Nat.le_succ t)
    · rw [List.getElem?_eq_none (by simp; omega)] at entry
      exact absurd entry (Option.some_ne_none b).symm
  · rw [if_neg accepts, Option.toList_none, List.append_nil] at entry
    exact (progress.words n b entry).later (Nat.le_succ t)

/-- Without a beat accepted the count stays. -/
theorem accepted_same (le : a ≤ t)
    (none_accepted : ((run step s inp t).m2s.wvalid && (inp t).s2m.wready) = false) :
    accepted s inp a (t + 1) = accepted s inp a t := by
  rw [accepted_succ le, beat, none_accepted, if_neg Bool.false_ne_true, Option.toList_none,
    List.append_nil]

theorem accepted_more (le : a ≤ t) (valid : (run step s inp t).m2s.wvalid = true)
    (ready : (inp t).s2m.wready = true) :
    (accepted s inp a (t + 1)).length = (accepted s inp a t).length + 1 := by
  rw [accepted_succ le, beat, valid, ready, Bool.and_true, if_pos rfl, Option.toList_some,
    List.length_append, List.length_singleton]

/-- Before the first word nothing has been accepted, and nothing is offered. -/
theorem progress_early (words : ∀ n b, (accepted s inp a t)[n]? = some b → Carries s inp a t n b)
    (unwritten : puts (run step s inp t).state = 0)
    (busy : (run step s inp t).state ≠ .idle) (valid : (run step s inp t).m2s.wvalid = false)
    (empty : (accepted s inp a t).length = 0) : Progress s inp a t := by
  refine ⟨?_, fun idle => absurd idle busy, words, ?_⟩
  · intro _
    rw [valid, unwritten, empty]
    rfl
  · intro on
    exact absurd (valid.symm.trans on) Bool.false_ne_true

/-- A word that is put on the bus is offered next. -/
theorem Progress.put (progress : Progress s inp a t) (after : a < t)
    (writes : Writes (run step s inp t).state) (running : (inp t).reset = false)
    (ready : (inp t).s2m.wready = true) (low : (run step s inp t).m2s.wlast = false) :
    Progress s inp a (t + 1) := by
  have words := progress.words_succ (Nat.le_of_lt after) writes.1
  have count := progress.count writes.1
  obtain ⟨more, busy, -⟩ := puts_next writes
  have next_clock : run step s inp (t + 1) =
      { run step s inp t with
        m2s := { (run step s inp t).m2s with
          wvalid := true
          wlast := if (run step s inp t).state = .wrdlast then true
            else (run step s inp t).m2s.wlast
          wdata := word (run step s inp t).datacnt (inp t) (run step s inp t).state }
        state := next (run step s inp t).state } := by
    rw [run_succ, step_writes running writes, writeWord, if_pos ready]
  refine ⟨?_, ?_, words, ?_⟩
  · intro _
    rw [next_clock, if_pos rfl, more]
    cases valid : (run step s inp t).m2s.wvalid with
    | true =>
        rw [valid, if_pos rfl] at count
        rw [accepted_more (Nat.le_of_lt after) valid ready]
        omega
    | false =>
        rw [valid, if_neg Bool.false_ne_true] at count
        rw [accepted_same (Nat.le_of_lt after) (by rw [valid]; rfl)]
        omega
  · rw [next_clock]
    exact fun idle => absurd idle busy
  · intro _
    rw [next_clock, more, Nat.add_sub_cancel]
    refine ⟨puts_lt writes, ?_, t, after, Nat.lt_succ_self t, (wordState_puts writes).symm, ready,
      ?_⟩
    · simp only [wrdlast_iff writes, low]
      by_cases final : puts (run step s inp t).state = 39
      · rw [if_pos final, decide_eq_true final]
      · rw [if_neg final, decide_eq_false final]
    · rw [wordState_puts writes]

/-- One clock of a burst whose last beat is taken. -/
theorem Progress.step (progress : Progress s inp a t) (inBurst : InBurst s inp a (t + 1))
    (offered : Offered (run step s inp t)) (running : (inp t).reset = false) (after : a < t)
    (taken : (run step s inp t).state = .awaitresp → (run step s inp t).m2s.wvalid = true →
      (inp t).s2m.wready = true) : Progress s inp a (t + 1) := by
  have busy : (run Adc2ddr.step s inp t).state ≠ .idle := inBurst.2 t after (Nat.lt_succ_self t)
  have words := progress.words_succ (Nat.le_of_lt after) busy
  have count := progress.count busy
  rcases state_cases (run Adc2ddr.step s inp t).state with idle | address | awaits | writes
  · exact absurd idle busy
  · have valid := (offered.nothing (by rw [address]; rfl)).1
    rw [valid, address, if_neg Bool.false_ne_true] at count
    have empty : (accepted s inp a (t + 1)).length = 0 := by
      rw [accepted_same (Nat.le_of_lt after) (by rw [valid]; rfl)]
      exact count
    have clock : run Adc2ddr.step s inp (t + 1) =
        addressClock (run Adc2ddr.step s inp t) (inp t) := by
      rw [run_succ, step_address running address]
    cases accepts : (inp t).s2m.awready with
    | true =>
        rw [addressClock, if_pos accepts] at clock
        exact progress_early words (by rw [clock]; rfl)
          (by rw [clock]; exact show State.hdr ≠ State.idle by decide)
          (by rw [clock]; exact valid) empty
    | false =>
        rw [addressClock, accepts, if_neg Bool.false_ne_true] at clock
        exact progress_early words (by rw [clock, address]; rfl) (by rw [clock]; exact busy)
          (by rw [clock]; exact valid) empty
  · have all : (accepted s inp a (t + 1)).length = 40 := by
      have whole : puts State.awaitresp = 40 := by decide
      rw [awaits, whole] at count
      cases valid : (run Adc2ddr.step s inp t).m2s.wvalid with
      | true =>
          rw [valid, if_pos rfl] at count
          rw [accepted_more (Nat.le_of_lt after) valid (taken awaits valid), count]
      | false =>
          rw [valid, if_neg Bool.false_ne_true] at count
          rw [accepted_same (Nat.le_of_lt after) (by rw [valid]; rfl)]
          exact count
    have dropped : (run Adc2ddr.step s inp (t + 1)).m2s.wvalid = false ∧
        ((run Adc2ddr.step s inp (t + 1)).state = .idle ∨
          (run Adc2ddr.step s inp (t + 1)).state = .awaitresp) := by
      rw [run_succ, step_awaitresp running awaits, awaitrespClock]
      split
      · exact ⟨rfl, .inl rfl⟩
      · exact ⟨rfl, .inr awaits⟩
    refine ⟨?_, fun _ => all, words, ?_⟩
    · intro stays
      rw [dropped.1, dropped.2.resolve_left stays, all]
      decide
    · intro on
      exact absurd (dropped.1.symm.trans on) Bool.false_ne_true
  · cases ready : (inp t).s2m.wready with
    | true => exact progress.put after writes running ready (offered.early writes.2.2).2
    | false =>
        have clock : run Adc2ddr.step s inp (t + 1) = run Adc2ddr.step s inp t := by
          rw [run_succ, step_writes running writes, writeWord, ready, if_neg Bool.false_ne_true]
        have none_accepted : ((run Adc2ddr.step s inp t).m2s.wvalid && (inp t).s2m.wready) =
            false := by
          rw [ready, Bool.and_false]
        have same := accepted_same (Nat.le_of_lt after) none_accepted
        refine ⟨?_, ?_, words, ?_⟩
        · rw [clock, same]
          exact fun _ => count
        · rw [clock]
          exact fun idle => absurd idle busy
        · rw [clock]
          exact fun on => (progress.offer on).later (Nat.le_succ t)

theorem offered_run (start : Offered s)
    (quiet : ∀ t, (inp t).reset = true → (run step s inp t).state = .idle) (t : Nat) :
    Offered (run step s inp t) := by
  induction t with
  | zero => exact start
  | succ t ih => exact ih.step (quiet t)

theorem InBurst.earlier {u : Nat} (inBurst : InBurst s inp a t) (after : a < u) (le : u ≤ t) :
    InBurst s inp a u :=
  ⟨after, fun v first last => inBurst.2 v first (by omega)⟩

/-- A burst whose last beat is taken goes on as it should. -/
theorem progress_run (start : Offered s)
    (quiet : ∀ t, (inp t).reset = true → (run step s inp t).state = .idle)
    (begins : Begins s inp a) (taken : LastTaken s inp a) (inBurst : InBurst s inp a t) :
    Progress s inp a t := by
  have offered := offered_run start quiet
  refine stretch_induction (P := Progress s inp a) (Nat.succ_le_of_lt inBurst.1) ?_ ?_
  · have valid := ((offered (a + 1)).nothing (by rw [begins.2]; rfl)).1
    have empty : accepted s inp a (a + 1) = [] := by
      have before := ((offered a).nothing (by rw [begins.1]; rfl)).1
      rw [accepted_same (Nat.le_refl a) (by rw [before]; rfl), accepted, Nat.sub_self]
      rfl
    refine progress_early ?_ (by rw [begins.2]; rfl) (by rw [begins.2]; decide) valid
      (by rw [empty]; rfl)
    intro n b entry
    rw [empty] at entry
    exact absurd entry (by simp)
  · intro u low high progress
    have here := inBurst.earlier (by omega) high
    have busy := inBurst.2 u (by omega) high
    have running : (inp u).reset = false := by
      cases reset : (inp u).reset with
      | true => exact absurd (quiet u reset) busy
      | false => rfl
    exact progress.step here (offered u) running (by omega)
      (taken u (inBurst.earlier (by omega) (Nat.le_of_lt high)))

/-- A burst whose last beat is taken obeys the law. -/
theorem law_of_taken (start : Offered s)
    (quiet : ∀ t, (inp t).reset = true → (run step s inp t).state = .idle)
    (begins : Begins s inp a) (taken : LastTaken s inp a) : BurstLaw s inp a := by
  have progress {t : Nat} (inBurst : InBurst s inp a t) :=
    progress_run start quiet begins taken inBurst
  refine ⟨fun t n b inBurst => (progress inBurst).words n b,
    fun t inBurst => (progress inBurst).finished, ?_⟩
  intro t inBurst valid waits
  have offered := offered_run start quiet t
  have busy : (run step s inp t).state ≠ .idle := by
    intro idle
    have nothing := (offered.nothing (by rw [idle]; rfl)).1
    exact absurd (nothing.symm.trans valid) Bool.false_ne_true
  have running : (inp t).reset = false := by
    cases reset : (inp t).reset with
    | true => exact absurd (quiet t reset) busy
    | false => rfl
  rcases state_cases (run step s inp t).state with idle | address | awaits | writes
  · exact absurd idle busy
  · have nothing := (offered.nothing (by rw [address]; rfl)).1
    exact absurd (nothing.symm.trans valid) Bool.false_ne_true
  · exact absurd (waits.symm.trans (taken t inBurst awaits valid)) Bool.false_ne_true
  · rw [run_succ, step_writes running writes, writeWord, waits, if_neg Bool.false_ne_true]
    exact valid

/-- A last beat that is not taken is dropped. -/
theorem taken_of_law (quiet : ∀ t, (inp t).reset = true → (run step s inp t).state = .idle)
    (law : BurstLaw s inp a) : LastTaken s inp a := by
  intro t inBurst awaits valid
  cases ready : (inp t).s2m.wready with
  | true => rfl
  | false =>
      have running : (inp t).reset = false := by
        cases reset : (inp t).reset with
        | true => exact State.noConfusion ((quiet t reset).symm.trans awaits)
        | false => rfl
      have kept := law.held t inBurst valid ready
      rw [run_succ, step_awaitresp running awaits, awaitrespClock] at kept
      split at kept
      · exact absurd kept Bool.false_ne_true
      · exact absurd kept Bool.false_ne_true

end Bursts

/-- In every run from the power-up state whose resets come outside the bursts, a burst carries
its forty words exactly when the slave takes the last one at once. -/
theorem burst_law_iff (inp : Nat → Ports)
    (quiet : ∀ t, (inp t).reset = true → (run step powerUp inp t).state = .idle) (a : Nat)
    (begins : Begins powerUp inp a) : BurstLaw powerUp inp a ↔ LastTaken powerUp inp a :=
  ⟨taken_of_law quiet, law_of_taken (offered_of_nothing rfl rfl rfl) quiet begins⟩

/-- A trigger at clock 0 and a slave that is ready at every clock but, if it stalls, the one
after the last word has been put on the bus. -/
def oneBurst (stalls : Bool) (t : Nat) : Ports where
  reset := false
  trigger := decide (t = 0)
  digpidEnb1 := false
  s2m := ⟨true, !(stalls && decide (t = 42)), false⟩
  dcctAdcs := PerChan.of fun _ => ⟨0, 0⟩
  monAdcs := PerChan.of fun _ => ⟨⟨0, 0, 0⟩, 0, 0, 0⟩
  pidStat1 := ⟨0, 0⟩

private theorem one_begins (stalls : Bool) : Begins powerUp (oneBurst stalls) 0 := by
  cases stalls <;> exact ⟨rfl, rfl⟩

theorem ready_burst_whole : BurstLaw powerUp (oneBurst false) 0 := by
  refine (burst_law_iff (oneBurst false) ?_ 0 (one_begins false)).2 ?_
  · intro t reset
    exact absurd reset Bool.false_ne_true
  · intro t _ _ _
    rfl

/-- A slave that is not ready when the last word is offered loses it. -/
theorem stalled_burst_cut : ¬ BurstLaw powerUp (oneBurst true) 0 := by
  intro law
  have inBurst : InBurst powerUp (oneBurst true) 0 42 := by
    have all : ∀ u, u < 42 → 0 < u → (run step powerUp (oneBurst true) u).state ≠ .idle := by
      decide +kernel
    exact ⟨by omega, fun u low high => all u high low⟩
  have kept := law.held 42 inBurst (by decide +kernel) (by decide +kernel)
  exact absurd kept (by decide +kernel)

end PscDigpid.Hdl.Adc2ddr
