/- Unit: PscDigpid/Sw/SettingReadback
   layer: result
   source: src/sw/src/control.c (chan_settings), src/sw/src/sadata.c (sadata_push)
   digest: Which settings the ten-hertz message shows as they were commanded. -/

import PscDigpid.Sw.SettingCounts

set_option autoImplicit false
set_option relaxedAutoImplicit false

namespace PscDigpid.Sw

open PscDigpid.Hdl (Chan PerChan)
open PscDigpid.Num

/-- The settings of a channel that the message shows as the words they are. -/
def settingWords (p : SAdataChan) :
    BitVec 32 × BitVec 32 × ScaleFactorType × BitVec 32 × BitVec 32 × BitVec 32 :=
  (p.faultClear, p.faultMask, p.sf, p.dpidKp, p.dpidKi, p.dpidKd)

/-- The settings in the message that no channel owns. -/
def boardSettings (m : SAdataMsg) : BitVec 32 × BitVec 32 × BitVec 32 × BitVec 32 :=
  (m.numchans, m.resolution, m.bandwidth, m.polarity)

/-- A setting's field is less than a step from what was commanded, and no other setting in the
message has changed. -/
structure Agrees (c : Chan) (s : Setting) (commanded step : ℚ) (before after : SAdataMsg) :
    Prop where
  own : |s.field (after.ps.get c) - commanded| < step
  others : ∀ c' s', (c', s') ≠ (c, s) →
    Setting.field (after.ps.get c') s' = Setting.field (before.ps.get c') s'
  words : ∀ c', settingWords (after.ps.get c') = settingWords (before.ps.get c')
  board : boardSettings after = boardSettings before

section Frame

variable {c c' : Chan} {b : Board} {s s' : Setting} {addr w : BitVec 32}

theorem setting_stored (c : Chan) (s : Setting) :
    (Rdl.storedWidth (Rdl.chanAddr c s.reg)).isSome := by
  rw [Rdl.storedWidth_chanAddr c s.reg_software]
  rfl

/-- The board after a setting's register is written and whatever the fabric shows by then. -/
def written (c : Chan) (s : Setting) (w : BitVec 32) (status : BitVec 32 → BitVec 32)
    (b : Board) : Board :=
  { b.xilOut32 (Rdl.chanAddr c s.reg) w with status := status }

theorem written_regs (w : BitVec 32) (status : BitVec 32 → BitVec 32) :
    (written c s w status b).regs = Function.update b.regs (Rdl.chanAddr c s.reg)
      (Board.kept (Rdl.chanAddr c s.reg) w) :=
  b.xilOut32_regs (setting_stored c s) w

/-- The write is seen in its register only. -/
theorem written_other (stored : (Rdl.storedWidth addr).isSome)
    (apart : addr ≠ Rdl.chanAddr c s.reg) (w : BitVec 32) (status : BitVec 32 → BitVec 32) :
    (written c s w status b).xilIn32 addr = b.xilIn32 addr := by
  rw [Board.xilIn32_stored _ stored, Board.xilIn32_stored _ stored, written_regs,
    Function.update_of_ne apart]

theorem written_own (w : BitVec 32) (status : BitVec 32 → BitVec 32) :
    (written c s w status b).xilIn32 (Rdl.chanAddr c s.reg) =
      Board.kept (Rdl.chanAddr c s.reg) w := by
  rw [Board.xilIn32_stored _ (setting_stored c s), written_regs, Function.update_self]

/-- The board when the message is read, after the blink. -/
def blinked (b : Board) : Board := (b.xilOut32 tenhzDatasendReg 1).xilOut32 tenhzDatasendReg 0

theorem blinked_xilIn32 (stored : (Rdl.storedWidth addr).isSome) (apart : addr ≠ tenhzDatasendReg)
    (b : Board) : (blinked b).xilIn32 addr = b.xilIn32 addr := by
  have led : (Rdl.storedWidth tenhzDatasendReg).isSome := by decide
  rw [Board.xilIn32_stored _ stored, Board.xilIn32_stored _ stored, blinked,
    Board.xilOut32_regs _ led, Board.xilOut32_regs _ led, Function.update_of_ne apart,
    Function.update_of_ne apart]

theorem sadataPass_chan (b : Board) (c : Chan) :
    (sadataPass b).2.ps.get c = sadataChan (chanNumber c) (blinked b) :=
  PerChan.get_of _ _

/-- What a field of the message shows. -/
theorem sadataPass_field (b : Board) (c : Chan) (s : Setting) :
    Setting.field ((sadataPass b).2.ps.get c) s =
      Setting.count (b.xilIn32 (Rdl.chanAddr c s.shown.reg)) s * s.unit c b := by
  rw [sadataPass_chan, Setting.field_eq,
    blinked_xilIn32 (setting_stored c s.shown) (Rdl.chanAddr_ne_global (by decide))]
  rfl

/-- The registers of the settings that are shown as words. -/
def wordRegs : List Rdl.ChanReg := [.faultClear, .faultMask, .kp, .ki, .kd]

theorem settingWords_eq (c : Chan) (b : Board) :
    settingWords (sadataChan (chanNumber c) b) =
      (b.xilIn32 (Rdl.chanAddr c .faultClear), b.xilIn32 (Rdl.chanAddr c .faultMask),
        b.scalefactors (chanNumber c - 1), b.xilIn32 (Rdl.chanAddr c .kp),
        b.xilIn32 (Rdl.chanAddr c .ki), b.xilIn32 (Rdl.chanAddr c .kd)) := by
  cases c <;> rfl

theorem wordRegs_software {r : Rdl.ChanReg} (mem : r ∈ wordRegs) :
    r.info.source = .software := by
  revert r
  decide

/-- They are not those of the settings that are numbers. -/
theorem reg_not_wordRegs (s : Setting) : s.reg ∉ wordRegs := by
  have disjoint : ∀ s ∈ Setting.all, s.reg ∉ wordRegs := by
    decide
  exact disjoint s (Setting.mem_all s)

theorem word_written (c' : Chan) {r : Rdl.ChanReg} (mem : r ∈ wordRegs) (w : BitVec 32)
    (status : BitVec 32 → BitVec 32) :
    (blinked (written c s w status b)).xilIn32 (Rdl.chanAddr c' r) =
      (blinked b).xilIn32 (Rdl.chanAddr c' r) := by
  have stored : (Rdl.storedWidth (Rdl.chanAddr c' r)).isSome := by
    rw [Rdl.storedWidth_chanAddr c' (wordRegs_software mem)]
    rfl
  have global : Rdl.chanAddr c' r ≠ tenhzDatasendReg := Rdl.chanAddr_ne_global (by decide)
  rw [blinked_xilIn32 stored global, blinked_xilIn32 stored global, written_other stored]
  intro same
  rw [(Rdl.chanAddr_injective same).2] at mem
  exact reg_not_wordRegs s mem

/-- No message of a setting changes what is shown as words. -/
theorem words_written (w : BitVec 32) (status : BitVec 32 → BitVec 32) (c' : Chan) :
    settingWords ((sadataPass (written c s w status b)).2.ps.get c') =
      settingWords ((sadataPass b).2.ps.get c') := by
  rw [sadataPass_chan, sadataPass_chan, settingWords_eq, settingWords_eq,
    word_written c' (by decide), word_written c' (by decide), word_written c' (by decide),
    word_written c' (by decide), word_written c' (by decide)]
  rfl

theorem global_written (stored : (Rdl.storedWidth addr).isSome) (apart : addr ≠ tenhzDatasendReg)
    (low : addr.toNat < 0x200) (w : BitVec 32) (status : BitVec 32 → BitVec 32) :
    (blinked (written c s w status b)).xilIn32 addr = (blinked b).xilIn32 addr := by
  rw [blinked_xilIn32 stored apart, blinked_xilIn32 stored apart,
    written_other stored (Rdl.chanAddr_ne_global low).symm]

theorem boardSettings_eq (b : Board) : boardSettings (sadataPass b).2 =
    ((blinked b).xilIn32 numchansReg, (blinked b).xilIn32 resolutionReg,
      (blinked b).xilIn32 bandwidthReg, (blinked b).xilIn32 polarityReg) :=
  rfl

theorem board_written (w : BitVec 32) (status : BitVec 32 → BitVec 32) :
    boardSettings (sadataPass (written c s w status b)).2 = boardSettings (sadataPass b).2 := by
  have numchans := @global_written c b s numchansReg (by decide) (by decide) (by decide) w status
  have resolution :=
    @global_written c b s resolutionReg (by decide) (by decide) (by decide) w status
  have bandwidth :=
    @global_written c b s bandwidthReg (by decide) (by decide) (by decide) w status
  have polarity := @global_written c b s polarityReg (by decide) (by decide) (by decide) w status
  rw [boardSettings_eq, boardSettings_eq, numchans, resolution, bandwidth, polarity]

end Frame

section Fields

variable {c c' : Chan} {b : Board} {s s' : Setting} {data w : BitVec 32}
  {status : BitVec 32 → BitVec 32}

/-- A field that is read from another register is unchanged. -/
theorem field_apart (apart : (c', s'.shown) ≠ (c, s)) :
    Setting.field ((sadataPass (written c s w status b)).2.ps.get c') s' =
      Setting.field ((sadataPass b).2.ps.get c') s' := by
  have addr : Rdl.chanAddr c' s'.shown.reg ≠ Rdl.chanAddr c s.reg := by
    intro same
    obtain ⟨rfl, regs⟩ := Rdl.chanAddr_injective same
    exact apart (by rw [Setting.reg_injective regs])
  rw [sadataPass_field, sadataPass_field, written_other (setting_stored c' s'.shown) addr]
  rfl

/-- A field that is read from the register shows what it has kept. -/
theorem field_kept (shown : s'.shown = s) :
    Setting.field ((sadataPass (written c s w status b)).2.ps.get c) s' =
      Setting.count (Board.kept (Rdl.chanAddr c s.reg) w) s' * s'.unit c b := by
  rw [sadataPass_field, shown, written_own]
  rfl

theorem shown_plain (plain : ∀ k, s ≠ .digout k) : s'.shown = s ↔ s' = s := by
  cases s' with
  | digout k =>
      refine iff_of_false ?_ ?_
      · exact fun same => plain k.shown same.symm
      · exact fun same => plain k same.symm
  | _ => exact Iff.rfl

/-- A setting that is no output has a field of its own. -/
theorem agrees_plain (plain : ∀ k, s ≠ .digout k) (commanded step : ℚ) :
    Agrees c s commanded step (sadataPass b).2 (sadataPass (written c s w status b)).2 ↔
      |Setting.count (Board.kept (Rdl.chanAddr c s.reg) w) s * s.unit c b - commanded| < step := by
  rw [← field_kept ((shown_plain plain).2 rfl)]
  constructor
  · exact Agrees.own
  · intro own
    refine ⟨own, ?_, words_written w status, board_written w status⟩
    intro c' s' apart
    apply field_apart
    intro same
    obtain ⟨rfl, shown⟩ := Prod.mk.inj same
    exact apart (by rw [(shown_plain plain).1 shown])

/-- Two whole numbers less than one apart are one. -/
theorem near_nat {n m : Nat} : |(n : ℚ) - m| < 1 ↔ n = m := by
  have whole : |(n : ℚ) - m| = ((|(n : Int) - m| : Int) : ℚ) := by
    push_cast
    rfl
  rw [whole, ← Int.cast_one, Int.cast_lt, Int.abs_lt_one_iff]
  omega

theorem field_digout (b : Board) (c : Chan) (k : Digout) :
    Setting.field ((sadataPass b).2.ps.get c) (.digout k) =
      (Setting.outBefore c b k.shown).toNat := by
  rw [sadataPass_field, Setting.unit, mul_one]
  rfl

theorem shown_digout {k k' : Digout} :
    Setting.shown (.digout k') = .digout k ↔ k'.shown = k :=
  Setting.digout.injEq _ _ ▸ Iff.rfl

theorem apart_digout {k k' : Digout} (elsewhere : k'.shown ≠ k) :
    (c, Setting.shown (.digout k')) ≠ (c, .digout k) :=
  fun same => elsewhere (shown_digout.1 (Prod.mk.inj same).2)

/-- The field of an output that is read from the register of a message shows its bit. -/
theorem field_output {k k' : Digout} (shown : k'.shown = k) (small : data.toNat < 2) :
    Setting.field ((sadataPass (written c (.digout k) data status b)).2.ps.get c) (.digout k') =
      data.toNat := by
  have kept : Board.kept (Rdl.chanAddr c (Setting.reg (.digout k))) data = data :=
    Setting.keptWord_digout (x := 0) k small
  rw [field_kept (shown_digout.2 shown), kept, Setting.unit, mul_one]
  rfl

theorem nat_word {w w' : BitVec 32} : (w.toNat : ℚ) = w'.toNat ↔ w = w' :=
  Nat.cast_inj.trans BitVec.toNat_inj

/-- An output agrees when its field's register has the commanded bit and no other field that
is read from its own changes. -/
theorem agrees_digout (k : Digout) (small : data.toNat < 2) :
    Agrees c (.digout k) data.toNat 1 (sadataPass b).2
        (sadataPass (written c (.digout k) data status b)).2 ↔
      (k.shown ≠ k → data = Setting.outBefore c b k.shown) ∧
        ∀ k', k' ≠ k → k'.shown = k → data = Setting.outBefore c b k := by
  constructor
  · intro agrees
    constructor
    · intro elsewhere
      have own := agrees.own
      rw [field_apart (apart_digout elsewhere),
        field_digout, near_nat] at own
      exact (BitVec.eq_of_toNat_eq own).symm
    · intro k' apart shown
      have other := agrees.others c (.digout k') fun same =>
        apart (Setting.digout.inj (Prod.mk.inj same).2)
      rw [field_output shown small, field_digout, nat_word] at other
      rwa [shown] at other
  · rintro ⟨own, others⟩
    refine ⟨?_, ?_, words_written data status, board_written data status⟩
    · by_cases here : k.shown = k
      · rw [field_output here small, near_nat]
      · rw [field_apart (apart_digout here),
          field_digout, near_nat, ← own here]
    · intro c' s' apart
      by_cases same : (c', s'.shown) = (c, .digout k)
      · obtain ⟨rfl, shown⟩ := Prod.mk.inj same
        cases s' with
        | digout k' =>
            have read : k'.shown = k := Setting.digout.inj shown
            rw [field_output read small, field_digout, nat_word, read]
            exact others k' (fun equal => apart (by rw [equal])) read
        | _ => cases shown
      · exact field_apart same

end Fields

open Setting (ReadsBack)

/-- The conditions of the outputs. -/
theorem readsBack_digout (c : Chan) (b : Board) (data : BitVec 32) (k : Digout) :
    ReadsBack c b data (.digout k) ↔
      (k.shown ≠ k → data = Setting.outBefore c b k.shown) ∧
        ∀ k', k' ≠ k → k'.shown = k → data = Setting.outBefore c b k := by
  cases k with
  | on1 =>
      refine ⟨fun same => ⟨fun _ => same, fun _ _ _ => same⟩, fun both => ?_⟩
      exact both.2 .on2 (by decide) rfl
  | on2 =>
      refine ⟨fun same => ⟨fun _ => same, ?_⟩, fun both => both.1 (by decide)⟩
      intro k' _ shown
      cases k' <;> cases shown
  | reset =>
      refine ⟨fun same => ⟨fun _ => same.1, fun _ _ _ => same.2⟩, fun both => ?_⟩
      exact ⟨both.1 (by decide), both.2 .spare (by decide) rfl⟩
  | spare =>
      refine ⟨fun same => ⟨fun _ => same, ?_⟩, fun both => both.1 (by decide)⟩
      intro k' _ shown
      cases k' <;> cases shown
  | park =>
      refine iff_of_true trivial ⟨fun elsewhere => absurd rfl elsewhere, ?_⟩
      intro k' apart shown
      cases k' <;> first | exact absurd rfl apart | cases shown

/-- A message of a setting is handled, and the next pass after it, whatever the fabric shows by
then, agrees with it. -/
def ShownAsCommanded (page : Page) (c : Chan) (s : Setting) (msg : Nat → BitVec 8) (b : Board) :
    Prop :=
  ∃ after, chanSettings page (chanNumber c) msg b = some after ∧
    ∀ status, Agrees c s (s.commanded (msgWord msg 1)) (1 / s.scale c b) (sadataPass b).2
      (sadataPass { after with status := status }).2

section Messages

variable {page : Page} {c : Chan} {s : Setting} {msg : Nat → BitVec 8} {b : Board}

theorem shownAsCommanded_iff (address : msgWord msg 0 = s.msg.addr)
    (positive : Setting.PositiveScales c b) : ShownAsCommanded page c s msg b ↔
      ∀ status, Agrees c s (s.commanded (msgWord msg 1)) (1 / s.scale c b) (sadataPass b).2
        (sadataPass (written c s
          (s.word (msgWord msg 1) (s.converted c b (msgWord msg 1))) status b)).2 := by
  have handled := positive.chanSettings_msg address page
  constructor
  · rintro ⟨after, result, agrees⟩
    obtain rfl := Option.some.inj (handled.symm.trans result)
    exact agrees
  · intro agrees
    exact ⟨_, handled, agrees⟩

/-- A bit that fits its output. -/
theorem digout_small {k : Digout} {data : BitVec 32}
    (fits : Setting.Fits (trunc (Setting.converted c b data (.digout k))) (.digout k)) :
    data.toNat < 2 := by
  have value : Setting.converted c b data (.digout k) = ((data.toNat : Int) : ℚ) := by
    rw [Setting.converted, Setting.scale, mul_one]
    rfl
  rw [value, trunc_intCast] at fits
  have below := fits.2
  omega

theorem digout_step (c : Chan) (b : Board) (k : Digout) :
    1 / Setting.scale c b (.digout k) = 1 :=
  one_div_one

end Messages

/-- Every message of a gain, an offset, a threshold, a count limit or an output, whose value fits
its register, is shown as it was commanded and leaves the other settings in the message, exactly
under the condition of its setting. -/
theorem shown_as_commanded_iff (page : Page) (c : Chan) (s : Setting) (msg : Nat → BitVec 8)
    (b : Board) (address : msgWord msg 0 = s.msg.addr) (positive : Setting.PositiveScales c b)
    (fits : s.Fits (trunc (s.converted c b (msgWord msg 1)))) :
    ShownAsCommanded page c s msg b ↔ s.ReadsBack c b (msgWord msg 1) := by
  rw [shownAsCommanded_iff address positive]
  by_cases output : ∃ k, s = .digout k
  · obtain ⟨k, rfl⟩ := output
    rw [readsBack_digout, digout_step]
    change (∀ status, Agrees c (.digout k) (msgWord msg 1).toNat 1 (sadataPass b).2
      (sadataPass (written c (.digout k) (msgWord msg 1) status b)).2) ↔ _
    simp only [agrees_digout k (digout_small fits)]
    exact forall_const _
  · have plain : ∀ k, s ≠ .digout k := fun k same => output ⟨k, same⟩
    rw [← Setting.own_iff positive plain fits]
    simp only [agrees_plain plain]
    exact forall_const _

/-- A message with a data word for an address. -/
def wordMessage (addr data : BitVec 32) (k : Nat) : BitVec 8 :=
  ((addr ++ data).extractLsb' (8 * (7 - k)) 8)

theorem blankBoard_positive (c : Chan) : Setting.PositiveScales c blankBoard :=
  ⟨by norm_num [blankBoard], blankBoard_factors _⟩

theorem volt_trunc : trunc (Setting.converted .ps3 blankBoard
    (msgWord (wordMessage 196 0x3F800000) 1) (.thresh .ovv)) = 3276 := by
  decide +kernel

/-- A threshold of one volt is shown. -/
theorem volt_shown : ShownAsCommanded (fun _ => 0) .ps3 (.thresh .ovv)
    (wordMessage 196 0x3F800000) blankBoard := by
  refine (shown_as_commanded_iff (fun _ => 0) .ps3 (.thresh .ovv) (wordMessage 196 0x3F800000)
    blankBoard (by decide) (blankBoard_positive .ps3) ?_).2 ?_
  · rw [volt_trunc]
    exact ⟨by decide, by decide⟩
  · change 0 ≤ trunc _ ∧ trunc _ ≤ 32767
    rw [volt_trunc]
    exact ⟨by decide, by decide⟩

/-- The second output is switched on and shown as off. -/
theorem on2_not_shown :
    msgWord (wordMessage 272 1) 0 = (Setting.msg (.digout .on2)).addr ∧
    msgWord (wordMessage 272 1) 1 = 1 ∧
    Setting.PositiveScales .ps1 blankBoard ∧
    Setting.Fits (trunc (Setting.converted .ps1 blankBoard 1 (.digout .on2))) (.digout .on2) ∧
    ¬ ShownAsCommanded (fun _ => 0) .ps1 (.digout .on2) (wordMessage 272 1) blankBoard := by
  have address : msgWord (wordMessage 272 1) 0 = (Setting.msg (.digout .on2)).addr := by
    decide
  refine ⟨address, by decide, blankBoard_positive .ps1, ⟨by decide +kernel, by decide +kernel⟩, ?_⟩
  intro shown
  have agrees := (shownAsCommanded_iff address (blankBoard_positive .ps1)).1 shown fun _ => 0
  have small : (msgWord (wordMessage 272 1) 1).toNat < 2 := by
    decide
  rw [digout_step] at agrees
  have bit := ((agrees_digout .on2 small).1 agrees).1 (by decide)
  exact absurd bit (by decide)

end PscDigpid.Sw
