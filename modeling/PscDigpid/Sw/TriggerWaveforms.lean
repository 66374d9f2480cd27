/- Unit: PscDigpid/Sw/TriggerWaveforms
   layer: result
   source: src/sw/src/snapshots.c (ProcessTrigger, CheckforTriggers, SendWfmData, snapshot_push)
   digest: One waveform for each trigger, a fixed number of passes after it, from its address. -/

import PscDigpid.Sw.SnapshotPush

set_option autoImplicit false
set_option relaxedAutoImplicit false

namespace PscDigpid.Sw

open PscDigpid.Sync

section Entry

variable {trig : TriggerInfo} {pointer : BitVec 32}

theorem checkTrigger_active (active : trig.active = 1) : checkTrigger trig pointer =
    if trig.postdlycnt < trig.posttrigpts / 1000 then
      { trig with postdlycnt := trig.postdlycnt + 1 }
    else { trig with sendbuf := 1 } := by
  have busy : trig.active ≠ 0 := by
    rw [active]
    decide
  rw [checkTrigger, if_neg busy, processTrigger, activate, if_neg fun both => busy both.2,
    countPass, if_pos active]

theorem checkTrigger_same (idle : trig.active = 0) (same : pointer = trig.addrLast) :
    checkTrigger trig pointer = { trig with addr := pointer } := by
  have quiet : (0 : BitVec 32) ≠ 1 := by decide
  rw [checkTrigger, if_pos idle, processTrigger, activate, if_neg fun both => both.1 same,
    countPass, if_neg]
  rw [idle]
  exact quiet

theorem checkTrigger_new (idle : trig.active = 0) (new : pointer ≠ trig.addrLast)
    (delay : 0 < trig.posttrigpts / 1000) : checkTrigger trig pointer =
      { trig with addr := pointer, active := 1, addrLast := pointer, postdlycnt := 1 } := by
  rw [checkTrigger, if_pos idle, processTrigger, activate, if_pos ⟨new, idle⟩, countPass,
    if_pos rfl, if_pos delay]
  rfl

/-- The fields of an entry that are set once. -/
def TriggerInfo.settings (trig : TriggerInfo) : BitVec 32 × BitVec 32 × BitVec 32 × BitVec 32 :=
  (trig.pretrigpts, trig.posttrigpts, trig.msgID, trig.channum)

theorem settings_checkTrigger : (checkTrigger trig pointer).settings = trig.settings := by
  have kept (trig : TriggerInfo) : (processTrigger trig).settings = trig.settings := by
    rw [processTrigger, countPass, activate]
    split_ifs <;> rfl
  rw [checkTrigger, kept]
  split_ifs
  · rfl
  · rfl

theorem addr_sendWfmData (trig : TriggerInfo) : (sendWfmData trig).addr = trig.addr := rfl

theorem settings_sendWfmData (trig : TriggerInfo) : (sendWfmData trig).settings = trig.settings :=
  rfl

theorem settings_settled : (settled trig).settings = trig.settings := by
  rw [settled]
  split_ifs
  · exact settings_sendWfmData trig
  · rfl

/-- The message is made from the settings and the address alone. -/
theorem waveform_congr {other : TriggerInfo} (mem : BitVec 32 → BitVec 32) (b : Board)
    (settings : trig.settings = other.settings) (addr : trig.addr = other.addr) :
    waveform mem b trig = waveform mem b other := by
  obtain ⟨pre, rest⟩ := Prod.mk.inj settings
  obtain ⟨post, rest⟩ := Prod.mk.inj rest
  obtain ⟨msg, chan⟩ := Prod.mk.inj rest
  rw [waveform, waveform, readDMABuf, readDMABuf, segments, segments, pre, post, msg, chan, addr]

end Entry

section Runs

variable (pointers : Nat → TrigEntry → BitVec 32) (e : TrigEntry)

/-- How many passes an entry waits. -/
def waits (e : TrigEntry) : Nat := ((initTriggerInfo e).posttrigpts / 1000).toNat

/-- Pass `k` makes the entry active. -/
def Activated (k : Nat) : Prop :=
  (atPass pointers k e).active = 0 ∧ (checkedAt pointers k e).active = 1

instance (k : Nat) : Decidable (Activated pointers e k) := inferInstanceAs (Decidable (_ ∧ _))

/-- The entry is sent in pass `k`. -/
def SentAt (k : Nat) : Prop := ∃ trig, ⟨e, trig⟩ ∈ callsAt pointers k

/-- Before pass `k` the entry waits since pass `a` made it active. -/
structure Waiting (a k : Nat) : Prop where
  after : a < k
  within : k ≤ a + waits e
  active : (atPass pointers k e).active = 1
  sendbuf : (atPass pointers k e).sendbuf = 0
  count : (atPass pointers k e).postdlycnt.toNat = k - a
  addr : (atPass pointers k e).addr = pointers a e

/-- Where an entry is before pass `k`. -/
inductive Phase (k : Nat) : Prop
  | idle (active : (atPass pointers k e).active = 0) (sendbuf : (atPass pointers k e).sendbuf = 0)
  | waiting {a : Nat} (activated : Activated pointers e a) (waiting : Waiting pointers e a k)

end Runs

section Runs

variable {pointers : Nat → TrigEntry → BitVec 32} {e : TrigEntry} {k : Nat}

theorem settings_atPass (k : Nat) :
    (atPass pointers k e).settings = (initTriggerInfo e).settings := by
  induction k with
  | zero => rfl
  | succ k ih => rw [atPass_succ, settings_settled, checkedAt_eq, settings_checkTrigger, ih]

theorem posttrigpts_atPass (k : Nat) :
    (atPass pointers k e).posttrigpts = (initTriggerInfo e).posttrigpts :=
  congrArg (fun settings => settings.2.1) (settings_atPass k)

theorem waits_cases (e : TrigEntry) : waits e = if e.1 = .inj then 8 else 50 := by
  have points : (initTriggerInfo e).posttrigpts = if e.1 = .inj then 8000 else 50000 := rfl
  rw [waits, points]
  split_ifs
  · decide
  · decide

theorem waits_pos (e : TrigEntry) : 0 < waits e := by
  rw [waits_cases]
  split_ifs
  · exact Nat.succ_pos 7
  · exact Nat.succ_pos 49

theorem waits_small (e : TrigEntry) : waits e ≤ 50 := by
  rw [waits_cases]
  split_ifs
  · exact Nat.le_of_ble_eq_true rfl
  · exact Nat.le_refl 50

theorem delay_pos (k : Nat) : 0 < (atPass pointers k e).posttrigpts / 1000 := by
  rw [posttrigpts_atPass, BitVec.lt_def]
  exact waits_pos e

theorem settled_of_sendbuf {trig : TriggerInfo} (sendbuf : trig.sendbuf = 0) :
    settled trig = trig := by
  rw [settled, if_neg]
  rw [sendbuf]
  decide

theorem Phase.sendbuf (phase : Phase pointers e k) : (atPass pointers k e).sendbuf = 0 := by
  cases phase with
  | idle active sendbuf => exact sendbuf
  | waiting activated waiting => exact waiting.sendbuf

/-- What a pass that makes an entry active leaves. -/
theorem Activated.checked (activated : Activated pointers e k)
    (sendbuf : (atPass pointers k e).sendbuf = 0) :
    pointers k e ≠ (atPass pointers k e).addrLast ∧
      (checkedAt pointers k e).postdlycnt = 1 ∧ (checkedAt pointers k e).sendbuf = 0 ∧
      (checkedAt pointers k e).addr = pointers k e := by
  obtain ⟨idle, active⟩ := activated
  have new : pointers k e ≠ (atPass pointers k e).addrLast := by
    intro same
    rw [checkedAt_eq, checkTrigger_same idle same, idle] at active
    exact absurd active (by decide)
  refine ⟨new, ?_⟩
  rw [checkedAt_eq, checkTrigger_new idle new (delay_pos k)]
  exact ⟨rfl, sendbuf, rfl⟩

theorem Activated.next (activated : Activated pointers e k)
    (sendbuf : (atPass pointers k e).sendbuf = 0) : Waiting pointers e k (k + 1) := by
  obtain ⟨-, count, unsent, addr⟩ := activated.checked sendbuf
  have kept : atPass pointers (k + 1) e = checkedAt pointers k e := by
    rw [atPass_succ, settled_of_sendbuf unsent]
  have positive := waits_pos e
  refine ⟨Nat.lt_succ_self k, by omega, ?_, ?_, ?_, ?_⟩
  · rw [kept]
    exact activated.2
  · rw [kept]
    exact unsent
  · rw [kept, count, Nat.add_sub_cancel_left]
    rfl
  · rw [kept]
    exact addr

/-- A pass of an entry that waits: it goes on counting, or asks to be sent. -/
theorem Waiting.checked {a : Nat} (waiting : Waiting pointers e a k) : checkedAt pointers k e =
    if k < a + waits e then
      { atPass pointers k e with postdlycnt := (atPass pointers k e).postdlycnt + 1 }
    else { atPass pointers k e with sendbuf := 1 } := by
  have after := waiting.after
  have sooner : (atPass pointers k e).postdlycnt < (atPass pointers k e).posttrigpts / 1000 ↔
      k < a + waits e := by
    rw [posttrigpts_atPass, BitVec.lt_def, waiting.count]
    change _ < waits e ↔ _
    omega
  rw [checkedAt_eq, checkTrigger_active waiting.active]
  by_cases early : k < a + waits e
  · rw [if_pos early, if_pos (sooner.2 early)]
  · rw [if_neg early, if_neg fun less => early (sooner.1 less)]

theorem Waiting.next {a : Nat} (waiting : Waiting pointers e a k) (early : k < a + waits e) :
    Waiting pointers e a (k + 1) := by
  have checked := waiting.checked
  rw [if_pos early] at checked
  have kept : atPass pointers (k + 1) e = checkedAt pointers k e := by
    rw [atPass_succ, settled_of_sendbuf]
    rw [checked]
    exact waiting.sendbuf
  have small := waits_small e
  have after := waiting.after
  refine ⟨Nat.lt_succ_of_lt after, early, ?_, ?_, ?_, ?_⟩
  · rw [kept, checked]
    exact waiting.active
  · rw [kept, checked]
    exact waiting.sendbuf
  · rw [kept, checked]
    change ((atPass pointers k e).postdlycnt + 1).toNat = _
    rw [BitVec.toNat_add, waiting.count]
    change (k - a + 1) % _ = _
    omega
  · rw [kept, checked]
    exact waiting.addr

/-- After a send both flags are clear. -/
theorem cleared_of_sendbuf (asks : (checkedAt pointers k e).sendbuf = 1) :
    (atPass pointers (k + 1) e).active = 0 ∧ (atPass pointers (k + 1) e).sendbuf = 0 := by
  rw [atPass_succ, settled, if_pos asks]
  exact ⟨rfl, rfl⟩

/-- An idle entry that reads its last pointer again stays idle. -/
theorem idle_checked (active : (atPass pointers k e).active = 0) :
    Activated pointers e k ∨
      checkedAt pointers k e = { atPass pointers k e with addr := pointers k e } := by
  by_cases same : pointers k e = (atPass pointers k e).addrLast
  · right
    exact checkTrigger_same active same
  · left
    refine ⟨active, ?_⟩
    rw [checkedAt_eq, checkTrigger_new active same (delay_pos k)]

theorem Phase.step (phase : Phase pointers e k) : Phase pointers e (k + 1) := by
  cases phase with
  | idle active sendbuf =>
      rcases idle_checked active with activated | checked
      · exact .waiting activated (activated.next sendbuf)
      · have kept : atPass pointers (k + 1) e = checkedAt pointers k e := by
          rw [atPass_succ, settled_of_sendbuf]
          rw [checked]
          exact sendbuf
        refine .idle ?_ ?_
        · rw [kept, checked]
          exact active
        · rw [kept, checked]
          exact sendbuf
  | @waiting a activated waiting =>
      by_cases early : k < a + waits e
      · exact .waiting activated (waiting.next early)
      · have checked := waiting.checked
        rw [if_neg early] at checked
        have asks : (checkedAt pointers k e).sendbuf = 1 := by rw [checked]
        obtain ⟨active, sendbuf⟩ := cleared_of_sendbuf asks
        exact .idle active sendbuf

theorem phase_run (pointers : Nat → TrigEntry → BitVec 32) (e : TrigEntry) (k : Nat) :
    Phase pointers e k := by
  induction k with
  | zero => exact .idle rfl rfl
  | succ k ih => exact ih.step

/-- From the pass that makes it active an entry waits for its time. -/
theorem Activated.waiting {a : Nat} (activated : Activated pointers e a) (after : a < k)
    (within : k ≤ a + waits e) : Waiting pointers e a k := by
  induction k, after using Nat.le_induction with
  | base => exact activated.next (phase_run pointers e a).sendbuf
  | succ k after ih => exact (ih (Nat.le_of_succ_le within)).next within

/-- An entry asks to be sent when its time is over. -/
theorem asks_iff : (checkedAt pointers k e).sendbuf = 1 ↔
    ∃ a, Activated pointers e a ∧ k = a + waits e := by
  have clear : (0 : BitVec 32) ≠ 1 := by decide
  constructor
  · intro asks
    cases phase_run pointers e k with
    | idle active sendbuf =>
        exfalso
        rcases idle_checked active with activated | checked
        · rw [(activated.checked sendbuf).2.2.1] at asks
          exact clear asks
        · rw [checked] at asks
          exact clear (sendbuf.symm.trans asks)
    | @waiting a activated waiting =>
        refine ⟨a, activated, Nat.le_antisymm waiting.within (Nat.le_of_not_lt fun early => ?_)⟩
        rw [waiting.checked, if_pos early] at asks
        exact clear (waiting.sendbuf.symm.trans asks)
  · rintro ⟨a, activated, rfl⟩
    have positive := waits_pos e
    have waiting := activated.waiting (k := a + waits e) (by omega) (Nat.le_refl _)
    rw [waiting.checked, if_neg (Nat.lt_irrefl _)]

theorem sentAt_iff : SentAt pointers e k ↔ (checkedAt pointers k e).sendbuf = 1 := by
  constructor
  · rintro ⟨trig, member⟩
    exact ((mem_callsAt pointers k e trig).1 member).1
  · intro asks
    exact ⟨_, (mem_callsAt pointers k e _).2 ⟨asks, rfl⟩⟩

end Runs

/-- What one entry does in every run: an idle one becomes active when it reads a pointer other than
the last one that made it active, and stays so for its number of passes; its address stays while it
is active; it asks to be sent only when active; it is sent in the passes that come its number of
passes after those that made it active, once, from the address read then; between two sends a new
pointer was read; and a send leaves both flags clear. -/
structure OneWaveform (pointers : Nat → TrigEntry → BitVec 32) (e : TrigEntry) : Prop where
  begins : (atPass pointers 0 e).active = 0 ∧ (atPass pointers 0 e).addrLast = 0
  flag : ∀ k, (atPass pointers k e).active = 0 ∨ (atPass pointers k e).active = 1
  activates : ∀ k, Activated pointers e k ↔
    (atPass pointers k e).active = 0 ∧ pointers k e ≠ (atPass pointers k e).addrLast
  last : ∀ k, (atPass pointers (k + 1) e).addrLast =
    if Activated pointers e k then pointers k e else (atPass pointers k e).addrLast
  active : ∀ k, (atPass pointers k e).active = 1 ↔ ∃ a, Activated pointers e a ∧ a < k ∧
    k ≤ a + ((initTriggerInfo e).posttrigpts / 1000).toNat
  frozen : ∀ k, (atPass pointers k e).active = 1 →
    (checkedAt pointers k e).addr = (atPass pointers k e).addr
  kept : ∀ k, (atPass pointers (k + 1) e).addr = (checkedAt pointers k e).addr
  asking : ∀ k, ((atPass pointers k e).sendbuf = 1 → (atPass pointers k e).active = 1) ∧
    ((checkedAt pointers k e).sendbuf = 1 → (checkedAt pointers k e).active = 1)
  points : ∀ k, (atPass pointers k e).posttrigpts = (initTriggerInfo e).posttrigpts
  sent : ∀ k, SentAt pointers e k ↔ ∃ a, Activated pointers e a ∧
    k = a + ((initTriggerInfo e).posttrigpts / 1000).toNat
  once : ∀ k, ((callsAt pointers k).map SendCall.entry).Nodup
  address : ∀ a trig, Activated pointers e a →
    ⟨e, trig⟩ ∈ callsAt pointers (a + ((initTriggerInfo e).posttrigpts / 1000).toNat) →
      trig.addr = pointers a e ∧ ∀ mem b,
        waveform mem b trig = waveform mem b { initTriggerInfo e with addr := pointers a e }
  between : ∀ m n, m < n → SentAt pointers e m → SentAt pointers e n →
    ∃ k, m < k ∧ k ≤ n ∧ (atPass pointers k e).active = 0 ∧
      pointers k e ≠ (atPass pointers k e).addrLast
  cleared : ∀ k, SentAt pointers e k →
    (atPass pointers (k + 1) e).active = 0 ∧ (atPass pointers (k + 1) e).sendbuf = 0

section Runs

variable {pointers : Nat → TrigEntry → BitVec 32} {e : TrigEntry} {k : Nat}

theorem addr_of_active (active : (atPass pointers k e).active = 1) :
    (checkedAt pointers k e).addr = (atPass pointers k e).addr := by
  rw [checkedAt_eq, checkTrigger_active active]
  split_ifs
  · rfl
  · rfl

theorem addr_settled (trig : TriggerInfo) : (settled trig).addr = trig.addr := by
  rw [settled]
  split_ifs
  · exact addr_sendWfmData trig
  · rfl

theorem active_of_asks (asks : (checkedAt pointers k e).sendbuf = 1) :
    (checkedAt pointers k e).active = 1 := by
  obtain ⟨a, activated, rfl⟩ := asks_iff.1 asks
  have positive := waits_pos e
  have waiting := activated.waiting (k := a + waits e) (by omega) (Nat.le_refl _)
  rw [waiting.checked, if_neg (Nat.lt_irrefl _)]
  exact waiting.active

/-- The entry as it is sent has its settings and the address of the pass that made it active. -/
theorem sent_from {a : Nat} {trig : TriggerInfo} (activated : Activated pointers e a)
    (member : ⟨e, trig⟩ ∈ callsAt pointers (a + waits e)) :
    trig.addr = pointers a e ∧ trig.settings = (initTriggerInfo e).settings := by
  obtain ⟨-, rfl⟩ := (mem_callsAt pointers _ e trig).1 member
  have positive := waits_pos e
  have waiting := activated.waiting (k := a + waits e) (by omega) (Nat.le_refl _)
  refine ⟨?_, ?_⟩
  · rw [addr_sendWfmData, addr_of_active waiting.active, waiting.addr]
  · rw [settings_sendWfmData, checkedAt_eq, settings_checkTrigger, settings_atPass]

/-- An idle entry is made active by a new pointer. -/
theorem activated_iff (idle : (atPass pointers k e).active = 0) :
    Activated pointers e k ↔ pointers k e ≠ (atPass pointers k e).addrLast := by
  constructor
  · intro activated
    exact (activated.checked (phase_run pointers e k).sendbuf).1
  · intro new
    refine ⟨idle, ?_⟩
    rw [checkedAt_eq, checkTrigger_new idle new (delay_pos k)]

theorem addrLast_settled (trig : TriggerInfo) : (settled trig).addrLast = trig.addrLast := by
  rw [settled]
  split_ifs
  · rfl
  · rfl

/-- An entry's last pointer is taken by the passes that make it active. -/
theorem addrLast_succ (k : Nat) : (atPass pointers (k + 1) e).addrLast =
    if Activated pointers e k then pointers k e else (atPass pointers k e).addrLast := by
  rw [atPass_succ, addrLast_settled]
  by_cases activated : Activated pointers e k
  · have new := (activated_iff activated.1).1 activated
    rw [if_pos activated, checkedAt_eq, checkTrigger_new activated.1 new (delay_pos k)]
  · rw [if_neg activated]
    cases phase_run pointers e k with
    | idle active sendbuf =>
        rw [(idle_checked active).resolve_left activated]
    | waiting activated waiting =>
        rw [waiting.checked]
        split_ifs
        · rfl
        · rfl

/-- An entry is active while it waits. -/
theorem active_iff : (atPass pointers k e).active = 1 ↔
    ∃ a, Activated pointers e a ∧ a < k ∧ k ≤ a + waits e := by
  constructor
  · intro active
    cases phase_run pointers e k with
    | idle idle sendbuf =>
        rw [idle] at active
        exact absurd active (by decide)
    | @waiting a activated waiting => exact ⟨a, activated, waiting.after, waiting.within⟩
  · rintro ⟨a, activated, after, within⟩
    exact (activated.waiting after within).active

theorem Phase.flag (phase : Phase pointers e k) :
    (atPass pointers k e).active = 0 ∨ (atPass pointers k e).active = 1 := by
  cases phase with
  | idle active sendbuf => exact .inl active
  | waiting activated waiting => exact .inr waiting.active

/-- A pass that makes an entry active comes after the sends for the passes before it. -/
theorem Activated.later {a b : Nat} (first : Activated pointers e a)
    (second : Activated pointers e b) (before : a < b) : a + waits e < b := by
  by_contra within
  have active := (first.waiting before (Nat.le_of_not_lt within)).active
  rw [second.1] at active
  exact absurd active (by decide)

end Runs

/-- Whatever is read from the pointers, every entry keeps the law. -/
theorem one_waveform (pointers : Nat → TrigEntry → BitVec 32) (e : TrigEntry) :
    OneWaveform pointers e := by
  refine ⟨⟨rfl, rfl⟩, fun k => (phase_run pointers e k).flag, ?_, addrLast_succ,
    fun k => active_iff, fun k => addr_of_active, ?_, ?_, posttrigpts_atPass,
    fun k => sentAt_iff.trans asks_iff, ?_, ?_, ?_,
    fun k sent => cleared_of_sendbuf (sentAt_iff.1 sent)⟩
  · intro k
    constructor
    · intro activated
      exact ⟨activated.1, (activated_iff activated.1).1 activated⟩
    · rintro ⟨idle, new⟩
      exact (activated_iff idle).2 new
  · intro k
    rw [atPass_succ, addr_settled]
  · intro k
    refine ⟨?_, active_of_asks⟩
    intro asks
    rw [(phase_run pointers e k).sendbuf] at asks
    exact absurd asks (by decide)
  · intro k
    rw [callsAt_eq, List.map_map]
    exact (nodup_sendOrder.filter _).map fun _ _ same => same
  · intro a trig activated member
    obtain ⟨addr, settings⟩ := sent_from activated member
    exact ⟨addr, fun mem b => waveform_congr mem b settings addr⟩
  · intro m n before first second
    obtain ⟨a, activated, rfl⟩ := asks_iff.1 (sentAt_iff.1 first)
    obtain ⟨b, again, rfl⟩ := asks_iff.1 (sentAt_iff.1 second)
    refine ⟨b, activated.later again (by omega), Nat.le_add_right _ _, again.1, ?_⟩
    exact (again.checked (phase_run pointers e b).sendbuf).1

/-- The injection pointer of the third channel moves before the second pass and once more while
the entry waits. -/
def movingPointer (k : Nat) (e : TrigEntry) : BitVec 32 :=
  if e = (.inj, 2) then (if k = 0 then 0 else if k < 5 then 0x10000140 else 0x100001E0) else 0

/-- The first move is sent eight passes after it was read and the other one nine passes later,
each from its own address. -/
theorem moving_pointer_sent :
    (∃ trig, ⟨(.inj, 2), trig⟩ ∈ callsAt movingPointer 9 ∧ trig.addr = 0x10000140) ∧
      (∃ trig, ⟨(.inj, 2), trig⟩ ∈ callsAt movingPointer 18 ∧ trig.addr = 0x100001E0) ∧
      ¬ SentAt movingPointer (.inj, 2) 10 := by
  have law := one_waveform movingPointer (.inj, 2)
  have first : Activated movingPointer (.inj, 2) 1 := (law.activates 1).2 ⟨rfl, by decide⟩
  have second : Activated movingPointer (.inj, 2) 10 := by
    decide +kernel
  obtain ⟨sent, member⟩ := (law.sent 9).2 ⟨1, first, rfl⟩
  obtain ⟨again, member_again⟩ := (law.sent 18).2 ⟨10, second, rfl⟩
  refine ⟨⟨sent, member, (law.address 1 sent first member).1⟩,
    ⟨again, member_again, (law.address 10 again second member_again).1⟩, ?_⟩
  intro early
  obtain ⟨a, activated, at_pass⟩ := (law.sent 10).1 early
  have place : a = 2 := by
    change 10 = a + 8 at at_pass
    omega
  have busy := (law.active 2).2 ⟨1, first, by decide, by decide⟩
  rw [← place, activated.1] at busy
  exact absurd busy (by decide)

end PscDigpid.Sw
