/- Unit: PscDigpid/Sw/SnapshotPush
   layer: model
   source: src/sw/src/snapshots.c (CheckforTriggers to snapshot_push), src/sw/src/snapshot.h
   digest: The loop that polls the trigger pointers and sends a waveform for each trigger. -/

import Mathlib.Data.List.FinRange
import PscDigpid.Sw.Snapshots
import PscDigpid.Sync.Run

set_option autoImplicit false
set_option relaxedAutoImplicit false

namespace PscDigpid.Sw

open PscDigpid.Sync

inductive TrigKind
  | usr | flt | err | inj | evr
  deriving DecidableEq

/-- A trigger entry: its kind and its place among the four channels. -/
abbrev TrigEntry := TrigKind × Fin 4

/-- The entries of all kinds. -/
abbrev TriggerTypes := TrigEntry → TriggerInfo

section Registers

/-- The register each entry's pointer is read from. The event receiver's is one for the four
channels. -/
def trigBufptr : TrigEntry → BitVec 32
  | (.usr, i) => 0xA20 + 0x10 * BitVec.ofNat 32 i
  | (.flt, i) => 0xA60 + 0x10 * BitVec.ofNat 32 i
  | (.err, i) => 0xAA0 + 0x10 * BitVec.ofNat 32 i
  | (.inj, i) => 0xAE0 + 0x10 * BitVec.ofNat 32 i
  | (.evr, _) => 0xB20

end Registers

section Entries

/-- The identifier of the first channel's waveform of each kind. -/
def msgCh1 : TrigKind → BitVec 32
  | .usr => 60
  | .flt => 70
  | .err => 80
  | .inj => 90
  | .evr => 100

def initTriggerInfo : TriggerTypes := fun (kind, i) =>
  { addr := 0
    addrLast := 0
    pretrigpts := if kind = .inj then 0 else 50000
    posttrigpts := if kind = .inj then 8000 else 50000
    active := 0
    postdlycnt := 0
    sendbuf := 0
    msgID := msgCh1 kind + BitVec.ofNat 32 i
    channum := BitVec.ofNat 32 i + 1 }

/-- A new pointer activates an entry that is not. -/
def activate (trig : TriggerInfo) : TriggerInfo :=
  if trig.addr ≠ trig.addrLast ∧ trig.active = 0 then
    { trig with active := 1, addrLast := trig.addr, postdlycnt := 0 }
  else trig

/-- An active entry counts its passes first and then asks to be sent. -/
def countPass (trig : TriggerInfo) : TriggerInfo :=
  if trig.active = 1 then
    if trig.postdlycnt < trig.posttrigpts / 1000 then
      { trig with postdlycnt := trig.postdlycnt + 1 }
    else { trig with sendbuf := 1 }
  else trig

def processTrigger (trig : TriggerInfo) : TriggerInfo := countPass (activate trig)

/-- The pointer of an active entry is not read. -/
def checkTrigger (trig : TriggerInfo) (pointer : BitVec 32) : TriggerInfo :=
  processTrigger (if trig.active = 0 then { trig with addr := pointer } else trig)

/-- Each entry with the value its own read returns. -/
def checkforTriggers (trig : TriggerTypes) (pointers : TrigEntry → BitVec 32) : TriggerTypes :=
  fun e => checkTrigger (trig e) (pointers e)

/-- What sending does to the entry; the message is `waveform` of the entry as it is left. -/
def sendWfmData (trig : TriggerInfo) : TriggerInfo := { trig with sendbuf := 0, active := 0 }

/-- The identifier and the numbers of an entry's message. -/
def waveform (mem : BitVec 32 → BitVec 32) (b : Board) (trig : TriggerInfo) :
    BitVec 32 × List Cell :=
  (trig.msgID, readDMABuf mem b trig)

end Entries

section Loop

/-- A call of `SendWfmData`, with the entry as the message is made from it. -/
structure SendCall where
  entry : TrigEntry
  trig : TriggerInfo

/-- The entries in the order in which they are sent. -/
def sendOrder : List TrigEntry :=
  (List.finRange 4).flatMap fun i => [(.usr, i), (.flt, i), (.err, i), (.inj, i), (.evr, i)]

def sendEntry (s : TriggerTypes × List SendCall) (e : TrigEntry) :
    TriggerTypes × List SendCall :=
  if (s.1 e).sendbuf = 1 then
    (Function.update s.1 e (sendWfmData (s.1 e)), s.2 ++ [⟨e, sendWfmData (s.1 e)⟩])
  else s

def sendAll (trig : TriggerTypes) : TriggerTypes × List SendCall :=
  sendOrder.foldl sendEntry (trig, [])

/-- One pass of the loop of `snapshot_push`, with the values read from the pointers. -/
def snapshotPass (trig : TriggerTypes) (pointers : TrigEntry → BitVec 32) :
    TriggerTypes × List SendCall :=
  sendAll (checkforTriggers trig pointers)

variable (pointers : Nat → TrigEntry → BitVec 32) (k : Nat)

/-- The entries before pass `k`. -/
def atPass : TriggerTypes :=
  run (fun trig read => (snapshotPass trig read).1) initTriggerInfo pointers k

/-- The entries in pass `k` when the pointers have been read. -/
def checkedAt : TriggerTypes := checkforTriggers (atPass pointers k) (pointers k)

/-- What is sent in pass `k`. -/
def callsAt : List SendCall := (snapshotPass (atPass pointers k) (pointers k)).2

end Loop

section Sending

theorem mem_sendOrder (e : TrigEntry) : e ∈ sendOrder := by
  obtain ⟨kind, i⟩ := e
  apply List.mem_flatMap.2 ⟨i, List.mem_finRange i, ?_⟩
  cases kind with
  | usr => exact List.mem_cons_self
  | flt => exact List.mem_cons_of_mem _ List.mem_cons_self
  | err => exact List.mem_cons_of_mem _ (List.mem_cons_of_mem _ List.mem_cons_self)
  | inj => simp
  | evr => simp

theorem nodup_sendOrder : sendOrder.Nodup := by
  decide

/-- An entry after it had its turn to be sent. -/
def settled (trig : TriggerInfo) : TriggerInfo :=
  if trig.sendbuf = 1 then sendWfmData trig else trig

theorem foldl_sendEntry (entries : List TrigEntry) (nodup : entries.Nodup)
    (s : TriggerTypes × List SendCall) :
    (∀ e, (entries.foldl sendEntry s).1 e = if e ∈ entries then settled (s.1 e) else s.1 e) ∧
      (entries.foldl sendEntry s).2 = s.2 ++
        (entries.filter fun e => (s.1 e).sendbuf = 1).map fun e => ⟨e, sendWfmData (s.1 e)⟩ := by
  induction entries generalizing s with
  | nil => exact ⟨fun e => (if_neg List.not_mem_nil).symm, (List.append_nil _).symm⟩
  | cons a entries ih =>
      obtain ⟨fresh, nodup_rest⟩ := List.nodup_cons.1 nodup
      obtain ⟨entry, calls⟩ := ih nodup_rest (sendEntry s a)
      have own : (sendEntry s a).1 a = settled (s.1 a) := by
        rw [sendEntry, settled]
        split_ifs
        · exact Function.update_self _ _ _
        · rfl
      have others (e : TrigEntry) (other : e ≠ a) : (sendEntry s a).1 e = s.1 e := by
        rw [sendEntry]
        split_ifs
        · exact Function.update_of_ne other _ _
        · rfl
      have later (e : TrigEntry) (member : e ∈ entries) : (sendEntry s a).1 e = s.1 e := by
        apply others e
        rintro rfl
        exact fresh member
      rw [List.foldl_cons]
      refine ⟨?_, ?_⟩
      · intro e
        rw [entry e]
        by_cases member : e ∈ entries
        · rw [if_pos member, if_pos (List.mem_cons_of_mem a member), later e member]
        · rw [if_neg member]
          by_cases same : e = a
          · rw [same, own, if_pos List.mem_cons_self]
          · rw [others e same, if_neg fun either => (List.mem_cons.1 either).elim same member]
      · have kept : (entries.filter fun e => ((sendEntry s a).1 e).sendbuf = 1) =
            entries.filter fun e => (s.1 e).sendbuf = 1 := by
          apply List.filter_congr
          intro e member
          rw [later e member]
        have made : ((entries.filter fun e => (s.1 e).sendbuf = 1).map fun e =>
              (⟨e, sendWfmData ((sendEntry s a).1 e)⟩ : SendCall)) =
            (entries.filter fun e => (s.1 e).sendbuf = 1).map
              fun e => ⟨e, sendWfmData (s.1 e)⟩ := by
          apply List.map_congr_left
          intro e member
          rw [later e (List.mem_of_mem_filter member)]
        rw [calls, kept, made, sendEntry]
        by_cases asks : (s.1 a).sendbuf = 1
        · rw [if_pos asks, List.filter_cons_of_pos (by simpa using asks), List.map_cons,
            List.append_assoc, List.singleton_append]
        · rw [if_neg asks, List.filter_cons_of_neg (by simpa using asks)]

variable (pointers : Nat → TrigEntry → BitVec 32) (k : Nat) (e : TrigEntry)

/-- Each entry goes through the loop on its own. -/
theorem atPass_succ : atPass pointers (k + 1) e = settled (checkedAt pointers k e) := by
  rw [atPass, run_succ, snapshotPass, sendAll,
    (foldl_sendEntry sendOrder nodup_sendOrder (_, [])).1 e, if_pos (mem_sendOrder e)]
  rfl

/-- An entry is sent in a pass when it asks for it, once. -/
theorem callsAt_eq : callsAt pointers k =
    (sendOrder.filter fun e => (checkedAt pointers k e).sendbuf = 1).map
      fun e => ⟨e, sendWfmData (checkedAt pointers k e)⟩ := by
  rw [callsAt, snapshotPass, sendAll, (foldl_sendEntry sendOrder nodup_sendOrder (_, [])).2,
    List.nil_append]
  rfl

theorem mem_callsAt (trig : TriggerInfo) : ⟨e, trig⟩ ∈ callsAt pointers k ↔
    (checkedAt pointers k e).sendbuf = 1 ∧ trig = sendWfmData (checkedAt pointers k e) := by
  rw [callsAt_eq, List.mem_map]
  constructor
  · rintro ⟨entry, member, same⟩
    obtain ⟨rfl, rfl⟩ := SendCall.mk.inj same
    exact ⟨of_decide_eq_true (List.mem_filter.1 member).2, rfl⟩
  · rintro ⟨asks, rfl⟩
    exact ⟨e, List.mem_filter.2 ⟨mem_sendOrder e, decide_eq_true asks⟩, rfl⟩

theorem checkedAt_eq : checkedAt pointers k e = checkTrigger (atPass pointers k e) (pointers k e) :=
  rfl

end Sending

end PscDigpid.Sw
