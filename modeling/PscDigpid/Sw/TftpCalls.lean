/- Unit: PscDigpid/Sw/TftpCalls
   layer: result
   source: src/sw/src/tftp_server.c
   digest: The order of the callbacks in every run, and the end of an abandoned session. -/

import PscDigpid.Sw.TftpUpload

set_option autoImplicit false
set_option relaxedAutoImplicit false

namespace PscDigpid.Sw.Tftp

open PscDigpid.Sync

/-- A callback that the server has made; an `open` that has failed is none. -/
inductive Call
  | opened (write : Bool)
  | read
  | write
  | close
  deriving DecidableEq

/-- The callbacks with a record of them. -/
def recorded {φ : Type} (ctx : Context φ) : Context (φ × List Call) where
  openFile s fname mode write :=
    let r := ctx.openFile s.1 fname mode write
    (r.1, (r.2, if r.1 then s.2 ++ [.opened write] else s.2))
  closeFile s := (ctx.closeFile s.1, s.2 ++ [.close])
  readFile s n :=
    let r := ctx.readFile s.1 n
    (r.1, (r.2, s.2 ++ [.read]))
  writeFile s chain :=
    let r := ctx.writeFile s.1 chain
    (r.1, (r.2, s.2 ++ [.write]))

/-- What a file may go through: it is open for one of the two uses, or not at all. -/
def nextUse : Option (Option Bool) → Call → Option (Option Bool)
  | some none, .opened write => some (some write)
  | some (some false), .read => some (some false)
  | some (some true), .write => some (some true)
  | some (some _), .close => some none
  | _, _ => none

/-- The use the file is open for, if every call had its place. -/
def usage (calls : List Call) : Option (Option Bool) := calls.foldl nextUse (some none)

theorem usage_snoc (calls : List Call) (c : Call) :
    usage (calls ++ [c]) = nextUse (usage calls) c := by
  rw [usage, List.foldl_append]
  rfl

section Calls

variable {φ : Type} {ctx : Context φ} {room : Room} {s : State (φ × List Call)}

/-- The calls so far agree with the state of the server. -/
def Orderly (s : State (φ × List Call)) : Prop :=
  usage s.file.2 = some (if s.handle then some s.modeWrite else none)

theorem closeHandle_orderly (ctx : Context φ) (orderly : Orderly s) :
    Orderly (closeHandle (recorded ctx) s) := by
  rw [Orderly] at orderly
  cases isOpen : s.handle with
  | false =>
    rw [isOpen] at orderly
    rw [Orderly, closeHandle, isOpen]
    exact orderly
  | true =>
    rw [isOpen, if_pos rfl] at orderly
    rw [Orderly, closeHandle, isOpen]
    dsimp only
    rw [if_pos rfl, recorded, usage_snoc, orderly]
    cases s.modeWrite with
    | false => rfl
    | true => rfl

theorem sendData_orderly (orderly : Orderly s) (isOpen : s.handle = true)
    (reading : s.modeWrite = false) : Orderly (sendData (recorded ctx) room s).1 := by
  rw [Orderly, isOpen, reading, if_pos rfl] at orderly
  have read : Orderly { s with file := ((ctx.readFile s.file.1 512).2, s.file.2 ++ [.read]) } := by
    rw [Orderly, usage_snoc, orderly, isOpen, reading]
    rfl
  rw [sendData]
  split_ifs
  · have heard : (recorded ctx).readFile s.file tftpMaxPayloadSize =
        ((ctx.readFile s.file.1 512).1, ((ctx.readFile s.file.1 512).2, s.file.2 ++ [.read])) :=
      rfl
    rw [heard]
    cases (ctx.readFile s.file.1 512).1 with
    | none => exact closeHandle_orderly ctx read
    | some bytes => exact read
  · rw [Orderly, isOpen, reading]
    exact orderly

theorem recvRequest_orderly (orderly : Orderly s) (d : Datagram) (write : Bool) :
    Orderly (recvRequest (recorded ctx) room s d write).1 := by
  obtain isOpen | shut := Bool.eq_false_or_eq_true s.handle
  · rw [recvRequest, if_pos isOpen]
    exact orderly
  · rw [recvRequest, if_neg (by simp [shut])]
    dsimp only
    cases d.parse with
    | error str => exact orderly
    | ok both =>
      obtain ⟨fname, mode⟩ := both
      dsimp only
      have heard : (recorded ctx).openFile s.file (cString fname) (cString mode) write =
        ((ctx.openFile s.file.1 (cString fname) (cString mode) write).1,
          ((ctx.openFile s.file.1 (cString fname) (cString mode) write).2,
            if (ctx.openFile s.file.1 (cString fname) (cString mode) write).1 then
              s.file.2 ++ [.opened write] else s.file.2)) := rfl
      rw [Orderly, shut] at orderly
      rw [heard]
      cases (ctx.openFile s.file.1 (cString fname) (cString mode) write).1 with
      | false =>
        rw [Orderly, shut]
        exact orderly
      | true =>
        have now : usage (s.file.2 ++ [.opened write]) = some (some write) := by
          rw [usage_snoc, orderly]
          rfl
        cases write with
        | true => exact now
        | false => exact sendData_orderly now rfl rfl

theorem recvData_orderly (orderly : Orderly s) (d : Datagram) :
    Orderly (recvData (recorded ctx) room s d).1 := by
  obtain isOpen | shut := Bool.eq_false_or_eq_true s.handle
  · obtain writing | reading := Bool.eq_false_or_eq_true s.modeWrite
    · by_cases same : d.word 1 = s.blknum
      · have heard : (recorded ctx).writeFile s.file d.removeHeader =
          ((ctx.writeFile s.file.1 d.removeHeader).1,
            ((ctx.writeFile s.file.1 d.removeHeader).2, s.file.2 ++ [.write])) := rfl
        have wrote : Orderly { s with
            file := ((ctx.writeFile s.file.1 d.removeHeader).2, s.file.2 ++ [.write]) } := by
          rw [Orderly, isOpen, writing, if_pos rfl] at orderly
          rw [Orderly, usage_snoc, orderly, isOpen, writing]
          rfl
        have shutting := closeHandle_orderly ctx wrote
        simp only [recvData, isOpen, writing, same, heard, Bool.not_true, Bool.false_eq_true,
          if_false, if_true]
        rw [isOpen, writing] at wrote shutting
        cases (ctx.writeFile s.file.1 d.removeHeader).1 with
        | false =>
          simp only [Bool.false_eq_true, if_false]
          split_ifs
          · exact closeHandle_orderly ctx shutting
          · exact shutting
        | true =>
          simp only [if_true]
          split_ifs
          · exact shutting
          · exact wrote
      · simp only [recvData, isOpen, writing, same, Bool.not_true, Bool.false_eq_true, if_false]
        split_ifs
        · exact orderly
        · exact orderly
    · rw [recvData, isOpen, reading]
      exact orderly
  · rw [recvData, shut]
    exact orderly

theorem recvAck_orderly (orderly : Orderly s) (d : Datagram) :
    Orderly (recvAck (recorded ctx) room s d).1 := by
  rw [recvAck]
  split_ifs with shut writing other last
  · exact orderly
  · exact orderly
  · exact orderly
  · exact closeHandle_orderly ctx orderly
  · have isOpen : s.handle = true := by simpa using shut
    exact sendData_orderly orderly isOpen (Bool.eq_false_iff.2 writing)

theorem recv_orderly (orderly : Orderly s) (d : Datagram) :
    Orderly (recv (recorded ctx) room s d).1 := by
  have heeds : Orderly (heeded s) := orderly
  rw [recv]
  split_ifs
  · exact orderly
  · exact recvRequest_orderly heeds d false
  · exact recvRequest_orderly heeds d true
  · exact recvData_orderly heeds d
  · exact recvAck_orderly heeds d
  · exact heeds

theorem tftpTmr_orderly (orderly : Orderly s) (n : Nat) :
    Orderly (tftpTmr (recorded ctx) room { s with timeouts := n }).1 := by
  rw [tftpTmr]
  dsimp only
  split_ifs
  · exact orderly
  · exact orderly
  · exact closeHandle_orderly ctx orderly
  · exact orderly

/-- In every run of the server over any callbacks, each file that is opened is closed once before
another one is opened, and it is read only when opened for reading, written only when opened for
writing, and neither after its close. -/
theorem calls_in_order {file : φ} {events : List (Room × Event)} {w : World (φ × List Call)}
    (run : exec (step (recorded ctx)) (tftpInit (file, [])) events = some w) :
    usage w.server.file.2 = some (if w.server.handle then some w.server.modeWrite else none) := by
  refine exec_invariant (P := fun w => Orderly w.server) ?_ ?_ run
  · rintro w ⟨room, event⟩ w' orderly next
    cases event with
    | recv d =>
      rw [step_recv] at next
      obtain rfl := Option.some.inj next
      exact recv_orderly orderly d
    | tmr =>
      simp only [step] at next
      split_ifs at next
      obtain rfl := Option.some.inj next
      exact tftpTmr_orderly orderly _
  · rw [Orderly]
    rfl

/-- The server after the upload of a short file, with the record of its calls. -/
def shortUpload : World ((List Byte × Nat) × List Call) :=
  (exec (step (recorded (ctxt memoryFat))) (tftpInit (([9, 9, 9, 9], 0), []))
    [(plenty, .recv writeRequest), (plenty, .recv shortBlock)]).getD (tftpInit (([], 0), []))

theorem short_upload_calls : shortUpload.server.file.2 = [.opened true, .write, .close] ∧
    usage shortUpload.server.file.2 = some none := by
  have run : exec (step (recorded (ctxt memoryFat))) (tftpInit (([9, 9, 9, 9], 0), []))
    [(plenty, .recv writeRequest), (plenty, .recv shortBlock)] = some shortUpload := rfl
  exact ⟨rfl, calls_in_order run⟩

end Calls

section Abandoned

variable {φ : Type} {ctx : Context φ}

/-- Ticks that an open session outlasts without a datagram from its peer. -/
def patience (s : State φ) : Nat := (timeoutTicks - (s.timer - s.lastPkt)) + (5 - s.retries.toNat)

/-- A tick ends a session or takes of its patience. -/
theorem tick_patience (ctx : Context φ) (room : Room) {s : State φ} (isOpen : s.handle = true)
    (past : s.lastPkt ≤ s.timer) (n : Nat) :
    (tftpTmr ctx room { s with timeouts := n }).1.handle = false ∨
      (tftpTmr ctx room { s with timeouts := n }).1.handle = true ∧
        (tftpTmr ctx room { s with timeouts := n }).1.peer = s.peer ∧
          patience (tftpTmr ctx room { s with timeouts := n }).1 < patience s := by
  obtain ⟨file, handle, kept, peer, timer, lastPkt, blknum, retries, mode, timeouts⟩ := s
  obtain rfl : handle = true := isOpen
  dsimp only at past
  simp only [tftpTmr, Bool.not_true, Bool.false_eq_true, if_false]
  split_ifs with late again
  · refine .inr ⟨rfl, rfl, ?_⟩
    have few : retries.toNat < 5 := of_decide_eq_true (Bool.and_eq_true_iff.1 again).2
    have next : (retries + 1).toNat = retries.toNat + 1 := by
      rw [BitVec.toNat_add]
      change (retries.toNat + 1) % 256 = _
      omega
    dsimp only [patience, timeoutTicks] at late ⊢
    rw [next]
    omega
  · exact .inl rfl
  · refine .inr ⟨rfl, rfl, ?_⟩
    dsimp only [patience, timeoutTicks] at late ⊢
    omega

/-- Nothing comes from the peer. -/
def Silent (peer : Peer) (events : List (Room × Event)) : Prop :=
  ∀ e ∈ events, ∀ d, e.2 = .recv d → d.sender ≠ peer

def isTick (e : Room × Event) : Bool :=
  match e.2 with
  | .recv _ => false
  | .tmr => true

/-- In a silent session that stays open every tick takes of the patience. -/
theorem silent_patience {peer : Peer} (valid : peer.Valid) {events : List (Room × Event)}
    {w t : World φ} (served : w.server.peer = peer) (sound : Sound w.server)
    (silent : Silent peer events)
    (session : Meets (step ctx) (fun w _ => w.server.handle = true) w events)
    (run : exec (step ctx) w events = some t) (still : t.server.handle = true) :
    Sound t.server ∧ patience t.server + events.countP isTick ≤ patience w.server := by
  induction events generalizing w with
  | nil =>
    obtain rfl := Option.some.inj run
    exact ⟨sound, Nat.le_refl _⟩
  | cons e events ih =>
    obtain ⟨w', next, rest⟩ := exec_cons.1 run
    obtain ⟨isOpen, later⟩ := session
    have quiet : Silent peer events := fun e' mem => silent e' (List.mem_cons_of_mem e mem)
    obtain ⟨room, event⟩ := e
    cases event with
    | recv d =>
      have other : foreign w.server d.sender = true := by
        rw [← Bool.not_eq_false, foreign_eq_false_iff (served ▸ valid), served]
        exact silent _ List.mem_cons_self d rfl
      have same : w'.server = w.server := by
        rw [step_recv, recv, if_pos other] at next
        rw [← Option.some.inj next]
      rw [List.countP_cons_of_neg (by simp [isTick]), ← same]
      exact ih (same ▸ served) (same ▸ sound) quiet (later w' next) rest
    | tmr =>
      have armed : w.server.timeouts ≠ 0 := Nat.ne_of_gt (sound.armed isOpen)
      have ticked : w'.server =
          (tftpTmr ctx room { w.server with timeouts := w.server.timeouts - 1 }).1 := by
        simp only [step, armed, if_false] at next
        rw [← Option.some.inj next]
      have kept : Sound w'.server := ticked ▸ tftpTmr_sound sound _
      have openNext : w'.server.handle = true := by
        cases events with
        | nil =>
          obtain rfl := Option.some.inj rest
          exact still
        | cons e' events => exact (later w' next).1
      rw [List.countP_cons_of_pos (by simp [isTick])]
      obtain closed | ⟨-, same, less⟩ :=
        tick_patience ctx room isOpen sound.past (w.server.timeouts - 1)
      · exact absurd (closed.symm.trans (ticked ▸ openNext)) Bool.false_ne_true
      · rw [← ticked] at same less
        obtain ⟨last, bound⟩ := ih (same.trans served) kept quiet (later w' next) rest
        exact ⟨last, by omega⟩

/-- After any history, a session whose peer has gone away does not stay open for 16 ticks, whatever
others send; and as long as it is open a tick is to come. -/
theorem abandoned_ends {file : φ} {history events : List (Room × Event)} {w t : World φ}
    (reached : exec (step ctx) (tftpInit file) history = some w)
    (valid : w.server.peer.Valid) (silent : Silent w.server.peer events)
    (session : Meets (step ctx) (fun w _ => w.server.handle = true) w events)
    (run : exec (step ctx) w events = some t) (still : t.server.handle = true) :
    events.countP isTick < 16 ∧ ∀ room, (step ctx t (room, .tmr)).isSome := by
  obtain ⟨sound, bound⟩ :=
    silent_patience valid rfl (sound_run reached) silent session run still
  refine ⟨?_, fun room => ?_⟩
  · dsimp only [patience, timeoutTicks] at bound
    omega
  · have armed : t.server.timeouts ≠ 0 := Nat.ne_of_gt (sound.armed still)
    simp [step, armed]

/-- The upload of a peer that sends nothing after its request, one tick later. -/
def oneTickLater : World (List Byte × Nat) :=
  (step (ctxt memoryFat) requested (plenty, .tmr)).getD requested

theorem one_tick_later : (step (ctxt memoryFat) oneTickLater (plenty, .tmr)).isSome := by
  have reached : exec (step (ctxt memoryFat)) (tftpInit ([9, 9, 9, 9], 0))
    [(plenty, .recv writeRequest)] = some requested := rfl
  have run : exec (step (ctxt memoryFat)) requested [(plenty, .tmr)] = some oneTickLater := rfl
  have silent : Silent requested.server.peer [(plenty, .tmr)] := by
    intro e mem d same
    rw [List.mem_singleton.1 mem] at same
    cases same
  have session : Meets (step (ctxt memoryFat)) (fun w _ => w.server.handle = true) requested
    [(plenty, .tmr)] := And.intro rfl fun _ _ => trivial
  exact (abandoned_ends reached ⟨by decide, by decide⟩ silent session run rfl).2 plenty

end Abandoned

end PscDigpid.Sw.Tftp
