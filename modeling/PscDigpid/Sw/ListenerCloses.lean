/- Unit: PscDigpid/Sw/ListenerCloses
   layer: result
   source: src/sw/src/listener.c (psc_run, handle_client, psc_send, psc_send_one)
   digest: Which thread has each descriptor to close, and when each is closed once. -/

import PscDigpid.Sw.ListenerSockets
import PscDigpid.Sync.Ledger

set_option autoImplicit false
set_option relaxedAutoImplicit false

namespace PscDigpid.Sw.Listener

open PscDigpid.Sync
open PscDigpid.Sw.Pscmsg

/-- The connection an open descriptor belongs to. -/
def Owner.number : Owner → Option Nat
  | .listener => none
  | .connection n => some n

def connectionOf (s : Server) (d : Int) : Option Nat := (s.owner d).bind Owner.number

/-- What an access does to a descriptor: `accept` returns it, or a thread closes it for a
connection. -/
def markOf (d : Int) : Access → Option (Mark Nat)
  | .accepted c => if c.fd = d then some (.opened c.number) else none
  | .sendClosed _ _ fd holder =>
      if fd = d then some (.closed (holder.map Connection.number)) else none
  | .closed fd n => if fd = d then some (.closed (some n)) else none
  | .assigned _ _ | .sent _ _ _ _ _ _ => none

def marks (d : Int) (trace : List Access) : List (Mark Nat) := trace.filterMap (markOf d)

/-- A connection that came and that no thread has anything more to do for. -/
structure Finished (s : Server) (n : Nat) : Prop where
  came : n < s.connections
  passed : ∀ c, s.acceptPc.connection = some c → c.number ≠ n
  ended : s.handlers n = .none ∨ s.handlers n = .gone

/-- Each descriptor `accept` returned was closed for its connection only, at most once and before
it was returned again, nothing else was closed, and a finished connection's was closed. -/
def ClosedOnce (s : Server) : Prop := ∀ d, 0 ≤ d →
  ∃ now, standing (marks d s.trace) = some now ∧ ∀ n, Finished s n → now ≠ some n

/-- Sending to a slot closes its socket. -/
def Fails (s : Server) (i : SlotIndex) (m : Message) (results : List SendResult) : Prop :=
  (s.key.clients i).sock ≠ -1 ∧ (sendmsg results m.msgid m.payload).ret ≠ none

/-- A slot's socket is stored and its handler has not taken its copy. -/
def Untaken (s : Server) (i : SlotIndex) : Prop :=
  ∃ c, s.holder i = some c ∧ (s.acceptPc = .spawning c i ∨ s.handlers c.number = .starting i)

/-- A send fails only before the handler has its copy of the socket, and after it was stored. -/
def Early (s : Server) : Event → Prop
  | .sendSlot results => ∀ i m, s.sendguard = some (i.val, m) → used s.key i = true →
      Fails s i m results → Untaken s i
  | .sendOne i m results => Fails s i m results → Untaken s i
  | _ => True

/-- What a socket leaves to close: nothing when it is marked. -/
def unmark (sock : Int) : Option Int := if sock = -1 then none else some sock

/-- What a handler will close. -/
def HandlerPc.keeps (key : PscKey) : HandlerPc → Option Int
  | .starting i => unmark (key.clients i).sock
  | .receiving _ sock | .freeing _ sock | .closing sock => unmark sock
  | .none | .gone => Option.none

/-- What `psc_run` will close or pass on for a connection. -/
def AcceptPc.keeps (key : PscKey) (n : Nat) : AcceptPc → Option Int
  | .accepting => none
  | .accepted c | .dropping c | .assigning c _ => if c.number = n then some c.fd else none
  | .spawning c i => if c.number = n then unmark (key.clients i).sock else none

def keeps (s : Server) (n : Nat) : Option Int :=
  ((s.handlers n).keeps s.key).or (s.acceptPc.keeps s.key n)

section Keeps

variable {s s' : Server} {n : Nat}

theorem unmark_some {sock : Int} (sound : sock ≠ -1) : unmark sock = some sock := if_neg sound

/-- A slot is one connection's. -/
theorem holder_other {i : SlotIndex} {c : Connection} (held : s.holder i = some c)
    (other : n ≠ c.number) (fd : Int) : s.holder i ≠ some ⟨n, fd⟩ := by
  intro has
  obtain rfl := Option.some.inj (held.symm.trans has)
  exact other rfl

theorem setSock_off (key : PscKey) (i : SlotIndex) (sock : Int) (j : SlotIndex) (other : j ≠ i) :
    ((setSock key i sock).clients j).sock = (key.clients j).sock := by
  rw [setSock_clients, if_neg other]

theorem HandlerPc.keeps_congr {key key' : PscKey} (pc : HandlerPc)
    (socks : ∀ i, pc.slot = some i → (key'.clients i).sock = (key.clients i).sock) :
    pc.keeps key' = pc.keeps key := by
  cases pc with
  | starting i => exact congrArg unmark (socks i rfl)
  | _ => rfl

theorem AcceptPc.keeps_congr {key key' : PscKey} (pc : AcceptPc)
    (socks : ∀ c i, pc.slot = some (c, i) → (key'.clients i).sock = (key.clients i).sock) :
    pc.keeps key' n = pc.keeps key n := by
  cases pc with
  | spawning c i =>
      change (if c.number = n then unmark _ else none) = if c.number = n then unmark _ else none
      rw [socks c i rfl]
  | _ => rfl

/-- `psc_run` keeps nothing for other connections than the one it is at. -/
theorem AcceptPc.keeps_other {key : PscKey} {pc : AcceptPc}
    (other : ∀ c, pc.connection = some c → c.number ≠ n) : pc.keeps key n = none := by
  cases pc with
  | accepting => rfl
  | accepted c => exact if_neg (other c rfl)
  | dropping c => exact if_neg (other c rfl)
  | assigning c i => exact if_neg (other c rfl)
  | spawning c i => exact if_neg (other c rfl)

/-- A connection has one thread at a time. -/
theorem Slots.apart (slots : Slots s) (alive : s.handlers n ≠ .none) :
    ∀ c, s.acceptPc.connection = some c → c.number ≠ n := by
  rintro c passing rfl
  exact alive (slots.current c passing).2

theorem keeps_handled (slots : Slots s) (alive : s.handlers n ≠ .none) :
    keeps s n = (s.handlers n).keeps s.key := by
  rw [keeps, AcceptPc.keeps_other (slots.apart alive), Option.or_none]

theorem keeps_waiting (idle : s.handlers n = .none) : keeps s n = s.acceptPc.keeps s.key n := by
  rw [keeps, idle]
  rfl

/-- Another connection than the one `psc_run` is at is its handler's. -/
theorem keeps_beside {c : Connection} (passing : s.acceptPc.connection = some c)
    (other : n ≠ c.number) : keeps s n = (s.handlers n).keeps s.key := by
  have beside : ∀ c', s.acceptPc.connection = some c' → c'.number ≠ n := by
    intro c' passing' same
    obtain rfl := Option.some.inj (passing.symm.trans passing')
    exact other same.symm
  rw [keeps, AcceptPc.keeps_other beside, Option.or_none]

/-- A change of one slot's socket matters to the connection that has the slot only. -/
theorem Slots.handler_keeps (slots : Slots s) {key : PscKey} {i : SlotIndex}
    (off : ∀ j, j ≠ i → (key.clients j).sock = (s.key.clients j).sock)
    (theirs : ∀ fd, s.holder i ≠ some ⟨n, fd⟩) :
    (s.handlers n).keeps key = (s.handlers n).keeps s.key := by
  apply HandlerPc.keeps_congr
  intro j has
  obtain ⟨fd, held⟩ := slots.handling n j has
  apply off j
  rintro rfl
  exact theirs fd held

theorem Slots.accept_keeps (slots : Slots s) {key : PscKey} {i : SlotIndex}
    (off : ∀ j, j ≠ i → (key.clients j).sock = (s.key.clients j).sock)
    (theirs : ∀ fd, s.holder i ≠ some ⟨n, fd⟩) :
    s.acceptPc.keeps key n = s.acceptPc.keeps s.key n := by
  by_cases here : ∃ c, s.acceptPc.connection = some c ∧ c.number = n
  · obtain ⟨c, passing, rfl⟩ := here
    apply AcceptPc.keeps_congr
    intro c' j has
    obtain rfl := Option.some.inj (passing.symm.trans (AcceptPc.connection_of_slot has))
    apply off j
    rintro rfl
    exact theirs c.fd (slots.preparing c j has)
  · have other : ∀ c, s.acceptPc.connection = some c → c.number ≠ n :=
      fun c passing own => here ⟨c, passing, own⟩
    rw [AcceptPc.keeps_other other, AcceptPc.keeps_other other]

/-- A handler that goes on with what it has to close. -/
theorem keeps_moves {pc : HandlerPc} (still : pc.keeps s.key = (s.handlers n).keeps s.key)
    (k : Nat) :
    keeps { s with handlers := Function.update s.handlers n pc } k = keeps s k := by
  change ((Function.update s.handlers n pc k).keeps s.key).or _ = _
  rw [Function.update_apply]
  by_cases own : k = n
  · rw [if_pos own, own, still, keeps]
  · rw [if_neg own, keeps]

/-- `psc_run` goes on with its connection: what it keeps for it changes, and nothing else. -/
theorem Slots.passing_moves (slots : Slots s) {c : Connection}
    (passing : s.acceptPc.connection = some c) {key : PscKey} {pc : AcceptPc}
    (others : ∀ k, k ≠ c.number → (s.handlers k).keeps key = (s.handlers k).keeps s.key)
    (still : ∀ c', pc.connection = some c' → c' = c) (k : Nat) :
    ((s.handlers k).keeps key).or (pc.keeps key k) =
      if k = c.number then pc.keeps key k else keeps s k := by
  by_cases own : k = c.number
  · rw [if_pos own, own, (slots.current c passing).2]
    rfl
  · have beside : ∀ c', pc.connection = some c' → c'.number ≠ k := by
      intro c' next same
      rw [still c' next] at same
      exact own same.symm
    rw [if_neg own, AcceptPc.keeps_other beside, Option.or_none, others k own,
      keeps_beside passing own]

/-- A handler goes on: what it keeps for its connection changes, and nothing else. -/
theorem Slots.handler_moves (slots : Slots s) (alive : s.handlers n ≠ .none) {key : PscKey}
    {pc : HandlerPc}
    (others : ∀ k, k ≠ n → (s.handlers k).keeps key = (s.handlers k).keeps s.key ∧
      s.acceptPc.keeps key k = s.acceptPc.keeps s.key k) (k : Nat) :
    ((Function.update s.handlers n pc k).keeps key).or (s.acceptPc.keeps key k) =
      if k = n then pc.keeps key else keeps s k := by
  rw [Function.update_apply]
  by_cases own : k = n
  · rw [if_pos own, if_pos own, own, AcceptPc.keeps_other (slots.apart alive), Option.or_none]
  · rw [if_neg own, if_neg own, (others k own).1, (others k own).2, keeps]

/-- What a connection has to close before its handler takes its copy is its slot's socket. -/
theorem Slots.untaken_keeps (slots : Slots s) (key : PscKey) {c : Connection} {i : SlotIndex}
    (pc : s.acceptPc = .spawning c i ∨ s.handlers c.number = .starting i) :
    ((s.handlers c.number).keeps key).or (s.acceptPc.keeps key c.number) =
      unmark (key.clients i).sock := by
  rcases pc with spawning | starting
  · have idle := (slots.current c (by rw [spawning]; rfl)).2
    rw [spawning, idle]
    exact if_pos rfl
  · have alive : s.handlers c.number ≠ .none := by
      rw [starting]
      exact HandlerPc.noConfusion
    rw [AcceptPc.keeps_other (slots.apart alive), starting]
    exact Option.or_none

theorem Finished.keeps_none (finished : Finished s n) : keeps s n = none := by
  rw [keeps, AcceptPc.keeps_other finished.passed]
  rcases finished.ended with idle | gone
  · rw [idle]
    rfl
  · rw [gone]
    rfl

end Keeps

/-- The descriptors that are open are those the connections have to close, and the trace tells
whose each is. -/
structure Kept (s : Server) : Prop where
  valid : ∀ n d, connectionOf s d = some n → 0 ≤ d
  owned : Agree (keeps s) (connectionOf s)
  stands : ∀ d, 0 ≤ d → standing (marks d s.trace) = some (connectionOf s d)

namespace Kept

variable {s s' : Server} {n : Nat} {d : Int}

/-- What is to be closed is a descriptor. -/
theorem sound (kept : Kept s) (has : keeps s n = some d) : unmark d = some d := by
  have positive := kept.valid n d ((kept.owned n d).1 has)
  have unmarked : d ≠ -1 := by omega
  exact unmark_some unmarked

theorem connectionOf_update {o : Option Owner} (owner : s'.owner = Function.update s.owner d o) :
    connectionOf s' = Function.update (connectionOf s) d (o.bind Owner.number) := by
  funext e
  rw [connectionOf, owner, Function.update_apply, Function.update_apply]
  split
  · rfl
  · rfl

/-- Nothing is opened or closed. -/
theorem same (kept : Kept s) (keeps' : ∀ k, keeps s' k = keeps s k) (owner : s'.owner = s.owner)
    (trace : ∀ e, marks e s'.trace = marks e s.trace) : Kept s' := by
  have connections : connectionOf s' = connectionOf s := by
    funext e
    rw [connectionOf, owner, connectionOf]
  have had : keeps s' = keeps s := funext keeps'
  refine ⟨?_, ?_, ?_⟩
  · rw [connections]
    exact kept.valid
  · rw [had, connections]
    exact kept.owned
  · intro e valid
    rw [trace e, connections]
    exact kept.stands e valid

/-- A descriptor is opened for a connection that has none. -/
theorem opened (kept : Kept s) (valid : 0 ≤ d) (unused : s.owner d = none)
    (idle : keeps s n = none) (keeps' : ∀ k, keeps s' k = if k = n then some d else keeps s k)
    (owner : s'.owner = Function.update s.owner d (some (.connection n)))
    (trace : ∀ e, marks e s'.trace = marks e s.trace ++ if d = e then [.opened n] else []) :
    Kept s' := by
  have connections : connectionOf s' = Function.update (connectionOf s) d (some n) :=
    connectionOf_update owner
  have free : connectionOf s d = none := by
    rw [connectionOf, unused]
    rfl
  have had : keeps s' = Function.update (keeps s) n (some d) := by
    funext k
    rw [keeps' k, Function.update_apply]
  refine ⟨?_, ?_, ?_⟩
  · intro k e has
    rw [connections, Function.update_apply] at has
    by_cases here : e = d
    · rw [here]
      exact valid
    · rw [if_neg here] at has
      exact kept.valid k e has
  · rw [had, connections]
    exact kept.owned.opened idle free
  · intro e positive
    have before := kept.stands e positive
    rw [trace e, connections, Function.update_apply]
    by_cases here : d = e
    · rw [if_pos here, if_pos here.symm]
      rw [← here, free] at before
      exact standing_opened (here ▸ before) n
    · rw [if_neg here, if_neg (Ne.symm here), List.append_nil]
      exact before

/-- A connection's descriptor is closed, or nothing when its socket was marked. -/
theorem closed (kept : Kept s) (has : keeps s n = unmark d)
    (keeps' : ∀ k, keeps s' k = if k = n then none else keeps s k)
    (owner : s'.owner = Function.update s.owner d none)
    (trace : ∀ e, marks e s'.trace = marks e s.trace ++ if d = e then [.closed (some n)] else []) :
    Kept s' := by
  have connections : connectionOf s' = Function.update (connectionOf s) d none :=
    connectionOf_update owner
  have had : keeps s' = Function.update (keeps s) n none := by
    funext k
    rw [keeps' k, Function.update_apply]
  refine ⟨?_, ?_, ?_⟩
  · intro k e still
    rw [connections, Function.update_apply] at still
    split at still
    · exact absurd still.symm (Option.some_ne_none k)
    · exact kept.valid k e still
  · rw [had, connections]
    by_cases marked : d = -1
    · have none_kept : keeps s n = none := has.trans (if_pos marked)
      have none_open : connectionOf s d = none := by
        rw [Option.eq_none_iff_forall_ne_some]
        intro k theirs
        have positive := kept.valid k d theirs
        omega
      rw [← none_kept, Function.update_eq_self, ← none_open, Function.update_eq_self]
      exact kept.owned
    · exact kept.owned.closed (has.trans (unmark_some marked))
  · intro e positive
    have before := kept.stands e positive
    rw [trace e, connections, Function.update_apply]
    by_cases here : d = e
    · subst here
      have sound : d ≠ -1 := by omega
      rw [if_pos rfl, if_pos rfl]
      rw [(kept.owned n d).1 (has.trans (unmark_some sound))] at before
      exact standing_closed before
    · rw [if_neg here, if_neg (Ne.symm here), List.append_nil]
      exact before

theorem ready_kept (listenSock : Int) : Kept (ready listenSock) := by
  have foreign : ∀ d, connectionOf (ready listenSock) d = none := by
    intro d
    change (if d = listenSock then some Owner.listener else none).bind _ = none
    split
    · rfl
    · rfl
  refine ⟨?_, ?_, ?_⟩
  · intro n d has
    rw [foreign d] at has
    exact absurd has.symm (Option.some_ne_none n)
  · intro n d
    rw [foreign d]
    exact iff_of_false (Option.some_ne_none d).symm (Option.some_ne_none n).symm
  · intro d _
    rw [foreign d]
    rfl

theorem marks_append (e : Int) (before new : List Access) :
    marks e (before ++ new) = marks e before ++ marks e new :=
  List.filterMap_append

/-- An access that opens or closes a descriptor. -/
theorem marks_mark {a : Access} {x : Mark Nat}
    (mark : ∀ e, markOf e a = if d = e then some x else none)
    (before : List Access) (e : Int) :
    marks e (before ++ [a]) = marks e before ++ if d = e then [x] else [] := by
  rw [marks_append]
  congr 1
  rw [marks, List.filterMap_cons, mark e]
  by_cases here : d = e
  · rw [if_pos here, if_pos here]
    rfl
  · rw [if_neg here, if_neg here]
    rfl

/-- A send that fails closes the socket of a connection whose handler has not taken it. -/
theorem sendTo (kept : Kept s) (slots : Slots s) (sender : Sender) (i : SlotIndex) (m : Message)
    (results : List SendResult) (early : Fails s i m results → Untaken s i) :
    Kept (sendTo s sender i m results) := by
  rcases sendTo_cases s sender i m results with
    ⟨-, same⟩ | ⟨-, -, same⟩ | ⟨sound, fails, same⟩
  · rw [same]
    exact kept
  · rw [same]
    refine kept.same (fun _ => rfl) rfl ?_
    intro e
    exact (marks_append e _ _).trans (List.append_nil _)
  · obtain ⟨c, held, pc⟩ := early ⟨sound, fails⟩
    have off := setSock_off s.key i (-1)
    rw [same]
    refine kept.closed (slots.untaken_keeps s.key pc) ?_ rfl ?_
    · intro k
      change ((s.handlers k).keeps (setSock s.key i (-1))).or
        (s.acceptPc.keeps (setSock s.key i (-1)) k) = _
      by_cases own : k = c.number
      · rw [if_pos own, own, slots.untaken_keeps _ pc, setSock_clients, if_pos rfl]
        rfl
      · rw [if_neg own]
        have theirs := holder_other held own
        rw [slots.handler_keeps off theirs, slots.accept_keeps off theirs, keeps]
    · intro e
      have closes : ∀ e, markOf e (.sendClosed sender i (s.key.clients i).sock (s.holder i)) =
          if (s.key.clients i).sock = e then some (.closed (some c.number)) else none := by
        rw [held]
        exact fun _ => rfl
      refine (marks_mark closes _ e).trans (congrArg (· ++ _) ?_)
      exact (marks_append e _ _).trans (List.append_nil _)

/-- With the ledger in order the trace is. -/
theorem closedOnce (kept : Kept s) : ClosedOnce s := by
  intro d valid
  refine ⟨_, kept.stands d valid, ?_⟩
  intro n finished stands
  have holds := (kept.owned n d).2 stands
  exact absurd (finished.keeps_none.symm.trans holds).symm (Option.some_ne_none d)

/-- One step keeps the ledger in order when no send fails late. -/
theorem step {e : Event} (kept : Kept s) (slots : Slots s) (early : Early s e)
    (taken : Listener.step s e = some s') : Kept s' := by
  cases step_moves taken with
  | @accept fd pc valid unused =>
      have idle := slots.unborn s.connections (Nat.le_refl _)
      refine kept.opened valid unused (n := s.connections) ?_ ?_ rfl ?_
      · rw [keeps_waiting idle, pc]
        rfl
      · intro k
        change ((s.handlers k).keeps s.key).or (if s.connections = k then some fd else none) = _
        by_cases own : k = s.connections
        · rw [if_pos own, own, idle, if_pos rfl]
          rfl
        · rw [if_neg own, if_neg (Ne.symm own), keeps, pc]
          rfl
      · exact marks_mark (fun _ => rfl) s.trace
  | @full c pc taken =>
      refine kept.same (fun k => ?_) rfl fun _ => rfl
      rw [keeps, keeps, pc]
      rfl
  | @alloc c i pc clear =>
      have off : ∀ j, j ≠ i → ((takeSlot s.key i).clients j).sock = (s.key.clients j).sock := by
        intro j other
        rw [takeSlot_clients, if_neg other]
      refine kept.same (fun k => ?_) rfl fun _ => rfl
      have theirs : ∀ fd, s.holder i ≠ some ⟨k, fd⟩ := by
        intro fd
        rw [slots.not_held clear]
        exact (Option.some_ne_none _).symm
      change ((s.handlers k).keeps (takeSlot s.key i)).or _ = _
      rw [slots.handler_keeps off theirs, keeps, pc]
      rfl
  | @drop c pc =>
      have idle := (slots.current c (by rw [pc]; rfl)).2
      have held : keeps s c.number = some c.fd := by
        rw [keeps_waiting idle, pc]
        exact if_pos rfl
      refine kept.closed (held.trans (kept.sound held).symm) ?_ rfl
        (marks_mark (fun _ => rfl) s.trace)
      exact @Slots.passing_moves _ slots c (by rw [pc]; rfl) s.key .accepting (fun _ _ => rfl)
        (fun c' none_left => absurd none_left.symm (Option.some_ne_none c'))
  | @assign c i pc =>
      have idle := (slots.current c (by rw [pc]; rfl)).2
      have first := slots.preparing c i (by rw [pc]; rfl)
      have held : keeps s c.number = some c.fd := by
        rw [keeps_waiting idle, pc]
        exact if_pos rfl
      have off := setSock_off s.key i c.fd
      refine kept.same (fun k => ?_) rfl ?_
      · refine (@Slots.passing_moves _ slots c (by rw [pc]; rfl) (setSock s.key i c.fd)
          (.spawning c i) (fun k own => slots.handler_keeps off (holder_other first own))
          (fun c' still => (Option.some.inj still).symm) k).trans ?_
        split_ifs with own
        · rw [own, held, AcceptPc.keeps, if_pos rfl, setSock_clients, if_pos rfl]
          exact kept.sound held
        · rfl
      · intro e
        exact (marks_append e _ _).trans (List.append_nil _)
  | @spawn c i pc =>
      have idle := (slots.current c (by rw [pc]; rfl)).2
      refine kept.same (fun k => ?_) rfl fun _ => rfl
      change ((Function.update s.handlers c.number (.starting i) k).keeps s.key).or none = _
      rw [Function.update_apply]
      by_cases own : k = c.number
      · rw [if_pos own, own, keeps_waiting idle, pc]
        exact Option.or_none.trans (if_pos rfl).symm
      · rw [if_neg own, keeps_beside (by rw [pc]; rfl) own, Option.or_none]
  | @start n i pc =>
      refine kept.same (fun k => ?_) rfl fun _ => rfl
      exact keeps_moves (by rw [pc]; rfl) k
  | @recvError n i sock pc =>
      refine kept.same (fun k => ?_) rfl fun _ => rfl
      exact keeps_moves (by rw [pc]; rfl) k
  | @free n i sock pc =>
      have alive : s.handlers n ≠ .none := by
        rw [pc]
        exact HandlerPc.noConfusion
      obtain ⟨fd, held⟩ := slots.handling n i (by rw [pc]; rfl)
      have off : ∀ j, j ≠ i →
          ((pscClientFree s.key i).clients j).sock = (s.key.clients j).sock := by
        intro j other
        rw [pscClientFree_clients, if_neg other]
      refine kept.same (fun k => ?_) rfl fun _ => rfl
      refine (slots.handler_moves alive (fun k own => ?_) k).trans ?_
      · have theirs := holder_other held own
        exact ⟨slots.handler_keeps off theirs, slots.accept_keeps off theirs⟩
      · split_ifs with own
        · rw [own, keeps_handled slots alive, pc]
          rfl
        · rfl
  | @close n sock pc =>
      have alive : s.handlers n ≠ .none := by
        rw [pc]
        exact HandlerPc.noConfusion
      refine kept.closed ((keeps_handled slots alive).trans (by rw [pc]; rfl)) ?_ rfl
        (marks_mark (fun _ => rfl) s.trace)
      exact slots.handler_moves alive (fun _ _ => ⟨rfl, rfl⟩)
  | sendBegin => exact ⟨kept.valid, kept.owned, kept.stands⟩
  | skipSlot => exact ⟨kept.valid, kept.owned, kept.stands⟩
  | @sendSlot i m results held at_slot busy =>
      have sent := kept.sendTo slots .pscSend i m results (early i m at_slot busy)
      exact ⟨sent.valid, sent.owned, sent.stands⟩
  | sendEnd => exact ⟨kept.valid, kept.owned, kept.stands⟩
  | @sendOne i m results there => exact kept.sendTo slots .pscSendOne i m results early

end Kept

/-- In a run in which no send fails before the socket is stored or after the handler has taken
its copy, every descriptor is closed once. -/
theorem closed_once {listenSock : Int} {events : List Event} {s : Server}
    (run : exec step (ready listenSock) events = some s)
    (early : Meets step Early (ready listenSock) events) : ClosedOnce s := by
  have both : Slots s ∧ Kept s := by
    apply exec_meets (P := fun s => Slots s ∧ Kept s) ?_ ?_ early run
    · intro s e s' before meets taken
      exact ⟨before.1.step taken, before.2.step before.1 meets taken⟩
    · exact ⟨Slots.ready_slots listenSock, Kept.ready_kept listenSock⟩
  exact both.2.closedOnce

/-- A broadcast fails before the handler of its connection starts. -/
def failingRun : List Event :=
  [.accept 1, .alloc, .assign, .sendBegin shortMessage, .sendSlot [.error .enotconn]]

theorem failingRun_closed : ClosedOnce (after failingRun) ∧
    (after failingRun).owner 1 = none := by
  have run : exec step (ready 0) failingRun = some (after failingRun) := rfl
  refine ⟨closed_once run ?_, rfl⟩
  refine ⟨trivial, fun _ first => ⟨trivial, fun _ second => ⟨trivial, fun _ third =>
    ⟨trivial, fun _ fourth => ⟨?_, fun _ _ => trivial⟩⟩⟩⟩⟩
  obtain rfl := Option.some.inj first
  obtain rfl := Option.some.inj second
  obtain rfl := Option.some.inj third
  obtain rfl := Option.some.inj fourth
  intro i m here _ _
  have same : (0 : Nat) = i.val := congrArg Prod.fst (Option.some.inj here)
  obtain rfl : (0 : SlotIndex) = i := Fin.ext same
  exact ⟨⟨0, 1⟩, rfl, .inl rfl⟩

/-- A broadcast fails while the handler of connection 0 receives; the next client gets its
descriptor before that handler is done. -/
def lateRun : List Event :=
  [.accept 1, .alloc, .assign, .spawn, .start 0,
    .sendBegin shortMessage, .sendSlot [.error .enotconn], .sendSlot [], .sendSlot [], .sendSlot [],
    .sendEnd, .accept 1, .recvError 0, .free 0]

/-- The handler's close takes descriptor 1 from connection 1. -/
theorem lateRun_steals : exec step (ready 0) (lateRun ++ [.close 0]) =
      some (after (lateRun ++ [.close 0])) ∧
    (after lateRun).owner 1 = some (.connection 1) ∧
    (after (lateRun ++ [.close 0])).acceptPc = .accepted ⟨1, 1⟩ ∧
    (after (lateRun ++ [.close 0])).owner 1 = none ∧
    ¬ ClosedOnce (after (lateRun ++ [.close 0])) := by
  refine ⟨rfl, rfl, rfl, rfl, ?_⟩
  intro once
  obtain ⟨now, stands, -⟩ := once 1 (by decide)
  have wrong : standing (marks 1 (after (lateRun ++ [.close 0])).trace) = none := rfl
  exact absurd (wrong.symm.trans stands).symm (Option.some_ne_none now)

end PscDigpid.Sw.Listener
