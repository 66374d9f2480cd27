/- Unit: PscDigpid/Sw/Listener
   layer: model
   source: src/sw/src/listener.c, src/sw/src/pscopts.h
   digest: The server's threads: the accept loop, a handler for each client, and senders. -/

import Mathlib.Data.List.FinRange
import Mathlib.Logic.Function.Basic
import PscDigpid.Sw.Pscmsg
import PscDigpid.Sync.Bits
import PscDigpid.Sync.Exec

set_option autoImplicit false
set_option relaxedAutoImplicit false

namespace PscDigpid.Sw.Listener

open PscDigpid.Sync
open PscDigpid.Sw.Pscmsg

abbrev pscMaxClients : Nat := 4

/-- What the server keeps of a client; `psc` tells whether its pointer is to the key. -/
structure PscClient where
  index : BitVec 32
  sock : Int
  psc : Bool
  deriving DecidableEq

abbrev SlotIndex := Fin pscMaxClients

structure PscKey where
  clientsUsed : BitVec 32
  clients : SlotIndex → PscClient

section Slots

variable (key : PscKey)

def used (i : SlotIndex) : Bool := key.clientsUsed.getLsbD i

/-- A slot is wiped and its bit set. -/
def takeSlot (i : SlotIndex) : PscKey where
  clientsUsed := setBit key.clientsUsed i true
  clients := Function.update key.clients i ⟨BitVec.ofNat 32 i, 0, true⟩

/-- The first slot not in use is taken. -/
def pscClientAlloc : Option SlotIndex × PscKey :=
  match (List.finRange pscMaxClients).find? fun i => !used key i with
  | none => (none, key)
  | some i => (some i, takeSlot key i)

/-- The bit that is cleared is the one the slot names. -/
def pscClientFree (i : SlotIndex) : PscKey where
  clientsUsed := setBit key.clientsUsed (key.clients i).index.toNat false
  clients := Function.update key.clients i ⟨0, 0, false⟩

def setSock (i : SlotIndex) (sock : Int) : PscKey :=
  { key with clients := Function.update key.clients i { key.clients i with sock := sock } }

theorem takeSlot_clients (i j : SlotIndex) : (takeSlot key i).clients j =
    if j = i then ⟨BitVec.ofNat 32 i, 0, true⟩ else key.clients j :=
  Function.update_apply key.clients i _ j

theorem pscClientFree_clients (i j : SlotIndex) : (pscClientFree key i).clients j =
    if j = i then ⟨0, 0, false⟩ else key.clients j :=
  Function.update_apply key.clients i _ j

theorem setSock_clients (i : SlotIndex) (sock : Int) (j : SlotIndex) :
    (setSock key i sock).clients j =
      if j = i then { key.clients i with sock := sock } else key.clients j :=
  Function.update_apply key.clients i _ j

end Slots

/-- A connection, numbered in the order they come, with the descriptor `accept` returned. -/
structure Connection where
  number : Nat
  fd : Int
  deriving DecidableEq

/-- What an open descriptor belongs to. -/
inductive Owner
  | listener
  | connection (number : Nat)
  deriving DecidableEq

/-- Where the loop of `psc_run` is. -/
inductive AcceptPc
  | accepting
  | accepted (c : Connection)
  | dropping (c : Connection)
  | assigning (c : Connection) (slot : SlotIndex)
  | spawning (c : Connection) (slot : SlotIndex)
  deriving DecidableEq

/-- Where `handle_client` is for a connection, with its copy of the socket. -/
inductive HandlerPc
  | none
  | starting (slot : SlotIndex)
  | receiving (slot : SlotIndex) (sock : Int)
  | freeing (slot : SlotIndex) (sock : Int)
  | closing (sock : Int)
  | gone
  deriving DecidableEq

inductive Sender
  | pscSend | pscSendOne
  deriving DecidableEq

/-- What the threads do with descriptors; a sender acts for the connection that has the slot. -/
inductive Access
  | accepted (c : Connection)
  | assigned (slot : SlotIndex) (c : Connection)
  | sent (by_sender : Sender) (slot : SlotIndex) (fd : Int) (holder : Option Connection)
      (m : Message) (result : Sent)
  | sendClosed (by_sender : Sender) (slot : SlotIndex) (fd : Int) (holder : Option Connection)
  | closed (fd : Int) (number : Nat)

/-- The server: its key, how far the holder of the lock has come with its broadcast, where each
thread is and which descriptors are open. Which connection has each slot and the trace of what
was done are kept for the statements about it. -/
structure Server where
  key : PscKey
  sendguard : Option (Nat × Message)
  acceptPc : AcceptPc
  handlers : Nat → HandlerPc
  connections : Nat
  owner : Int → Option Owner
  holder : SlotIndex → Option Connection
  trace : List Access

/-- The server when it is ready, with the descriptor it listens on. -/
def ready (listenSock : Int) : Server where
  key := ⟨0, fun _ => ⟨0, 0, false⟩⟩
  sendguard := none
  acceptPc := .accepting
  handlers := fun _ => .none
  connections := 0
  owner := fun fd => if fd = listenSock then some .listener else none
  holder := fun _ => none
  trace := []

/-- What can come next: one step of a thread outside the lock, a critical section, or one slot of
a broadcast. -/
inductive Event
  | accept (fd : Int)
  | alloc
  | drop
  | assign
  | spawn
  | start (number : Nat)
  | recvError (number : Nat)
  | free (number : Nat)
  | close (number : Nat)
  | sendBegin (m : Message)
  | sendSlot (results : List SendResult)
  | sendEnd
  | sendOne (slot : SlotIndex) (m : Message) (results : List SendResult)

section Steps

variable (s : Server)

def record (a : Access) : Server := { s with trace := s.trace ++ [a] }

/-- A descriptor that is closed is free for `accept` to return again. -/
def closeFd (fd : Int) : Server := { s with owner := Function.update s.owner fd none }

/-- A message goes to a slot's socket unless it is marked; on an error the socket is closed and
marked. -/
def sendTo (sender : Sender) (i : SlotIndex) (m : Message) (results : List SendResult) : Server :=
  let sock := (s.key.clients i).sock
  if sock = -1 then s
  else
    let result := sendmsg results m.msgid m.payload
    let s := record s (.sent sender i sock (s.holder i) m result)
    if result.ret.isSome then
      let s := record (closeFd s sock) (.sendClosed sender i sock (s.holder i))
      { s with key := setSock s.key i (-1) }
    else s

/-- `accept` returns a descriptor that is not open. -/
def acceptStep (fd : Int) : Option Server :=
  if s.acceptPc = .accepting ∧ 0 ≤ fd ∧ s.owner fd = none then
    let c : Connection := ⟨s.connections, fd⟩
    some { record s (.accepted c) with
      acceptPc := .accepted c
      connections := s.connections + 1
      owner := Function.update s.owner fd (some (.connection s.connections)) }
  else none

def allocStep : Option Server :=
  match s.acceptPc, s.sendguard with
  | .accepted c, none =>
      match pscClientAlloc s.key with
      | (none, key) => some { s with key := key, acceptPc := .dropping c }
      | (some i, key) =>
          some { s with
            key := key
            acceptPc := .assigning c i
            holder := Function.update s.holder i (some c) }
  | _, _ => none

def dropStep : Option Server :=
  match s.acceptPc with
  | .dropping c =>
      some { record (closeFd s c.fd) (.closed c.fd c.number) with acceptPc := .accepting }
  | _ => none

/-- The socket is stored outside the lock. -/
def assignStep : Option Server :=
  match s.acceptPc with
  | .assigning c i =>
      some { record s (.assigned i c) with
        key := setSock s.key i c.fd
        acceptPc := .spawning c i }
  | _ => none

def spawnStep : Option Server :=
  match s.acceptPc with
  | .spawning c i =>
      some { s with
        acceptPc := .accepting
        handlers := Function.update s.handlers c.number (.starting i) }
  | _ => none

variable (number : Nat)

/-- The handler takes its copy of the socket once. -/
def startStep : Option Server :=
  match s.handlers number with
  | .starting i =>
      some { s with
        handlers := Function.update s.handlers number (.receiving i (s.key.clients i).sock) }
  | _ => none

def recvErrorStep : Option Server :=
  match s.handlers number with
  | .receiving i sock =>
      some { s with handlers := Function.update s.handlers number (.freeing i sock) }
  | _ => none

def freeStep : Option Server :=
  match s.handlers number, s.sendguard with
  | .freeing i sock, none =>
      some { s with
        key := pscClientFree s.key i
        handlers := Function.update s.handlers number (.closing sock)
        holder := Function.update s.holder i none }
  | _, _ => none

def closeStep : Option Server :=
  match s.handlers number, s.sendguard with
  | .closing sock, none =>
      some { record (closeFd s sock) (.closed sock number) with
        handlers := Function.update s.handlers number .gone }
  | _, _ => none

/-- One slot of `psc_send`. -/
def sendSlotStep (results : List SendResult) : Option Server :=
  match s.sendguard with
  | some (idx, m) =>
      if within : idx < pscMaxClients then
        let s := if used s.key ⟨idx, within⟩ then sendTo s .pscSend ⟨idx, within⟩ m results else s
        some { s with sendguard := some (idx + 1, m) }
      else none
  | none => none

/-- `psc_send_one` needs a slot whose pointer to the key is there. -/
def sendOneStep (i : SlotIndex) (m : Message) (results : List SendResult) : Option Server :=
  if s.sendguard = none ∧ (s.key.clients i).psc then
    some (sendTo s .pscSendOne i m results)
  else none

end Steps

def step (s : Server) : Event → Option Server
  | .accept fd => acceptStep s fd
  | .alloc => allocStep s
  | .drop => dropStep s
  | .assign => assignStep s
  | .spawn => spawnStep s
  | .start number => startStep s number
  | .recvError number => recvErrorStep s number
  | .free number => freeStep s number
  | .close number => closeStep s number
  | .sendBegin m => if s.sendguard.isNone then some { s with sendguard := some (0, m) } else none
  | .sendSlot results => sendSlotStep s results
  | .sendEnd =>
      match s.sendguard with
      | some (idx, _) => if idx = pscMaxClients then some { s with sendguard := none } else none
      | none => none
  | .sendOne i m results => sendOneStep s i m results

end PscDigpid.Sw.Listener
