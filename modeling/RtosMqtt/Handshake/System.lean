import Mathlib.Logic.Function.Basic
import RtosMqtt.Handshake.Records
import RtosMqtt.State.Resend

/-! # A sender and a receiver of QoS 2 messages

The two parties hold the records of the library and are joined by two FIFO
channels. Each handles one call at a time for an identifier, the calls of
different identifiers may interleave, and the connection may be lost between
any two of them.
-/

namespace RtosMqtt.Handshake

open Sparse Roster PublishRecords

structure System where
  sender : PublishRecords
  receiver : PublishRecords
  senderTask : UInt16 → SenderTask := fun _ => .idle
  receiverTask : UInt16 → ReceiverTask := fun _ => .idle
  toReceiver : List (UInt16 × Forward) := []
  toSender : List (UInt16 × Backward) := []
  connected : Bool := true
  /-- How often each identifier has been reserved. -/
  round : UInt16 → ℕ := fun _ => 0
  /-- The messages the receiver took as new, by identifier and round. -/
  accepted : List (UInt16 × ℕ) := []
  /-- The messages the sender completed. -/
  completed : List (UInt16 × ℕ) := []

/-- Both parties start with cleared arrays of any lengths. -/
def System.initial (senderOutgoing senderIncoming receiverOutgoing receiverIncoming : List Record) :
    System where
  sender := PublishRecords.new senderOutgoing senderIncoming
  receiver := PublishRecords.new receiverOutgoing receiverIncoming

inductive Action where
  | reserve (packetId : UInt16)
  /-- The sender makes the call or sends the packet pending for an identifier. -/
  | sender (packetId : UInt16)
  | receiver (packetId : UInt16)
  /-- The receiver handles the next packet. -/
  | toReceiver
  | toSender
  | lose
  | resume
  deriving DecidableEq, Repr

namespace System

/-- What a reconnected sender does for each identifier its two walks give. -/
def resumeTasks (r : PublishRecords) (packetId : UInt16) : SenderTask :=
  if packetId ∈ resends r.pubrelToResend r.outgoing.length 0 then .sendPubRel true
  else if packetId ∈ resends r.publishToResend r.outgoing.length 0 then .sendPublish true
  else .idle

def reserve (s : System) (packetId : UInt16) : System :=
  match s.sender.reserve packetId .exactlyOnce with
  | (.ok (), sender) => { s with
      sender, senderTask := Function.update s.senderTask packetId (.sendPublish false),
      round := Function.update s.round packetId (s.round packetId + 1) }
  | (.error _, sender) => { s with sender }

def stepSender (s : System) (packetId : UInt16) : Option System :=
  match s.senderTask packetId with
  | .idle => none
  | .sendPublish resent => some { s with
      toReceiver := s.toReceiver ++ [(packetId, .publish (s.round packetId) resent)],
      senderTask := Function.update s.senderTask packetId .updatePublish }
  | .updatePublish => some { s with
      sender := (s.sender.updatePublish packetId .send .exactlyOnce).2,
      senderTask := Function.update s.senderTask packetId .idle }
  | .sendPubRel resent => some { s with
      toReceiver := s.toReceiver ++ [(packetId, .pubRel resent)],
      senderTask := Function.update s.senderTask packetId .updatePubRel }
  | .updatePubRel => some { s with
      sender := (s.sender.updateAck packetId .pubRel .send).2,
      senderTask := Function.update s.senderTask packetId .idle }

def stepReceiver (s : System) (packetId : UInt16) : Option System :=
  match s.receiverTask packetId with
  | .idle => none
  | .sendPubRec => some { s with
      toSender := s.toSender ++ [(packetId, .pubRec)],
      receiverTask := Function.update s.receiverTask packetId .updatePubRec }
  | .updatePubRec => some { s with
      receiver := (s.receiver.updateAck packetId .pubRec .send).2,
      receiverTask := Function.update s.receiverTask packetId .idle }
  | .sendPubComp => some { s with
      toSender := s.toSender ++ [(packetId, .pubComp)],
      receiverTask := Function.update s.receiverTask packetId .updatePubComp }
  | .updatePubComp => some { s with
      receiver := (s.receiver.updateAck packetId .pubComp .send).2,
      receiverTask := Function.update s.receiverTask packetId .idle }

/-- The receiver's answer to a packet, and its records after it. -/
def answer (s : System) (packetId : UInt16) :
    Forward → Except StateError PublishState × PublishRecords
  | .publish _ _ => s.receiver.updatePublish packetId .receive .exactlyOnce
  | .pubRel _ => s.receiver.updateAck packetId .pubRel .receive

def handlePublish (s : System) (packetId : UInt16) (round : ℕ) (rest : List (UInt16 × Forward)) :
    System :=
  match s.receiver.updatePublish packetId .receive .exactlyOnce with
  | (.ok _, receiver) => { s with
      receiver, toReceiver := rest, accepted := s.accepted ++ [(packetId, round)],
      receiverTask := Function.update s.receiverTask packetId .sendPubRec }
  -- a duplicate is answered without being taken again
  | (.error .stateCollision, receiver) => { s with
      receiver, toReceiver := rest,
      receiverTask := Function.update s.receiverTask packetId .sendPubRec }
  | (.error _, receiver) => { s with receiver, toReceiver := rest }

def handlePubRel (s : System) (packetId : UInt16) (rest : List (UInt16 × Forward)) : System :=
  match s.receiver.updateAck packetId .pubRel .receive with
  | (.ok _, receiver) => { s with
      receiver, toReceiver := rest,
      receiverTask := Function.update s.receiverTask packetId .sendPubComp }
  | (.error _, receiver) => { s with receiver, toReceiver := rest }

def handlePubRec (s : System) (packetId : UInt16) (rest : List (UInt16 × Backward)) : System :=
  match s.sender.updateAck packetId .pubRec .receive with
  | (.ok _, sender) => { s with
      sender, toSender := rest,
      senderTask := Function.update s.senderTask packetId (.sendPubRel false) }
  | (.error _, sender) => { s with sender, toSender := rest }

def handlePubComp (s : System) (packetId : UInt16) (rest : List (UInt16 × Backward)) : System :=
  match s.sender.updateAck packetId .pubComp .receive with
  | (.ok _, sender) => { s with
      sender, toSender := rest, completed := s.completed ++ [(packetId, s.round packetId)] }
  | (.error _, sender) => { s with sender, toSender := rest }

/-- One step, if it is enabled. A party finishes its pending calls for an identifier before
it handles a packet for it. -/
def step (s : System) : Action → Option System
  | .reserve packetId => if s.connected then some (s.reserve packetId) else none
  | .sender packetId => s.stepSender packetId
  | .receiver packetId => s.stepReceiver packetId
  | .toReceiver =>
    match s.toReceiver with
    | [] => none
    | (packetId, packet) :: rest =>
      if s.receiverTask packetId = .idle then
        match packet with
        | .publish round _ => some (s.handlePublish packetId round rest)
        | .pubRel _ => some (s.handlePubRel packetId rest)
      else none
  | .toSender =>
    match s.toSender with
    | [] => none
    | (packetId, packet) :: rest =>
      if s.senderTask packetId = .idle then
        match packet with
        | .pubRec => some (s.handlePubRec packetId rest)
        | .pubComp => some (s.handlePubComp packetId rest)
      else none
  | .lose => some { s with
      toReceiver := [], toSender := [], connected := false,
      senderTask := fun packetId => (s.senderTask packetId).cut,
      receiverTask := fun packetId => (s.receiverTask packetId).cut }
  | .resume =>
    if s.connected then none
    else some { s with senderTask := resumeTasks s.sender, connected := true }

def next (s : System) (a : Action) : System := (s.step a).getD s

def machine : Machine Action System Unit where
  step a s := ((), s.next a)

def after (s : System) (actions : List Action) : System := (machine.run actions s).2

/-- The part of a list that concerns one identifier. -/
def along {β : Type} (packetId : UInt16) (l : List (UInt16 × β)) : List β :=
  l.filterMap fun p => if p.1 = packetId then some p.2 else none

section Along

variable {β : Type} {packetId other : UInt16} {l : List (UInt16 × β)} {b : β}

@[simp] theorem along_nil : along (β := β) packetId [] = [] := rfl

theorem along_cons : along packetId ((other, b) :: l) =
    if other = packetId then b :: along packetId l else along packetId l := by
  by_cases h : other = packetId <;> simp [along, h]

theorem along_concat : along packetId (l ++ [(other, b)]) =
    if other = packetId then along packetId l ++ [b] else along packetId l := by
  by_cases h : other = packetId <;> simp [along, List.filterMap_append, h]

theorem mem_along : b ∈ along packetId l ↔ (packetId, b) ∈ l := by
  simp only [along, List.mem_filterMap, Prod.exists]
  constructor
  · rintro ⟨i, c, hm, he⟩
    split at he
    · cases he; subst_vars; exact hm
    · cases he
  · exact fun hm => ⟨packetId, b, hm, by simp⟩

theorem nodup_of_along (h : ∀ packetId, (along packetId l).Nodup) : l.Nodup := by
  induction l with
  | nil => exact List.nodup_nil
  | cons p l ih =>
    obtain ⟨i, b⟩ := p
    refine List.nodup_cons.mpr ⟨fun hm => ?_, ih fun j => ?_⟩
    · have hi := h i
      rw [along_cons, if_pos rfl, List.nodup_cons] at hi
      exact hi.1 (mem_along.mpr hm)
    · have hj := h j
      rw [along_cons] at hj
      split at hj
      · exact (List.nodup_cons.mp hj).2
      · exact hj

end Along

def lane (s : System) (packetId : UInt16) : Lane where
  sender := slot s.sender.outgoing packetId
  senderTask := s.senderTask packetId
  toReceiver := along packetId s.toReceiver
  receiver := slot s.receiver.incoming packetId
  receiverTask := s.receiverTask packetId
  toSender := along packetId s.toSender
  connected := s.connected
  round := s.round packetId
  accepted := along packetId s.accepted
  completed := along packetId s.completed

structure Coherent (s : System) : Prop where
  sender : s.sender.WellFormed
  receiver : s.receiver.WellFormed
  outgoing : AllExactlyOnce s.sender.outgoing
  incoming : AllExactlyOnce s.receiver.incoming

end System

end RtosMqtt.Handshake
