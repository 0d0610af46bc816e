import Mathlib.Tactic.Common
import RtosMqtt.State.Records

/-! # One packet identifier of the QoS 2 handshake

A lane is all that concerns one packet identifier between a sender and a
receiver: the record each side holds, the call each side is about to make, and
the packets under way. At most one packet is owed or under way, and the phase
of the handshake relates the two records.
-/

namespace RtosMqtt.Handshake

/-- The position of a QoS 2 record, or none. -/
abbrev Slot := Option PublishState

/-- An acknowledgement applied to the record of a QoS 2 message. -/
def Slot.ack (slot : Slot) (ack : AckType) (op : Operation) : Except StateError Slot :=
  match slot with
  | none => .error .badResponse
  | some current =>
    let new := calculateStateAck ack op .exactlyOnce
    if validateTransitionAck current new then
      .ok (if new = .publishDone then none else some new)
    else .error .illegalState

/-- A PUBLISH that went out, applied to the record of a QoS 2 message. -/
def Slot.sent (slot : Slot) : Except StateError Slot :=
  match slot with
  | none => .error .badParameter
  | some current =>
    let new := calculateStatePublish .send .exactlyOnce
    if validateTransitionPublish current new .send .exactlyOnce then .ok (some new)
    else .error .illegalState

/-- A refused call leaves the record as it was. -/
def Slot.settle (slot : Slot) : Except StateError Slot → Slot
  | .ok slot => slot
  | .error _ => slot

/-- A packet from the sender. A PUBLISH names the message by its round: how often its
identifier had been reserved. -/
inductive Forward where
  | publish (round : ℕ) (resent : Bool)
  | pubRel (resent : Bool)
  deriving DecidableEq, Repr

/-- Whether the packet is a retransmission after a lost connection. -/
def Forward.resent : Forward → Bool
  | .publish _ resent | .pubRel resent => resent

inductive Backward where
  | pubRec | pubComp
  deriving DecidableEq, Repr

/-- What the sender does next for an identifier: send a packet, or record that it went out. -/
inductive SenderTask where
  | idle
  | sendPublish (resent : Bool) | updatePublish
  | sendPubRel (resent : Bool) | updatePubRel
  deriving DecidableEq, Repr

inductive ReceiverTask where
  | idle
  | sendPubRec | updatePubRec
  | sendPubComp | updatePubComp
  deriving DecidableEq, Repr

def SenderTask.owes : SenderTask → ℕ
  | .sendPublish _ | .sendPubRel _ => 1
  | _ => 0

def ReceiverTask.owes : ReceiverTask → ℕ
  | .sendPubRec | .sendPubComp => 1
  | _ => 0

/-- A lost connection cancels what is still to be sent; the record of what went out is kept. -/
def SenderTask.cut : SenderTask → SenderTask
  | .sendPublish _ | .sendPubRel _ => .idle
  | task => task

def ReceiverTask.cut : ReceiverTask → ReceiverTask
  | .sendPubRec | .sendPubComp => .idle
  | task => task

@[simp] theorem SenderTask.owes_cut (t : SenderTask) : t.cut.owes = 0 := by cases t <;> rfl

@[simp] theorem ReceiverTask.owes_cut (t : ReceiverTask) : t.cut.owes = 0 := by cases t <;> rfl

def resumeTask : Slot → SenderTask
  | none => .idle
  | some state =>
    if state ∈ PublishRecords.pubrelWanted then .sendPubRel true
    else if state ∈ PublishRecords.publishWanted then .sendPublish true
    else .idle

structure Lane where
  sender : Slot := none
  senderTask : SenderTask := .idle
  toReceiver : List Forward := []
  receiver : Slot := none
  receiverTask : ReceiverTask := .idle
  toSender : List Backward := []
  connected : Bool := true
  /-- How often the identifier has been reserved. -/
  round : ℕ := 0
  /-- The rounds the receiver took as new. -/
  accepted : List ℕ := []
  /-- The rounds the sender completed. -/
  completed : List ℕ := []
  deriving DecidableEq, Repr

/-- One call, or one packet sent, for the identifier of a lane. -/
inductive Lane.Step (l : Lane) : Lane → Prop
  | reserve (hc : l.connected = true) (hs : l.sender = none) :
      Step l { l with
        sender := some .publishSend, senderTask := .sendPublish false, round := l.round + 1 }
  | sendPublish (resent : Bool) (ht : l.senderTask = .sendPublish resent) :
      Step l { l with
        toReceiver := l.toReceiver ++ [.publish l.round resent], senderTask := .updatePublish }
  | updatePublish (ht : l.senderTask = .updatePublish) :
      Step l { l with sender := l.sender.settle l.sender.sent, senderTask := .idle }
  | sendPubRel (resent : Bool) (ht : l.senderTask = .sendPubRel resent) :
      Step l { l with
        toReceiver := l.toReceiver ++ [.pubRel resent], senderTask := .updatePubRel }
  | updatePubRel (ht : l.senderTask = .updatePubRel) :
      Step l { l with sender := l.sender.settle (l.sender.ack .pubRel .send), senderTask := .idle }
  | take (round : ℕ) (resent : Bool) (rest : List Forward)
      (hp : l.toReceiver = .publish round resent :: rest) (ht : l.receiverTask = .idle)
      (hr : l.receiver = none) :
      Step l { l with
        toReceiver := rest, receiver := some .pubRecSend, receiverTask := .sendPubRec,
        accepted := l.accepted ++ [round] }
  | duplicate (round : ℕ) (resent : Bool) (rest : List Forward)
      (hp : l.toReceiver = .publish round resent :: rest) (ht : l.receiverTask = .idle)
      (hr : l.receiver ≠ none) :
      Step l { l with toReceiver := rest, receiverTask := .sendPubRec }
  | refuse (round : ℕ) (resent : Bool) (rest : List Forward)
      (hp : l.toReceiver = .publish round resent :: rest) (ht : l.receiverTask = .idle)
      (hr : l.receiver = none) :
      Step l { l with toReceiver := rest }
  | sendPubRec (ht : l.receiverTask = .sendPubRec) :
      Step l { l with toSender := l.toSender ++ [.pubRec], receiverTask := .updatePubRec }
  | updatePubRec (ht : l.receiverTask = .updatePubRec) :
      Step l { l with
        receiver := l.receiver.settle (l.receiver.ack .pubRec .send), receiverTask := .idle }
  | pubRec (rest : List Backward) (hp : l.toSender = .pubRec :: rest)
      (ht : l.senderTask = .idle) :
      Step l { l with
        toSender := rest, sender := l.sender.settle (l.sender.ack .pubRec .receive),
        senderTask := if (l.sender.ack .pubRec .receive).isOk then .sendPubRel false else .idle }
  | pubRel (resent : Bool) (rest : List Forward) (hp : l.toReceiver = .pubRel resent :: rest)
      (ht : l.receiverTask = .idle) :
      Step l { l with
        toReceiver := rest, receiver := l.receiver.settle (l.receiver.ack .pubRel .receive),
        receiverTask := if (l.receiver.ack .pubRel .receive).isOk then .sendPubComp else .idle }
  | sendPubComp (ht : l.receiverTask = .sendPubComp) :
      Step l { l with toSender := l.toSender ++ [.pubComp], receiverTask := .updatePubComp }
  | updatePubComp (ht : l.receiverTask = .updatePubComp) :
      Step l { l with
        receiver := l.receiver.settle (l.receiver.ack .pubComp .send), receiverTask := .idle }
  | pubComp (rest : List Backward) (hp : l.toSender = .pubComp :: rest)
      (ht : l.senderTask = .idle) :
      Step l { l with
        toSender := rest, sender := l.sender.settle (l.sender.ack .pubComp .receive),
        completed := if (l.sender.ack .pubComp .receive).isOk then l.completed ++ [l.round]
          else l.completed }
  | lose :
      Step l { l with
        toReceiver := [], toSender := [], senderTask := l.senderTask.cut,
        receiverTask := l.receiverTask.cut, connected := false }
  | resume (hc : l.connected = false) :
      Step l { l with senderTask := resumeTask l.sender, connected := true }

namespace Lane

def Publishing (l : Lane) : Prop :=
  (l.sender = some .publishSend ∨ l.sender = some .pubRecPending) ∧
    (l.senderTask = .idle ∨ (∃ resent, l.senderTask = .sendPublish resent) ∨
      l.senderTask = .updatePublish) ∧
    ∀ p ∈ l.toReceiver, ∃ resent, p = .publish l.round resent

/-- The sender has seen a PUBREC and waits for a PUBCOMP. -/
def Releasing (l : Lane) : Prop :=
  (l.sender = some .pubRelSend ∨ l.sender = some .pubCompPending) ∧
    (l.senderTask = .idle ∨ (∃ resent, l.senderTask = .sendPubRel resent) ∨
      l.senderTask = .updatePubRel) ∧
    (∀ p ∈ l.toReceiver, ∃ resent, p = .pubRel resent) ∧ l.round ∈ l.accepted

/-- The receiver holds no record, or is about to drop the record of the previous message. -/
def Vacated (l : Lane) : Prop :=
  l.receiver = none ∧ l.receiverTask = .idle ∨
    l.receiver = some .pubCompSend ∧ l.receiverTask = .updatePubComp

inductive Phase (l : Lane) : Prop
  | rest (hs : l.sender = none) (ht : l.senderTask = .idle) (hf : l.toReceiver = [])
      (hb : l.toSender = []) (hr : l.Vacated)
  | offered (hs : l.Publishing) (hn : l.round ∉ l.accepted) (hb : l.toSender = [])
      (hr : l.Vacated)
  | taken (hs : l.Publishing) (ha : l.round ∈ l.accepted) (hb : ∀ p ∈ l.toSender, p = .pubRec)
      (hr : l.receiver = some .pubRecSend ∨ l.receiver = some .pubRelPending)
      (ht : l.receiverTask = .idle ∨ l.receiverTask = .sendPubRec ∨
        l.receiverTask = .updatePubRec)
      (hsent : l.toSender ≠ [] → l.receiver = some .pubRelPending ∨
        l.receiverTask = .updatePubRec)
  | releasing (hs : l.Releasing) (hb : l.toSender = [])
      (hr : l.receiver = some .pubRelPending ∧ l.receiverTask = .idle ∨
        (l.receiver = some .pubRecSend ∨ l.receiver = some .pubRelPending) ∧
          l.receiverTask = .updatePubRec)
  | completing (hs : l.Releasing) (hb : ∀ p ∈ l.toSender, p = .pubComp)
      (hr : l.receiver = some .pubCompSend)
      (ht : l.receiverTask = .idle ∨ l.receiverTask = .sendPubComp ∨
        l.receiverTask = .updatePubComp)
      (hsent : l.toSender ≠ [] → l.receiverTask = .updatePubComp)
  | orphaned (hs : l.Releasing) (hb : ∀ p ∈ l.toSender, p = .pubComp)
      (hr : l.receiver = none) (ht : l.receiverTask = .idle)

def transit (l : Lane) : ℕ :=
  l.senderTask.owes + l.toReceiver.length + l.receiverTask.owes + l.toSender.length

structure Sound (l : Lane) : Prop where
  phase : l.Phase
  single : l.transit ≤ 1
  offline : l.connected = false → l.transit = 0
  /-- A record whose packet was never recorded as sent has a pending call, or nothing is under
  way. -/
  stalled : l.sender = some .publishSend ∨ l.sender = some .pubRelSend → l.senderTask = .idle →
    l.transit = 0
  once : l.accepted.Nodup
  past : ∀ k ∈ l.accepted, k ≤ l.round
  kept : ∀ k ∈ l.completed, k ∈ l.accepted

theorem sound_initial : Sound {} :=
  ⟨.rest rfl rfl rfl rfl (.inl ⟨rfl, rfl⟩), by decide, by decide, by decide, by decide, by decide,
    by decide⟩

end Lane

end RtosMqtt.Handshake
