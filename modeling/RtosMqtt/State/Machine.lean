import Mathlib.Tactic.Common

/-! # The publish state machine

One in-flight message is a packet identifier, a quality of service and a
handshake position. The two transition tables say which positions a PUBLISH
or an acknowledgement may move a message to.
-/

namespace RtosMqtt

def packetIdInvalid : UInt16 := 0

inductive QoS where
  | atMostOnce | atLeastOnce | exactlyOnce
  deriving DecidableEq, Repr, Inhabited

/-- Where a message has got to: a `Send` position owes a packet, a `Pending` one awaits one. -/
inductive PublishState where
  | null
  | publishSend | pubAckSend | pubRecSend | pubRelSend | pubCompSend
  | pubAckPending | pubRecPending | pubRelPending | pubCompPending
  | publishDone
  deriving DecidableEq, Repr, Inhabited

inductive AckType where
  | pubAck | pubRec | pubRel | pubComp
  deriving DecidableEq, Repr

inductive Operation where
  | send | receive
  deriving DecidableEq, Repr

/-- One slot of a record array. The slot is free when its packet identifier is zero. -/
structure Record where
  packetId : UInt16 := packetIdInvalid
  qos : QoS := .atMostOnce
  state : PublishState := .null
  deriving DecidableEq, Repr

def Record.default : Record := {}

instance : Inhabited Record := ⟨Record.default⟩

def Record.isEmpty (r : Record) : Bool := r.packetId == packetIdInvalid

inductive StateError where
  | badParameter | noMemory | stateCollision | illegalState | badResponse
  deriving DecidableEq, Repr

def validateTransitionPublish (current new : PublishState) (op : Operation) (qos : QoS) : Bool :=
  match current with
  | .null =>
    match op, new with
    | .receive, .pubAckSend => true
    | .receive, .pubRecSend => true
    | _, _ => false
  | .publishSend =>
    match qos with
    | .atLeastOnce => new == .pubAckPending
    | .exactlyOnce => new == .pubRecPending
    | .atMostOnce => false
  -- resending after a session is reestablished
  | .pubAckPending => new == .pubAckPending
  | .pubRecPending => new == .pubRecPending
  | _ => false

def validateTransitionAck (current new : PublishState) : Bool :=
  match current with
  | .pubAckSend | .pubAckPending => new == .publishDone
  | .pubRecSend => new == .pubRelPending
  | .pubRelPending => new == .pubCompSend || new == .pubRelPending
  | .pubCompSend => new == .publishDone || new == .pubCompSend
  | .pubRecPending => new == .pubRelSend
  | .pubRelSend => new == .pubCompPending
  | .pubCompPending => new == .publishDone || new == .pubCompPending
  | _ => false

/-- Which array holds the publish an acknowledgement belongs to. -/
def isPublishOutgoing (ack : AckType) (op : Operation) : Bool :=
  match ack with
  | .pubAck | .pubRec | .pubComp => op == .receive
  | .pubRel => op == .send

def calculateStatePublish (op : Operation) (qos : QoS) : PublishState :=
  match qos with
  | .atMostOnce => .publishDone
  | .atLeastOnce =>
    match op with
    | .send => .pubAckPending
    | .receive => .pubAckSend
  | .exactlyOnce =>
    match op with
    | .send => .pubRecPending
    | .receive => .pubRecSend

/-- Whether an acknowledgement belongs to a quality of service, and the position it leads to. -/
def ackTarget (ack : AckType) (op : Operation) (qos : QoS) : Bool × PublishState :=
  match ack, op with
  | .pubAck, _ => (qos == .atLeastOnce, .publishDone)
  | .pubRec, .send => (qos == .exactlyOnce, .pubRelPending)
  | .pubRec, .receive => (qos == .exactlyOnce, .pubRelSend)
  | .pubRel, .send => (qos == .exactlyOnce, .pubCompPending)
  | .pubRel, .receive => (qos == .exactlyOnce, .pubCompSend)
  | .pubComp, _ => (qos == .exactlyOnce, .publishDone)

/-- `null` when the acknowledgement and the quality of service disagree. -/
def calculateStateAck (ack : AckType) (op : Operation) (qos : QoS) : PublishState :=
  if (ackTarget ack op qos).1 then (ackTarget ack op qos).2 else .null

/-- The positions of an outgoing message at each quality of service. -/
def OutgoingLegal (qos : QoS) (state : PublishState) : Prop :=
  (qos = .atLeastOnce ∧ (state = .publishSend ∨ state = .pubAckPending)) ∨
    (qos = .exactlyOnce ∧ (state = .publishSend ∨ state = .pubRecPending ∨
      state = .pubRelSend ∨ state = .pubCompPending))

/-- The positions of an incoming message at each quality of service. -/
def IncomingLegal (qos : QoS) (state : PublishState) : Prop :=
  (qos = .atLeastOnce ∧ state = .pubAckSend) ∨
    (qos = .exactlyOnce ∧ (state = .pubRecSend ∨ state = .pubRelPending ∨
      state = .pubCompSend))

instance (q : QoS) (s : PublishState) : Decidable (OutgoingLegal q s) := by
  unfold OutgoingLegal; infer_instance

instance (q : QoS) (s : PublishState) : Decidable (IncomingLegal q s) := by
  unfold IncomingLegal; infer_instance

theorem validateTransitionPublish_resend {qos : QoS} (hq : qos ≠ .atMostOnce) :
    validateTransitionPublish (calculateStatePublish .send qos) (calculateStatePublish .send qos)
      .send qos = true := by
  cases qos with
  | atMostOnce => exact absurd rfl hq
  | atLeastOnce => rfl
  | exactlyOnce => rfl

theorem pubRec_accepted {state : PublishState} {qos : QoS}
    (h : validateTransitionAck state (calculateStateAck .pubRec .receive qos) = true) :
    state = .pubRecPending ∧ qos = .exactlyOnce ∧
      calculateStateAck .pubRec .receive qos = .pubRelSend := by
  cases qos <;> cases state <;> simp_all [calculateStateAck, ackTarget, validateTransitionAck]

theorem self_transition_not_deleting {s : PublishState} (h : validateTransitionAck s s = true) :
    s ≠ .publishDone ∧ s ≠ .pubRelSend := by
  cases s <;> simp_all [validateTransitionAck]

end RtosMqtt
