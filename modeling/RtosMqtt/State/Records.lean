import Mathlib.Data.Nat.Notation
import RtosMqtt.State.Machine

/-! # The record arrays

Two fixed arrays of slots hold the messages in flight. A new record goes after
the last occupied slot, the array is compacted when that slot is the last one,
and a PUBREC moves an outgoing record to the end.
-/

namespace RtosMqtt

/-- One turn of the compaction loop over the array and the first hole seen so far. -/
def compactStep (s : List Record × Option ℕ) (index : ℕ) : List Record × Option ℕ :=
  let (records, empty) := s
  match records[index]? with
  | none => (records, empty)
  | some record =>
    if record.isEmpty then
      match empty with
      | none => (records, some index)
      | some e => (records, some e)
    else
      match empty with
      | none => (records, none)
      | some e => ((records.set e record).set index Record.default, some (e + 1))

/-- Slide the occupied slots down, keeping their order. -/
def compact (records : List Record) : List Record :=
  ((List.range records.length).foldl compactStep (records, none)).1

/-- The backward scan of an insertion, over the slots below `index`. It answers
where the trailing run of free slots starts. -/
def scanForSlot (records : List Record) (packetId : UInt16) :
    (index available : ℕ) → (validEntryFound : Bool) → Except StateError ℕ
  | 0, available, _ => .ok available
  | index + 1, available, validEntryFound =>
    match records[index]? with
    | none => scanForSlot records packetId index available validEntryFound
    | some record =>
      if record.isEmpty then
        scanForSlot records packetId index (if !validEntryFound then index else available)
          validEntryFound
      else if record.packetId = packetId then
        .error .stateCollision
      else
        scanForSlot records packetId index available true

/-- Append after the last occupied slot, compacting when the last slot is taken. -/
def addRecord (records : List Record) (packetId : UInt16) (qos : QoS) (state : PublishState) :
    Except StateError Unit × List Record :=
  let count := records.length
  let records := if records.getLast?.any (fun r => !r.isEmpty) then compact records else records
  match scanForSlot records packetId count count false with
  | .error e => (.error e, records)
  | .ok available =>
    if available < records.length then
      (.ok (), records.set available { packetId, qos, state })
    else
      (.error .noMemory, records)

def findInRecord (records : List Record) (packetId : UInt16) :
    Option (ℕ × QoS × PublishState) :=
  match records.findIdx? (fun r => r.packetId = packetId) with
  | none => none
  | some index => records[index]?.map fun record => (index, record.qos, record.state)

def updateRecord (records : List Record) (index : ℕ) (new : PublishState) (delete : Bool) :
    List Record :=
  match records[index]? with
  | none => records
  | some slot => records.set index (if delete then Record.default else { slot with state := new })

/-- The number of turns left in a cursor walk bounds its recursion. -/
def stateSelectFrom (records : List Record) (wanted : List PublishState) :
    (turns : ℕ) → (cursor : ℕ) → UInt16 × ℕ
  | 0, cursor => (packetIdInvalid, cursor)
  | turns + 1, cursor =>
    match records[cursor]? with
    | none => (packetIdInvalid, cursor)
    | some r =>
      if r.state ∈ wanted then (r.packetId, cursor + 1)
      else stateSelectFrom records wanted turns (cursor + 1)

/-- The next record in one of the wanted states, and the cursor just past it. -/
def stateSelect (records : List Record) (wanted : List PublishState) (cursor : ℕ) :
    UInt16 × ℕ :=
  stateSelectFrom records wanted (records.length - cursor) cursor

def ackArray (records : List Record) (packetId : UInt16) (ack : AckType) (op : Operation) :
    Except StateError PublishState × List Record :=
  match findInRecord records packetId with
  | none => (.error .badResponse, records)
  | some (index, qos, current) =>
    let new := calculateStateAck ack op qos
    if !validateTransitionAck current new then (.error .illegalState, records)
    else if current ≠ new then
      let shouldDelete := new == .publishDone || new == .pubRelSend
      let records := updateRecord records index new shouldDelete
      -- the PUBREC move: deleted above and added back at the end
      if new = .pubRelSend then
        match addRecord records packetId .exactlyOnce .pubRelSend with
        | (.error e, records) => (.error e, records)
        | (.ok (), records) => (.ok new, records)
      else (.ok new, records)
    else (.ok new, records)

structure PublishRecords where
  outgoing : List Record
  incoming : List Record
  deriving DecidableEq, Repr

namespace PublishRecords

/-- The two arrays are taken over and cleared. -/
def new (outgoing incoming : List Record) : PublishRecords where
  outgoing := outgoing.map fun _ => Record.default
  incoming := incoming.map fun _ => Record.default

def reserve (r : PublishRecords) (packetId : UInt16) (qos : QoS) :
    Except StateError Unit × PublishRecords :=
  if qos = .atMostOnce then (.ok (), r)
  else if packetId = packetIdInvalid then (.error .badParameter, r)
  else
    let (result, outgoing) := addRecord r.outgoing packetId qos .publishSend
    (result, { r with outgoing })

def updatePublish (r : PublishRecords) (packetId : UInt16) (op : Operation) (qos : QoS) :
    Except StateError PublishState × PublishRecords :=
  if qos = .atMostOnce then (.ok .publishDone, r)
  else if packetId = packetIdInvalid then (.error .badParameter, r)
  else
    let new := calculateStatePublish op qos
    match op with
    | .send =>
      match findInRecord r.outgoing packetId with
      | none => (.error .badParameter, r)
      | some (index, foundQos, current) =>
        if foundQos ≠ qos then (.error .badParameter, r)
        else if !validateTransitionPublish current new op qos then (.error .illegalState, r)
        -- a resend leaves the state where it was
        else if current ≠ new then
          (.ok new, { r with outgoing := updateRecord r.outgoing index new false })
        else (.ok new, r)
    | .receive =>
      if !validateTransitionPublish .null new op qos then (.error .illegalState, r)
      else
        match addRecord r.incoming packetId qos new with
        | (.error e, incoming) => (.error e, { r with incoming })
        | (.ok (), incoming) => (.ok new, { r with incoming })

def updateAck (r : PublishRecords) (packetId : UInt16) (ack : AckType) (op : Operation) :
    Except StateError PublishState × PublishRecords :=
  if packetId = packetIdInvalid then (.error .badParameter, r)
  else if isPublishOutgoing ack op then
    let (result, outgoing) := ackArray r.outgoing packetId ack op
    (result, { r with outgoing })
  else
    let (result, incoming) := ackArray r.incoming packetId ack op
    (result, { r with incoming })

def remove (r : PublishRecords) (packetId : UInt16) :
    Except StateError Unit × PublishRecords :=
  if packetId = packetIdInvalid then (.error .badParameter, r)
  else
    match findInRecord r.outgoing packetId with
    | none => (.error .badParameter, r)
    | some (index, qos, current) =>
      if current = .null then (.error .badParameter, r)
      else if qos = .atMostOnce then (.error .badParameter, r)
      else (.ok (), { r with outgoing := updateRecord r.outgoing index .null true })

/-- A zero packet identifier from the walk means there is none. -/
def selected : UInt16 × ℕ → Option UInt16 × ℕ
  | (packetId, cursor) => (if packetId = packetIdInvalid then none else some packetId, cursor)

def publishWanted : List PublishState := [.publishSend, .pubAckPending, .pubRecPending]

def pubrelWanted : List PublishState := [.pubCompPending, .pubRelSend]

def publishToResend (r : PublishRecords) (cursor : ℕ) : Option UInt16 × ℕ :=
  selected (stateSelect r.outgoing publishWanted cursor)

def pubrelToResend (r : PublishRecords) (cursor : ℕ) : Option UInt16 × ℕ :=
  selected (stateSelect r.outgoing pubrelWanted cursor)

def clearOutgoing (r : PublishRecords) : PublishRecords :=
  { r with outgoing := r.outgoing.map fun _ => Record.default }

def clearIncoming (r : PublishRecords) : PublishRecords :=
  { r with incoming := r.incoming.map fun _ => Record.default }

/-- Re-slice both arrays to at most the given lengths. -/
def cap (r : PublishRecords) (outgoing incoming : ℕ) : PublishRecords where
  outgoing := if outgoing < r.outgoing.length then r.outgoing.take outgoing else r.outgoing
  incoming := if incoming < r.incoming.length then r.incoming.take incoming else r.incoming

end PublishRecords

end RtosMqtt
