import RtosMqtt.Client.Loop
import RtosMqtt.Client.Publish
import RtosMqtt.Client.Session

/-! # A scripted caller

The caller of an example: a transport that delivers given chunks and takes what
it is offered unless told otherwise, a clock that stands still, a store that
returns what it accepted, and a handler with given answers.
-/

namespace RtosMqtt

structure Script where
  reads : List (List UInt8) := []
  sends : List Sent := []
  kept : List (UInt32 × List UInt8) := []
  answers : List (List ReplyAction × Bool) := []
  deriving DecidableEq, Repr

namespace Script

/-- The next chunk, as much of it as fits; the rest stays for the next read. -/
def recv (into : List UInt8) (w : Script) : (Recv × List UInt8) × Script :=
  match w.reads with
  | [] => ((.nothing, []), w)
  | chunk :: reads =>
    let taken := chunk.take into.length
    let rest := chunk.drop into.length
    ((.bytes taken.length, taken), { w with reads := if rest = [] then reads else rest :: reads })

/-- The next scripted answer, or everything. -/
def take (offered : ℕ) (w : Script) : Sent × Script :=
  match w.sends with
  | [] => (.bytes offered, w)
  | answer :: sends => (answer, { w with sends })

def onEvent (w : Script) : (List ReplyAction × Bool) × Script :=
  match w.answers with
  | [] => (([], true), w)
  | answer :: answers => (answer, { w with answers })

def environment (storing : Bool) : Environment Script where
  recv := recv
  send bytes := take bytes.length
  writev parts := take parts.flatten.length
  nowMs w := (0, w)
  storing := storing
  store key parts w :=
    (true, { w with kept := (key, parts.flatten) :: w.kept.filter (·.1 ≠ key) })
  retrieve key w := ((w.kept.find? (·.1 = key)).map (·.2), w)
  clear key w := { w with kept := w.kept.filter (·.1 ≠ key) }
  onEvent _ _ := onEvent
  patience := 8

/-- A CONNECT with a name and no more, and the properties it is to carry. -/
def connect (cleanSession : Bool) (properties : List UInt8) : Connect where
  info := { cleanSession, keepAliveSeconds := 0, username := none, password := none }
  clientIdentifier := [97]
  properties := properties
  will := none

/-- A CONNACK that accepts, with the properties it is to carry. -/
def connack (sessionPresent : Bool) (properties : List UInt8) : List UInt8 :=
  [0x20, 3 + properties.length.toUInt8, if sessionPresent then 1 else 0, 0,
    properties.length.toUInt8] ++ properties

end Script

def Observation.offered : Observation → Option (List UInt8)
  | .sent parts _ _ => some parts.flatten
  | _ => none

end RtosMqtt
