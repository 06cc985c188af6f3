import SupplyGauge.Config.Settings
/-! # The broker as its client sees it

A client makes four kinds of calls: it opens a session, announces its availability,
delivers a message, and leaves the session. Every call succeeds or is refused at
once, and a script says beforehand how the calls end; calls beyond the script
succeed.
-/

namespace SupplyGauge.Mqtt

/-- What is published, and how. -/
structure Publication where
  topic : String
  payload : String
  qos : Int
  retain : Bool
  deriving DecidableEq, Repr

/-- A publication that the client has accepted, with its place among all accepted ones. -/
structure Message extends Publication where
  serial : Nat
  deriving DecidableEq, Repr

/-- What a session is opened with. The will is published by the broker when the session ends
without leave. -/
structure Connection where
  host : Config.Scalar
  port : Int
  username : Option Config.Scalar
  password : Option Config.Scalar
  identifier : Config.Scalar
  keepalive : Int
  will : Publication
  deriving DecidableEq

/-- A call to the broker. -/
inductive Call where
  | enter (c : Connection)
  | announce (p : Publication)
  | deliver (m : Message)
  | leave
  deriving DecidableEq

/-- What a refusal is about: the protocol, a value in the call, or the system. -/
inductive RefusalKind where
  | protocol
  | value
  | system
  deriving DecidableEq, Repr

/-- Why a call failed. -/
structure Refusal where
  kind : RefusalKind
  message : String
  deriving DecidableEq, Repr

/-- How calls end, in the order of the calls of each kind; `none` is success. -/
structure Script where
  entering : List (Option Refusal) := []
  publishing : List (Option Refusal) := []
  leaving : List (Option Refusal) := []

/-- The end of a call, and the script after it. -/
def Script.next (s : Script) : Call → Option Refusal × Script
  | .enter _ => (s.entering.head?.join, { s with entering := s.entering.tail })
  | .announce _ | .deliver _ =>
    (s.publishing.head?.join, { s with publishing := s.publishing.tail })
  | .leave => (s.leaving.head?.join, { s with leaving := s.leaving.tail })

end SupplyGauge.Mqtt
