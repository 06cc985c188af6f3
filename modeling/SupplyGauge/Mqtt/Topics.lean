import SupplyGauge.Supply.Cycle
/-! # Messages of a cycle

The samples of a successful cycle go to one topic each, below the device's name,
and the outcome of every cycle to the state topic. The state comes last. A sink
that refuses a message does not stop the cycle.
-/

namespace SupplyGauge.Mqtt

/-- What a message carries: a text as it is, or the text of a JSON value. -/
inductive Payload where
  | text (s : String)
  | json (v : Json.Value)

def Payload.render : Payload → String
  | .text s => s
  | .json v => v.render

def trimPrefix (topicPrefix : String) : String :=
  String.ofList (topicPrefix.toList.reverse.dropWhile (· == '/')).reverse

def sampleTopic (topicPrefix : String) (s : Metric.Sample) : String :=
  let device := if s.deviceName = "" then "unknown" else s.deviceName
  s!"{trimPrefix topicPrefix}/{device}/{s.description.name}"

def stateTopic (topicPrefix : String) : String := s!"{trimPrefix topicPrefix}/state"

/-- A place for messages: it takes a topic and a payload and answers whether it accepts. -/
abbrev Sink (σ : Type) := String → Payload → σ → Bool × σ

/-- Offers samples in order and counts those accepted. -/
def offerSamples {σ : Type} (sink : Sink σ) (topicPrefix : String) :
    List Metric.Sample → σ → Nat × σ
  | [], s => (0, s)
  | x :: rest, s =>
    let (accepted, s) := sink (sampleTopic topicPrefix x) (.json x.payload) s
    let (n, s) := offerSamples sink topicPrefix rest s
    (if accepted then n + 1 else n, s)

def cycleComponent : String := "mqtt.publisher"

/-- Offers the messages of a cycle. Gives the number of samples accepted and a warning if some
were not. -/
def offerCycle {σ : Type} (sink : Sink σ) (topicPrefix : String) (r : Supply.Result) (s : σ) :
    Nat × List Log.Entry × σ :=
  if r.available then
    let (queued, s) := offerSamples sink topicPrefix r.samples s
    let (_, s) := sink (stateTopic topicPrefix) (.text "online") s
    let all := r.samples.length
    let log := if queued < all then
        [Log.note .warning cycleComponent s!"Dropped {all - queued} of {all} records"]
      else []
    (queued, log, s)
  else
    let (_, s) := sink (stateTopic topicPrefix) (.text "error") s
    (0, [], s)

end SupplyGauge.Mqtt
