import SupplyGauge.Proofs.Mqtt.Ledger

/-! # Transitions as moves

Each transition of a client is a sequence of moves of its ledger. Waits, timers and
the states of loops leave no trace in it; connecting, delivering, disconnecting and
accepting do, and only in the ways that moves allow.
-/

namespace SupplyGauge.Mqtt

namespace Client

variable {byHand : Prop} (c : Client) (offered inHand : List Message)

/-- The ledger of a client, beside the messages offered and in hand. -/
def ledger : Ledger where
  offered
  queue := c.queue
  inHand
  attached := c.attached
  connected := c.connected
  past := c.scene.past.map Prod.snd
  voice := c.availability

theorem ledger_events : (c.ledger offered inHand).events = c.events :=
  List.map_reverse.symm

@[simp] theorem note_ledger (e : Event) :
    (c.note e).ledger offered inHand = (c.ledger offered inHand).note [e] := rfl

@[simp] theorem report_ledger (severity : Log.Severity) (message : String) :
    (c.report severity message).ledger offered inHand =
      (c.ledger offered inHand).note [.reported (Log.note severity component message)] := rfl

@[simp] theorem setLoop_ledger (n : Nat) (d : Delivery) :
    (c.setLoop n d).ledger offered inHand = c.ledger offered inHand := rfl

@[simp] theorem awaitMessage_ledger (n : Nat) :
    (c.awaitMessage n).ledger offered inHand = c.ledger offered inHand := rfl

@[simp] theorem finishFetch_ledger (n : Nat) (fetch : Fetch) :
    (c.finishFetch n fetch).ledger offered inHand = c.ledger offered inHand := rfl

@[simp] theorem detach_ledger :
    c.detach.ledger offered inHand = (c.ledger offered inHand).detach := rfl

@[simp] theorem penalize_ledger (n : Nat) (e : ClientError) :
    (c.penalize n e).ledger offered inHand =
      { (c.ledger offered inHand).note [.reported (failureEntry e)] with connected := false } := rfl

@[simp] theorem backOff_ledger (n : Nat) (message : String) :
    (c.backOff n message).ledger offered inHand =
      (c.ledger offered inHand).note [.reported
        (Log.note .error component s!"Failed to connect to MQTT: {message}")] := rfl

@[simp] theorem finishLoop_ledger (n : Nat) :
    (c.finishLoop n).ledger offered inHand = c.ledger offered inHand := by
  dsimp only [finishLoop]
  split <;> rfl

@[simp] theorem callListener_ledger :
    c.callListener.ledger offered inHand = c.ledger offered inHand := by
  unfold callListener
  split <;> rfl

theorem perform_ledger {call : Call} {answer : Option Refusal} {c c' : Client}
    (hcall : c.perform call = (answer, c')) :
    c'.ledger offered inHand = (c.ledger offered inHand).note [.called call answer] := by
  obtain ⟨rfl, rfl⟩ := Prod.mk.inj hcall
  rfl

/-- What connecting can come to: it is not tried, refused, not announced, or done. -/
inductive Connecting (at_ : Connection) (l : Ledger) : Except ClientError Unit → Ledger → Prop
  | untried (f : Numeral.Fault) : Connecting at_ l (.error (.unwritable f)) l
  | refused (e : Log.Entry) (r : Refusal) :
      Connecting at_ l (.error (.refused r)) ((l.note [.reported e]).refuse at_ r)
  | unannounced (e : Log.Entry) (r : Refusal) :
      Connecting at_ l (.error (.refused r)) ((l.note [.reported e]).enter at_ (some r))
  | done (e e' : Log.Entry) :
      Connecting at_ l (.ok ()) (((l.note [.reported e]).enter at_ none).note [.reported e'])

theorem connect_connecting :
    Connecting c.connection (c.ledger offered inHand) c.connect.1
      (c.connect.2.ledger offered inHand) := by
  unfold connect
  split
  · exact .untried _
  · exact .untried _
  next address identifier _ _ =>
    dsimp only
    split
    next r entered henter =>
      dsimp only
      rw [perform_ledger offered inHand henter]
      exact .refused (Log.note .debug component _) r
    next entered henter =>
      have hentered := perform_ledger offered inHand henter
      have hannounced {answer : Option Refusal} {announced : Client}
          (hannounce : Client.perform { entered with connected := true }
            (.announce (entered.availability "online")) = (answer, announced)) :
          announced.ledger offered inHand =
            ((c.ledger offered inHand).note
              [.reported (Log.note .debug component
                s!"Connecting to MQTT broker {address} as {identifier}")]).enter
              c.connection answer := by
        have hledger : announced.ledger offered inHand =
            { entered.ledger offered inHand with connected := true }.note
              [.called (.announce ((entered.ledger offered inHand).voice "online")) answer] :=
          perform_ledger offered inHand hannounce
        rw [hledger, hentered]
        rfl
      -- the session counts as connected before it is announced, hence also where the
      -- announcement is refused
      split
      next r announced hannounce =>
        dsimp only
        rw [hannounced hannounce]
        exact .unannounced _ r
      next announced hannounce =>
        dsimp only [report_ledger]
        rw [hannounced hannounce]
        exact .done _ _

open Ledger Relation

/-- A session can be opened by hand at any time. -/
theorem connect_moves (hbyHand : byHand) :
    Moves byHand (c.ledger offered inHand) (c.connect.2.ledger offered inHand) := by
  have hconnecting := c.connect_connecting offered inHand
  have hremark (e : Log.Entry) : Moves byHand (c.ledger offered inHand)
      ((c.ledger offered inHand).note [.reported e]) := Moves.remark _ rfl
  generalize c.connect.2.ledger offered inHand = l, c.connect.1 = result at hconnecting
  cases hconnecting with
  | untried => exact .refl
  | refused e r => exact (hremark e).tail (.refuse _ c.connection r (.inl hbyHand))
  | unannounced e r => exact (hremark e).tail (.enter _ c.connection (some r) (.inl hbyHand))
  | done e e' =>
      exact ((hremark e).tail (.enter _ c.connection none (.inl hbyHand))).trans
        (Moves.remark _ rfl)

/-- A pass of a loop opens a session if there is none, and gives it up after an unexpected
failure. -/
theorem pass_moves (n : Nat) :
    Moves byHand (c.ledger offered inHand) ((c.pass n).ledger offered inHand) := by
  unfold pass
  split
  · split
    · exact .refl
    next hconnected =>
      replace hconnected : c.connected = false := by simpa using hconnected
      have hconnecting := c.connect_connecting offered inHand
      rcases hconnect : c.connect with ⟨result, c'⟩
      rw [hconnect] at hconnecting
      dsimp only at hconnecting
      generalize hl : c'.ledger offered inHand = l at hconnecting
      have hremark (e : Log.Entry) : Moves byHand (c.ledger offered inHand)
          ((c.ledger offered inHand).note [.reported e]) := Moves.remark _ rfl
      cases hconnecting with
      | untried f =>
          dsimp only
          rw [penalize_ledger, hl, disconnect_eq hconnected]
          exact hremark _
      | refused e r =>
          have hrefuse := (hremark e).tail (.refuse _ c.connection r (.inr hconnected))
          obtain ⟨kind, message⟩ := r
          cases kind with
          | protocol =>
              dsimp only
              rw [backOff_ledger, hl]
              exact hrefuse.trans (Moves.remark _ rfl)
          | value | system =>
              dsimp only
              rw [penalize_ledger, hl, disconnect_eq hconnected]
              exact hrefuse.trans (Moves.remark _ rfl)
      | unannounced e r =>
          obtain ⟨kind, message⟩ := r
          -- after a refusal by the protocol the pass ends in a session that is still attached
          cases kind with
          | protocol =>
              dsimp only
              rw [backOff_ledger, hl]
              exact ((hremark e).tail (.enter _ c.connection (some ⟨.protocol, message⟩)
                (.inr ⟨hconnected, by simp⟩))).trans (Moves.remark _ rfl)
          | value | system =>
              dsimp only
              rw [penalize_ledger, hl]
              exact ((hremark e).tail (.abandon _ c.connection _ hconnected (by simp))).trans
                (Moves.remark _ rfl)
      | done e e' =>
          dsimp only
          rw [awaitMessage_ledger, setLoop_ledger, hl]
          exact ((hremark e).tail (.enter _ c.connection none
            (.inr ⟨hconnected, by simp⟩))).trans (Moves.remark _ rfl)
  · rw [finishLoop_ledger]

/-- A message that is not delivered goes back to the queue or is lost with an entry of its own. -/
theorem requeue_ledger (m : Message) :
    (c.requeue m).ledger offered inHand =
      if c.queue.length < queueLimit then
        { (c.ledger offered inHand).note [.returned m] with queue := c.queue ++ [m] }
      else (c.ledger offered inHand).note [.dropped m, .reported (overflowEntry m.topic)] := by
  by_cases hroom : c.queue.length < queueLimit
  · simp only [requeue, enqueue, if_pos hroom, note_ledger, callListener_ledger]
    rfl
  · simp only [requeue, enqueue, if_neg hroom]
    rfl

/-- What a loop has in hand is delivered, put back or lost. -/
theorem deliver_moves (n : Nat) (m : Message) :
    Moves byHand (c.ledger offered [m]) ((c.deliver n m).ledger offered []) := by
  unfold deliver
  dsimp only
  generalize hreport : c.report .debug _ = reported
  have hreported : Moves byHand (c.ledger offered [m]) (reported.ledger offered [m]) := by
    rw [← hreport]
    exact Moves.remark _ rfl
  refine hreported.trans ?_
  split
  next hattached =>
    split
    next c' hcall =>
      refine ReflTransGen.trans ?_ (c'.pass_moves offered [] n)
      rw [perform_ledger offered [] hcall]
      exact .single (.deliver _ m rfl hattached)
    next message c' hcall =>
      refine ReflTransGen.trans ?_ (pass_moves _ offered [] n)
      have hledger := perform_ledger offered [] hcall
      have hqueue : (c'.report .error s!"MQTT error: {message}").detach.queue = reported.queue :=
        congrArg Ledger.queue hledger
      rw [requeue_ledger, detach_ledger, report_ledger, hledger, hqueue]
      split
      next hroom => exact .single (.putBack _ m _ _ rfl hattached rfl hroom)
      next => exact .single (.overflow _ m _ _ rfl hattached rfl)
    next r c' hkind hcall =>
      rw [penalize_ledger, note_ledger, perform_ledger offered [] hcall]
      exact .single (.lose _ m r rfl hattached fun hr => hkind r.message (by rw [← hr]))
  next hattached =>
    rw [penalize_ledger, note_ledger]
    exact .single (.orphan _ m rfl (Bool.eq_false_iff.mpr hattached))

/-- Leaving a session ends with its being forgotten, however far it gets. -/
theorem farewell_moves (hattached : c.attached = true) (hconnected : c.connected = true)
    (hhand : byHand ∨ inHand = []) :
    Moves byHand (c.ledger offered inHand) (c.farewell.2.ledger offered inHand).detach := by
  unfold farewell
  split
  next r c' hcall =>
    rw [perform_ledger offered inHand hcall]
    exact .single (.depart _ r hattached hconnected hhand)
  next c' hcall =>
    rcases hleave : c'.perform .leave with ⟨answer, left⟩
    rw [perform_ledger offered inHand hleave, perform_ledger offered inHand hcall]
    exact .single (.leave _ answer hattached hconnected hhand)

/-- A session is ended only if there is one. -/
theorem disconnect_moves (hhand : byHand ∨ inHand = []) :
    Moves byHand (c.ledger offered inHand) (c.disconnect.2.ledger offered inHand) := by
  unfold disconnect
  split
  next hsession =>
    obtain ⟨hattached, hconnected⟩ := Bool.and_eq_true_iff.mp hsession
    have hfarewell := c.farewell_moves offered inHand hattached hconnected hhand
    split
    next c' hleft =>
      rw [hleft] at hfarewell
      exact hfarewell.trans (Moves.remark _ rfl)
    next message c' hleft =>
      rw [hleft] at hfarewell
      exact (hfarewell.trans (Moves.remark _ rfl)).trans (Moves.remark _ rfl)
    next r c' _ hleft =>
      rw [hleft] at hfarewell
      exact hfarewell
  next => exact .refl

theorem finishStop_moves (hhand : byHand ∨ inHand = []) :
    Moves byHand (c.ledger offered inHand) (c.finishStop.2.ledger offered inHand) := by
  have hdisconnect : Moves byHand (c.ledger offered inHand) _ :=
    disconnect_moves { c with current := none } offered inHand hhand
  unfold finishStop
  split
  next c' hended =>
    rw [hended] at hdisconnect
    exact hdisconnect.trans (Moves.remark _ rfl)
  next e c' herror =>
    rw [herror] at hdisconnect
    exact hdisconnect

/-- After stopping there is no session. -/
theorem finishStop_connected (hattached : c.connected = true → c.attached = true) :
    c.finishStop.2.connected = false := by
  have hdisconnect : ({ c with current := none }.disconnect).2.connected = false := by
    unfold disconnect
    split
    next => split <;> rfl
    next hsession =>
      rw [Bool.and_eq_true, not_and] at hsession
      exact Bool.eq_false_iff.mpr fun hconnected => hsession (hattached hconnected) hconnected
  unfold finishStop
  split
  all_goals
    next hended =>
      rw [hended] at hdisconnect
      exact hdisconnect

/-- A fetch that looks into the queue takes the first message or nothing. -/
theorem lookForMessage_moves (n : Nat) (hconnected : byHand ∨ c.connected = true) :
    Moves byHand (c.ledger offered [])
      ((c.lookForMessage n).ledger offered c.queue.head?.toList) := by
  unfold lookForMessage
  split
  next m rest hqueue =>
    rw [finishFetch_ledger, hqueue]
    exact .single (.take _ m rest hqueue rfl hconnected)
  next hqueue =>
    rw [setLoop_ledger]
    simp only [ledger, hqueue]
    exact .refl

end Client

/-- An offer is accepted while there is room in the queue. -/
theorem Course.publish_moves {byHand : Prop} (p : Course) (inHand : List Message) (topic : String)
    (payload : Payload) (retain : Option Bool) (hserial : p.client.accepted = p.offered.length) :
    Ledger.Moves byHand (p.client.ledger p.offered inHand)
      ((p.publish topic payload retain).client.ledger (p.publish topic payload retain).offered
        inHand) := by
  generalize hm : p.message topic payload retain = m
  have hmessage : m =
      { topic
        payload := payload.render
        qos := p.client.settings.qos
        retain := retain.getD p.client.settings.retain.data
        serial := p.client.accepted } := by
    rw [← hm, message, hserial]
  by_cases hroom : p.client.queue.length < queueLimit
  · have hledger : (p.publish topic payload retain).client.ledger
        (p.publish topic payload retain).offered inHand =
          { (p.client.ledger p.offered inHand).note [.accepted m] with
            offered := p.offered ++ [m], queue := p.client.queue ++ [m] } := by
      simp only [publish, Client.publish, Client.enqueue, if_pos hroom, hm, ← hmessage]
      exact congrArg (fun l : Ledger => l.note [.accepted m])
        (Client.callListener_ledger { p.client with queue := p.client.queue ++ [m] }
          (p.offered ++ [m]) inHand)
    rw [hledger]
    exact .single (.accept _ m hroom (by rw [← hm]; rfl))
  · have hledger : (p.publish topic payload retain).client.ledger
        (p.publish topic payload retain).offered inHand =
          (p.client.ledger p.offered inHand).note [.reported (overflowEntry topic)] := by
      simp only [publish, Client.publish, Client.enqueue, if_neg hroom]
      rfl
    rw [hledger]
    exact Ledger.Moves.remark _ rfl

end SupplyGauge.Mqtt
