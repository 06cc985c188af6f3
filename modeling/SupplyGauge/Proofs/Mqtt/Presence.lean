import Mathlib.Data.List.Induction
import SupplyGauge.Proofs.Mqtt.Announcement
import SupplyGauge.Proofs.Mqtt.FirstTurns
import SupplyGauge.Proofs.Mqtt.Shutdown

/-! # Deliveries are attempted in a session that is there

Between the moment at which a fetch finds the client connected and the attempt to deliver
what it has taken lies a wait, in which the client may be stopped. As long as sessions are
ended only in this way, the client still has its session when the loop comes to use it.
The session has been entered too, unless the client was connected by hand although it was
connected, and was refused: it stays connected then, with a session that it never entered.
-/

namespace SupplyGauge.Mqtt

/-- Whether the latest session has been entered. -/
def Entered (events : List Event) : Prop :=
  ∃ at_, (session events).head? = some (.called (.enter at_) none)

/-- Until the next session, the calls of the latest one are only continued. -/
theorem session_append {events later : List Event}
    (hsame : ∀ at_ answer, .called (.enter at_) answer ∉ later) :
    session events <+: session (events ++ later) := by
  rw [session, session, List.foldl_append, ← session]
  generalize session events = calls
  induction later generalizing calls with
  | nil => exact List.prefix_rfl
  | cons e later ih =>
      have hlater := ih fun at_ answer hmem => hsame at_ answer (List.mem_cons_of_mem _ hmem)
      refine List.IsPrefix.trans ?_ (hlater (sessionAfter calls e))
      unfold sessionAfter
      split
      next at_ answer => exact absurd List.mem_cons_self (hsame at_ answer)
      · exact List.prefix_append _ _
      · exact List.prefix_append _ _
      · exact List.prefix_rfl

/-- Whether something that is known of the latest session holds once it has been entered, and goes
on holding while nothing happens to the session. -/
structure Lasting (fit : List Event → Prop) : Prop where
  entered : ∀ events, Entered events → fit events
  beside : ∀ events e, (∀ calls, sessionAfter calls e = calls) → fit events → fit (events ++ [e])

theorem BeforeAttempts.imp {holds holds' : List Event → Prop}
    (himp : ∀ events, holds events → holds' events) {past : List Event}
    (h : BeforeAttempts holds past) : BeforeAttempts holds' past := by
  induction past with
  | nil => trivial
  | cons e past ih =>
      unfold BeforeAttempts
      split
      · trivial
      next hcons =>
        obtain ⟨rfl, rfl⟩ := List.cons.inj hcons
        exact ⟨himp _ h.1, ih h.2⟩
      next hcall hcons =>
        obtain ⟨rfl, rfl⟩ := List.cons.inj hcons
        refine ih ?_
        rwa [BeforeAttempts] at h
        exact hcall

namespace Ledger

variable {fit fit' : List Event → Prop} {l l' : Ledger}

/-- Messages are in hand only while the client is connected, and what is taken is attempted, always
in a session that is fit for it. -/
structure Attends (fit : List Event → Prop) (l : Ledger) : Prop where
  held : l.inHand ≠ [] → l.connected = true
  attached : l.connected = true → l.attached = true
  connected : l.connected = true → fit l.events
  attempts : BeforeAttempts fit l.past
  taken : l.taken = l.attempted ++ l.inHand

theorem Attends.imp (himp : ∀ events, fit events → fit' events) (h : l.Attends fit) :
    l.Attends fit' :=
  ⟨h.held, h.attached, fun hconnected => himp _ (h.connected hconnected), h.attempts.imp himp,
    h.taken⟩

/-- All that is taken after some more events is attempted or in hand. -/
theorem Attends.taken_append (h : l.Attends fit) (events : List Event)
    (hevents : l'.events = l.events ++ events)
    (hhand : l.inHand ++ events.filterMap Event.taken? =
      events.filterMap Event.attempted? ++ l'.inHand) : l'.taken = l'.attempted ++ l'.inHand := by
  calc l'.taken = l.taken ++ events.filterMap Event.taken? := by
        rw [Ledger.taken, hevents, List.filterMap_append, Ledger.taken]
    _ = l.attempted ++ (l.inHand ++ events.filterMap Event.taken?) := by
        rw [h.taken, List.append_assoc]
    _ = l'.attempted ++ l'.inHand := by
        rw [hhand, ← List.append_assoc, Ledger.attempted, Ledger.attempted, hevents,
          List.filterMap_append]

theorem entered_enter (l : Ledger) (at_ : Connection) (answer : Option Refusal) :
    Entered (l.enter at_ answer).events := by
  refine ⟨at_, ?_⟩
  change (session (l.note [.called (.enter at_) none,
    .called (.announce (l.voice "online")) answer]).events).head? = _
  rw [session_note]
  rfl

theorem Attends.enter (hlasting : Lasting fit) (h : l.Attends fit) (at_ : Connection)
    (answer : Option Refusal) : (l.enter at_ answer).Attends fit :=
  ⟨fun _ => rfl, fun _ => rfl, fun _ => hlasting.entered _ (l.entered_enter at_ answer),
    h.attempts, h.taken_append _ (l.events_note _) (List.append_nil _)⟩

/-- While sessions are left to the loops, messages are attended to. -/
theorem Move.attends (hlasting : Lasting fit) (hmove : Move False l l') (h : l.Attends fit) :
    l'.Attends fit := by
  have hnever {still : Prop} (hstill : false = true) : still := absurd hstill Bool.false_ne_true
  have hbeside (e : Event) (he : ∀ calls, sessionAfter calls e = calls)
      (hconnected : l.connected = true) : fit (l.note [e]).events :=
    l.events_note [e] ▸ hlasting.beside _ e he (h.connected hconnected)
  cases hmove with
  | remark e hremark =>
      have htaken : (l.note [e]).taken = (l.note [e]).attempted ++ l.inHand := by
        refine h.taken_append [e] (l.events_note [e]) ?_
        cases e <;> first | contradiction | exact List.append_nil _
      cases e with
      | reported | signalled | limitReached =>
          exact ⟨h.held, h.attached, hbeside _ fun _ => rfl, h.attempts, htaken⟩
      | _ => contradiction
  | accept m =>
      exact ⟨h.held, h.attached, hbeside (.accepted m) fun _ => rfl, h.attempts,
        h.taken_append [.accepted m] (l.events_note _) (List.append_nil _)⟩
  | take m rest hqueue hhand hconnected =>
      refine ⟨fun _ => hconnected.resolve_left id, h.attached, hbeside (.taken m) fun _ => rfl,
        h.attempts, h.taken_append [.taken m] (l.events_note _) ?_⟩
      rw [hhand]
      rfl
  | deliver m hhand hattached =>
      have hconnected := h.held (by simp [hhand])
      refine ⟨fun hheld => absurd rfl hheld, h.attached,
        hbeside (.called (.deliver m) none) fun _ => rfl, ⟨h.connected hconnected, h.attempts⟩,
        h.taken_append [.called (.deliver m) none] (l.events_note _) ?_⟩
      rw [hhand]
      rfl
  | putBack m r e hhand | overflow m r e hhand | lose m r hhand =>
      -- the attempt was made in the session in which the message was taken
      have hconnected := h.held (by simp [hhand])
      refine ⟨fun hheld => absurd rfl hheld, hnever, hnever, ⟨h.connected hconnected, h.attempts⟩,
        h.taken_append _ (events_note _ _) ?_⟩
      rw [hhand]
      rfl
  | orphan m hhand hattached =>
      have hstill := h.attached (h.held (by simp [hhand]))
      rw [hattached] at hstill
      exact hnever hstill
  | refuse at_ r hconnected =>
      have hclosed := hconnected.resolve_left id
      exact ⟨h.held, fun _ => rfl, fun hstill => hnever (hclosed.symm.trans hstill), h.attempts,
        h.taken_append _ (l.events_note _) (List.append_nil _)⟩
  | enter at_ answer => exact h.enter hlasting at_ answer
  | abandon at_ r hconnected =>
      exact ⟨fun hheld => hnever (hconnected.symm.trans (h.held hheld)), hnever, hnever, h.attempts,
        h.taken_append _ (l.events_note _) (List.append_nil _)⟩
  | depart r hattached hconnected hhand | leave answer hattached hconnected hhand =>
      exact ⟨fun hheld => absurd (hhand.resolve_left id) hheld, hnever, hnever, h.attempts,
        h.taken_append _ (l.detach.events_note _) (List.append_nil _)⟩

end Ledger

namespace Client

open Ledger

variable {fit : List Event → Prop} {c : Client}

/-- Connecting by hand puts nothing in the way of messages unless the client is connected and is
refused. -/
theorem connect_attends (offered inHand : List Message) (hlasting : Lasting fit)
    (h : (c.ledger offered inHand).Attends fit)
    (hrefused : c.connected = true → ∀ at_ r,
      c.connect.2.events.getLast? = some (.called (.enter at_) (some r)) →
      fit c.connect.2.events) : (c.connect.2.ledger offered inHand).Attends fit := by
  have hconnecting := c.connect_connecting offered inHand
  rw [← ledger_events c.connect.2 offered inHand] at hrefused
  have hreported (e : Log.Entry) :
      ((c.ledger offered inHand).note [.reported e]).Attends fit :=
    Move.attends hlasting (.remark _ (.reported e) rfl) h
  generalize c.connect.2.ledger offered inHand = l, c.connect.1 = result at *
  cases hconnecting with
  | untried => exact h
  | refused e r =>
      refine ⟨(hreported e).held, fun _ => rfl, fun hconnected => ?_, (hreported e).attempts,
        (hreported e).taken_append _ (events_note _ _) (List.append_nil _)⟩
      refine hrefused hconnected c.connection r ?_
      rw [show (Ledger.refuse _ c.connection r).events = _ from events_note _ _]
      exact List.getLast?_concat
  | unannounced e r => exact (hreported e).enter hlasting c.connection (some r)
  | done e e' =>
      exact Move.attends hlasting (.remark _ (.reported e') rfl)
        ((hreported e).enter hlasting c.connection none)

/-- A client that is connected stays so when it is connected by hand. -/
theorem connect_stays (hconnected : c.connected = true) : c.connect.2.connected = true := by
  have hconnecting := c.connect_connecting [] []
  change (c.connect.2.ledger [] []).connected = true
  generalize c.connect.2.ledger [] [] = l, c.connect.1 = result at *
  cases hconnecting with
  | untried | refused => exact hconnected
  | unannounced | done => rfl

theorem takeTurn_current (h : c.Orderly) (turn : Turn) : (c.takeTurn turn).current = c.current := by
  by_cases hturn : turn.isCallers = true
  · unfold Turn.isCallers at hturn
    split at hturn
    · rfl
    · rfl
    · contradiction
  · have hadvances : Advances True c (c.takeTurn turn) :=
      takeTurn_advances h (Bool.not_eq_true _ ▸ hturn)
    exact hadvances.current

theorem connect_tended (hcurrent : c.current ≠ none) (htended : c.Tended) :
    c.connect.2.Tended := by
  have hspares := c.connect_spares 0
  have hmoves : Moves True (c.ledger [] []) (c.connect.2.ledger [] []) :=
    c.connect_moves [] [] trivial
  refine ⟨fun i hi => ?_, fun hnone => ?_, hmoves.attached htended.attached⟩
  · rw [loop, hspares.loops_eq] at hi
    exact connect_stays (htended.waiting i hi)
  · exact absurd (hspares.current.symm.trans hnone) hcurrent

end Client

namespace Course

open Client Ledger

variable {p : Course}

/-- While no loop is the current one, turns leave no trace. -/
theorem goOn_idle (h : p.Sound) (hcurrent : p.client.current = none) :
    p.goOn.client.current = none ∧ p.goOn.client.ledger [] [] = p.client.ledger [] [] ∧
      p.goOn.offered = p.offered := by
  have hscene {turn : Turn} {scene : Scene} (hnext : p.client.scene.next? = some (turn, scene)) :
      ({ p.client with scene } : Client).ledger [] [] = p.client.ledger [] [] :=
    ledger_of_past rfl (Scene.next?_turns_subperm hnext).2
  unfold goOn
  split
  next => exact ⟨hcurrent, rfl, rfl⟩
  next scene hnext =>
    unfold resume
    split
    next hstopping =>
      obtain ⟨n, hn, -⟩ := h.stopping hstopping
      rw [hcurrent] at hn
      contradiction
    next => exact ⟨hcurrent, hscene hnext, rfl⟩
  next turn scene _ hnext =>
    have horderly : Orderly { p.client with scene } := h.orderly.congr rfl rfl rfl
    have hover (i : Nat) : (loop { p.client with scene } i).stand = .over :=
      h.orderly.others i (by simp [hcurrent])
    exact ⟨(takeTurn_current horderly turn).trans hcurrent,
      (takeTurn_idle horderly hover turn).trans (hscene hnext), rfl⟩

/-- While no loop is the current one, a deed does not begin to use a session. -/
theorem act_idle (h : p.Sound) (hcurrent : p.client.current = none) {deed : Deed}
    (hleaves : deed.leavesSessions = true) (hstart : deed ≠ .start) :
    (p.act deed).client.current = none ∧ Moves False p.ledger (p.act deed).ledger := by
  have hnothing := h.orderly.inHand_eq_nil hcurrent
  cases deed with
  | publish topic payload retain =>
      have hmoves : Moves False p.ledger _ :=
        p.publish_moves p.client.inHand topic payload retain h.serial
      obtain ⟨hkeeps, hhand, -⟩ := publish_keeps h.orderly topic payload retain
      have hclient : (p.publish topic payload retain).client =
          (p.client.publish topic payload retain).2 := by
        unfold Course.publish
        split <;> simp only [*]
      refine ⟨?_, ?_⟩
      · exact (congrArg Client.current hclient).trans (hkeeps.current.trans hcurrent)
      · rw [← hhand, ← hclient] at hmoves
        exact hmoves
  | start => contradiction
  | stop =>
      dsimp only [act]
      split
      next =>
        have hbegin : p.client.beginStop = (false, { p.client with running := false }) := by
          unfold beginStop
          simp only [hcurrent]
        have hspares := finishStop_spares { p.client with running := false } 0
        have hhand : ({ p.client with running := false }.finishStop).2.inHand = [] :=
          (inHand_of_loops hspares.loops_eq).trans hnothing
        unfold Course.stop
        rw [hbegin]
        refine ⟨hspares.current, ?_⟩
        unfold Course.ledger
        rw [hnothing, hhand]
        exact finishStop_moves { p.client with running := false } p.offered [] (.inr rfl)
      next => exact ⟨hcurrent, .refl⟩
  | connect => contradiction
  | disconnect => contradiction
  | leave =>
      dsimp only [act]
      split <;> exact ⟨hcurrent, .refl⟩
  | call after turn =>
      dsimp only [act]
      split
      next =>
        refine ⟨hcurrent, ?_⟩
        unfold Course.ledger Client.ledger
        rw [Scene.lend_past]
        exact .refl
      next => exact ⟨hcurrent, .refl⟩
  | aside e => exact ⟨hcurrent, errand_moves p.client e p.offered p.client.inHand⟩
  | goOn =>
      obtain ⟨hstill, hledger, hoffered⟩ := goOn_idle h hcurrent
      have hact : Progress True p p.goOn := goOn_progress h
      have hhand := hact.sound.orderly.inHand_eq_nil hstill
      have hsame : p.goOn.ledger = p.ledger := by
        unfold Course.ledger
        rw [hnothing, hhand, hoffered]
        exact congrArg (fun l : Ledger => { l with offered := p.offered }) hledger
      exact ⟨hstill, hsame ▸ .refl⟩

/-- Where sessions are left to the loops, a deed moves the ledger as loops do, also after connecting
by hand: a current loop is tended as before, and without one nothing uses the session. -/
theorem act_tends (h : p.Sound) (htended : p.client.current ≠ none → p.client.Tended)
    (hattached : p.client.connected = true → p.client.attached = true) {deed : Deed}
    (hleaves : deed.leavesSessions = true) :
    Moves False p.ledger (p.act deed).ledger ∧
      ((p.act deed).client.current ≠ none → (p.act deed).client.Tended) := by
  by_cases hcurrent : p.client.current = none
  · by_cases hstart : deed = .start
    · subst hstart
      have hact : p.act .start = { p with client := p.client.start } := if_pos hcurrent
      rw [hact]
      refine ⟨?_, fun _ => start_tended h.orderly hcurrent hattached⟩
      unfold Course.ledger
      rw [start_inHand]
      exact Moves.remark (.reported (Log.note .info component "MQTT client started")) rfl
    · obtain ⟨hstill, hmoves⟩ := act_idle h hcurrent hleaves hstart
      exact ⟨hmoves, fun hsome => absurd hstill hsome⟩
  · have hact : Progress False p (p.act deed) := act_progress h deed (.inr hleaves)
    have hnow := htended hcurrent
    exact ⟨hact.moves (.inr hnow), fun _ => (hact.tended (.inr hnow)).resolve_left id⟩

/-- Whether the latest session has displaced another one in vain: while the client was connected, it
was connected by hand once more and refused. -/
def Displaced (p : Course) (deeds : List Deed) (events : List Event) : Prop :=
  ∃ earlier later at_ r since, deeds = earlier ++ .connect :: later ∧
    (p.run earlier).client.connected = true ∧
    (p.run (earlier ++ [.connect])).client.events.getLast? = some (.called (.enter at_) (some r)) ∧
    events = (p.run (earlier ++ [.connect])).client.events ++ since ∧
    ∀ at_ answer, .called (.enter at_) answer ∉ since

theorem Displaced.append {deeds : List Deed} {events : List Event} (h : Displaced p deeds events)
    (deed : Deed) : Displaced p (deeds ++ [deed]) events := by
  obtain ⟨earlier, later, at_, r, since, rfl, hdisplaced⟩ := h
  exact ⟨earlier, later ++ [deed], at_, r, since, by simp, hdisplaced⟩

/-- A session that has been displaced has not been entered. -/
theorem Displaced.not_entered {deeds : List Deed} {events : List Event}
    (h : Displaced p deeds events) : ¬ Entered events := by
  obtain ⟨earlier, later, at_, r, since, -, -, hlast, rfl, hsince⟩ := h
  obtain ⟨before, hbefore⟩ := List.getLast?_eq_some_iff.mp hlast
  have hsession : session (p.run (earlier ++ [.connect])).client.events =
      [.called (.enter at_) (some r)] := by
    rw [hbefore, session, List.foldl_append]
    rfl
  obtain ⟨calls, hcalls⟩ :=
    @session_append (p.run (earlier ++ [.connect])).client.events since hsince
  rw [hsession] at hcalls
  rintro ⟨at_', hentered⟩
  rw [← hcalls] at hentered
  simp at hentered

theorem lasting_displaced (p : Course) (deeds : List Deed) :
    Lasting fun events => Entered events ∨ Displaced p deeds events where
  entered _ hentered := .inl hentered
  beside events e he h := by
    rcases h with ⟨at_, hentered⟩ |
      ⟨earlier, later, at_, r, since, hdeeds, hconnected, hlast, rfl, hsince⟩
    · refine .inl ⟨at_, ?_⟩
      rw [session, List.foldl_append]
      exact (congrArg List.head? (he (session events))).trans hentered
    · refine .inr ⟨earlier, later, at_, r, since ++ [e], hdeeds, hconnected, hlast,
        List.append_assoc _ _ _, fun at_' answer hmem => ?_⟩
      rcases List.mem_append.mp hmem with hmem | hmem
      · exact hsince at_' answer hmem
      · rw [← List.mem_singleton.mp hmem] at he
        exact absurd (he []) (by simp [sessionAfter])

/-- Connecting by hand goes on attending to messages, or displaces a session. -/
theorem run_connect_attends {deeds : List Deed}
    (h : (p.run deeds).ledger.Attends fun events =>
      Entered events ∨ p.Displaced (deeds ++ [.connect]) events) :
    (p.run (deeds ++ [.connect])).ledger.Attends fun events =>
      Entered events ∨ p.Displaced (deeds ++ [.connect]) events := by
  have hrun : p.run (deeds ++ [.connect]) = (p.run deeds).act .connect := p.run_append deeds _
  have hhand : ((p.run deeds).act .connect).client.inHand = (p.run deeds).client.inHand :=
    inHand_of_loops (connect_spares (p.run deeds).client 0).loops_eq
  rw [hrun]
  unfold Course.ledger
  rw [hhand]
  refine connect_attends _ _ (p.lasting_displaced _) h fun hconnected at_ r hlast => ?_
  exact .inr ⟨deeds, [], at_, r, [], rfl, hconnected, hrun ▸ hlast,
    by rw [hrun, List.append_nil]; rfl, by simp⟩

/-- A run attends to messages as long as it ends sessions only by stopping the client. -/
theorem run_attends (hsound : ∀ deeds, (p.run deeds).Sound)
    (hattends : p.ledger.Attends fun events => Entered events ∨ p.Displaced [] events)
    (hcurrent : p.client.current = none) {deeds : List Deed}
    (hdeeds : ∀ deed ∈ deeds, deed ≠ .disconnect) :
    ((p.run deeds).ledger.Attends fun events => Entered events ∨ p.Displaced deeds events) ∧
      ((p.run deeds).client.current ≠ none → (p.run deeds).client.Tended) := by
  -- by induction on the latest deed, since displacing a session looks back on the run before
  induction deeds using List.reverseRecOn with
  | nil => exact ⟨hattends, fun hsome => absurd hcurrent hsome⟩
  | append_singleton deeds deed ih =>
      obtain ⟨hbefore, htended⟩ := ih fun d hd => hdeeds d (List.mem_append_left _ hd)
      have hdeed := hdeeds deed (List.mem_append_right _ (List.mem_singleton_self deed))
      replace hbefore := hbefore.imp fun events => Or.imp_right (Displaced.append · deed)
      have hrun : p.run (deeds ++ [deed]) = (p.run deeds).act deed := p.run_append deeds _
      by_cases hconnect : deed = .connect
      · subst hconnect
        refine ⟨run_connect_attends hbefore, fun hsome => ?_⟩
        rw [hrun] at hsome ⊢
        replace hsome := (connect_spares (p.run deeds).client 0).current ▸ hsome
        exact connect_tended hsome (htended hsome)
      · have hleaves : deed.leavesSessions = true := by
          cases deed <;> first | rfl | contradiction
        obtain ⟨hmoves, hthen⟩ := act_tends (hsound deeds) htended hbefore.attached hleaves
        rw [hrun]
        exact ⟨hmoves.keep (fun _ _ => Move.attends (p.lasting_displaced _)) hbefore, hthen⟩

variable (settings : Config.MqttSettings) (availabilityTopic : String)
  (identifier : Config.Scalar) (now : Instant) (script : Script)

theorem fresh_attends (fit : List Event → Prop) :
    (fresh settings availabilityTopic identifier now script).ledger.Attends fit where
  held hheld := absurd rfl hheld
  attached hconnected := absurd hconnected Bool.false_ne_true
  connected hconnected := absurd hconnected Bool.false_ne_true
  attempts := trivial
  taken := rfl

/-- What is known about sessions and messages at a moment of a run: a client that is connected has a
session; all that was taken out of the queue was attempted in a session or is in hand; and whenever
a message was attempted, the session had not been left, and it had been entered unless a session
that was refused has taken its place. -/
structure InSession (p : Course) (deeds : List Deed) : Prop where
  attached : (p.run deeds).client.connected = true → (p.run deeds).client.attached = true
  taken : (p.run deeds).client.taken =
    (p.run deeds).client.attempted ++ (p.run deeds).client.inHand
  attempts : ∀ before m answer after,
    (p.run deeds).client.events = before ++ .called (.deliver m) answer :: after →
      (∀ answer, .called .leave answer ∉ session before) ∧
        (Entered before ↔ ¬ p.Displaced deeds before)

/-- As long as sessions are ended only by stopping the client, a loop never comes to deliver a
message without a session, or in one that has been left. It comes to do so in one that has not been
entered only after the client has been connected by hand while it was connected. -/
theorem deliveries_in_session (deeds : List Deed) (hdeeds : ∀ deed ∈ deeds, deed ≠ .disconnect) :
    (fresh settings availabilityTopic identifier now script).InSession deeds := by
  obtain ⟨hattends, -⟩ :=
    run_attends (run_fresh_sound settings availabilityTopic identifier now script)
      (fresh_attends settings availabilityTopic identifier now script _) rfl hdeeds
  have hopened := run_fresh_opened settings availabilityTopic identifier now script deeds
  have hevents := Client.ledger_events
    ((fresh settings availabilityTopic identifier now script).run deeds).client
    ((fresh settings availabilityTopic identifier now script).run deeds).offered
    ((fresh settings availabilityTopic identifier now script).run deeds).client.inHand
  refine ⟨hattends.attached, ?_, fun before m answer after hattempt => ?_⟩
  · have htaken := hattends.taken
    rw [Ledger.taken, Ledger.attempted, Course.ledger, hevents] at htaken
    exact htaken
  · have hpast := hevents.trans hattempt
    refine ⟨fun answer hleft => ?_, fun hentered hdisplaced => ?_, fun hnot => ?_⟩
    · obtain ⟨failure, hopening⟩ := hopened.attempts.holds hpast
      generalize session before = calls at hopening hleft
      cases hopening <;> simp at hleft
    · exact hdisplaced.not_entered hentered
    · exact (hattends.attempts.holds hpast).resolve_right hnot

/-- A client that is connected is connected by hand, and then is started and offered a message. -/
def displacedDeeds : List Deed :=
  [.connect, .connect, .start, .publish "p/a" (.text "1") none] ++ List.replicate 4 .goOn

/-- What happens when the broker refuses the second connection: the message is delivered next. -/
def displacedRun : Course :=
  (fresh {} "power_supply_metrics/status" (.text "cid") .zero
    { entering := [none, some ⟨.protocol, "refused"⟩] }).run displacedDeeds

theorem deliveries_in_session_displaced : (∀ deed ∈ displacedDeeds, deed ≠ .disconnect) ∧
    displacedRun.client.events = displacedRun.client.events.take 10 ++
      [.called (.deliver ⟨⟨"p/a", "1", 1, false⟩, 0⟩) none] ∧
    ¬ Entered (displacedRun.client.events.take 10) ∧
    (fresh {} "power_supply_metrics/status" (.text "cid") .zero
      { entering := [none, some ⟨.protocol, "refused"⟩] }).Displaced displacedDeeds
        (displacedRun.client.events.take 10) := by
  have hdeeds : ∀ deed ∈ displacedDeeds, deed ≠ .disconnect := by simp [displacedDeeds]
  have hattempt : displacedRun.client.events = displacedRun.client.events.take 10 ++
      [.called (.deliver ⟨⟨"p/a", "1", 1, false⟩, 0⟩) none] := by decide +kernel
  have hrefused : (session (displacedRun.client.events.take 10)).head? =
      some (.called (.enter displacedRun.client.connection) (some ⟨.protocol, "refused"⟩)) := by
    decide +kernel
  have hnot : ¬ Entered (displacedRun.client.events.take 10) := by
    rintro ⟨at_, hentered⟩
    simp [hrefused] at hentered
  obtain ⟨-, hiff⟩ := (deliveries_in_session {} "power_supply_metrics/status" (.text "cid") .zero
    { entering := [none, some ⟨.protocol, "refused"⟩] } displacedDeeds hdeeds).attempts _ _ _ _
      hattempt
  exact ⟨hdeeds, hattempt, hnot, not_not.mp fun hpresent => hnot (hiff.mpr hpresent)⟩

end Course

end SupplyGauge.Mqtt
