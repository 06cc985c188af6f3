import SupplyGauge.Proofs.Mqtt.QueueOrder
import SupplyGauge.Proofs.Mqtt.Shutdown

/-! # Stops that overlap

Nothing keeps a caller from stopping a client while the stop of another one still waits
for the current loop. Each of them goes on at some moment after the loop that it waits
for is over, whatever happens in between, and every such order is a run. In a run a
client is started only after a stop has ended since it was last started. A run is
careful if it is moreover started only while no stop waits: then every stop leaves the
client stopped, whoever else stops it.
-/

namespace SupplyGauge.Mqtt

/-- What can happen to a client that several callers use. `stop` begins one more stop, `resume` lets
a stop that waits go on, and `goOn` is whatever turn comes next. -/
inductive Use where
  | publish (topic : String) (payload : Payload) (retain : Option Bool)
  | start
  | stop
  | resume (i : Nat)
  | connect
  | disconnect
  | aside (e : Errand)
  | goOn

/-- A client, and for each stop that waits the loop that it waits for, the oldest stop first. -/
structure Shared where
  client : Client
  waiting : List Nat := []

namespace Shared

/-- Begins to stop, and completes it if no loop is there to wait for. -/
def stop (p : Shared) : Shared :=
  match p.client.beginStop with
  | (true, c) => { client := c, waiting := p.waiting ++ c.current.toList }
  | (false, c) => { p with client := c.finishStop.2 }

/-- A stop whose loop is over is completed. -/
def resume (p : Shared) (i : Nat) : Shared :=
  match p.waiting[i]? with
  | some n =>
    if (p.client.loop n).stand = .over then
      { client := p.client.finishStop.2, waiting := p.waiting.eraseIdx i }
    else p
  | none => p

/-- The turn that comes next is taken. -/
def goOn (p : Shared) : Shared :=
  match p.client.scene.next? with
  | none => p
  | some (turn, scene) => { p with client := { p.client with scene }.takeTurn turn }

def act (p : Shared) : Use → Shared
  | .publish topic payload retain =>
    { p with client := (p.client.publish topic payload retain).2 }
  | .start => if p.client.current = none then { p with client := p.client.start } else p
  | .stop => p.stop
  | .resume i => p.resume i
  | .connect => { p with client := p.client.connect.2 }
  | .disconnect => { p with client := p.client.disconnect.2 }
  | .aside e => { p with client := { p.client with scene := e.perform p.client.scene } }
  | .goOn => p.goOn

/-- A run: uses in order. -/
def run (p : Shared) (uses : List Use) : Shared := uses.foldl act p

theorem run_append (p : Shared) (earlier later : List Use) :
    p.run (earlier ++ later) = (p.run earlier).run later := by
  rw [run, List.foldl_append]
  rfl

/-- The use of a client that has just been made. -/
def fresh (settings : Config.MqttSettings) (availabilityTopic : String)
    (identifier : Config.Scalar) (now : Instant) (script : Script) : Shared :=
  { client := .fresh settings availabilityTopic identifier now script }

/-- Whether a client that is started has no stop that still waits. -/
def Allows (p : Shared) : Use → Prop
  | .start => p.client.current = none → p.waiting = []
  | _ => True

/-- A run in which the client is started only while no stop waits. -/
def Careful (p : Shared) : List Use → Prop
  | [] => True
  | use :: uses => p.Allows use ∧ (p.act use).Careful uses

instance decidableAllows (p : Shared) : (use : Use) → Decidable (p.Allows use)
  | .start => inferInstanceAs (Decidable (p.client.current = none → p.waiting = []))
  | .publish _ _ _ | .stop | .resume _ | .connect | .disconnect | .aside _ | .goOn =>
    inferInstanceAs (Decidable True)

instance decidableCareful : (p : Shared) → (uses : List Use) → Decidable (p.Careful uses)
  | _, [] => inferInstanceAs (Decidable True)
  | p, use :: uses =>
    have := decidableCareful (p.act use) uses
    inferInstanceAs (Decidable (p.Allows use ∧ (p.act use).Careful uses))

theorem Careful.of_append {p : Shared} {earlier later : List Use}
    (h : p.Careful (earlier ++ later)) : p.Careful earlier ∧ (p.run earlier).Careful later := by
  induction earlier generalizing p with
  | nil => exact ⟨trivial, h⟩
  | cons use uses ih =>
      obtain ⟨huses, hlater⟩ := ih h.2
      exact ⟨⟨h.1, huses⟩, hlater⟩

theorem Careful.append {p : Shared} {earlier later : List Use} (h : p.Careful earlier)
    (hlater : (p.run earlier).Careful later) : p.Careful (earlier ++ later) := by
  induction earlier generalizing p with
  | nil => exact hlater
  | cons use uses ih => exact ⟨h.1, ih h.2 hlater⟩

/-- A stop ends: it does not have to wait at all, or waits no longer. -/
def EndsStop (p : Shared) (use : Use) : Prop :=
  use = .stop ∧ (p.act use).waiting = p.waiting ∨
    (∃ i, use = .resume i) ∧ (p.act use).waiting.length < p.waiting.length

end Shared

namespace Client

open Ledger

variable {c c' c'' : Client}

/-- A client comes to another one by moves of its ledger, whatever messages have been offered. -/
def Leads (c c' : Client) : Prop :=
  ∀ offered, c.accepted = offered.length → ∃ offered', c'.accepted = offered'.length ∧
    Moves True (c.ledger offered c.inHand) (c'.ledger offered' c'.inHand)

theorem Leads.trans (h : Leads c c') (h' : Leads c' c'') : Leads c c'' := by
  intro offered haccepted
  obtain ⟨offered', haccepted', hmoves⟩ := h offered haccepted
  obtain ⟨offered'', haccepted'', hmoves'⟩ := h' offered' haccepted'
  exact ⟨offered'', haccepted'', hmoves.trans hmoves'⟩

theorem Leads.of_moves (haccepted : c'.accepted = c.accepted) (hhand : c'.inHand = c.inHand)
    (hmoves : ∀ offered, Moves True (c.ledger offered c.inHand) (c'.ledger offered c.inHand)) :
    Leads c c' :=
  fun offered hoffered => ⟨offered, haccepted.trans hoffered, hhand.symm ▸ hmoves offered⟩

theorem Leads.refl (c : Client) : Leads c c := .of_moves rfl rfl fun _ => .refl

theorem Leads.of_past {scene : Scene} (hpast : scene.past = c.scene.past) :
    Leads c { c with scene } := by
  refine .of_moves rfl rfl fun offered => ?_
  unfold ledger
  rw [hpast]
  exact .refl

theorem Advances.leads (h : Advances True c c') : Leads c c' :=
  fun offered hoffered => ⟨offered, h.accepted.trans hoffered, h.moves (.inl trivial) offered⟩

theorem publish_leads (h : c.Orderly) (topic : String) (payload : Payload)
    (retain : Option Bool) : Leads c (c.publish topic payload retain).2 := by
  intro offered hoffered
  have hmoves : Moves True (c.ledger offered c.inHand) _ :=
    Course.publish_moves { client := c, offered } c.inHand topic payload retain hoffered
  obtain ⟨-, hhand, -, haccepted⟩ := publish_keeps h topic payload retain
  unfold Course.publish at hmoves
  rcases hpublish : c.publish topic payload retain with ⟨accepted, published⟩
  rw [hpublish] at hmoves hhand haccepted
  rw [show published.inHand = c.inHand from hhand]
  cases accepted with
  | true => exact ⟨_, by rw [haccepted, hoffered, List.length_append]; rfl, hmoves⟩
  | false => exact ⟨offered, haccepted.trans hoffered, hmoves⟩

theorem finishStop_leads (c : Client) : Leads c c.finishStop.2 := by
  have hspares := c.finishStop_spares 0
  exact .of_moves hspares.accepted (inHand_of_loops hspares.loops_eq) fun offered =>
    c.finishStop_moves offered c.inHand (.inl trivial)

/-- Whatever turn comes, nobody but the loops is concerned. -/
theorem next_leads (h : c.Orderly) {turn : Turn} {scene : Scene}
    (hnext : c.scene.next? = some (turn, scene)) :
    Keeps c ({ c with scene }.takeTurn turn) ∧ Leads c ({ c with scene }.takeTurn turn) := by
  have hturns := next?_callerTurns hnext
  have hpast := (Scene.next?_turns_subperm hnext).2
  have hnow : Keeps c { c with scene } :=
    .of_eq h _ rfl rfl rfl (Nat.le_trans (Nat.le_add_right _ _) hturns)
  by_cases hturn : turn.isCallers = true
  · unfold Turn.isCallers at hturn
    split at hturn
    · exact ⟨hnow, .of_past hpast⟩
    · -- the end of a wait of a caller gives out its turn, so as many are to come as before
      have hgiven := give_callerTurns { c with scene } (.goOn .caller)
      exact ⟨.of_eq h _ rfl rfl rfl (Nat.le_trans (Nat.le_of_eq hgiven) hturns), .of_past hpast⟩
    · contradiction
  · have hadvances : Advances True { c with scene } ({ c with scene }.takeTurn turn) :=
      takeTurn_advances hnow.orderly (Bool.not_eq_true _ ▸ hturn)
    exact ⟨hnow.trans hadvances.toKeeps, Leads.trans (.of_past hpast) hadvances.leads⟩

/-- If a client has no loop but one that is over, every loop is over. -/
theorem Orderly.over_of_current (h : c.Orderly) {n : Nat}
    (hcurrent : c.current = some n ∨ c.current = none) (hstand : (c.loop n).stand = .over)
    (i : Nat) : (c.loop i).stand = .over := by
  by_cases hi : i = n
  · exact hi ▸ hstand
  · refine h.others i fun hother => ?_
    rcases hcurrent with hsame | hnone
    · exact hi (Option.some.inj (hother.symm.trans hsame))
    · rw [hnone] at hother
      contradiction

/-- From one moment to a later one, the queue loses only what is taken, from its head on, and gets
only what enters it, at its end. -/
def QueueKept (c c' : Client) : Prop :=
  ∃ during, c'.events = c.events ++ during ∧
    c.queue ++ during.filterMap Event.entered? = during.filterMap Event.taken? ++ c'.queue

end Client

namespace Ledger

variable {byHand : Prop} {l l' : Ledger}

/-- The queue follows from the events between two moments. -/
def KeepsQueue (l l' : Ledger) : Prop :=
  ∃ during, l'.events = l.events ++ during ∧
    l.queue ++ during.filterMap Event.entered? = during.filterMap Event.taken? ++ l'.queue

theorem KeepsQueue.trans {l'' : Ledger} (h : KeepsQueue l l') (h' : KeepsQueue l' l'') :
    KeepsQueue l l'' := by
  obtain ⟨first, hevents, hqueue⟩ := h
  obtain ⟨second, hevents', hqueue'⟩ := h'
  refine ⟨first ++ second, by rw [hevents', hevents, List.append_assoc], ?_⟩
  calc l.queue ++ (first ++ second).filterMap Event.entered?
      = first.filterMap Event.taken? ++ (l'.queue ++ second.filterMap Event.entered?) := by
        rw [List.filterMap_append, ← List.append_assoc, hqueue, List.append_assoc]
    _ = (first ++ second).filterMap Event.taken? ++ l''.queue := by
        rw [hqueue', List.filterMap_append, List.append_assoc]

theorem Move.keepsQueue (hmove : Move byHand l l') : KeepsQueue l l' := by
  cases hmove with
  | remark e hremark =>
      refine ⟨[e], events_note _ _, ?_⟩
      cases e <;> first | contradiction | exact List.append_nil _
  | accept m => exact ⟨[.accepted m], events_note _ _, rfl⟩
  | take m rest hqueue =>
      refine ⟨[.taken m], events_note _ _, ?_⟩
      rw [hqueue]
      exact List.append_nil _
  | deliver | overflow | lose | orphan | refuse | enter | abandon | depart | leave =>
      exact ⟨_, events_note _ _, List.append_nil _⟩
  | putBack => exact ⟨_, events_note _ _, rfl⟩

theorem Moves.keepsQueue (hmoves : Moves byHand l l') : KeepsQueue l l' := by
  have hmove (l₁ l₂ : Ledger) (hmove : Move byHand l₁ l₂) (hkept : KeepsQueue l l₁) :
      KeepsQueue l l₂ := hkept.trans hmove.keepsQueue
  exact hmoves.keep hmove ⟨[], (List.append_nil _).symm, List.append_nil _⟩

end Ledger

namespace Shared

open Client Ledger

variable {p : Shared}

/-- Loops are in order, and while a stop waits the client is not to run and has no other loop than
the one for which it waits. -/
structure Sound (p : Shared) : Prop where
  orderly : p.client.Orderly
  waiting : ∀ n ∈ p.waiting, p.client.running = false ∧
    (p.client.current = some n ∨ p.client.current = none)

/-- What a use comes to. -/
structure Progress (p p' : Shared) : Prop where
  sound : p'.Sound
  leads : Leads p.client p'.client

theorem Progress.refl (h : p.Sound) : Progress p p := ⟨h, .refl _⟩

theorem Progress.trans {p' p'' : Shared} (h : Progress p p') (h' : Progress p' p'') :
    Progress p p'' := ⟨h'.sound, h.leads.trans h'.leads⟩

/-- What neither starts nor stops the client. -/
theorem Sound.keep (h : p.Sound) {c' : Client} (hkeeps : Keeps p.client c')
    (hrunning : c'.running = p.client.running) (hleads : Leads p.client c') :
    Progress p { p with client := c' } := by
  refine ⟨⟨hkeeps.orderly, fun n hn => ?_⟩, hleads⟩
  rw [hrunning, hkeeps.current]
  exact h.waiting n hn

/-- Once every loop is over, a stop is completed, and others may still have to be. -/
theorem finish_progress (horderly : p.client.Orderly) (hrunning : p.client.running = false)
    (hover : ∀ i, (p.client.loop i).stand = .over) (waiting : List Nat) :
    Progress p { client := p.client.finishStop.2, waiting } where
  sound := by
    have hspares := p.client.finishStop_spares 0
    exact ⟨finishStop_orderly horderly hover,
      fun _ _ => ⟨hspares.running.trans hrunning, .inr hspares.current⟩⟩
  leads := p.client.finishStop_leads

theorem stop_progress (h : p.Sound) : Progress p p.stop := by
  have hrunning := p.client.beginStop_quiet.1
  obtain ⟨c, hadvances, ⟨hbegin, hover⟩ | ⟨n, hcurrent, hstand, hbegin⟩⟩ :
    ∃ c, Advances True p.client c ∧ _ := h.orderly.beginStop_cases
  all_goals
    rw [hbegin] at hrunning
    unfold Shared.stop
    rw [hbegin]
    dsimp only
  · have hfinish : Progress { p with client := c } _ :=
      finish_progress hadvances.orderly hrunning hover p.waiting
    exact ⟨hfinish.sound, hadvances.leads.trans hfinish.leads⟩
  · refine ⟨⟨hadvances.orderly.watching hstand, fun m hm => ⟨hrunning, ?_⟩⟩, ?_⟩
    · -- those that wait already wait for this loop as well, since there is no other
      change c.current = some m ∨ c.current = none
      change m ∈ p.waiting ++ c.current.toList at hm
      rw [hcurrent, List.mem_append] at hm
      rcases hm with hm | hm
      · exact hadvances.current.symm ▸ (h.waiting m hm).2
      · rw [hcurrent, List.mem_singleton.mp hm]
        exact .inl rfl
    · refine hadvances.leads.trans (.of_moves rfl ?_ fun _ => .refl)
      exact hadvances.orderly.watching_inHand hcurrent hstand

theorem resume_progress (h : p.Sound) (i : Nat) : Progress p (p.resume i) := by
  unfold Shared.resume
  split
  next n hn =>
    have hmem := List.mem_of_getElem? hn
    split
    next hstand =>
      obtain ⟨hrunning, hcurrent⟩ := h.waiting n hmem
      exact finish_progress h.orderly hrunning (h.orderly.over_of_current hcurrent hstand) _
    next => exact .refl h
  next => exact .refl h

theorem goOn_progress (h : p.Sound) : Progress p p.goOn := by
  unfold Shared.goOn
  split
  next => exact .refl h
  next turn scene hnext =>
    obtain ⟨hkeeps, hleads⟩ := next_leads h.orderly hnext
    exact h.keep hkeeps (takeTurn_endures _ turn).running hleads

theorem act_progress (h : p.Sound) {use : Use} (hallows : p.Allows use) :
    Progress p (p.act use) := by
  cases use with
  | publish topic payload retain =>
      exact h.keep (publish_keeps h.orderly topic payload retain).1
        (p.client.publish_endures topic payload retain).running
        (publish_leads h.orderly topic payload retain)
  | start =>
      dsimp only [act]
      split
      next hcurrent =>
        refine ⟨⟨start_orderly h.orderly hcurrent, fun n hn => ?_⟩, ?_⟩
        · rw [show p.waiting = [] from hallows hcurrent] at hn
          contradiction
        · exact .of_moves rfl p.client.start_inHand fun _ => Moves.remark (.reported _) rfl
      next => exact .refl h
  | stop => exact stop_progress h
  | resume i => exact resume_progress h i
  | connect =>
      have hspares := p.client.connect_spares 0
      exact h.keep (hspares.keeps h.orderly) hspares.running
        (.of_moves hspares.accepted (inHand_of_loops hspares.loops_eq)
          fun offered => p.client.connect_moves offered _ trivial)
  | disconnect =>
      have hspares := p.client.disconnect_spares 0
      exact h.keep (hspares.keeps h.orderly) hspares.running
        (.of_moves hspares.accepted (inHand_of_loops hspares.loops_eq)
          fun offered => p.client.disconnect_moves offered _ (.inl trivial))
  | aside e =>
      exact h.keep
        (.of_eq h.orderly _ rfl rfl rfl (Nat.le_of_eq (errand_callerTurns p.client e))) rfl
        (.of_moves rfl rfl fun offered => errand_moves p.client e offered _)
  | goOn => exact goOn_progress h

theorem run_progress (h : p.Sound) {uses : List Use} (hcareful : p.Careful uses) :
    Progress p (p.run uses) := by
  induction uses generalizing p with
  | nil => exact .refl h
  | cons use uses ih =>
      have hact := act_progress h hcareful.1
      exact hact.trans (ih hact.sound hcareful.2)

/-- A stop that ends has been completed once all loops were over, and the broker has not been called
since it began or went on. -/
def Finishes (p p' : Shared) : Prop :=
  ∃ c : Client, c.running = false ∧ (∀ i, (c.loop i).stand = .over) ∧
    c.ledger [] [] = p.client.ledger [] [] ∧ p'.client = c.finishStop.2

theorem EndsStop.allows {use : Use} (hends : p.EndsStop use) : p.Allows use := by
  obtain ⟨rfl, -⟩ | ⟨⟨i, rfl⟩, -⟩ := hends <;> exact trivial

theorem EndsStop.finishes (h : p.Sound) {use : Use} (hends : p.EndsStop use) :
    p.Finishes (p.act use) := by
  obtain ⟨rfl, hthen⟩ | ⟨⟨i, rfl⟩, hthen⟩ := hends
  · have hquiet := p.client.beginStop_quiet
    obtain ⟨c, -, ⟨hbegin, hover⟩ | ⟨n, hcurrent, -, hbegin⟩⟩ :
      ∃ c, Advances True p.client c ∧ _ := h.orderly.beginStop_cases
    all_goals
      rw [hbegin] at hquiet
      dsimp only [act, Shared.stop] at hthen ⊢
      rw [hbegin] at hthen ⊢
    · exact ⟨c, hquiet.1, hover, hquiet.2, rfl⟩
    · change p.waiting ++ c.current.toList = p.waiting at hthen
      rw [hcurrent] at hthen
      simp at hthen
  · dsimp only [act, Shared.resume] at hthen ⊢
    split at hthen
    next n hn =>
      have hmem := List.mem_of_getElem? hn
      split at hthen
      next hstand =>
        rw [if_pos hstand]
        obtain ⟨hrunning, hcurrent⟩ := h.waiting n hmem
        exact ⟨p.client, hrunning, h.orderly.over_of_current hcurrent hstand, rfl, rfl⟩
      next => exact absurd hthen (Nat.lt_irrefl _)
    next => exact absurd hthen (Nat.lt_irrefl _)

theorem goOn_stopped (h : p.Sound) (hstopped : p.client.Stopped) :
    p.goOn.client.Stopped ∧ p.goOn.client.calls = p.client.calls := by
  unfold Shared.goOn
  split
  next => exact ⟨hstopped, rfl⟩
  next turn scene hnext =>
    have hscene : Client.Stopped { p.client with scene } := hstopped.congr rfl rfl rfl rfl
    have hcalls : calls { p.client with scene } = p.client.calls :=
      calls_of_ledger (ledger_of_past rfl (Scene.next?_turns_subperm hnext).2)
    have horderly : Orderly { p.client with scene } := h.orderly.congr rfl rfl rfl
    have hidle := takeTurn_idle horderly hscene.ended turn
    exact ⟨hscene.takeTurn horderly turn, (calls_of_ledger hidle).trans hcalls⟩

/-- A client that is stopped stays so, and makes no calls, until it is started or connected. -/
theorem act_stopped (h : p.Sound) (hstopped : p.client.Stopped) {use : Use}
    (hstart : use ≠ .start) (hconnect : use ≠ .connect) :
    (p.act use).client.Stopped ∧ (p.act use).client.calls = p.client.calls := by
  cases use with
  | publish topic payload retain =>
      obtain ⟨hcalls, hconnected, -⟩ := p.client.publish_quiet topic payload retain
      exact ⟨hstopped.keeps (publish_keeps h.orderly topic payload retain).1
        (p.client.publish_endures topic payload retain).running hconnected, hcalls⟩
  | start => contradiction
  | stop =>
      have hbegin : p.client.beginStop = (false, { p.client with running := false }) := by
        unfold beginStop
        simp only [hstopped.current]
      have hquit : Client.Stopped { p.client with running := false } :=
        hstopped.congr rfl hstopped.running.symm rfl rfl
      dsimp only [act, Shared.stop]
      rw [hbegin]
      exact hquit.finishStop
  | resume i =>
      dsimp only [act, Shared.resume]
      split
      · split
        · exact hstopped.finishStop
        · exact ⟨hstopped, rfl⟩
      · exact ⟨hstopped, rfl⟩
  | connect => contradiction
  | disconnect =>
      have hnone : p.client.disconnect = (.ok (), p.client) := by
        unfold disconnect
        rw [hstopped.connected, Bool.and_false]
        rfl
      dsimp only [act]
      rw [hnone]
      exact ⟨hstopped, rfl⟩
  | aside e => exact ⟨hstopped.congr rfl rfl rfl rfl, p.client.errand_calls e⟩
  | goOn => exact goOn_stopped h hstopped

theorem run_stopped (h : p.Sound) (hstopped : p.client.Stopped) (uses : List Use)
    (huses : ∀ use ∈ uses, use ≠ .start ∧ use ≠ .connect) :
    (p.run uses).client.Stopped ∧ (p.run uses).client.calls = p.client.calls := by
  induction uses generalizing p with
  | nil => exact ⟨hstopped, rfl⟩
  | cons use uses ih =>
      obtain ⟨hstart, hconnect⟩ := huses use List.mem_cons_self
      obtain ⟨hthen, hcalls⟩ := act_stopped h hstopped hstart hconnect
      have hact : Progress p (p.act use) := by
        -- only a start asks for anything
        refine act_progress h ?_
        cases use <;> first | exact trivial | contradiction
      obtain ⟨hlast, hquiet⟩ := ih hact.sound hthen fun u hu => huses u (List.mem_cons_of_mem _ hu)
      exact ⟨hlast, hquiet.trans hcalls⟩

/-- What a stop leaves behind that ends by going from one moment to the next: the client is stopped,
it has left the session that there was, and it is quiet until it is started or connected. -/
structure Ended (offline : Publication) (p p' : Shared) : Prop where
  stopped : p'.client.Stopped
  parting : ∃ told, p'.client.calls = p.client.calls ++ told ∧
    Parting offline p.client.connected told
  quiet : ∀ later : List Use, (∀ use ∈ later, use ≠ .start ∧ use ≠ .connect) →
    (p'.run later).client.Stopped ∧ (p'.run later).client.calls = p'.client.calls

variable (settings : Config.MqttSettings) (availabilityTopic : String)
  (identifier : Config.Scalar) (now : Instant) (script : Script)

/-- The announcement that a client goes. -/
def offline : Publication := ⟨availabilityTopic, "offline", 1, settings.retain.status⟩

theorem fresh_sound : (fresh settings availabilityTopic identifier now script).Sound where
  orderly := (Course.fresh_sound settings availabilityTopic identifier now script).orderly
  waiting n hn := by contradiction

variable {uses : List Use}

theorem run_fresh_progress
    (hcareful : (fresh settings availabilityTopic identifier now script).Careful uses) :
    Progress (fresh settings availabilityTopic identifier now script)
      ((fresh settings availabilityTopic identifier now script).run uses) :=
  run_progress (fresh_sound settings availabilityTopic identifier now script) hcareful

/-- Whenever a stop ends in a careful run, the client is stopped, its session has been left, and it
is quiet. -/
theorem run_fresh_ended
    (hcareful : (fresh settings availabilityTopic identifier now script).Careful uses) {use : Use}
    (hends : ((fresh settings availabilityTopic identifier now script).run uses).EndsStop use) :
    Ended (offline settings availabilityTopic)
      ((fresh settings availabilityTopic identifier now script).run uses)
      (((fresh settings availabilityTopic identifier now script).run uses).act use) := by
  obtain ⟨hsound, hleads⟩ :=
    run_fresh_progress settings availabilityTopic identifier now script hcareful
  obtain ⟨offered, -, hmoves⟩ := hleads [] rfl
  have hattached := hmoves.attached fun hconnected => by contradiction
  have hvoice := congrFun hmoves.voice "offline"
  generalize (fresh settings availabilityTopic identifier now script).run uses = p at *
  obtain ⟨c, hrunning, hover, hledger, hfinish⟩ := hends.finishes hsound
  have hconnected : c.connected = p.client.connected := congrArg Ledger.connected hledger
  have hsession : c.connected = true → c.attached = true := by
    rw [hconnected, show c.attached = p.client.attached from congrArg Ledger.attached hledger]
    exact hattached
  have hoffline : c.availability "offline" = offline settings availabilityTopic :=
    (congrFun (congrArg Ledger.voice hledger) "offline").trans hvoice
  have hstopped := finishStop_stopped hrunning hover hsession
  obtain ⟨told, hcalls, hparting⟩ := finishStop_calls hsession
  rw [calls_of_ledger hledger] at hcalls
  rw [hoffline, hconnected] at hparting
  rw [← hfinish] at hstopped hcalls
  have hthen := (act_progress hsound hends.allows).sound
  exact ⟨hstopped, ⟨told, hcalls, hparting⟩, run_stopped hthen hstopped⟩

/-- What waits at a moment of a careful run is taken in this order or still waits later, before all
that has entered the queue since. -/
theorem run_fresh_queueKept {earlier later : List Use}
    (hcareful : (fresh settings availabilityTopic identifier now script).Careful
      (earlier ++ later)) :
    QueueKept ((fresh settings availabilityTopic identifier now script).run earlier).client
      ((fresh settings availabilityTopic identifier now script).run (earlier ++ later)).client := by
  obtain ⟨hearlier, hlater⟩ := hcareful.of_append
  obtain ⟨hsound, hleads⟩ :=
    run_fresh_progress settings availabilityTopic identifier now script hearlier
  obtain ⟨offered, haccepted, -⟩ := hleads [] rfl
  obtain ⟨offered', -, hmoves⟩ := (run_progress hsound hlater).leads offered haccepted
  rw [run_append]
  obtain ⟨during, hevents, hqueue⟩ := hmoves.keepsQueue
  rw [ledger_events, ledger_events] at hevents
  exact ⟨during, hevents, hqueue⟩

end Shared

end SupplyGauge.Mqtt
