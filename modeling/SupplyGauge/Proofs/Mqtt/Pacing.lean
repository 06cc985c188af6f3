import SupplyGauge.Proofs.Mqtt.Spacing
import SupplyGauge.Proofs.Mqtt.Waits

/-! # Loops are paced

Between two attempts of a loop to connect there is a wait of at least a second, or a session that
is lost by a refused delivery. For an attempt that fails is followed by a pause, which only its own
timer ends, and a session that fails otherwise than by a refused delivery is followed by a pause as
well. So the attempts in a run are as far apart as they can be told to be.
-/

namespace SupplyGauge

open Schedule

namespace Mqtt

/-- Whether the events since a past are in order in a scene. -/
structure Recorded (base recent : List (Instant × Event)) (s : Scene) : Prop where
  past : s.past = recent ++ base
  proper : s.now.Proper
  latest : ∀ x ∈ recent, x.1.le s.now = true
  spaced : Spaced recent

variable {base recent : List (Instant × Event)} {s s' : Scene}

theorem Recorded.congr (h : Recorded base recent s) (hnow : s'.now = s.now)
    (hpast : s'.past = s.past) : Recorded base recent s' :=
  ⟨hpast.trans h.past, hnow ▸ h.proper, hnow ▸ h.latest, h.spaced⟩

theorem Recorded.le_now (h : Recorded base recent s) : s.now.le s.now = true := by
  obtain ⟨n, hn⟩ := h.proper
  exact (hn.le_iff hn).mpr (Nat.le_refl n)

/-- An event more. -/
theorem Recorded.add (h : Recorded base recent s) {e : Event} (hnow : s'.now = s.now)
    (hpast : s'.past = (s.now, e) :: s.past)
    (hattempt : e.isAttempt = true → ∀ t, lastAttempt? recent = some t → Apart t s.now) :
    Recorded base ((s.now, e) :: recent) s' := by
  refine ⟨?_, hnow ▸ h.proper, fun x hx => ?_, h.spaced, h.proper, h.latest, hattempt⟩
  · rw [hpast, h.past, List.cons_append]
  · rw [hnow]
    rcases List.mem_cons.mp hx with rfl | hmem
    · exact h.le_now
    · exact h.latest x hmem

/-- Time goes on. -/
theorem Recorded.later (h : Recorded base recent s) (hproper : s'.now.Proper)
    (hle : s.now.le s'.now = true) (hpast : s'.past = s.past) : Recorded base recent s' := by
  refine ⟨hpast.trans h.past, hproper, fun x hx => ?_, h.spaced⟩
  obtain ⟨n, hn⟩ := h.spaced.proper x hx
  exact hn.measures.le_trans (h.latest x hx) hle

theorem Recorded.last (h : Recorded base recent s) {t : Instant}
    (ht : lastAttempt? recent = some t) : t.Proper ∧ t.le s.now = true := by
  obtain ⟨e, he⟩ := mem_of_lastAttempt? ht
  exact ⟨h.spaced.proper _ he, h.latest _ he⟩

namespace Client

/-- Whether an attempt need not be feared after one at a moment: the client is to stop, it has a
session, or a second is over. -/
def Permits (c : Client) (t : Instant) : Prop :=
  c.running = false ∨ c.connected = true ∨ Apart t c.scene.now

/-- A loop pauses, and the end of its pause is not on the way before a second is over since a
moment. -/
structure Resting (hand : List Turn) (c : Client) (t : Instant) (i : Nat) : Prop where
  stand : (c.loop i).stand = .pausing
  uncalled : (c.loop i).called = false
  unreleased : .release (.delivery i) (c.loop i).wait ∉ hand ++ c.scene.schedule.soon
  timers : ∀ x ∈ c.scene.schedule.timers.heap.toList,
    x.purpose = .release (.delivery i) (c.loop i).wait → (t.add (.ofInt 1)).le x.due = true

/-- Whether no loop attempts to connect too early after an attempt at a moment. -/
def Ready (hand : List Turn) (c : Client) (t : Instant) : Prop :=
  c.Permits t ∨ ∀ i, (c.loop i).stand ≠ .over → Resting hand c t i

/-- The attempts since a past are spaced, and will be. -/
structure Paced (base recent : List (Instant × Event)) (hand : List Turn) (c : Client) : Prop where
  recorded : Recorded base recent c.scene
  wired : Wired hand c
  ready : ∀ t, lastAttempt? recent = some t → Ready hand c t

/-- A loop has its turn: no turn of it is given out, and the others are over. -/
structure AtWork (base recent : List (Instant × Event)) (n : Nat) (c : Client) : Prop where
  recorded : Recorded base recent c.scene
  wired : Wired [] c
  bounded : n < c.loops.size
  alone : ∀ i, i ≠ n → (c.loop i).stand = .over
  uncalled : (c.loop n).called = false
  gone : c.running = true → (c.loop n).fetch = .gone

variable {hand hand' : List Turn} {c c' : Client} {n : Nat}

/-! ## A loop at work -/

/-- What does not concern loops and turns. -/
theorem AtWork.congr (h : AtWork base recent n c) {recent' : List (Instant × Event)}
    (hloops : c'.loops = c.loops) (hrunning : c'.running = c.running)
    (hschedule : c'.scene.schedule = c.scene.schedule)
    (hrecorded : Recorded base recent' c'.scene) : AtWork base recent' n c' := by
  have hloop := loop_congr hloops
  refine ⟨hrecorded, h.wired.congr hloops hrunning hschedule, hloops ▸ h.bounded, fun i => ?_, ?_,
    ?_⟩
  · exact hloop i ▸ h.alone i
  · exact hloop n ▸ h.uncalled
  · rw [hrunning, hloop]
    exact h.gone

/-- An event that is no attempt. -/
theorem AtWork.add (h : AtWork base recent n c) {e : Event} (hloops : c'.loops = c.loops)
    (hrunning : c'.running = c.running) (hschedule : c'.scene.schedule = c.scene.schedule)
    (hnow : c'.scene.now = c.scene.now) (hpast : c'.scene.past = (c.scene.now, e) :: c.scene.past)
    (hattempt : e.isAttempt = false) : AtWork base ((c.scene.now, e) :: recent) n c' :=
  h.congr hloops hrunning hschedule
    (h.recorded.add hnow hpast fun htrue => absurd (hattempt.symm.trans htrue) Bool.false_ne_true)

theorem AtWork.report (h : AtWork base recent n c) (severity : Log.Severity) (message : String) :
    AtWork base ((c.scene.now, .reported (Log.note severity component message)) :: recent) n
      (c.report severity message) :=
  h.add rfl rfl rfl rfl rfl rfl

/-- A call to the broker. -/
theorem AtWork.perform {call : Call} {answer : Option Refusal} (h : AtWork base recent n c)
    (hcall : c.perform call = (answer, c'))
    (hattempt : (Event.called call answer).isAttempt = true →
      ∀ t, lastAttempt? recent = some t → Apart t c.scene.now) :
    AtWork base ((c.scene.now, .called call answer) :: recent) n c' := by
  obtain ⟨rfl, rfl⟩ := Prod.mk.inj hcall
  exact h.congr rfl rfl rfl (h.recorded.add rfl rfl hattempt)

/-- How long the loop will pause does not matter, as long as it is no less than a second. -/
theorem AtWork.setBackoff (h : AtWork base recent n c) {backoff : Nat} (hbackoff : 1 ≤ backoff) :
    AtWork base recent n (c.setLoop n { c.loop n with backoff }) := by
  have hself := loop_setLoop_self { c.loop n with backoff } h.bounded
  refine ⟨h.recorded.congr rfl rfl, h.wired.setLoop (h.wired.count_le n) (Nat.le_refl _) hbackoff
    fun hrun => .of_gone (by exact h.gone hrun) _, ?_, fun i hi => ?_, ?_, fun hrun => ?_⟩
  · rw [show (c.setLoop n { c.loop n with backoff }).loops.size = _ from Array.size_setIfInBounds]
    exact h.bounded
  · rw [loop_setLoop, if_neg fun hin => hi hin.1]
    exact h.alone i hi
  · rw [hself]
    exact h.uncalled
  · rw [hself]
    exact h.gone hrun

/-- A pause of at least a second keeps the loop from another attempt. -/
theorem AtWork.pause (h : AtWork base recent n c) {seconds : Nat} (hseconds : 1 ≤ seconds) :
    Paced base recent [] (c.pause n seconds) := by
  have hleaves := c.beginWait_leaves n .pausing seconds
  have hself := hleaves.loop_self h.bounded
  refine ⟨h.recorded.congr rfl rfl, h.wired.pause h.bounded h.gone seconds,
    fun t ht => .inr fun i hi => ?_⟩
  obtain ⟨hproper, hle⟩ := h.recorded.last ht
  by_cases hin : i = n
  · subst hin
    -- the wait is a new one, so whatever is on the way or has a timer does not end it
    have hnew : .release (.delivery i) ((c.loop i).wait + 1) ∉ c.scene.schedule.turns :=
      fun hmem => h.wired.not_released (Nat.lt_succ_self _) (List.mem_append_right [] hmem)
    have hheap := TimerHeap.insert_perm c.scene.schedule.timers.heap
      ⟨c.scene.now.add (.ofInt seconds), c.scene.schedule.timers.made,
        .release (.delivery i) ((c.loop i).wait + 1), false⟩
    refine ⟨by rw [Client.pause, hself], by rw [Client.pause, hself]; exact h.uncalled, ?_, ?_⟩
    all_goals rw [Client.pause, hself]
    · exact fun hmem => hnew (List.mem_append_left _ hmem)
    · intro x hx hpurpose
      rcases List.mem_cons.mp (hheap.subset hx) with rfl | hold
      · exact second_le hproper h.recorded.proper hle hseconds
      · refine absurd ?_ hnew
        rw [← hpurpose]
        exact List.mem_append_right _ (List.mem_map_of_mem hold)
  · rw [Client.pause, hleaves.loop_of_ne hin] at hi
    exact absurd (h.alone i hin) hi

theorem AtWork.awaitMessage (h : AtWork base recent n c) (hconnected : c.connected = true) :
    Paced base recent [] (c.awaitMessage n) :=
  ⟨h.recorded.congr rfl rfl, h.wired.awaitMessage h.bounded,
    fun _ _ => .inl (.inr (.inl hconnected))⟩

theorem AtWork.penalize (h : AtWork base recent n c) (e : ClientError) :
    ∃ recent', Paced base recent' [] (c.penalize n e) := by
  have hlost : AtWork base _ n { c.report .error s!"Publisher loop error: {e.message}" with
      connected := false } :=
    h.add rfl rfl rfl rfl rfl rfl
  exact ⟨_, hlost.pause (Nat.le_refl 1)⟩

theorem AtWork.backOff (h : AtWork base recent n c) (message : String) :
    ∃ recent', Paced base recent' [] (c.backOff n message) := by
  have hreport := h.report .error s!"Failed to connect to MQTT: {message}"
  have hbackoff := h.wired.backoff n
  have hlonger : 1 ≤ min ((c.loop n).backoff * 2) longestBackoff := by
    unfold longestBackoff
    omega
  exact ⟨_, (hreport.setBackoff hlonger).pause hbackoff⟩

/-- A loop that is over is not feared. -/
theorem AtWork.finishLoop (h : AtWork base recent n c) :
    Paced base recent [] (c.finishLoop n) := by
  have hleaves := c.finishLoop_leaves n
  have hrecorded : Recorded base recent (c.finishLoop n).scene := by
    dsimp only [Client.finishLoop]
    split <;> exact h.recorded.congr rfl rfl
  refine ⟨hrecorded, h.wired.finishLoop n, fun t _ => .inr fun i hi => absurd ?_ hi⟩
  by_cases hin : i = n
  · rw [hin, hleaves.loop_self h.bounded]
  · rw [hleaves.loop_of_ne hin]
    exact h.alone i hin

/-- To connect is one attempt. -/
theorem AtWork.connect (h : AtWork base recent n c)
    (hapart : ∀ t, lastAttempt? recent = some t → Apart t c.scene.now) :
    ∃ recent', AtWork base recent' n c.connect.2 := by
  unfold Client.connect
  split
  · exact ⟨_, h⟩
  · exact ⟨_, h⟩
  next address identifier _ _ =>
    dsimp only
    have hreport := h.report .debug s!"Connecting to MQTT broker {address} as {identifier}"
    have hattached : AtWork base _ n
        { c.report .debug s!"Connecting to MQTT broker {address} as {identifier}" with
          attached := true } := hreport.congr rfl rfl rfl hreport.recorded
    split
    next henter => exact ⟨_, hattached.perform henter fun _ => hapart⟩
    next entered henter =>
      have hentered := hattached.perform henter fun _ => hapart
      have hconnected : AtWork base _ n { entered with connected := true } :=
        hentered.congr rfl rfl rfl hentered.recorded
      split
      next hannounce => exact ⟨_, hconnected.perform hannounce fun hnot => by contradiction⟩
      next hannounce =>
        have hannounced := hconnected.perform hannounce fun hnot => by contradiction
        exact ⟨_, hannounced.report _ _⟩

/-- A pass attempts to connect only where that is permitted. -/
theorem AtWork.pass (h : AtWork base recent n c)
    (hpermits : ∀ t, lastAttempt? recent = some t → c.Permits t) :
    ∃ recent', Paced base recent' [] (c.pass n) := by
  unfold Client.pass
  split
  next hrunning =>
    split
    next hconnected => exact ⟨_, h.awaitMessage hconnected⟩
    next hconnected =>
      have hapart (t : Instant) (ht : lastAttempt? recent = some t) : Apart t c.scene.now :=
        ((hpermits t ht).resolve_left (by simp [hrunning])).resolve_left hconnected
      obtain ⟨recent', hconnect⟩ := h.connect hapart
      split
      next c' hok =>
        rw [hok] at hconnect
        have hconnected : c'.connected = true := connect_connected hok
        exact ⟨_, (hconnect.setBackoff (by decide)).awaitMessage hconnected⟩
      next message c' hrefused =>
        rw [hrefused] at hconnect
        exact hconnect.backOff message
      next e c' _ herror =>
        rw [herror] at hconnect
        exact hconnect.penalize e
  next => exact ⟨_, h.finishLoop⟩

/-- With nobody listening, a message that goes back is only noted. -/
theorem AtWork.requeue (h : AtWork base recent n c) (hlisteners : c.listeners = [])
    (m : Message) :
    ∃ recent', AtWork base recent' n (c.requeue m) ∧
      lastAttempt? recent' = lastAttempt? recent := by
  unfold Client.requeue enqueue
  by_cases hroom : c.queue.length < queueLimit
  · simp only [if_pos hroom, Client.callListener, hlisteners]
    exact ⟨(_, .returned m) :: recent, h.add rfl rfl rfl rfl rfl rfl, rfl⟩
  · simp only [if_neg hroom]
    have hdropped : AtWork base ((_, .dropped m) :: recent) n (c.note (.dropped m)) :=
      h.add rfl rfl rfl rfl rfl rfl
    exact ⟨_, hdropped.report _ _, rfl⟩

/-- A delivery that is refused makes the next attempt free; after any other failure the loop
pauses. -/
theorem AtWork.deliver (h : AtWork base recent n c) (hlisteners : c.listeners = [])
    (hpermits : ∀ t, lastAttempt? recent = some t → c.Permits t) (m : Message) :
    ∃ recent', Paced base recent' [] (c.deliver n m) := by
  unfold Client.deliver
  dsimp only
  generalize String.ofList _ = shown
  have hreport := h.report .debug s!"Publishing to {m.topic}: {shown}"
  have hpermits' (t : Instant) (ht : lastAttempt?
      ((c.scene.now, .reported (Log.note .debug component
        s!"Publishing to {m.topic}: {shown}")) :: recent) = some t) :
      (c.report .debug s!"Publishing to {m.topic}: {shown}").Permits t := hpermits t ht
  have hlisteners' : (c.report .debug s!"Publishing to {m.topic}: {shown}").listeners = [] :=
    hlisteners
  generalize c.report .debug s!"Publishing to {m.topic}: {shown}" = reported at *
  generalize (c.scene.now, _) :: recent = recent at hreport hpermits'
  split
  · split
    next c' hcall =>
      have hcalled := hreport.perform hcall fun hnot => by contradiction
      obtain ⟨-, rfl⟩ := Prod.mk.inj hcall
      exact hcalled.pass hpermits'
    next message c' hcall =>
      have hcalled := hreport.perform hcall fun hnot => by contradiction
      have hthen : c'.listeners = [] := by
        obtain ⟨-, rfl⟩ := Prod.mk.inj hcall
        exact hlisteners'
      have herror := hcalled.report .error s!"MQTT error: {message}"
      have hdetached : AtWork base _ n (c'.report .error s!"MQTT error: {message}").detach :=
        herror.congr rfl rfl rfl herror.recorded
      obtain ⟨recent', hrequeued, hlast⟩ := hdetached.requeue hthen m
      -- the refusal is the last that counts, so there is no attempt to be apart from
      exact hrequeued.pass fun t ht => absurd (hlast.symm.trans ht) (by simp [lastAttempt?,
        Event.isAttempt, Event.refusesDelivery])
    next r c' _ hcall =>
      have hcalled := hreport.perform hcall fun hnot => by contradiction
      have hdropped : AtWork base _ n (c'.note (.dropped m)) :=
        hcalled.add rfl rfl rfl rfl rfl rfl
      exact hdropped.penalize _
  · have hdropped : AtWork base _ n (reported.note (.dropped m)) :=
      hreport.add rfl rfl rfl rfl rfl rfl
    exact hdropped.penalize _

/-! ## Turns beside a pause -/

variable {t : Instant} {i : Nat}

theorem Resting.congr (h : Resting hand c t i) (hloop : c'.loop i = c.loop i)
    (hsoon : ∀ w, .release (.delivery i) w ∈ hand' ++ c'.scene.schedule.soon →
      .release (.delivery i) w ∈ hand ++ c.scene.schedule.soon)
    (hheap : ∀ x ∈ c'.scene.schedule.timers.heap.toList, x.purpose.isDeliverys = true →
      ∃ y ∈ c.scene.schedule.timers.heap.toList, y.purpose = x.purpose ∧ y.due = x.due) :
    Resting hand' c' t i := by
  refine ⟨hloop ▸ h.stand, hloop ▸ h.uncalled, ?_, fun x hx hpurpose => ?_⟩
  · rw [hloop]
    exact fun hmem => h.unreleased (hsoon _ hmem)
  · rw [hloop] at hpurpose
    obtain ⟨y, hy, hsame, hdue⟩ := hheap x hx (by rw [hpurpose]; rfl)
    exact hdue ▸ h.timers y hy (hsame.trans hpurpose)

/-- Turns in hand that are not taken by the loop. -/
theorem Resting.drop (h : Resting hand c t i) : Resting [] c t i :=
  h.congr rfl (fun _ hmem => List.mem_append_right _ hmem) fun x hx _ => ⟨x, hx, rfl, rfl⟩

theorem Resting.setLoop (h : Resting hand c t i) (hi : i ≠ n) (d : Delivery) :
    Resting hand (c.setLoop n d) t i :=
  h.congr (by rw [loop_setLoop, if_neg fun hin => hi hin.1]) (fun _ hmem => hmem)
    fun x hx _ => ⟨x, hx, rfl, rfl⟩

theorem Resting.give (h : Resting hand c t i) {turn : Turn}
    (hturn : ∀ w, turn ≠ .release (.delivery i) w) : Resting hand (c.give turn) t i := by
  refine h.congr rfl (fun w hmem => ?_) fun x hx _ => ⟨x, hx, rfl, rfl⟩
  have hsoon : (c.give turn).scene.schedule.soon.Perm (turn :: c.scene.schedule.soon) :=
    List.perm_middle
  rcases List.mem_append.mp hmem with hhand | hgiven
  · exact List.mem_append_left _ hhand
  · rcases List.mem_cons.mp (hsoon.subset hgiven) with heq | hold
    · exact absurd heq.symm (hturn w)
    · exact List.mem_append_right _ hold

/-- Where no loop is called and none that pauses is touched, none attempts to connect too early. -/
theorem Paced.keep (h : Paced base recent hand c) {recent' : List (Instant × Event)}
    (hrecorded : Recorded base recent' c'.scene)
    (hlast : lastAttempt? recent' = lastAttempt? recent) (hwired : Wired hand' c')
    (hrunning : c'.running = c.running) (hconnected : c'.connected = c.connected)
    (hnow : c'.scene.now = c.scene.now)
    (hresting : c.running = true → ∀ t i, (c'.loop i).stand ≠ .over →
      (c.loop i).stand ≠ .over ∧ (Resting hand c t i → Resting hand' c' t i)) :
    Paced base recent' hand' c' := by
  refine ⟨hrecorded, hwired, fun t ht => ?_⟩
  rcases h.ready t (hlast ▸ ht) with hpermits | hall
  · left
    unfold Permits
    rw [hrunning, hconnected, hnow]
    exact hpermits
  · by_cases hrun : c.running = true
    · refine .inr fun i hi => ?_
      obtain ⟨hbefore, hstill⟩ := hresting hrun t i hi
      exact hstill (hall i hbefore)
    · exact .inl (.inl (hrunning.trans (Bool.eq_false_iff.mpr hrun)))

theorem Paced.congr (h : Paced base recent hand c) {recent' : List (Instant × Event)}
    (hrecorded : Recorded base recent' c'.scene)
    (hlast : lastAttempt? recent' = lastAttempt? recent) (hloops : c'.loops = c.loops)
    (hrunning : c'.running = c.running) (hconnected : c'.connected = c.connected)
    (hnow : c'.scene.now = c.scene.now) (hschedule : c'.scene.schedule = c.scene.schedule) :
    Paced base recent' hand c' := by
  have hloop := loop_congr hloops
  refine h.keep hrecorded hlast (h.wired.congr hloops hrunning hschedule) hrunning hconnected hnow
    fun _ t i hi => ⟨hloop i ▸ hi, fun hrest => hrest.congr (hloop i) ?_ ?_⟩
  · rw [hschedule]
    exact fun _ hmem => hmem
  · rw [hschedule]
    exact fun x hx _ => ⟨x, hx, rfl, rfl⟩

/-- An event that is neither an attempt nor a refused delivery. -/
theorem Paced.note (h : Paced base recent hand c) {e : Event} (hattempt : e.isAttempt = false)
    (hrefused : e.refusesDelivery = false) :
    Paced base ((c.scene.now, e) :: recent) hand (c.note e) := by
  have hlast : lastAttempt? ((c.scene.now, e) :: recent) = lastAttempt? recent := by
    simp [lastAttempt?, hattempt, hrefused]
  exact h.congr (h.recorded.add rfl rfl fun htrue => by rw [hattempt] at htrue; contradiction)
    hlast rfl rfl rfl rfl rfl

theorem Paced.drop (h : Paced base recent hand c) : Paced base recent [] c :=
  h.keep h.recorded rfl (h.wired.of_subperm rfl id (List.sublist_append_right _ _).subperm) rfl rfl
    rfl fun _ _ _ hi => ⟨hi, Resting.drop⟩

theorem Paced.give (h : Paced base recent hand c) {turn : Turn} (hturn : turn.isDeliverys = false) :
    Paced base recent hand (c.give turn) :=
  h.keep (h.recorded.congr rfl rfl) rfl (h.wired.give hturn) rfl rfl rfl
    fun _ _ _ hi => ⟨hi, fun hrest => hrest.give fun w heq => by rw [heq] at hturn; contradiction⟩

/-- While the client is running, a loop with a fetch does not pause. -/
theorem Wired.not_pausing (h : Wired hand c) (hfetch : (c.loop n).fetch ≠ .gone)
    (hrunning : c.running = true) : (c.loop n).stand ≠ .pausing := by
  intro hstand
  have hsettled := h.settled hrunning n
  unfold Settled at hsettled
  rw [hstand] at hsettled
  exact hfetch hsettled

/-- The state of a fetch changes. -/
theorem Paced.setFetch (h : Paced base recent hand c) (fetch : Fetch)
    (hawake : c.running = true → (c.loop n).stand ≠ .pausing)
    (hsettled : c.running = true → Settled { c.loop n with fetch }
      (.release (.delivery n) (c.loop n).wait ∈ hand ++ c.scene.schedule.turns)) :
    Paced base recent hand (c.setLoop n { c.loop n with fetch }) := by
  refine h.keep (h.recorded.congr rfl rfl) rfl (h.wired.setFetch fetch hsettled) rfl rfl rfl
    fun hrun t i hi => ?_
  by_cases hin : i = n
  · subst hin
    refine ⟨fun hover => hi ?_, fun hrest => absurd hrest.stand (hawake hrun)⟩
    rw [loop_setLoop]
    split <;> exact hover
  · rw [loop_setLoop, if_neg fun h => hin h.1] at hi
    exact ⟨hi, fun hrest => hrest.setLoop hin _⟩

theorem Paced.finishFetch (h : Paced base recent hand c) {fetch : Fetch}
    (hfetch : fetch = .gone ∨ (c.loop n).stand = .awaiting)
    (hawake : c.running = true → (c.loop n).stand ≠ .pausing) :
    Paced base recent hand (c.finishFetch n fetch) := by
  refine h.keep (h.recorded.congr rfl rfl) rfl (h.wired.finishFetch hfetch) rfl rfl rfl
    fun hrun t i hi => ?_
  have hloop : (c.finishFetch n fetch).loop i = (c.setLoop n { c.loop n with fetch }).loop i := rfl
  rw [hloop, loop_setLoop] at hi
  by_cases hin : i = n
  · subst hin
    refine ⟨fun hover => hi ?_, fun hrest => absurd hrest.stand (hawake hrun)⟩
    split <;> exact hover
  · rw [if_neg fun h => hin h.1] at hi
    refine ⟨hi, fun hrest => (hrest.setLoop hin _).give fun w heq => hin ?_⟩
    exact (Party.delivery.inj (Turn.release.inj heq).1).symm

theorem Paced.callListener (h : Paced base recent hand c) (horderly : c.Orderly) :
    Paced base recent hand c.callListener := by
  unfold Client.callListener
  split
  next => exact h
  next n rest hcons =>
    have hlistening := (horderly.listening n).mp (by rw [hcons]; exact List.mem_cons_self)
    have hstand := horderly.fetching n (by rw [hlistening]; rfl)
    have hset : Paced base recent hand (c.setLoop n { c.loop n with fetch := .summoned false }) :=
      h.setFetch (.summoned false) (fun _ => by rw [hstand]; decide)
        fun _ => .of_awaiting (by exact hstand) _
    refine Paced.give ?_ rfl
    exact hset.congr hset.recorded rfl rfl rfl rfl rfl rfl

theorem Paced.lookForMessage (h : Paced base recent hand c)
    (hstand : (c.loop n).stand = .awaiting) :
    ∃ recent', Paced base recent' hand (c.lookForMessage n) := by
  have hawake (_ : c.running = true) : (c.loop n).stand ≠ .pausing := by
    rw [hstand]
    decide
  unfold Client.lookForMessage
  split
  next m rest _ =>
    have hqueue : Paced base recent hand { c with queue := rest } :=
      h.congr h.recorded rfl rfl rfl rfl rfl rfl
    exact ⟨_, (hqueue.note rfl rfl).finishFetch (.inr hstand) hawake⟩
  next =>
    have hset : Paced base recent hand (c.setLoop n { c.loop n with fetch := .listening }) :=
      h.setFetch .listening hawake fun _ => .of_awaiting (by exact hstand) _
    exact ⟨_, hset.congr hset.recorded rfl rfl rfl rfl rfl rfl⟩

theorem Paced.fetchTurn (h : Paced base recent hand c) (horderly : c.Orderly) (n : Nat) :
    ∃ recent', Paced base recent' hand (c.fetchTurn n) := by
  have hlook (hactive : (c.loop n).fetch.isActive = true) :
      ∃ recent', Paced base recent' hand (c.lookForMessage n) :=
    h.lookForMessage (horderly.fetching n hactive)
  have hawake (hfetch : (c.loop n).fetch ≠ .gone) (hrun : c.running = true) :
      (c.loop n).stand ≠ .pausing := h.wired.not_pausing hfetch hrun
  unfold Client.fetchTurn
  split
  next hfetch => exact hlook (by rw [hfetch]; rfl)
  next hfetch => exact hlook (by rw [hfetch]; rfl)
  next hfetch =>
    split
    · exact ⟨_, h.finishFetch (.inl rfl) (hawake (by simp [hfetch]))⟩
    · have hcalled := h.callListener horderly
      have hthen := horderly.callListener_loop (n := n) (by simp [hfetch])
      refine ⟨_, hcalled.finishFetch (.inl rfl) fun hrun => ?_⟩
      exact hcalled.wired.not_pausing (by simp [hthen, hfetch]) hrun
  next hfetch => exact ⟨_, h.finishFetch (.inl rfl) (hawake (by simp [hfetch]))⟩
  next hfetch => exact ⟨_, h.finishFetch (.inl rfl) (hawake (by simp [hfetch]))⟩
  next => exact ⟨_, h⟩

/-- The end of a wait wakes no loop that has to pause still. -/
theorem Paced.releaseLoop {wait : Nat}
    (h : Paced base recent [.release (.delivery n) wait] c) :
    Paced base recent [] (c.releaseLoop n wait) := by
  have hwired := h.wired.releaseLoop
  rcases c.releaseLoop_cases n wait with hsame | ⟨-, hwait, -, hcall⟩
  · rw [hsame]
    exact h.drop
  · rw [hcall] at hwired ⊢
    refine h.keep (h.recorded.congr rfl rfl) rfl hwired rfl rfl rfl fun _ t i hi => ?_
    change (Client.loop (c.setLoop n { c.loop n with called := true }) i).stand ≠ .over at hi
    rw [loop_setLoop] at hi
    by_cases hin : i = n
    · subst hin
      refine ⟨fun hover => hi ?_, fun hrest => absurd ?_ hrest.unreleased⟩
      · split <;> exact hover
      · rw [hwait]
        exact List.mem_cons_self
    · rw [if_neg fun h => hin h.1] at hi
      exact ⟨hi, fun hrest => (hrest.drop.setLoop hin _).give fun w => by simp⟩

theorem withdraw_scene (c : Client) (n : Nat) (expired : Bool) :
    (c.withdraw n expired).running = c.running ∧
      (c.withdraw n expired).connected = c.connected ∧
      (c.withdraw n expired).scene.now = c.scene.now ∧
      (c.withdraw n expired).scene.past = c.scene.past := by
  unfold Client.withdraw
  dsimp only
  split <;> exact ⟨rfl, rfl, rfl, rfl⟩

/-- The loop that has its turn is at work. -/
theorem AtWork.of_leaves {d : Delivery} (hleaves : Leaves c n c' d) (hn : n < c.loops.size)
    (halone : ∀ i, i ≠ n → (c.loop i).stand = .over) (hcalled : d.called = false)
    (hgone : c.running = true → d.fetch = .gone) (hrecorded : Recorded base recent c'.scene)
    (hwired : Wired [] c') : AtWork base recent n c' := by
  refine ⟨hrecorded, hwired, hleaves.size ▸ hn, fun i hi => ?_, ?_, fun hrun => ?_⟩
  · rw [hleaves.loop_of_ne hi]
    exact halone i hi
  · rw [hleaves.loop_self hn]
    exact hcalled
  · rw [hleaves.loop_self hn]
    exact hgone (hleaves.running ▸ hrun)

theorem Wired.stopTimer (h : Wired hand c) (n : Nat) : Wired hand (c.stopTimer n) :=
  h.of_subperm rfl id (List.Perm.subperm (by
    rw [show (c.stopTimer n).scene.schedule.turns = _ from c.scene.schedule.callOff_turns _]))

theorem AtWork.stopTimer (h : AtWork base recent n c) : AtWork base recent n (c.stopTimer n) :=
  .of_leaves (c.stopTimer_spares n) h.bounded h.alone h.uncalled h.gone (h.recorded.congr rfl rfl)
    (h.wired.stopTimer n)

/-- A loop that has its turn does not pause undisturbed. -/
theorem Paced.permits (h : Paced base recent hand c) (hcalled : (c.loop n).called = true)
    (hover : (c.loop n).stand ≠ .over) {t : Instant} (ht : lastAttempt? recent = some t) :
    c.Permits t := by
  refine (h.ready t ht).resolve_right fun hall => ?_
  have huncalled := (hall n hover).uncalled
  rw [hcalled] at huncalled
  contradiction

/-- A loop that has its turn attempts to connect only where that is permitted. -/
theorem Paced.deliveryTurn (h : Paced base recent [.goOn (.delivery n)] c) (horderly : c.Orderly) :
    ∃ recent', Paced base recent' [] (c.deliveryTurn n) := by
  obtain ⟨hn, hcalled, hwired⟩ := h.wired.take
  have hleaves := c.setLoop_leaves n { c.loop n with called := false, cancelled := false } rfl
  have hself := hleaves.loop_self hn
  by_cases hover : (c.loop n).stand = .over
  · have hsame : c.deliveryTurn n =
        c.setLoop n { c.loop n with called := false, cancelled := false } := by
      simp [Client.deliveryTurn, hover]
    rw [hsame]
    refine ⟨_, h.drop.keep (h.recorded.congr rfl rfl) rfl hwired rfl rfl rfl fun _ t i hi => ?_⟩
    by_cases hin : i = n
    · rw [hin, hself] at hi
      exact absurd hover hi
    · rw [hleaves.loop_of_ne hin] at hi
      exact ⟨hi, fun hrest => hrest.setLoop hin _⟩
  · have hcurrent := horderly.current_of_stand hover
    have halone (i : Nat) (hi : i ≠ n) : (c.loop i).stand = .over :=
      horderly.others i (by rw [hcurrent]; simpa using Ne.symm hi)
    have hwork (hstand : (c.loop n).stand ≠ .awaiting) : AtWork base recent n
        (c.setLoop n { c.loop n with called := false, cancelled := false }) :=
      .of_leaves hleaves hn halone rfl
        (fun hrun => (h.wired.settled hrun n).gone hcalled hstand hover)
        (h.recorded.congr rfl rfl) hwired
    have hpermits : ∀ t, lastAttempt? recent = some t →
        (c.setLoop n { c.loop n with called := false, cancelled := false }).Permits t :=
      fun _ => h.permits hcalled hover
    have hlisteners :
        (c.setLoop n { c.loop n with called := false, cancelled := false }).listeners =
          c.listeners := rfl
    have hrecorded : Recorded base recent
        (c.setLoop n { c.loop n with called := false, cancelled := false }).scene :=
      h.recorded.congr rfl rfl
    unfold Client.deliveryTurn
    dsimp only
    generalize c.setLoop n { c.loop n with called := false, cancelled := false } = ready at *
    split
    next hstand =>
      split
      · exact ⟨_, (hwork (by simp [hstand])).finishLoop⟩
      · exact (hwork (by simp [hstand])).pass hpermits
    next hstand =>
      split
      next m hm =>
        have hlet := (hleaves.trans (ready.stopTimer_spares n) hn).setLoop
          { ready.loop n with fetch := .gone } rfl
        have hfetched : AtWork base recent n
            ((ready.stopTimer n).setLoop n { ready.loop n with fetch := .gone }) := by
          refine .of_leaves hlet hn halone ?_ (fun _ => rfl) ?_ ?_
          · rw [hself]
          · exact hrecorded.congr rfl rfl
          · exact (hwired.stopTimer n).setFetch .gone fun _ => .of_gone rfl _
        refine hfetched.deliver ?_ hpermits m
        exact hlisteners.trans (horderly.listeners_eq_nil hcurrent (by simp [hm]))
      next =>
        obtain ⟨hrunning, hconnected, hnow, hpast⟩ := ready.withdraw_scene n !(c.loop n).cancelled
        refine ⟨recent, hrecorded.congr hnow hpast, hwired.withdraw (by rw [hself]) _,
          fun t ht => .inl ?_⟩
        unfold Permits
        rw [hrunning, hconnected, hnow]
        exact hpermits t ht
    next hstand =>
      have hstopped := (hwork (by simp [hstand])).stopTimer
      split
      · exact ⟨_, hstopped.finishLoop⟩
      · exact hstopped.pass hpermits
    next hstand =>
      split
      · exact ⟨_, (hwork (by simp [hstand])).stopTimer.finishLoop⟩
      · exact (hwork (by simp [hstand])).pass hpermits
    next hstand => exact absurd hstand hover

/-! ## Turns and deeds -/

/-- When a turn comes that is the end of a pause, a second is over. -/
theorem Paced.next {turn : Turn} {scene : Scene} (h : Paced base recent [] c)
    (hnext : c.scene.next? = some (turn, scene)) :
    Paced base recent [turn] { c with scene } := by
  obtain ⟨⟨hproper, hle⟩, hsoon, hheap⟩ := Scene.next?_soon h.recorded.proper hnext
  obtain ⟨hturns, hpast⟩ := Scene.next?_turns_subperm hnext
  refine ⟨h.recorded.later hproper hle hpast, h.wired.of_subperm rfl id hturns, fun t ht => ?_⟩
  by_cases hapart : Apart t scene.now
  · exact .inl (.inr (.inr hapart))
  · rcases h.ready t ht with (hrunning | hconnected | hbefore) | hall
    · exact .inl (.inl hrunning)
    · exact .inl (.inr (.inl hconnected))
    · exact absurd (hbefore.mono_now h.recorded.proper hproper hle) hapart
    · refine .inr fun i hi => ?_
      have hrest := hall i hi
      refine ⟨hrest.stand, hrest.uncalled, fun hmem => ?_, fun x hx => hrest.timers x (hheap x hx)⟩
      rcases hsoon _ hmem with hold | ⟨x, hx, hpurpose, hreached⟩
      · exact hrest.unreleased hold
      · exact hapart (hreached.mono_due hproper (hrest.timers x hx hpurpose))

theorem Paced.takeTurn {turn : Turn} (h : Paced base recent [turn] c) (horderly : c.Orderly) :
    ∃ recent', Paced base recent' [] (c.takeTurn turn) := by
  unfold Client.takeTurn
  split
  next => exact h.deliveryTurn horderly
  next n => exact h.drop.fetchTurn horderly n
  next => exact ⟨_, h.releaseLoop⟩
  next => exact ⟨_, h.drop.give rfl⟩
  next => exact ⟨_, h.drop⟩

end Client

end Mqtt

end SupplyGauge
