import SupplyGauge.Config.Settings
import SupplyGauge.Proofs.Config.Numerals

/-! # Conversions of settings

A document is turned into settings by conversions that are tried one after another, whatever
section they belong to. The first one that fails decides the error. A conversion refuses most
values as invalid. What it cannot take for its size is a real number without bound where a whole
one is expected, a whole number beyond all real numbers where a real one is expected, and a
pattern with too large a repetition or too long a look-behind.
-/

namespace SupplyGauge.Config

/-- A value of a document that is converted to a setting. -/
inductive Conversion where
  | retain
  | qos
  | whole (section_ name : String) (default : Int)
  | text (section_ name default : String)
  | pattern
  | interval
  deriving DecidableEq, Repr

/-- All conversions, in the order in which they are tried. -/
def conversions : List Conversion :=
  [.retain, .qos, .whole "mqtt" "port" 1883, .whole "mqtt" "keepalive" 60,
    .text "logging" "level" "info", .text "logging" "file_level" "debug",
    .whole "logging" "file_max_size" 10, .whole "logging" "file_keep" 5,
    .pattern, .interval,
    .text "power_supply" "sysfs" "/sys", .text "power_supply" "namespace" "node"]

/-! ## Single settings -/

def retainSetting (b : Option Block) : Except SettingsError RetainMode :=
  match setting? b "retain" with
  | none => pure .online
  | some v => RetainMode.ofScalar v

def qosSetting (b : Option Block) : Except SettingsError Int := do
  let qos ← wholeSetting b "qos" 1
  if qos = 0 ∨ qos = 1 ∨ qos = 2 then return qos
  else throw (.badQos (← (Numeral.textOf qos).mapError .badNumber))

def patternSetting (b : Option Block) : Except SettingsError String := do
  let pattern ← textSetting b "ignored_devices" defaultIgnoredDevices
  let _ ← (Pattern.ofText pattern).mapError (SettingsError.badPattern pattern)
  return pattern

def positive (interval : Binary64) : Except SettingsError Binary64 :=
  if interval.le .zero then throw (.badInterval interval) else return interval

def intervalSetting (b : Option Block) : Except SettingsError Binary64 :=
  match setting? b "update_interval" with
  | none => positive (Binary64.ofInt 15)
  | some v => v.toReal.mapError SettingsError.badNumber >>= positive

/-- Whether a computation succeeds, or with which error it fails. -/
def outcome {α : Type} (x : Except SettingsError α) : Except SettingsError Unit :=
  x.map fun _ => ()

/-- What a conversion comes to in a document. -/
def Conversion.attempt (d : Document) : Conversion → Except SettingsError Unit
  | .retain => outcome (retainSetting (d.block? "mqtt"))
  | .qos => outcome (qosSetting (d.block? "mqtt"))
  | .whole section_ name default => outcome (wholeSetting (d.block? section_) name default)
  | .text section_ name default => outcome (textSetting (d.block? section_) name default)
  | .pattern => outcome (patternSetting (d.block? "power_supply"))
  | .interval => outcome (intervalSetting (d.block? "power_supply"))

/-! ## One after another -/

@[simp] theorem mapError_ok {ε ε' α : Type} (f : ε → ε') (a : α) :
    (Except.ok a : Except ε α).mapError f = .ok a := rfl

@[simp] theorem mapError_error {ε ε' α : Type} (f : ε → ε') (e : ε) :
    (Except.error e : Except ε α).mapError f = .error (f e) := rfl

theorem throw_bind {α β : Type} (e : SettingsError) (f : α → Except SettingsError β) :
    (throw e >>= f) = throw e := rfl

theorem MqttSettings.ofSection_eq (b : Option Block) : MqttSettings.ofSection b = do
    let retain ← retainSetting b
    let qos ← qosSetting b
    let port ← wholeSetting b "port" 1883
    let keepalive ← wholeSetting b "keepalive" 60
    return {
      host := (setting? b "host").getD (.text "localhost")
      port
      username := setting? b "username"
      password := setting? b "password"
      clientId := setting? b "client_id"
      topicPrefix := (setting? b "topic_prefix").getD (.text "power_supply_metrics")
      qos
      retain
      keepalive } := by
  unfold MqttSettings.ofSection retainSetting qosSetting
  cases setting? b "retain" with
  | none =>
      simp only [pure_bind, bind_assoc, throw_bind]
      refine bind_congr fun qos => ?_
      split
      · rfl
      · simp only [bind_assoc, throw_bind]
  | some v =>
      simp only [bind_assoc, throw_bind]
      refine bind_congr fun retain => bind_congr fun qos => ?_
      split
      · rfl
      · simp only [bind_assoc, throw_bind]

theorem SupplySettings.ofSection_eq (b : Option Block) : SupplySettings.ofSection b = do
    let ignoredDevices ← patternSetting b
    let updateInterval ← intervalSetting b
    let sysfs ← textSetting b "sysfs" "/sys"
    let namespace_ ← textSetting b "namespace" "node"
    return {
      name := match b.bind (·.label) with
        | some label => if label.isEmpty then "power_supply" else label
        | none => "power_supply"
      sysfs
      namespace_
      ignoredDevices
      updateInterval } := by
  unfold SupplySettings.ofSection patternSetting intervalSetting positive
  cases setting? b "update_interval" with
  | none =>
      simp only [pure_bind, bind_assoc, throw_bind]
      refine bind_congr fun pattern => bind_congr fun _ => ?_
      split <;> rfl
  | some v =>
      simp only [pure_bind, bind_assoc, throw_bind]
      refine bind_congr fun pattern => bind_congr fun _ => bind_congr fun interval => ?_
      split <;> rfl

/-- The first conversion of a computation, and then the others. -/
theorem outcome_bind {α β γ : Type} {x : Except SettingsError α} {f : α → Except SettingsError β}
    {attempt : γ → Except SettingsError Unit} {c : γ} {rest : List γ} (h : outcome x = attempt c)
    (hrest : ∀ a, outcome (f a) = rest.forM attempt) :
    outcome (x >>= f) = (c :: rest).forM attempt := by
  rw [List.forM, ← h]
  cases x with
  | error e => rfl
  | ok a => exact hrest a

theorem outcome_ofDocument (d : Document) :
    outcome (Settings.ofDocument d) = conversions.forM (Conversion.attempt d) := by
  unfold Settings.ofDocument
  rw [MqttSettings.ofSection_eq, SupplySettings.ofSection_eq]
  unfold LogSettings.ofSection conversions
  simp only [bind_assoc, pure_bind]
  iterate 12 refine outcome_bind rfl fun _ => ?_
  rfl

/-- Trying one after another fails with the error of the first that fails. -/
theorem forM_error_iff {γ : Type} {attempt : γ → Except SettingsError Unit} {e : SettingsError}
    {cs : List γ} : cs.forM attempt = .error e ↔
      ∃ before c after, cs = before ++ c :: after ∧ (∀ b ∈ before, attempt b = .ok ()) ∧
        attempt c = .error e := by
  induction cs with
  | nil => simp [List.forM, pure, Except.pure]
  | cons d cs ih =>
      constructor
      · intro h
        rw [List.forM] at h
        cases hd : attempt d with
        | error e' =>
            rw [hd] at h
            exact ⟨[], d, cs, rfl, by simp, hd.trans h⟩
        | ok u =>
            rw [hd] at h
            obtain ⟨before, c, after, rfl, hbefore, hc⟩ := ih.mp h
            exact ⟨d :: before, c, after, rfl, by simpa [hd] using hbefore, hc⟩
      · rintro ⟨before, c, after, hcs, hbefore, hc⟩
        cases before with
        | nil =>
            obtain ⟨rfl, rfl⟩ := List.cons.inj hcs
            rw [List.forM, hc]
            rfl
        | cons b before =>
            obtain ⟨rfl, rfl⟩ := List.cons.inj hcs
            rw [List.forM, hbefore d List.mem_cons_self]
            exact ih.mpr
              ⟨before, c, after, rfl, fun b hb => hbefore b (List.mem_cons_of_mem _ hb), hc⟩

/-! ## Values out of range -/

/-- Whether a computation fails because of the size of a value. -/
def Overflows {α : Type} (x : Except SettingsError α) : Prop :=
  ∃ e, x = .error e ∧ e.isOutOfRange = true

theorem not_overflows_ok {α : Type} (a : α) : ¬ Overflows (.ok a : Except SettingsError α) := by
  simp [Overflows]

theorem overflows_error {α : Type} {e : SettingsError} :
    Overflows (.error e : Except SettingsError α) ↔ e.isOutOfRange = true := by
  simp [Overflows]

theorem overflows_bind {α β : Type} {x : Except SettingsError α}
    {f : α → Except SettingsError β} :
    Overflows (x >>= f) ↔ Overflows x ∨ ∃ a, x = .ok a ∧ Overflows (f a) := by
  cases x with
  | error e => simp [Overflows, bind, Except.bind]
  | ok a => simp [Overflows, bind, Except.bind]

theorem overflows_outcome {α : Type} {x : Except SettingsError α} :
    Overflows (outcome x) ↔ Overflows x := by
  cases x <;> simp [Overflows, outcome, Except.map]

theorem overflows_badNumber {α : Type} {x : Except Numeral.Fault α} :
    Overflows (x.mapError SettingsError.badNumber) ↔
      ∃ fault, x = .error fault ∧ isOutOfRange fault = true := by
  cases x <;> simp [Overflows, SettingsError.isOutOfRange]

theorem isOutOfRange_of_whole {text : String} {fault : Numeral.Fault}
    (h : Numeral.whole text = .error fault) : isOutOfRange fault = false := by
  unfold Numeral.whole at h
  split at h
  split at h
  next => rw [← Except.error.inj h]; rfl
  next => rw [← Except.error.inj h]; rfl
  next =>
    split at h
    next => rw [← Except.error.inj h]; rfl
    next =>
      split at h
      next => contradiction
      next => rw [← Except.error.inj h]; rfl

theorem isOutOfRange_of_real {text : String} {fault : Numeral.Fault}
    (h : Numeral.real text = .error fault) : isOutOfRange fault = false := by
  unfold Numeral.real at h
  split at h
  split at h
  next => contradiction
  next =>
    split at h
    next => contradiction
    next => rw [← Except.error.inj h]; rfl

/-- A number that is too long to be written is not out of range. -/
theorem not_overflows_textOf (n : Int) :
    ¬ Overflows ((Numeral.textOf n).mapError SettingsError.badNumber) := by
  unfold Numeral.textOf
  rw [overflows_badNumber]
  split <;> simp [isOutOfRange]

theorem not_overflows_display (v : Scalar) :
    ¬ Overflows (v.display.mapError SettingsError.badNumber) := by
  cases v with
  | text s => exact not_overflows_ok s
  | flag b => cases b <;> exact not_overflows_ok _
  | whole n => exact not_overflows_textOf n
  | real x => exact not_overflows_ok _

theorem not_overflows_shown (v : Scalar) :
    ¬ Overflows (v.shown.mapError SettingsError.badNumber) := by
  cases v with
  | text s => exact not_overflows_ok _
  | flag b => exact not_overflows_display (.flag b)
  | whole n => exact not_overflows_display (.whole n)
  | real x => exact not_overflows_display (.real x)

/-- A value has a whole part unless it is a real number without bound. -/
theorem overflows_toWhole_iff {v : Scalar} :
    Overflows (v.toWhole.mapError SettingsError.badNumber) ↔
      ∃ negative, v = .real (.infinite negative) := by
  rw [overflows_badNumber]
  constructor
  · rintro ⟨fault, hfault, hrange⟩
    cases v with
    | text s => rw [isOutOfRange_of_whole hfault] at hrange; contradiction
    | flag b => contradiction
    | whole n => contradiction
    | real x =>
        cases x with
        | nan => rw [← Except.error.inj hfault] at hrange; contradiction
        | infinite negative => exact ⟨negative, rfl⟩
        | finite negative m s h => contradiction
  · rintro ⟨negative, rfl⟩
    exact ⟨.infinityNotWhole, rfl, rfl⟩

/-- A value is a real number unless it is a whole number beyond them. -/
theorem overflows_toReal_iff {v : Scalar} :
    Overflows (v.toReal.mapError SettingsError.badNumber) ↔
      ∃ n negative, v = .whole n ∧ Binary64.ofInt n = .infinite negative := by
  rw [overflows_badNumber]
  constructor
  · rintro ⟨fault, hfault, hrange⟩
    cases v with
    | text s => rw [isOutOfRange_of_real hfault] at hrange; contradiction
    | flag b => contradiction
    | whole n =>
        obtain ⟨negative, hlarge⟩ := realOfWhole_error_iff.mp ⟨fault, hfault⟩
        exact ⟨n, negative, rfl, hlarge⟩
    | real x => contradiction
  · rintro ⟨n, negative, rfl, hlarge⟩
    refine ⟨.wholeTooLarge, ?_, rfl⟩
    rw [Scalar.toReal, Numeral.realOfWhole, hlarge]
    rfl

theorem overflows_wholeSetting_iff {b : Option Block} {name : String} {default : Int} :
    Overflows (wholeSetting b name default) ↔
      ∃ negative, setting? b name = some (.real (.infinite negative)) := by
  unfold wholeSetting
  split
  next hnone => simp [hnone, not_overflows_ok]
  next v hv => simp [hv, overflows_toWhole_iff]

theorem not_overflows_textSetting (b : Option Block) (name default : String) :
    ¬ Overflows (textSetting b name default) := by
  unfold textSetting
  split
  next => exact not_overflows_ok _
  next v _ => exact not_overflows_display v

/-! ## Conversions that are out of range -/

/-- Whether a document has a value for a conversion that is too large for it. -/
def Conversion.TooLarge (d : Document) : Conversion → Prop
  | .qos => ∃ negative, setting? (d.block? "mqtt") "qos" = some (.real (.infinite negative))
  | .whole section_ name _ =>
    ∃ negative, setting? (d.block? section_) name = some (.real (.infinite negative))
  | .interval => ∃ n negative,
    setting? (d.block? "power_supply") "update_interval" = some (.whole n) ∧
      Binary64.ofInt n = .infinite negative
  | .pattern => ∃ pattern,
    textSetting (d.block? "power_supply") "ignored_devices" defaultIgnoredDevices = .ok pattern ∧
      ∃ e ∈ [Pattern.Error.repetitionTooLarge, .lookbehindTooLong],
        Pattern.ofText pattern = .error e
  | .retain | .text .. => False

theorem not_overflows_retain (b : Option Block) : ¬ Overflows (retainSetting b) := by
  unfold retainSetting
  split
  next => exact not_overflows_ok _
  next v _ =>
    unfold RetainMode.ofScalar
    split
    next => exact not_overflows_ok _
    next => exact not_overflows_ok _
    next =>
      rw [overflows_bind]
      rintro (hdisplay | ⟨word, -, hword⟩)
      · exact not_overflows_display v hdisplay
      · split at hword
        next => exact not_overflows_ok _ hword
        next =>
          rcases overflows_bind.mp hword with hshown | ⟨shown, -, hrange⟩
          · exact not_overflows_shown v hshown
          · exact absurd (overflows_error.mp hrange) (by simp [SettingsError.isOutOfRange])

theorem overflows_qos_iff {b : Option Block} : Overflows (qosSetting b) ↔
    ∃ negative, setting? b "qos" = some (.real (.infinite negative)) := by
  unfold qosSetting
  rw [overflows_bind, overflows_wholeSetting_iff]
  refine or_iff_left ?_
  rintro ⟨qos, -, hqos⟩
  split at hqos
  next => exact not_overflows_ok _ hqos
  next =>
    rcases overflows_bind.mp hqos with hshown | ⟨shown, -, hrange⟩
    · exact not_overflows_textOf qos hshown
    · exact absurd (overflows_error.mp hrange) (by simp [SettingsError.isOutOfRange])

theorem overflows_badPattern_iff {pattern : String} {x : Except Pattern.Error Pattern} :
    Overflows (x.mapError (SettingsError.badPattern pattern)) ↔
      ∃ e ∈ [Pattern.Error.repetitionTooLarge, .lookbehindTooLong], x = .error e := by
  cases x with
  | error e => cases e <;> simp [Overflows, SettingsError.isOutOfRange]
  | ok p => simp [Overflows]

theorem overflows_pattern_iff {b : Option Block} : Overflows (patternSetting b) ↔
    ∃ pattern, textSetting b "ignored_devices" defaultIgnoredDevices = .ok pattern ∧
      ∃ e ∈ [Pattern.Error.repetitionTooLarge, .lookbehindTooLong],
        Pattern.ofText pattern = .error e := by
  unfold patternSetting
  rw [overflows_bind, or_iff_right (not_overflows_textSetting _ _ _)]
  refine exists_congr fun pattern => and_congr_right fun _ => ?_
  rw [overflows_bind, overflows_badPattern_iff]
  exact or_iff_left fun ⟨_, _, hok⟩ => not_overflows_ok _ hok

theorem overflows_interval_iff {b : Option Block} : Overflows (intervalSetting b) ↔
    ∃ n negative, setting? b "update_interval" = some (.whole n) ∧
      Binary64.ofInt n = .infinite negative := by
  have hpositive (interval : Binary64) : ¬ Overflows (positive interval) := by
    unfold positive
    split
    next => exact fun h => absurd (overflows_error.mp h) (by simp [SettingsError.isOutOfRange])
    next => exact not_overflows_ok _
  unfold intervalSetting
  split
  next hnone => simp [hnone, hpositive]
  next v hv =>
    rw [overflows_bind, overflows_toReal_iff, hv]
    simp [hpositive]

theorem Conversion.overflows_attempt_iff {d : Document} {c : Conversion} :
    Overflows (c.attempt d) ↔ c.TooLarge d := by
  cases c with
  | retain => exact overflows_outcome.trans (iff_of_false (not_overflows_retain _) not_false)
  | qos => exact overflows_outcome.trans overflows_qos_iff
  | whole section_ name default => exact overflows_outcome.trans overflows_wholeSetting_iff
  | text section_ name default =>
      exact overflows_outcome.trans (iff_of_false (not_overflows_textSetting _ _ _) not_false)
  | pattern => exact overflows_outcome.trans overflows_pattern_iff
  | interval => exact overflows_outcome.trans overflows_interval_iff

/-- Whether the first conversion of a document that fails has a value that is too large for it. -/
def Document.OutOfRange (d : Document) : Prop :=
  ∃ before c after, conversions = before ++ c :: after ∧
    (∀ b ∈ before, Conversion.attempt d b = .ok ()) ∧ c.TooLarge d

theorem overflows_ofDocument_iff {d : Document} :
    Overflows (Settings.ofDocument d) ↔ d.OutOfRange := by
  rw [← overflows_outcome, outcome_ofDocument]
  unfold Overflows Document.OutOfRange
  simp only [forM_error_iff, ← Conversion.overflows_attempt_iff]
  constructor
  · rintro ⟨e, ⟨before, c, after, hall, hbefore, hc⟩, hrange⟩
    exact ⟨before, c, after, hall, hbefore, e, hc, hrange⟩
  · rintro ⟨before, c, after, hall, hbefore, e, hc, hrange⟩
    exact ⟨e, ⟨before, c, after, hall, hbefore, hc⟩, hrange⟩

end SupplyGauge.Config
