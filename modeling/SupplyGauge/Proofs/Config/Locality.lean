import Mathlib.Data.List.Forall2
import SupplyGauge.Proofs.Config.Fields

/-! # What settings depend on

Settings depend on a document only through the values of known directives in the first block of each
section, and through the label of the first block about power supplies. What has no value there has
its default. So the order of directives with different names and of blocks with different types does
not matter, and whatever there is a warning about can be left out.
-/

namespace SupplyGauge.Config

/-- The label of the first block about power supplies. -/
def Document.supplyLabel? (d : Document) : Option String := (d.block? "power_supply").bind (·.label)

/-! ## Values and labels decide -/

/-- Whether two sections of a type, each of which may be absent, have the same value for every
directive that is known there. -/
def SameValues (type : String) (b b' : Option Block) : Prop :=
  ∀ known, knownDirectives? type = some known → ∀ name ∈ known, setting? b name = setting? b' name

theorem wholeSetting_congr {b b' : Option Block} {name : String}
    (h : setting? b name = setting? b' name) (default : Int) :
    wholeSetting b name default = wholeSetting b' name default := by
  unfold wholeSetting
  rw [h]

theorem textSetting_congr {b b' : Option Block} {name : String}
    (h : setting? b name = setting? b' name) (default : String) :
    textSetting b name default = textSetting b' name default := by
  unfold textSetting
  rw [h]

theorem MqttSettings.ofSection_congr {b b' : Option Block} (h : SameValues "mqtt" b b') :
    MqttSettings.ofSection b = MqttSettings.ofSection b' := by
  unfold MqttSettings.ofSection
  rw [h _ rfl "retain" (by decide), wholeSetting_congr (h _ rfl "qos" (by decide)),
    wholeSetting_congr (h _ rfl "port" (by decide)),
    wholeSetting_congr (h _ rfl "keepalive" (by decide)), h _ rfl "host" (by decide),
    h _ rfl "username" (by decide), h _ rfl "password" (by decide),
    h _ rfl "client_id" (by decide), h _ rfl "topic_prefix" (by decide)]

theorem LogSettings.ofSection_congr {b b' : Option Block} (h : SameValues "logging" b b') :
    LogSettings.ofSection b = LogSettings.ofSection b' := by
  unfold LogSettings.ofSection
  rw [textSetting_congr (h _ rfl "level" (by decide)),
    textSetting_congr (h _ rfl "file_level" (by decide)),
    wholeSetting_congr (h _ rfl "file_max_size" (by decide)),
    wholeSetting_congr (h _ rfl "file_keep" (by decide)), h _ rfl "file" (by decide),
    h _ rfl "colors" (by decide), h _ rfl "format" (by decide)]

theorem SupplySettings.ofSection_congr {b b' : Option Block} (h : SameValues "power_supply" b b')
    (hlabel : b.bind (·.label) = b'.bind (·.label)) :
    SupplySettings.ofSection b = SupplySettings.ofSection b' := by
  unfold SupplySettings.ofSection
  rw [textSetting_congr (h _ rfl "ignored_devices" (by decide)),
    h _ rfl "update_interval" (by decide), textSetting_congr (h _ rfl "sysfs" (by decide)),
    textSetting_congr (h _ rfl "namespace" (by decide)), hlabel]

/-- Documents with the same values and the same label for power supplies give the same settings, or
fail with the same error. -/
theorem Settings.ofDocument_congr {d d' : Document}
    (h : ∀ type, SameValues type (d.block? type) (d'.block? type))
    (hlabel : d.supplyLabel? = d'.supplyLabel?) :
    Settings.ofDocument d = Settings.ofDocument d' := by
  unfold Settings.ofDocument
  rw [MqttSettings.ofSection_congr (h _), LogSettings.ofSection_congr (h _),
    SupplySettings.ofSection_congr (h _) hlabel]

/-- The values of all known directives are those of all fields. -/
theorem sameValues_of_entry?_eq {d d' : Document} (h : ∀ f : Field, d.entry? f = d'.entry? f)
    (type : String) : SameValues type (d.block? type) (d'.block? type) := by
  intro known hknown name hname
  obtain ⟨f, rfl, rfl⟩ := mem_known_iff.mp ⟨known, hknown, hname⟩
  exact h f

/-! ## Fields by themselves -/

theorem retainSetting_congr {b b' : Option Block} (h : setting? b "retain" = setting? b' "retain") :
    retainSetting b = retainSetting b' := by
  unfold retainSetting
  rw [h]

theorem qosSetting_congr {b b' : Option Block} (h : setting? b "qos" = setting? b' "qos") :
    qosSetting b = qosSetting b' := by
  unfold qosSetting
  rw [wholeSetting_congr h]

theorem patternSetting_congr {b b' : Option Block}
    (h : setting? b "ignored_devices" = setting? b' "ignored_devices") :
    patternSetting b = patternSetting b' := by
  unfold patternSetting
  rw [textSetting_congr h]

theorem intervalSetting_congr {b b' : Option Block}
    (h : setting? b "update_interval" = setting? b' "update_interval") :
    intervalSetting b = intervalSetting b' := by
  unfold intervalSetting
  rw [h]

/-- What is read for a field depends on its own value only. -/
theorem Field.read_congr {b b' : Option Block} {f : Field}
    (h : setting? b f.name = setting? b' f.name) : f.read b = f.read b' := by
  cases f with
  | host | username | password | clientId | topicPrefix | file | format | colors =>
      simp only [read, reading, h]
  | level | fileLevel | sysfs | namespace_ =>
      exact congrArg (Except.map _) (textSetting_congr h _)
  | port | keepalive | fileMaxSize | fileKeep =>
      exact congrArg (Except.map _) (wholeSetting_congr h _)
  | retain => exact congrArg (Except.map _) (retainSetting_congr h)
  | qos => exact congrArg (Except.map _) (qosSetting_congr h)
  | ignoredDevices => exact congrArg (Except.map _) (patternSetting_congr h)
  | updateInterval => exact congrArg (Except.map _) (intervalSetting_congr h)

theorem patternSetting_none : patternSetting none = .ok defaultIgnoredDevices := by
  have hok : (Pattern.ofText defaultIgnoredDevices).isOk = true := by decide +kernel
  cases hread : Pattern.ofText defaultIgnoredDevices with
  | error e => simp [hread, Except.isOk, Except.toBool] at hok
  | ok p =>
      have hdefault : textSetting none "ignored_devices" defaultIgnoredDevices =
        .ok defaultIgnoredDevices := rfl
      rw [patternSetting, hdefault]
      exact bind_eq_ok_iff.mpr ⟨_, rfl, bind_eq_ok_iff.mpr ⟨p, by rw [hread]; rfl, rfl⟩⟩

theorem intervalSetting_none : intervalSetting none = .ok (.ofInt 15) := by
  have hpositive : (Binary64.ofInt 15).le .zero = false := by decide +kernel
  have hdefault : intervalSetting none = positive (.ofInt 15) := rfl
  rw [hdefault, positive, hpositive]
  rfl

/-- A field that has no value holds its default. -/
theorem Field.read_default {b : Option Block} {f : Field} (h : setting? b f.name = none) :
    f.read b = .ok (f.content {}) := by
  rw [read_congr (h.trans (show none = setting? none f.name from rfl))]
  cases f with
  | ignoredDevices => simp only [read, reading, content, patternSetting_none, Except.map]
  | updateInterval => simp only [read, reading, content, intervalSetting_none, Except.map]
  | _ => rfl

/-- Where a document gives no settings, the error is that of a field. -/
theorem Settings.read_of_ofDocument_error {d : Document} {e : SettingsError}
    (h : Settings.ofDocument d = .error e) :
    ∃ f : Field, f.read (d.block? f.section_) = .error e := by
  have htried : conversions.forM (Conversion.attempt d) = .error e := by
    rw [← outcome_ofDocument, h]
    rfl
  obtain ⟨before, c, after, hcs, -, hc⟩ := forM_error_iff.mp htried
  have hmem : c ∈ conversions := by
    rw [hcs]
    exact List.mem_append_right _ List.mem_cons_self
  have hread {α : Type} {x : Except SettingsError α} {f : α → Content}
      (hx : outcome x = .error e) : x.map f = .error e := by
    cases x with
    | ok a => contradiction
    | error e' => exact congrArg _ (Except.error.inj hx)
  simp only [conversions, List.mem_cons, List.not_mem_nil, or_false] at hmem
  rcases hmem with rfl | rfl | rfl | rfl | rfl | rfl | rfl | rfl | rfl | rfl | rfl | rfl
  · exact ⟨.retain, hread hc⟩
  · exact ⟨.qos, hread hc⟩
  · exact ⟨.port, hread hc⟩
  · exact ⟨.keepalive, hread hc⟩
  · exact ⟨.level, hread hc⟩
  · exact ⟨.fileLevel, hread hc⟩
  · exact ⟨.fileMaxSize, hread hc⟩
  · exact ⟨.fileKeep, hread hc⟩
  · exact ⟨.ignoredDevices, hread hc⟩
  · exact ⟨.updateInterval, hread hc⟩
  · exact ⟨.sysfs, hread hc⟩
  · exact ⟨.namespace_, hread hc⟩

/-- What supplies are called in settings comes from the label. -/
theorem Settings.name_of_ofDocument {d : Document} {s : Settings}
    (h : Settings.ofDocument d = .ok s) : s.supply.name =
      (d.supplyLabel?.filter (!·.isEmpty)).getD ({} : SupplySettings).name := by
  unfold Settings.ofDocument at h
  rw [SupplySettings.ofSection_eq] at h
  simp only [bind_eq_ok_iff, pure, Except.pure, Except.ok.injEq] at h
  obtain ⟨mqtt, -, logging, -, _, ⟨pattern, -, interval, -, sysfs, -, namespace_, -, rfl⟩, rfl⟩ := h
  unfold Document.supplyLabel?
  dsimp only
  cases (d.block? "power_supply").bind (·.label) with
  | none => rfl
  | some label => cases hempty : label.isEmpty <;> simp [Option.filter, hempty]

/-! ## Order -/

/-- Whether two lists differ in the order of items with different names only. -/
def Rearranged {α : Type} (name : α → String) (xs ys : List α) : Prop :=
  ∀ n, xs.filter (name · == n) = ys.filter (name · == n)

theorem Rearranged.find?_eq {α : Type} {name : α → String} {xs ys : List α}
    (h : Rearranged name xs ys) (n : String) :
    xs.find? (name · == n) = ys.find? (name · == n) := by
  rw [← List.head?_filter, h n, List.head?_filter]

theorem Rearranged.refl {α : Type} (name : α → String) (xs : List α) : Rearranged name xs xs :=
  fun _ => rfl

/-- Neighbours with different names may be exchanged. -/
theorem Rearranged.swap {α : Type} {name : α → String} {x y : α} (h : name x ≠ name y)
    (before after : List α) :
    Rearranged name (before ++ x :: y :: after) (before ++ y :: x :: after) := by
  intro n
  rw [List.filter_append, List.filter_append]
  congr 1
  by_cases hx : name x = n
  · have hy : name y ≠ n := fun hy => h (hx.trans hy.symm)
    simp [hx, hy]
  · simp [List.filter_cons, hx]

/-- Whether two blocks are the same but for the order of directives with different names, and for
what is nested in them. -/
structure Block.Alike (b b' : Block) : Prop where
  type : b.type = b'.type
  label : b.label = b'.label
  directives : Rearranged Directive.name b.directives b'.directives

/-- Whether two documents differ in the order of blocks with different types only, and in the order
of directives with different names in them. -/
def Document.Reordered (d d' : Document) : Prop :=
  ∃ blocks, Rearranged Block.type d.blocks blocks ∧ List.Forall₂ Block.Alike blocks d'.blocks

theorem Block.Alike.value?_eq {b b' : Block} (h : b.Alike b') (name : String) :
    b.value? name = b'.value? name := by
  unfold value? directive?
  rw [h.directives.find?_eq]

theorem setting?_alike {b b' : Option Block} (h : Option.Rel Block.Alike b b') (name : String) :
    setting? b name = setting? b' name := by
  cases h with
  | none => rfl
  | some h => exact h.value?_eq name

theorem label?_alike {b b' : Option Block} (h : Option.Rel Block.Alike b b') :
    b.bind (·.label) = b'.bind (·.label) := by
  cases h with
  | none => rfl
  | some h => exact h.label

/-- The first blocks of a type among alike blocks are alike. -/
theorem find?_alike {bs bs' : List Block} (h : List.Forall₂ Block.Alike bs bs') (type : String) :
    Option.Rel Block.Alike (bs.find? (·.type == type)) (bs'.find? (·.type == type)) := by
  induction h with
  | nil => exact .none
  | cons halike hrest ih =>
      rw [List.find?_cons, List.find?_cons, halike.type]
      split
      · exact .some halike
      · exact ih

theorem Settings.ofDocument_reordered {d d' : Document} (h : d.Reordered d') :
    Settings.ofDocument d = Settings.ofDocument d' := by
  obtain ⟨blocks, hblocks, halike⟩ := h
  have hfirst (type : String) : Option.Rel Block.Alike (d.block? type) (d'.block? type) := by
    unfold Document.block?
    rw [hblocks.find?_eq]
    exact find?_alike halike type
  exact ofDocument_congr (fun type _ _ name _ => setting?_alike (hfirst type) name)
    (label?_alike (hfirst "power_supply"))

/-! ## Warnings -/

/-- What there is no warning about in a block, given the section types before it. -/
def Block.unwarned? (b : Block) (seen : List String) : Option Block :=
  if .unknownBlock b.type b.line ∈ b.warnings seen ∨
      .repeatedBlock b.type b.line ∈ b.warnings seen then none
  else some <| .mk b.type b.label b.line
    (b.directives.filter fun d => .unknownDirective d.name b.type d.line ∉ b.warnings seen)
    (b.blocks.filter fun n => .nestedBlock n.type b.type n.line ∉ b.warnings seen)

def unwarnedBlocks : List Block → List String → List Block
  | [], _ => []
  | b :: rest, seen => (b.unwarned? seen).toList ++ unwarnedBlocks rest (b.type :: seen)

/-- A document without everything that there is a warning about. -/
def Document.unwarned (d : Document) : Document where
  filename := d.filename
  directives := d.directives.filter fun s => .strayDirective s.name s.line ∉ d.warnings
  blocks := unwarnedBlocks d.blocks []

/-- A block without nested blocks and with no directives but those of given names. -/
def Block.trimmed (b : Block) (known : List String) : Block :=
  .mk b.type b.label b.line (b.directives.filter (known.contains ·.name)) []

@[simp] theorem Block.type_trimmed (b : Block) (known : List String) :
    (b.trimmed known).type = b.type := rfl

theorem Block.value?_trimmed {known : List String} {name : String} (b : Block) (h : name ∈ known) :
    (b.trimmed known).value? name = b.value? name := by
  have hkept (d : Directive) :
      decide (known.contains d.name = true ∧ (d.name == name) = true) = (d.name == name) := by
    by_cases hname : d.name = name
    · simp [hname, h]
    · simp [hname]
  unfold value? directive?
  change ((b.directives.filter _).find? _).bind _ = _
  rw [List.find?_filter]
  simp only [hkept]

section

variable {b : Block} {seen known : List String} (hknown : knownDirectives? b.type = some known)
include hknown

theorem Block.warnings_eq : b.warnings seen =
    (if b.type ∈ seen then [.repeatedBlock b.type b.line] else []) ++
      (b.directives.filter (!known.contains ·.name)).map
        (fun d => .unknownDirective d.name b.type d.line) ++
      b.blocks.map fun n => .nestedBlock n.type b.type n.line := by
  simp [warnings, hknown]

theorem Block.not_unknownDirective_mem {d : Directive} (hd : d ∈ b.directives) :
    .unknownDirective d.name b.type d.line ∉ b.warnings seen ↔ d.name ∈ known := by
  rw [warnings_eq hknown]
  constructor
  · intro h
    by_contra hname
    refine h (List.mem_append_left _ (List.mem_append_right _ ?_))
    exact List.mem_map.mpr ⟨d, List.mem_filter.mpr ⟨hd, by simpa using hname⟩, rfl⟩
  · intro hname h
    obtain ⟨d', ⟨-, hunknown⟩, hsame, -⟩ :
        ∃ d', (d' ∈ b.directives ∧ d'.name ∉ known) ∧ d'.name = d.name ∧ d'.line = d.line := by
      split at h <;> simpa using h
    exact hunknown (hsame ▸ hname)

theorem Block.nestedBlock_mem {n : Block} (hn : n ∈ b.blocks) :
    .nestedBlock n.type b.type n.line ∈ b.warnings seen := by
  rw [warnings_eq hknown]
  exact List.mem_append_right _ (List.mem_map_of_mem hn)

/-- There is a warning about every further block of a section, every directive that is not known and
every nested block. -/
theorem Block.unwarned?_eq : b.unwarned? seen =
    if b.type ∈ seen then none else some (b.trimmed known) := by
  have hdirectives : (b.directives.filter fun d =>
      .unknownDirective d.name b.type d.line ∉ b.warnings seen) =
        b.directives.filter (known.contains ·.name) :=
    List.filter_congr fun d hd => by simp [not_unknownDirective_mem hknown hd]
  have hblocks : (b.blocks.filter fun n =>
      .nestedBlock n.type b.type n.line ∉ b.warnings seen) = [] :=
    List.filter_eq_nil_iff.mpr fun n hn => by simpa using nestedBlock_mem hknown hn
  unfold unwarned?
  rw [hdirectives, hblocks, warnings_eq hknown]
  by_cases hseen : b.type ∈ seen
  · simp [hseen]
  · simp [hseen, trimmed]

end

/-- There is a warning about every block that belongs to no section. -/
theorem Block.unwarned?_unknown {b : Block} (h : knownDirectives? b.type = none)
    (seen : List String) : b.unwarned? seen = none := by
  unfold unwarned? warnings
  simp [h]

theorem Block.type_of_mem_unwarned? {b b' : Block} {seen : List String}
    (h : b' ∈ b.unwarned? seen) : b'.type = b.type := by
  unfold unwarned? at h
  split at h
  next => contradiction
  next =>
    obtain rfl := Option.some.inj h
    rfl

/-- The first block of a section stays, with the directives that are known. -/
theorem find?_unwarnedBlocks {type : String} {known : List String}
    (hknown : knownDirectives? type = some known) (bs : List Block) (seen : List String) :
    (unwarnedBlocks bs seen).find? (·.type == type) =
      if type ∈ seen then none
      else (bs.find? (·.type == type)).map (·.trimmed known) := by
  induction bs generalizing seen with
  | nil => simp [unwarnedBlocks]
  | cons b rest ih =>
      rw [unwarnedBlocks, List.find?_append, ih, List.find?_cons]
      by_cases htype : b.type = type
      · subst htype
        rw [Block.unwarned?_eq hknown]
        by_cases hseen : b.type ∈ seen <;> simp [hseen]
      · have hother : (b.unwarned? seen).toList.find? (·.type == type) = none := by
          rw [List.find?_eq_none]
          intro b' hb'
          rw [Block.type_of_mem_unwarned? (Option.mem_toList.mp hb')]
          simpa using htype
        have hdiffer : (b.type == type) = false := by simpa using htype
        simp [hother, hdiffer, Ne.symm htype]

/-- Whatever there is a warning about has no influence on settings. -/
theorem Settings.ofDocument_unwarned (d : Document) :
    Settings.ofDocument d.unwarned = Settings.ofDocument d := by
  have hfirst {type : String} {known : List String} (hknown : knownDirectives? type = some known) :
      d.unwarned.block? type = (d.block? type).map (·.trimmed known) :=
    (find?_unwarnedBlocks hknown d.blocks []).trans (if_neg List.not_mem_nil)
  refine ofDocument_congr (fun type known hknown name hname => ?_) ?_
  · rw [hfirst hknown]
    cases d.block? type with
    | none => rfl
    | some b => exact b.value?_trimmed hname
  · unfold Document.supplyLabel?
    rw [hfirst rfl]
    cases d.block? "power_supply" <;> rfl

/-- There is no warning about a block that is left, if no block before it is of the same section. -/
theorem Block.warnings_trimmed {b : Block} {known : List String}
    (hknown : knownDirectives? b.type = some known) {seen : List String} (hseen : b.type ∉ seen) :
    (b.trimmed known).warnings seen = [] := by
  have hdirectives : ((b.trimmed known).directives.filter (!known.contains ·.name)) = [] := by
    refine List.filter_eq_nil_iff.mpr fun d hd => ?_
    have hkept : known.contains d.name = true := (List.mem_filter.mp hd).2
    rw [hkept]
    decide
  have hknown : knownDirectives? (b.trimmed known).type = some known := hknown
  rw [warnings_eq hknown, hdirectives, type_trimmed, if_neg hseen]
  rfl

theorem blockWarnings_unwarnedBlocks (bs : List Block) {seen before : List String}
    (h : ∀ type ∈ before, type ∈ seen) : blockWarnings (unwarnedBlocks bs seen) before = [] := by
  induction bs generalizing seen before with
  | nil => rfl
  | cons b rest ih =>
      rw [unwarnedBlocks]
      cases hknown : knownDirectives? b.type with
      | none =>
          rw [Block.unwarned?_unknown hknown]
          exact ih fun type htype => List.mem_cons_of_mem _ (h type htype)
      | some known =>
          rw [Block.unwarned?_eq hknown]
          by_cases hseen : b.type ∈ seen
          · rw [if_pos hseen]
            exact ih fun type htype => List.mem_cons_of_mem _ (h type htype)
          · rw [if_neg hseen, Option.toList_some, List.singleton_append, blockWarnings,
              Block.warnings_trimmed hknown fun htype => hseen (h _ htype), List.nil_append]
            refine ih fun type htype => ?_
            rcases List.mem_cons.mp htype with rfl | htype
            · exact List.mem_cons_self
            · exact List.mem_cons_of_mem _ (h type htype)

/-- Nothing is left that there could be a warning about. -/
theorem Document.warnings_unwarned (d : Document) : d.unwarned.warnings = [] := by
  have hdirectives : d.unwarned.directives = [] := by
    refine List.filter_eq_nil_iff.mpr fun s hs => ?_
    have hwarned : .strayDirective s.name s.line ∈ d.warnings :=
      List.mem_append_right _ (List.mem_map.mpr ⟨s, hs, rfl⟩)
    simpa using hwarned
  have hblocks : blockWarnings d.unwarned.blocks [] = [] :=
    blockWarnings_unwarnedBlocks d.blocks fun type htype => absurd htype List.not_mem_nil
  rw [warnings, hblocks, hdirectives]
  rfl

/-- The fields of settings are those of the known directives. Settings depend on the first values of
these in the first block of each section and on one label, and each field on its own value. What has
no value has its default, and is never the reason of an error. Order does not matter between
different names and types, nor does anything that there is a warning about. -/
theorem Settings.ofDocument_local (d : Document) :
    (∀ type name, (∃ known, knownDirectives? type = some known ∧ name ∈ known) ↔
      ∃ f : Field, f.section_ = type ∧ f.name = name) ∧
    (∀ d' : Document, (∀ f : Field, d.entry? f = d'.entry? f) → d.supplyLabel? = d'.supplyLabel? →
      Settings.ofDocument d = Settings.ofDocument d') ∧
    (∀ (d' : Document) (s s' : Settings), Settings.ofDocument d = .ok s →
      Settings.ofDocument d' = .ok s' →
      (∀ f : Field, d.entry? f = d'.entry? f → f.content s = f.content s') ∧
      (d.supplyLabel? = d'.supplyLabel? → s.supply.name = s'.supply.name)) ∧
    (∀ s : Settings, Settings.ofDocument d = .ok s →
      (∀ f : Field, d.entry? f = none → f.content s = f.content {}) ∧
      (d.supplyLabel? = none → s.supply.name = ({} : Settings).supply.name)) ∧
    (∀ e, Settings.ofDocument d = .error e →
      ∃ f : Field, d.entry? f ≠ none ∧ f.read (d.block? f.section_) = .error e) ∧
    (∀ d' : Document, d.Reordered d' → Settings.ofDocument d = Settings.ofDocument d') ∧
    d.unwarned.warnings = [] ∧ Settings.ofDocument d.unwarned = Settings.ofDocument d := by
  refine ⟨fun type name => mem_known_iff,
    fun d' h => ofDocument_congr (sameValues_of_entry?_eq h),
    fun d' s s' h h' => ⟨fun f hf => ?_, fun hlabel => ?_⟩,
    fun s h => ⟨fun f hf => ?_, fun hlabel => ?_⟩, fun e h => ?_,
    fun d' => ofDocument_reordered, d.warnings_unwarned, ofDocument_unwarned d⟩
  · have hread := read_of_ofDocument h f
    rw [Field.read_congr hf, read_of_ofDocument h' f] at hread
    exact (Except.ok.inj hread).symm
  · rw [name_of_ofDocument h, name_of_ofDocument h', hlabel]
  · have hread := read_of_ofDocument h f
    rw [Field.read_default hf] at hread
    exact (Except.ok.inj hread).symm
  · rw [name_of_ofDocument h, hlabel]
    rfl
  · obtain ⟨f, hf⟩ := read_of_ofDocument_error h
    refine ⟨f, fun hnone => ?_, hf⟩
    rw [Field.read_default hnone] at hf
    contradiction

/-- Settings of logging, among much that is not used. -/
def colorsBlock : Block :=
  .mk "logging" none 2 [⟨"colors", [.flag false], 3⟩] [.mk "mqtt" none 4 [] []]

/-- A document with directives of two sections, and with some that are not used. -/
def scattered : Document where
  filename := "a.conf"
  directives := [⟨"port", [.whole 1], 1⟩]
  blocks := [colorsBlock, .mk "mqtt" none 5 [⟨"mood", [], 6⟩, ⟨"port", [.whole 1884], 7⟩] []]

/-- The same directives in another order. -/
def gathered : Document where
  filename := "b.conf"
  directives := []
  blocks := [.mk "mqtt" none 5 [⟨"port", [.whole 1884], 7⟩, ⟨"mood", [], 6⟩] [], colorsBlock]

theorem scattered_reordered : scattered.Reordered gathered := by
  refine ⟨_, Rearranged.swap (by decide) [] [], ?_⟩
  exact .cons ⟨rfl, rfl, Rearranged.swap (by decide) [] []⟩
    (.cons ⟨rfl, rfl, Rearranged.refl _ _⟩ .nil)

theorem SupplySettings.ofSection_none : SupplySettings.ofSection none = .ok {} := by
  rw [ofSection_eq, patternSetting_none, intervalSetting_none]
  rfl

theorem scattered_entry? (f : Field) : scattered.entry? f = gathered.entry? f := by
  cases f <;> rfl

/-- A document without settings of power supplies gives those of its other sections. -/
theorem Settings.ofDocument_of_sections {d : Document} {mqtt : MqttSettings} {logging : LogSettings}
    (hmqtt : MqttSettings.ofSection (d.block? "mqtt") = .ok mqtt)
    (hlogging : LogSettings.ofSection (d.block? "logging") = .ok logging)
    (hsupply : d.block? "power_supply" = none) :
    Settings.ofDocument d = .ok { mqtt, logging } := by
  unfold Settings.ofDocument
  rw [hmqtt, hlogging, hsupply, SupplySettings.ofSection_none]
  rfl

/-- Documents in a different order give the same settings, with the port that a third one gives too
and a default for what they do not say. What is refused in a fourth one is a value that is there. -/
theorem Settings.ofDocument_local_scattered :
    let s : Settings := { mqtt := { port := 1884 }, logging := { colors := false } }
    let port : Directive := ⟨"port", [.real (.infinite false)], 1⟩
    let refused : Document := ⟨"d.conf", [], [.mk "mqtt" none 1 [port] []]⟩
    Settings.ofDocument scattered = .ok s ∧ Settings.ofDocument gathered = .ok s ∧
      Field.port.content s = Field.port.content { mqtt := { port := 1884 } } ∧
      Field.qos.content s = Field.qos.content {} ∧ s.supply.name = "power_supply" ∧
      ∃ f : Field, refused.entry? f ≠ none := by
  intro s port refused
  let plain : Document := ⟨"c.conf", [], [.mk "mqtt" none 1 [⟨"port", [.whole 1884], 1⟩] []]⟩
  have hs : Settings.ofDocument scattered = .ok s := ofDocument_of_sections rfl rfl rfl
  have hplain : Settings.ofDocument plain = .ok { mqtt := { port := 1884 } } :=
    ofDocument_of_sections rfl rfl rfl
  have hrefused : Settings.ofDocument refused = .error (.badNumber .infinityNotWhole) := by
    have hmqtt : MqttSettings.ofSection (refused.block? "mqtt") =
      .error (.badNumber .infinityNotWhole) := rfl
    unfold Settings.ofDocument
    rw [hmqtt]
    rfl
  obtain ⟨-, hvalues, hfields, hdefaults, -, horder, -⟩ := Settings.ofDocument_local scattered
  obtain ⟨-, -, -, -, herror, -⟩ := Settings.ofDocument_local refused
  obtain ⟨f, hf, -⟩ := herror _ hrefused
  exact ⟨(hvalues _ scattered_entry? rfl).trans ((horder _ scattered_reordered).symm.trans hs),
    (horder _ scattered_reordered).symm.trans hs, (hfields plain s _ hs hplain).1 .port rfl,
    (hdefaults s hs).1 .qos rfl, (hdefaults s hs).2 rfl, f, hf⟩

end SupplyGauge.Config
