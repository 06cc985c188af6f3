import SupplyGauge.Proofs.Config.Typing

/-! # Documents without warnings

There is no warning about a document exactly if it consists of one block for each of some sections,
with known directives only. What can still be written there without effect is a directive that is
repeated in its block: of these the first one counts, and there is no warning about the others. They
can be left out, and then nothing in the document is unknown or repeated.
-/

namespace SupplyGauge.Config

/-- A block of a section, without nested blocks and with no directives but those known there. -/
structure Block.Recognized (b : Block) : Prop where
  section_ : b.type = "mqtt" ∨ b.type = "logging" ∨ b.type = "power_supply"
  known : ∀ s ∈ b.directives, ∃ known, knownDirectives? b.type = some known ∧ s.name ∈ known
  nested : b.blocks = []

/-- A document of recognized blocks, one for each section at most, and of nothing else. -/
structure Document.Recognized (d : Document) : Prop where
  directives : d.directives = []
  blocks : ∀ b ∈ d.blocks, b.Recognized
  distinct : (d.blocks.map Block.type).Nodup

/-- A recognized document in which no block repeats a directive: nothing in it is unknown, and
nothing is repeated. -/
structure Document.Tidy (d : Document) : Prop extends d.Recognized where
  single : ∀ b ∈ d.blocks, (b.directives.map Directive.name).Nodup

/-! ## Warnings -/

theorem knownDirectives?_isSome_iff {type : String} :
    (∃ known, knownDirectives? type = some known) ↔
      type = "mqtt" ∨ type = "logging" ∨ type = "power_supply" := by
  constructor
  · rintro ⟨known, h⟩
    unfold knownDirectives? at h
    split at h
    · exact .inl rfl
    · exact .inr (.inl rfl)
    · exact .inr (.inr rfl)
    · contradiction
  · rintro (rfl | rfl | rfl)
    all_goals exact ⟨_, rfl⟩

/-- There is no warning about a block exactly if it is recognized and the first one of its
section. -/
theorem Block.warnings_eq_nil_iff {b : Block} {seen : List String} :
    b.warnings seen = [] ↔ b.Recognized ∧ b.type ∉ seen := by
  cases hknown : knownDirectives? b.type with
  | none =>
      have hother : ¬ b.Recognized := by
        intro h
        obtain ⟨known, hsection⟩ := knownDirectives?_isSome_iff.mpr h.section_
        simp [hknown] at hsection
      simp [warnings, hknown, hother]
  | some known =>
      rw [warnings_eq hknown]
      simp only [List.append_eq_nil_iff, List.map_eq_nil_iff, List.filter_eq_nil_iff]
      constructor
      · rintro ⟨⟨hseen, hdirectives⟩, hnested⟩
        refine ⟨⟨knownDirectives?_isSome_iff.mp ⟨known, hknown⟩, ?_, hnested⟩, ?_⟩
        · intro s hs
          exact ⟨known, hknown, by simpa using hdirectives s hs⟩
        · intro hmem
          simp [hmem] at hseen
      · rintro ⟨h, hseen⟩
        refine ⟨⟨if_neg hseen, ?_⟩, h.nested⟩
        intro s hs
        obtain ⟨known', hknown', hname⟩ := h.known s hs
        obtain rfl := Option.some.inj (hknown.symm.trans hknown')
        simpa using hname

theorem blockWarnings_eq_nil_iff {bs : List Block} {seen : List String} :
    blockWarnings bs seen = [] ↔ (∀ b ∈ bs, b.Recognized) ∧ (bs.map Block.type).Nodup ∧
      ∀ b ∈ bs, b.type ∉ seen := by
  induction bs generalizing seen with
  | nil => simp [blockWarnings]
  | cons b rest ih =>
      rw [blockWarnings, List.append_eq_nil_iff, Block.warnings_eq_nil_iff, ih]
      simp only [List.mem_cons, List.map_cons, List.nodup_cons, List.mem_map, forall_eq_or_imp,
        not_or, forall_and, not_exists, not_and]
      tauto

/-- There is no warning about a document exactly if it is recognized. -/
theorem Document.warnings_eq_nil_iff {d : Document} : d.warnings = [] ↔ d.Recognized := by
  rw [warnings, List.append_eq_nil_iff, List.map_eq_nil_iff, blockWarnings_eq_nil_iff]
  constructor
  · rintro ⟨⟨hblocks, hdistinct, -⟩, hdirectives⟩
    exact ⟨hdirectives, hblocks, hdistinct⟩
  · intro h
    exact ⟨⟨h.blocks, h.distinct, fun _ _ => List.not_mem_nil⟩, h.directives⟩

/-! ## Repeated directives -/

/-- The first directive of each name. -/
def firstOfEach : List Directive → List Directive
  | [] => []
  | s :: rest => s :: (firstOfEach rest).filter (·.name ≠ s.name)

/-- A block without the directives that repeat a name. -/
def Block.unrepeated (b : Block) : Block :=
  .mk b.type b.label b.line (firstOfEach b.directives) b.blocks

/-- A document without the directives that repeat a name in their block. -/
def Document.unrepeated (d : Document) : Document :=
  { d with blocks := d.blocks.map Block.unrepeated }

@[simp] theorem Block.type_unrepeated (b : Block) : b.unrepeated.type = b.type := rfl

@[simp] theorem Block.directives_unrepeated (b : Block) :
    b.unrepeated.directives = firstOfEach b.directives := rfl

theorem firstOfEach_subset (ss : List Directive) : firstOfEach ss ⊆ ss := by
  induction ss with
  | nil => exact List.Subset.refl _
  | cons s rest ih =>
      intro s' hs'
      rcases List.mem_cons.mp hs' with rfl | hs'
      · exact List.mem_cons_self
      · exact List.mem_cons_of_mem _ (ih (List.mem_filter.mp hs').1)

theorem nodup_firstOfEach (ss : List Directive) : ((firstOfEach ss).map Directive.name).Nodup := by
  induction ss with
  | nil => exact List.nodup_nil
  | cons s rest ih =>
      rw [firstOfEach, List.map_cons, List.nodup_cons]
      refine ⟨?_, ih.sublist (List.filter_sublist.map _)⟩
      intro hmem
      obtain ⟨s', hs', hname⟩ := List.mem_map.mp hmem
      simpa [hname] using (List.mem_filter.mp hs').2

/-- Nothing is left out where no name is repeated. -/
theorem firstOfEach_eq_self_iff {ss : List Directive} :
    firstOfEach ss = ss ↔ (ss.map Directive.name).Nodup := by
  constructor
  · intro h
    rw [← h]
    exact nodup_firstOfEach ss
  · intro h
    induction ss with
    | nil => rfl
    | cons s rest ih =>
        rw [List.map_cons, List.nodup_cons] at h
        rw [firstOfEach, ih h.2]
        congr 1
        refine List.filter_eq_self.mpr fun s' hs' => ?_
        have hother : s'.name ≠ s.name := fun hname => h.1 (List.mem_map.mpr ⟨s', hs', hname⟩)
        simpa using hother

/-- The first directive of a name stays the first one. -/
theorem find?_firstOfEach (ss : List Directive) (name : String) :
    (firstOfEach ss).find? (·.name == name) = ss.find? (·.name == name) := by
  induction ss with
  | nil => rfl
  | cons s rest ih =>
      rw [firstOfEach, List.find?_cons, List.find?_cons]
      cases hname : s.name == name with
      | true => rfl
      | false =>
          -- the filter takes away directives of another name only
          have hkept (s' : Directive) :
              decide ((decide (s'.name ≠ s.name) = true) ∧ (s'.name == name) = true) =
                (s'.name == name) := by
            by_cases hname' : s'.name = name
            · have hother : name ≠ s.name := by
                rintro rfl
                simp at hname
              simp [hname', hother]
            · simp [hname']
          rw [List.find?_filter, ← ih]
          simp only [hkept]

theorem Block.value?_unrepeated (b : Block) (name : String) :
    b.unrepeated.value? name = b.value? name := by
  unfold value? directive?
  rw [directives_unrepeated, find?_firstOfEach]

theorem Document.block?_unrepeated (d : Document) (type : String) :
    d.unrepeated.block? type = (d.block? type).map Block.unrepeated := by
  unfold block? unrepeated
  rw [List.find?_map]
  rfl

/-- A directive that repeats a name has no influence on settings. -/
theorem Settings.ofDocument_unrepeated (d : Document) :
    Settings.ofDocument d.unrepeated = Settings.ofDocument d := by
  apply ofDocument_congr
  · intro type known _ name _
    rw [d.block?_unrepeated]
    cases d.block? type with
    | none => rfl
    | some b => exact b.value?_unrepeated name
  · unfold Document.supplyLabel?
    rw [d.block?_unrepeated]
    cases d.block? "power_supply" <;> rfl

/-- What is recognized is tidy once no directive repeats a name any more. -/
theorem Document.Recognized.tidy_unrepeated {d : Document} (h : d.Recognized) :
    d.unrepeated.Tidy where
  directives := h.directives
  blocks := by
    intro b' hb'
    obtain ⟨b, hb, rfl⟩ := List.mem_map.mp hb'
    obtain ⟨hsection, hknown, hnested⟩ := h.blocks b hb
    exact ⟨hsection, fun s hs => hknown s (firstOfEach_subset _ hs), hnested⟩
  distinct := by
    have htypes : d.unrepeated.blocks.map Block.type = d.blocks.map Block.type := by
      simp [unrepeated, Function.comp_def]
    rw [htypes]
    exact h.distinct
  single := by
    intro b' hb'
    obtain ⟨b, -, rfl⟩ := List.mem_map.mp hb'
    exact nodup_firstOfEach b.directives

theorem Block.unrepeated_eq_self_iff {b : Block} :
    b.unrepeated = b ↔ (b.directives.map Directive.name).Nodup := by
  rw [← firstOfEach_eq_self_iff]
  constructor
  · intro h
    rw [← directives_unrepeated, h]
  · intro h
    rw [unrepeated, h]
    cases b
    rfl

/-- A recognized document is tidy exactly if it repeats no directive. -/
theorem Document.Recognized.tidy_iff {d : Document} (h : d.Recognized) :
    d.Tidy ↔ d.unrepeated = d := by
  constructor
  · intro htidy
    have hblocks : d.blocks.map Block.unrepeated = d.blocks := by
      conv_rhs => rw [← List.map_id d.blocks]
      exact List.map_congr_left fun b hb => Block.unrepeated_eq_self_iff.mpr (htidy.single b hb)
    rw [unrepeated, hblocks]
  · intro hsame
    rw [← hsame]
    exact h.tidy_unrepeated

/-! ## Validation -/

theorem Loader.document_of_loadText {l l' : Loader} {text filename : String} {s : Settings}
    (h : l.loadText text filename = (.ok s, l')) : ∃ d,
      Document.ofText filename text.toList = .ok d ∧ Settings.ofDocument d = .ok s ∧
        l'.document = some d := by
  obtain ⟨d, hread, hsettings⟩ := ofDocument_of_loadText (congrArg Prod.fst h)
  obtain rfl : (l.loadText text filename).2 = l' := congrArg Prod.snd h
  refine ⟨d, hread, hsettings, ?_⟩
  unfold loadText
  rw [hread]
  rfl

theorem Settings.warnings_eq_nil_iff {s : Settings} : s.warnings = [] ↔
    s.mqtt.host.isSet = true ∧ s.supply.ignoredDevices ≠ "" := by
  unfold warnings
  rw [List.append_eq_nil_iff]
  cases s.mqtt.host.isSet <;> cases hempty : s.supply.ignoredDevices.isEmpty
  all_goals simp_all [String.isEmpty_iff]

/-- Validation of what a loader has just loaded gives no warning exactly if a host and a pattern are
set and the document is recognized: it has at most one block of each section, no other items, no
nested blocks and no unknown directives. The document is then tidy as well, unless a directive is
repeated in its block. Repeated directives are the only construct without effect that there is no
warning about: left out, they leave a tidy document with the same settings. -/
theorem Loader.validate_eq_nil_iff {l l' : Loader} {text filename : String} {s : Settings}
    (h : l.loadText text filename = (.ok s, l')) :
    ∃ d, Document.ofText filename text.toList = .ok d ∧
      (l'.validate s = [] ↔
        (s.mqtt.host.isSet = true ∧ s.supply.ignoredDevices ≠ "") ∧ d.Recognized) ∧
      (l'.validate s = [] → (d.Tidy ↔ d.unrepeated = d) ∧ d.unrepeated.Tidy ∧
        Settings.ofDocument d.unrepeated = .ok s) := by
  obtain ⟨d, hread, hsettings, hdocument⟩ := document_of_loadText h
  have hsilent : l'.validate s = [] ↔
      (s.mqtt.host.isSet = true ∧ s.supply.ignoredDevices ≠ "") ∧ d.Recognized := by
    unfold validate
    rw [hdocument, List.append_eq_nil_iff, Settings.warnings_eq_nil_iff, and_comm]
    exact and_congr_right' Document.warnings_eq_nil_iff
  refine ⟨d, hread, hsilent, ?_⟩
  intro hnone
  obtain ⟨-, hrecognized⟩ := hsilent.mp hnone
  exact ⟨hrecognized.tidy_iff, hrecognized.tidy_unrepeated,
    (Settings.ofDocument_unrepeated d).trans hsettings⟩

/-- A settings text that gives a port twice. -/
def twiceGiven : String := "mqtt\x7bport 1884;port 1885;\x7d"

/-- There is no warning about the second port. It has no effect, and makes the document untidy. -/
theorem Loader.validate_eq_nil_iff_twiceGiven :
    let s : Settings := { mqtt := { port := 1884 } }
    ∃ l' d, Loader.fresh.loadText twiceGiven "c.conf" = (.ok s, l') ∧
      Document.ofText "c.conf" twiceGiven.toList = .ok d ∧ l'.validate s = [] ∧
      d.Recognized ∧ ¬ d.Tidy ∧ d.unrepeated.Tidy := by
  intro s
  have hload : (Loader.fresh.loadText twiceGiven "c.conf").1.toOption = some s := by decide +kernel
  have hsilent : (Loader.fresh.loadText twiceGiven "c.conf").2.validate s = [] := by decide +kernel
  have hnames : (Document.ofText "c.conf" twiceGiven.toList).toOption.map
      (·.blocks.map fun b => b.directives.map Directive.name) = some [["port", "port"]] := by
    decide +kernel
  rcases hresult : Loader.fresh.loadText twiceGiven "c.conf" with ⟨_ | s', l'⟩
  · simp [hresult, Except.toOption] at hload
  · rw [hresult] at hload hsilent
    obtain rfl : s' = s := Option.some.inj hload
    obtain ⟨d, hread, hiff, hleft⟩ := Loader.validate_eq_nil_iff hresult
    obtain ⟨-, hunrepeated, -⟩ := hleft hsilent
    refine ⟨l', d, rfl, hread, hsilent, (hiff.mp hsilent).2, ?_, hunrepeated⟩
    intro htidy
    rw [hread] at hnames
    have hports : d.blocks.map (fun b => b.directives.map Directive.name) = [["port", "port"]] :=
      Option.some.inj hnames
    obtain ⟨b, hb, hport⟩ : ∃ b ∈ d.blocks, b.directives.map Directive.name = ["port", "port"] := by
      rw [← List.mem_map, hports]
      exact List.mem_singleton.mpr rfl
    have hsingle := htidy.single b hb
    rw [hport] at hsingle
    simp at hsingle

end SupplyGauge.Config
