import SupplyGauge.Supply.Cycle

/-! # What attribute files say

Whatever an attribute file is, reading it gives a result: its first line, or nothing.
Only a path with a NUL character could make a reading fail otherwise, and the system
would not have found a directory at such a path in the first place.
-/

namespace SupplyGauge

namespace Files

theorem Tree.hasNul_append (a b : String) :
    Tree.hasNul (a ++ b) = (Tree.hasNul a || Tree.hasNul b) := by
  simp [Tree.hasNul, String.toList_append]

theorem Path.child_toString (p : Path) (name : String) (hp : p.names ≠ []) :
    (p.child name).toString = p.toString ++ "/" ++ name := by
  have hnames : (p.child name).names = p.names ++ [name] := rfl
  have hbody := String.intercalate_append_of_ne_nil (s := "/") hp (List.cons_ne_nil name [])
  rw [String.intercalate_singleton] at hbody
  unfold toString
  rw [hnames, hbody]
  rcases p with ⟨_ | _ | _, names⟩
  · simp [child, hp]
  · simp [child, String.append_assoc]
  · simp [child, String.append_assoc]

/-- What was found at a path is a path without NUL characters. -/
theorem Tree.hasNul_of_isDirectory {t : Tree} {path : Path} (h : t.isDirectory path = .ok true) :
    Tree.hasNul path.toString = false := by
  refine Bool.eq_false_iff.mpr fun hnul => ?_
  unfold isDirectory test status at h
  rw [if_pos hnul] at h
  simp [Failure.isAbsence] at h

/-- The system refuses to read a path without NUL characters only for a cause of its own. -/
theorem Tree.read_cases {t : Tree} {path : Path} (h : Tree.hasNul path.toString = false) :
    (∃ bytes, t.read path = .ok bytes) ∨
      ∃ cause text, t.read path = .error (.system cause text) := by
  unfold read status
  rw [h]
  simp only [Bool.false_eq_true, if_false]
  split
  · exact .inl ⟨_, rfl⟩
  · exact .inr ⟨_, _, rfl⟩
  next f hf =>
    refine .inr ?_
    split at hf
    · contradiction
    all_goals
      obtain rfl := Except.error.inj hf
      exact ⟨_, _, rfl⟩

end Files

namespace Supply

open Files (Path Tree)
open SupplyGauge.Metric (Descriptor Sample)

/-- The first line of a file. Nothing stands for a file that cannot be read. -/
def firstLine (files : Tree) (path : Path) : String :=
  match files.read path with
  | .ok bytes => String.ofList (Text.firstLine (Utf8.decodeLenient bytes))
  | .error _ => ""

/-- The number that a text is, or zero. -/
def numberOf (text : String) : Binary64 :=
  if isBare text then (Numeral.real text).toOption.getD .zero else .zero

/-- The place of a word in the vocabulary of a category, or zero. -/
def placeOf (k : Category) (text : String) : Binary64 :=
  if text ∈ k.words then .ofInt (k.words.idxOf text) else .zero

/-- The labels of a device: the first lines of six of its files. -/
def labelsOf (files : Tree) (device : Path) : Descriptor where
  chargeFullDesign := firstLine files (device.child "charge_full_design")
  model := firstLine files (device.child "model_name")
  technology := firstLine files (device.child "technology")
  type := firstLine files (device.child "type")
  serial := firstLine files (device.child "serial_number")
  voltageMinDesign := firstLine files (device.child "voltage_min_design")

/-- The value of an attribute by the first line of its own file. -/
def gaugeOf (files : Tree) (device : Path) (a : Attribute) : Binary64 :=
  match a.category with
  | some k => placeOf k (firstLine files (device.child a.name))
  | none => numberOf (firstLine files (device.child a.name))

/-- The samples of a device: one for each attribute, with the same labels. -/
def samplesOf (namespace_ : String) (files : Tree) (device : Path) : List Sample :=
  attributes.map fun a =>
    { description := a.description namespace_
      value := gaugeOf files device a
      descriptor := labelsOf files device
      device := some device }

theorem length_samplesOf (namespace_ : String) (files : Tree) (device : Path) :
    (samplesOf namespace_ files device).length = 11 := by
  rw [samplesOf, List.length_map]
  rfl

/-- A path at which the system can look, to a file or a directory below another one. -/
structure Lookable (device : Path) : Prop where
  named : device.names ≠ []
  clean : Tree.hasNul device.toString = false

/-- A name that is a path of its own, and has no NUL character. -/
structure Plain (name : String) : Prop where
  path : Path.ofString name = ⟨.relative, [name]⟩
  clean : Tree.hasNul name = false

variable {files : Tree} {device : Path} {name : String}

theorem Plain.join (h : Plain name) (device : Path) :
    device.join (.ofString name) = device.child name := by
  rw [h.path]
  rfl

theorem Lookable.child (h : Lookable device) (hname : Plain name) :
    Tree.hasNul (device.child name).toString = false := by
  rw [Path.child_toString device name h.named, Tree.hasNul_append, Tree.hasNul_append, h.clean,
    hname.clean]
  decide +kernel

/-- A text is the first line of its file, if there is one. -/
theorem readText_cases (h : Lookable device) (hname : Plain name) :
    readText files device name = .ok (firstLine files (device.child name)) ∨
      firstLine files (device.child name) = "" ∧
        ∃ e, readText files device name = .error (.access e) := by
  unfold readText firstLine
  simp only [hname.join]
  rcases Tree.read_cases (h.child hname) with ⟨bytes, hread⟩ | ⟨cause, text, hread⟩
  · rw [hread]
    simp only [pure_bind]
    cases Text.firstLine (Utf8.decodeLenient bytes) with
    | nil => exact .inr ⟨rfl, _, rfl⟩
    | cons c line => exact .inl rfl
  · rw [hread]
    exact .inr ⟨rfl, _, rfl⟩

theorem label_eq (h : Lookable device) (hname : Plain name) :
    Collector.label files device name = .ok (firstLine files (device.child name)) := by
  unfold Collector.label
  rcases readText_cases h hname with hread | ⟨hempty, e, hread⟩
  · rw [hread]
    rfl
  · rw [hread, hempty]
    rfl

theorem numberOf_empty : numberOf "" = .zero := by
  decide +kernel

theorem number_eq (h : Lookable device) (hname : Plain name) :
    Collector.number files device name = .ok (numberOf (firstLine files (device.child name))) := by
  unfold Collector.number readNumber
  rcases readText_cases h hname with hread | ⟨hempty, e, hread⟩
  · rw [hread, numberOf]
    by_cases hbare : isBare (firstLine files (device.child name)) = true
    · simp only [hbare, bind, Except.bind, if_true]
      cases Numeral.real (firstLine files (device.child name)) <;> rfl
    · simp only [hbare, bind, Except.bind]
      rfl
  -- a file that gives no text is a failed reading here, and an empty line in the specification
  · rw [hread, hempty, numberOf_empty]
    rfl

theorem assign_of_new {α : Type} {key : String} {assigned : List (String × α)} (value : α)
    (h : key ∉ assigned.map (·.1)) : assign key value assigned = assigned ++ [(key, value)] := by
  induction assigned with
  | nil => rfl
  | cons entry rest ih =>
      simp only [List.map_cons, List.mem_cons, not_or] at h
      rw [assign, if_neg (Ne.symm h.1), ih h.2]
      rfl

/-- Words that are not repeated get their places, counted from the first code. -/
theorem lookup_codesFrom {words : List String} (hwords : words.Nodup) (text : String) (n : Nat)
    (assigned : List (String × Binary64)) (hnew : ∀ w ∈ words, w ∉ assigned.map (·.1)) :
    (codesFrom n assigned words).lookup text = (assigned.lookup text).or
      (if text ∈ words then some (.ofInt ((n + words.idxOf text : Nat) : Int)) else none) := by
  induction words generalizing n assigned with
  | nil => simp [codesFrom]
  | cons w rest ih =>
      obtain ⟨hw, hrest⟩ := List.nodup_cons.mp hwords
      rw [codesFrom, assign_of_new _ (hnew w List.mem_cons_self), ih hrest, List.lookup_append,
        Option.or_assoc]
      · congr 1
        by_cases htext : text = w
        · subst htext
          simp
        · have hother : [(w, Binary64.ofInt n)].lookup text = none := by
            rw [List.lookup_cons, beq_eq_false_iff_ne.mpr htext]
            rfl
          have hidx : (w :: rest).idxOf text = rest.idxOf text + 1 := by
            rw [List.idxOf_cons, beq_eq_false_iff_ne.mpr (Ne.symm htext), cond_false]
          have hplace : n + 1 + rest.idxOf text = n + (rest.idxOf text + 1) := by omega
          simp only [hother, Option.none_or, List.mem_cons, htext, false_or, hidx, hplace]
      · intro v hv hmem
        simp only [List.map_append, List.map_cons, List.map_nil, List.mem_append,
          List.mem_singleton] at hmem
        rcases hmem with hmem | rfl
        · exact hnew v (List.mem_cons_of_mem _ hv) hmem
        · exact hw hv

theorem code_eq_placeOf (k : Category) (text : String) : k.code text = placeOf k text := by
  have hwords : k.words.Nodup := by cases k <;> simp [Category.words]
  have hlookup := lookup_codesFrom hwords text 0 [] (by simp)
  simp only [List.lookup_nil, Option.none_or, Nat.zero_add] at hlookup
  rw [Category.code, codes, hlookup, placeOf]
  split <;> rw [Option.getD]

/-- The attributes, and the files of the labels, have plain names. -/
theorem plain_names : (∀ a ∈ attributes, Plain a.name) ∧
    ∀ name ∈ ["charge_full_design", "model_name", "technology", "type", "serial_number",
      "voltage_min_design"], Plain name := by
  constructor
  · intro a ha
    simp only [attributes, List.mem_cons, List.not_mem_nil, or_false] at ha
    rcases ha with rfl | rfl | rfl | rfl | rfl | rfl | rfl | rfl | rfl | rfl | rfl <;>
      exact ⟨by decide +kernel, by decide +kernel⟩
  · intro name hname
    simp only [List.mem_cons, List.not_mem_nil, or_false] at hname
    rcases hname with rfl | rfl | rfl | rfl | rfl | rfl <;>
      exact ⟨by decide +kernel, by decide +kernel⟩

theorem value_eq (h : Lookable device) {a : Attribute} (ha : a ∈ attributes) :
    Collector.value files device a = .ok (gaugeOf files device a) := by
  have hname := plain_names.1 a ha
  unfold Collector.value gaugeOf
  cases a.category with
  | some k =>
      simp only [label_eq h hname, ← code_eq_placeOf]
      rfl
  | none => exact number_eq h hname

theorem descriptor_eq (h : Lookable device) :
    Collector.descriptor files device = .ok (labelsOf files device) := by
  have hlabel (name : String) (hname : name ∈ ["charge_full_design", "model_name", "technology",
      "type", "serial_number", "voltage_min_design"]) :
      Collector.label files device name = .ok (firstLine files (device.child name)) :=
    label_eq h (plain_names.2 name hname)
  unfold Collector.descriptor
  rw [hlabel "charge_full_design" (by simp), hlabel "model_name" (by simp),
    hlabel "technology" (by simp), hlabel "type" (by simp), hlabel "serial_number" (by simp),
    hlabel "voltage_min_design" (by simp)]
  rfl

theorem mapM_eq_ok {ε α β : Type} {l : List α} {f : α → Except ε β} {g : α → β}
    (h : ∀ a ∈ l, f a = .ok (g a)) : l.mapM f = .ok (l.map g) := by
  induction l with
  | nil => rfl
  | cons a l ih =>
      rw [List.mapM_cons, h a List.mem_cons_self, ih fun b hb => h b (List.mem_cons_of_mem _ hb)]
      rfl

/-- A device at whose path the system can look is read without failure. -/
theorem collectDevice_eq (c : Collector) (h : Lookable device) :
    c.collectDevice files device = .ok (samplesOf c.settings.namespace_ files device) := by
  unfold Collector.collectDevice
  rw [descriptor_eq h]
  refine mapM_eq_ok fun a ha => ?_
  rw [value_eq h ha]
  rfl

end Supply

end SupplyGauge
