import SupplyGauge.Proofs.Supply.Reading

/-! # What a cycle collects

If the class can be listed and the kind of each of its numbered entries found out, a
cycle has the samples of all retained devices, in the order of their names. Otherwise it
has none. Nothing else makes a cycle fail: no attribute, and no device.
-/

namespace SupplyGauge

namespace Files

theorem nodup_eraseDups {α : Type} [BEq α] [LawfulBEq α] : ∀ l : List α, l.eraseDups.Nodup
  | [] => List.nodup_nil
  | a :: l => by
      have hshorter : (l.filter fun b => !b == a).length < l.length + 1 :=
        Nat.lt_succ_of_le (List.length_filter_le _ _)
      rw [List.eraseDups_cons]
      refine List.nodup_cons.mpr ⟨fun hmem => ?_, nodup_eraseDups _⟩
      simpa using (List.mem_filter.mp (List.mem_eraseDups.mp hmem)).2
termination_by l => l.length

/-- A listing has each name once. -/
theorem Tree.nodup_of_list {t : Tree} {path : Path} {names : List String}
    (h : t.list path = .ok names) : names.Nodup := by
  unfold list at h
  split at h
  · obtain rfl := Except.ok.inj h
    exact nodup_eraseDups _
  all_goals contradiction

theorem Path.name_child (p : Path) (name : String) : (p.child name).name = name := by
  simp [child, Path.name]

end Files

namespace Supply

open Files (Path Tree)
open SupplyGauge.Metric (Sample)

variable {files : Tree}

/-- The entries of a class that can be listed, where the kind of each numbered one can be found
out: it is a directory, or something else, or missing. -/
structure Enumerable (files : Tree) (directory : Path) (names : List String) : Prop where
  listed : files.list directory = .ok names
  tested : ∀ name ∈ names, isNumbered name = true →
    ∃ b, files.isDirectory (directory.child name) = .ok b

/-- An entry of the class that is a device, and is not left out by its path or by its name. -/
structure Collector.Retains (c : Collector) (files : Tree) (names : List String) (name : String) :
    Prop where
  listed : name ∈ names
  numbered : ∃ ch ∈ name.toList, '0' ≤ ch ∧ ch ≤ '9'
  directory : files.isDirectory ((classDirectory c.root).child name) = .ok true
  path_kept : c.excluded ((classDirectory c.root).child name).toString = false
  name_kept : c.excluded name = false

theorem isNumbered_iff {name : String} :
    isNumbered name = true ↔ ∃ ch ∈ name.toList, '0' ≤ ch ∧ ch ≤ '9' := by
  simp [isNumbered]

/-! ## The order of names -/

theorem nameLe_iff {a b : String} : nameLe a b = true ↔ a ≤ b := by
  simp only [nameLe, Bool.not_eq_true', decide_eq_false_iff_not, String.not_lt]

/-- Sorted names without repetition are in strictly increasing order. -/
theorem mergeSort_nameLe_strict {names : List String} (h : names.Nodup) :
    (names.mergeSort nameLe).Pairwise (· < ·) := by
  have hle : (names.mergeSort nameLe).Pairwise (nameLe · · = true) := by
    refine List.pairwise_mergeSort (fun a b c hab hbc => ?_) (fun a b => ?_) names
    · exact nameLe_iff.mpr (String.le_trans (nameLe_iff.mp hab) (nameLe_iff.mp hbc))
    · rw [Bool.or_eq_true, nameLe_iff, nameLe_iff]
      exact String.le_total a b
  have hne : (names.mergeSort nameLe).Pairwise (· ≠ ·) :=
    (List.mergeSort_perm names nameLe).nodup_iff.mpr h
  refine hle.imp₂ (fun a b hab hne => String.not_le.mp fun hba => ?_) hne
  exact hne (String.le_antisymm (nameLe_iff.mp hab) hba)

/-! ## The test of the entries -/

section Tests

variable {ε α : Type} {p : α → Except ε Bool} {l : List α}

theorem filterAuxM_eq_ok {q : α → Bool} (h : ∀ a ∈ l, p a = .ok (q a)) (acc : List α) :
    l.filterAuxM p acc = .ok ((l.filter q).reverse ++ acc) := by
  induction l generalizing acc with
  | nil => rfl
  | cons a l ih =>
      rw [List.filterAuxM, h a List.mem_cons_self]
      change List.filterAuxM p l (bif q a then a :: acc else acc) = _
      rw [ih fun b hb => h b (List.mem_cons_of_mem _ hb)]
      cases hq : q a <;> simp [hq]

/-- Tests that all end pick the elements that pass. -/
theorem filterM_eq_ok {q : α → Bool} (h : ∀ a ∈ l, p a = .ok (q a)) :
    l.filterM p = .ok (l.filter q) := by
  rw [List.filterM, filterAuxM_eq_ok h]
  simp [bind, Except.bind, pure, Except.pure]

theorem filterAuxM_error {a : α} (ha : a ∈ l) {e : ε} (h : p a = .error e) (acc : List α) :
    ∃ f, l.filterAuxM p acc = .error f := by
  induction l generalizing acc with
  | nil => contradiction
  | cons b l ih =>
      rw [List.filterAuxM]
      cases hb : p b with
      | error f => exact ⟨f, rfl⟩
      | ok picked =>
          rcases List.mem_cons.mp ha with rfl | ha
          · rw [h] at hb
            contradiction
          · exact ih ha _

/-- One test that fails makes the whole choice fail. -/
theorem filterM_error {a : α} (ha : a ∈ l) {e : ε} (h : p a = .error e) :
    ∃ f, l.filterM p = .error f := by
  obtain ⟨f, hf⟩ := filterAuxM_error ha h []
  rw [List.filterM, hf]
  exact ⟨f, rfl⟩

end Tests

/-- Whether a path is known to lead to a directory. -/
def leadsToDirectory (files : Tree) (path : Path) : Bool :=
  (files.isDirectory path).toOption.getD false

theorem leadsToDirectory_iff {path : Path} :
    leadsToDirectory files path = true ↔ files.isDirectory path = .ok true := by
  unfold leadsToDirectory
  cases files.isDirectory path with
  | error f => simp [Except.toOption]
  | ok b => simp [Except.toOption]

/-- The numbered entries of a class in the order of their names. -/
def numberedEntries (directory : Path) (names : List String) : List Path :=
  ((names.mergeSort nameLe).filter isNumbered).map directory.child

theorem mem_numberedEntries {directory device : Path} {names : List String} :
    device ∈ numberedEntries directory names ↔
      ∃ name ∈ names, isNumbered name = true ∧ directory.child name = device := by
  simp [numberedEntries, and_assoc]

/-- The devices of an enumerable class are its numbered directories in the order of their names. -/
theorem devices_eq {root : Path} {names : List String}
    (h : Enumerable files (classDirectory root) names) :
    devices files root = .ok ((numberedEntries (classDirectory root) names).filter
      (leadsToDirectory files)) := by
  unfold devices
  simp only [h.listed, pure_bind]
  refine filterM_eq_ok fun device hdevice => ?_
  obtain ⟨name, hname, hnumbered, rfl⟩ := mem_numberedEntries.mp hdevice
  obtain ⟨b, hb⟩ := h.tested name hname hnumbered
  rw [leadsToDirectory, hb]
  rfl

/-- The devices of a class that is not enumerable are not found. -/
theorem devices_error {root : Path}
    (h : ¬ ∃ names, Enumerable files (classDirectory root) names) :
    ∃ f, devices files root = .error f := by
  unfold devices
  cases hlist : files.list (classDirectory root) with
  | error f =>
      cases f with
      | embeddedNul => exact ⟨.system .embeddedNul, by simp only [hlist]; rfl⟩
      | system cause path =>
          exact ⟨.access (.unlisted _ (.system cause path)), by simp only [hlist]; rfl⟩
  | ok names =>
      -- the listing is there, so it is the test of some numbered entry that fails
      have htest : ∃ name ∈ names, isNumbered name = true ∧
          ∃ f, files.isDirectory ((classDirectory root).child name) = .error f := by
        apply Classical.byContradiction
        intro hnone
        refine h ⟨names, hlist, fun name hname hnumbered => ?_⟩
        cases hdir : files.isDirectory ((classDirectory root).child name) with
        | ok b => exact ⟨b, rfl⟩
        | error f => exact absurd ⟨name, hname, hnumbered, f, hdir⟩ hnone
      obtain ⟨name, hname, hnumbered, f, hf⟩ := htest
      have hmem : (classDirectory root).child name ∈ numberedEntries (classDirectory root) names :=
        mem_numberedEntries.mpr ⟨name, hname, hnumbered, rfl⟩
      simp only [hlist, pure_bind]
      refine filterM_error hmem (e := Fault.system f) ?_
      rw [hf]
      rfl

/-! ## The devices -/

/-- A directory of the class is a place at which the system can look. -/
theorem lookable_of_isDirectory {root : Path} {name : String}
    (h : files.isDirectory ((classDirectory root).child name) = .ok true) :
    Lookable ((classDirectory root).child name) where
  named := by simp [Path.child]
  clean := Tree.hasNul_of_isDirectory h

/-- Devices at which the system can look are read to the last one, but for those left out. -/
theorem collectDevices_eq (c : Collector) (files : Tree) {found : List Path}
    (h : ∀ device ∈ found, Lookable device) :
    (c.collectDevices files found).2 = .ok ((found.filter (!Collector.ignores c.excluded ·)).flatMap
      (samplesOf c.settings.namespace_ files)) := by
  induction found with
  | nil => rfl
  | cons device rest ih =>
      have hrest := ih fun d hd => h d (List.mem_cons_of_mem _ hd)
      unfold Collector.collectDevices
      cases hignored : Collector.ignores c.excluded device with
      | true => simpa [hignored] using hrest
      | false =>
          rw [collectDevice_eq c (h device List.mem_cons_self)]
          simp [hignored, hrest, Except.map]

/-- The names of the devices that a cycle reads. -/
def Collector.retained (c : Collector) (files : Tree) (names : List String) : List String :=
  (names.mergeSort nameLe).filter fun name =>
    !ignores c.excluded ((classDirectory c.root).child name) &&
      (leadsToDirectory files ((classDirectory c.root).child name) && isNumbered name)

theorem Collector.mem_retained (c : Collector) {names : List String} {name : String} :
    name ∈ c.retained files names ↔ c.Retains files names name := by
  unfold retained
  rw [List.mem_filter, List.mem_mergeSort, Bool.and_eq_true, Bool.and_eq_true,
    leadsToDirectory_iff, ignores, Path.name_child]
  constructor
  · rintro ⟨hlisted, hkept, hdirectory, hnumbered⟩
    simp only [Bool.not_eq_true', Bool.or_eq_false_iff] at hkept
    exact ⟨hlisted, isNumbered_iff.mp hnumbered, hdirectory, hkept.1, hkept.2⟩
  · rintro ⟨hlisted, hnumbered, hdirectory, hpath, hname⟩
    exact ⟨hlisted, by simp [hpath, hname], hdirectory, isNumbered_iff.mpr hnumbered⟩

theorem Collector.collect_of_devices (c : Collector) {found : List Path}
    (h : devices files c.root = .ok found) :
    (c.collect files).2 = (c.collectDevices files found).2.map (⟨·, none⟩) := by
  unfold collect
  simp only [h]
  rcases c.collectDevices files found with ⟨log, _ | _⟩ <;> rfl

theorem Collector.safeCollect_of_collect (c : Collector) {result : Result}
    (h : (c.collect files).2 = .ok result) : (c.safeCollect files).2 = result := by
  unfold safeCollect
  split
  next log r hr => simpa [hr] using h
  next log f hf => simp [hf] at h

/-- An enumerable class is collected as a whole: the samples of its retained devices. -/
theorem Collector.collect_eq (c : Collector) {names : List String}
    (h : Enumerable files (classDirectory c.root) names) :
    (c.collect files).2 = .ok ⟨(c.retained files names).flatMap fun name =>
      samplesOf c.settings.namespace_ files ((classDirectory c.root).child name), none⟩ := by
  have hlookable : ∀ device ∈ (numberedEntries (classDirectory c.root) names).filter
      (leadsToDirectory files), Lookable device := by
    intro device hdevice
    obtain ⟨hentry, hleads⟩ := List.mem_filter.mp hdevice
    obtain ⟨name, -, -, rfl⟩ := mem_numberedEntries.mp hentry
    exact lookable_of_isDirectory (leadsToDirectory_iff.mp hleads)
  rw [c.collect_of_devices (devices_eq h), collectDevices_eq c files hlookable]
  simp only [numberedEntries, List.filter_map, List.filter_filter, List.flatMap_map, retained,
    Function.comp_def, Except.map]

theorem Collector.safeCollect_eq (c : Collector) {names : List String}
    (h : Enumerable files (classDirectory c.root) names) :
    (c.safeCollect files).2 = ⟨(c.retained files names).flatMap fun name =>
      samplesOf c.settings.namespace_ files ((classDirectory c.root).child name), none⟩ :=
  c.safeCollect_of_collect (c.collect_eq h)

theorem Collector.retained_ascending (c : Collector) {names : List String}
    (h : files.list (classDirectory c.root) = .ok names) :
    (c.retained files names).Pairwise (· < ·) :=
  (mergeSort_nameLe_strict (Tree.nodup_of_list h)).filter _

/-- A cycle that succeeds has found an enumerable class. -/
theorem Collector.enumerable_of_collect (c : Collector) {r : Result}
    (h : (c.collect files).2 = .ok r) :
    ∃ names, Enumerable files (classDirectory c.root) names := by
  apply Classical.byContradiction
  intro hnone
  obtain ⟨f, hf⟩ := devices_error hnone
  rw [collect, hf] at h
  contradiction

/-- A class that is not enumerable gives a failed cycle without samples. -/
theorem Collector.safeCollect_failed (c : Collector)
    (h : ¬ ∃ names, Enumerable files (classDirectory c.root) names) :
    ∃ message, (c.safeCollect files).2 = ⟨[], some message⟩ := by
  obtain ⟨f, hf⟩ := devices_error h
  refine ⟨f.message, ?_⟩
  unfold safeCollect collect
  rw [hf]
  rfl

/-- A cycle is complete or empty. If the class is enumerable, in whatever order, the cycle has
eleven samples of each retained device, by the order of the names and of the attributes, and no
error. Otherwise it has an error and no samples. -/
theorem Collector.safeCollect_complete (c : Collector) (files : Tree) :
    (∀ names, Enumerable files (classDirectory c.root) names →
      ∃ retained : List String, retained.Pairwise (· < ·) ∧
        (∀ name, name ∈ retained ↔ c.Retains files names name) ∧
        (c.safeCollect files).2 = ⟨retained.flatMap fun name =>
          samplesOf c.settings.namespace_ files ((classDirectory c.root).child name), none⟩ ∧
        (c.safeCollect files).2.samples.length = retained.length * 11) ∧
    ((¬ ∃ names, Enumerable files (classDirectory c.root) names) →
      ∃ message, (c.safeCollect files).2 = ⟨[], some message⟩) := by
  refine ⟨fun names h => ?_, c.safeCollect_failed⟩
  refine ⟨c.retained files names, ?_, fun name => c.mem_retained, c.safeCollect_eq h, ?_⟩
  · exact (mergeSort_nameLe_strict (Tree.nodup_of_list h.listed)).filter _
  · rw [c.safeCollect_eq h]
    simp [List.length_flatMap, length_samplesOf, List.map_const']

/-- Two batteries, the first one behind a link, and a third one that is left out, with a mains
adapter and a plain file beside them. -/
def shelf : Tree where
  nodes := [
    (["s"], .directory),
    (["s", "class"], .directory),
    (["s", "class", "power_supply"], .directory),
    (["s", "class", "power_supply", "BAT2"], .directory),
    (["s", "class", "power_supply", "BAT1"], .directory),
    (["s", "class", "power_supply", "BAT1", "status"], .file [70, 117, 108, 108, 10]),
    (["s", "class", "power_supply", "AC"], .directory),
    (["s", "class", "power_supply", "BAT0"], .link "../../devices/main"),
    (["s", "class", "power_supply", "BAT9"], .link "../nowhere"),
    (["s", "class", "power_supply", "note1"], .file []),
    (["s", "devices"], .directory),
    (["s", "devices", "main"], .directory),
    (["s", "devices", "main", "charge_now"], .file [52, 50, 10]),
    (["s", "devices", "main", "model_name"], .directory)]
  home := []

/-- A collector that leaves out the third battery. -/
def shelfCollector : Collector where
  settings := { sysfs := "/s" }
  excluded := (· == "BAT2")

theorem eq_ok_of_toOption {ε α : Type} {x : Except ε α} {a : α} (h : x.toOption = some a) :
    x = .ok a := by
  cases x with
  | error e => contradiction
  | ok b => exact congrArg Except.ok (Option.some.inj h)

theorem shelf_enumerable : Enumerable shelf (classDirectory shelfCollector.root)
    ["BAT2", "BAT1", "AC", "BAT0", "BAT9", "note1"] where
  listed := eq_ok_of_toOption (by decide +kernel)
  tested name hname _ := by
    have htested : ∀ entry ∈ ["BAT2", "BAT1", "AC", "BAT0", "BAT9", "note1"],
        (shelf.isDirectory
          ((classDirectory shelfCollector.root).child entry)).toOption.isSome = true := by
      decide +kernel
    obtain ⟨b, hb⟩ := Option.isSome_iff_exists.mp (htested name hname)
    exact ⟨b, eq_ok_of_toOption hb⟩

/-- The first two batteries are retained, and a tree without a class gives a failed cycle. -/
theorem safeCollect_complete_shelf :
    (∃ retained : List String, retained.Pairwise (· < ·) ∧
      (∀ name, name ∈ retained ↔ name = "BAT0" ∨ name = "BAT1") ∧
      (shelfCollector.safeCollect shelf).2.available = true ∧
      (shelfCollector.safeCollect shelf).2.samples.length = retained.length * 11) ∧
    ∃ message, (shelfCollector.safeCollect ⟨[], []⟩).2 = ⟨[], some message⟩ := by
  constructor
  · obtain ⟨retained, hsorted, hretained, hresult, hlength⟩ :=
      (shelfCollector.safeCollect_complete shelf).1 _ shelf_enumerable
    refine ⟨retained, hsorted, fun name => (hretained name).trans ⟨?_, ?_⟩, ?_, hlength⟩
    · rintro ⟨hlisted, hnumbered, hdirectory, -, hkept⟩
      simp only [List.mem_cons, List.not_mem_nil, or_false] at hlisted
      rcases hlisted with rfl | rfl | rfl | rfl | rfl | rfl
      · exact absurd hkept (by decide +kernel)
      · exact .inr rfl
      · exact absurd (isNumbered_iff.mpr hnumbered) (by decide +kernel)
      · exact .inl rfl
      · exact absurd (congrArg Except.toOption hdirectory) (by decide +kernel)
      · exact absurd (congrArg Except.toOption hdirectory) (by decide +kernel)
    · rintro (rfl | rfl)
      · exact ⟨by decide +kernel, isNumbered_iff.mp (by decide +kernel),
          eq_ok_of_toOption (by decide +kernel), by decide +kernel, by decide +kernel⟩
      · exact ⟨by decide +kernel, isNumbered_iff.mp (by decide +kernel),
          eq_ok_of_toOption (by decide +kernel), by decide +kernel, by decide +kernel⟩
    · rw [hresult]
      rfl
  · refine (shelfCollector.safeCollect_complete ⟨[], []⟩).2 ?_
    rintro ⟨names, hlisted, -⟩
    have hmissing : (Tree.list ⟨[], []⟩ (classDirectory shelfCollector.root)).toOption = none := by
      decide +kernel
    rw [hlisted] at hmissing
    contradiction

end Supply

end SupplyGauge
