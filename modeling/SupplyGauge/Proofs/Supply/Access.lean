import SupplyGauge.Proofs.Files.Overlong
import SupplyGauge.Proofs.Supply.Collection

/-! # How accesses fail

Listing devices, reading an attribute and reading a number fail with errors of their own,
which name the path they are about. Two failures of the system are passed on as they are:
a path with a NUL character, and a numbered entry of the class that is overlong. The
second one makes a whole cycle fail, though the class has been listed; no other entry does.
-/

namespace SupplyGauge.Supply

open Files (Path Tree)

/-- What an access was to do when it failed. -/
inductive AccessKind where
  | listing
  | reading
  | parsing
  deriving DecidableEq, Repr

def AccessError.kind : AccessError → AccessKind
  | .unlisted _ _ => .listing
  | .unreadable _ _ | .empty _ => .reading
  | .malformed _ _ => .parsing

/-- Whether an access gives a result, or an error of one of some kinds about a path. -/
def Typed {α : Type} (kinds : List AccessKind) (path : Path) (access : Except Fault α) : Prop :=
  (∃ a, access = .ok a) ∨ ∃ e, access = .error (.access e) ∧ e.kind ∈ kinds ∧ e.path = path

section Kinds

variable {α : Type} {kinds : List AccessKind} {path : Path} {access : Except Fault α}

theorem typed_ok (a : α) : Typed kinds path (.ok a : Except Fault α) := .inl ⟨a, rfl⟩

theorem typed_error {e : AccessError} (hkind : e.kind ∈ kinds) (hpath : e.path = path) :
    Typed kinds path (.error (.access e) : Except Fault α) := .inr ⟨e, rfl, hkind, hpath⟩

/-- An access that the system fails is not typed, and is no result where errors are results. -/
theorem not_typed_of_system {f : Files.Failure} (h : access = .error (.system f)) :
    (∀ kinds path, ¬ Typed kinds path access) ∧ ¬ ∃ r, attempt access = .ok r := by
  simp [h, Typed, attempt]

/-- A typed access always ends where errors are results. -/
theorem Typed.attempt_ok (h : Typed kinds path access) : ∃ r, attempt access = .ok r := by
  rcases h with ⟨a, rfl⟩ | ⟨e, rfl, -, -⟩
  · exact ⟨.ok a, rfl⟩
  · exact ⟨.error e, rfl⟩

end Kinds

variable {files : Tree}

/-! ## Attributes -/

section Attributes

variable {device : Path} {name : String}

theorem readText_of_nul (h : Tree.hasNul (device.join (.ofString name)).toString = true) :
    readText files device name = .error (.system .embeddedNul) := by
  unfold readText
  simp only [Tree.read_nul_iff.mpr h]
  rfl

theorem typed_readText (h : Tree.hasNul (device.join (.ofString name)).toString = false) :
    Typed [.reading] (device.join (.ofString name)) (readText files device name) := by
  unfold readText
  rcases files.read_cases h with ⟨bytes, hread⟩ | ⟨cause, text, hread⟩
  · simp only [hread, pure_bind]
    split
    next => exact typed_error (List.mem_singleton.mpr rfl) rfl
    next => exact typed_ok _
  · simp only [hread]
    exact typed_error (List.mem_singleton.mpr rfl) rfl

/-- A number is read as far as its text is. -/
theorem typed_readNumber {path : Path} (hpath : device.join (.ofString name) = path)
    (h : Typed [.reading] path (readText files device name)) :
    Typed [.reading, .parsing] path (readNumber files device name) := by
  unfold readNumber
  rw [hpath]
  rcases h with ⟨text, hread⟩ | ⟨e, hread, hkind, he⟩
  · rw [hread]
    by_cases hbare : isBare text = true
    · simp only [bind, Except.bind, if_pos hbare]
      cases Numeral.real text with
      | ok x => exact typed_ok x
      | error _ => exact typed_error (by simp [AccessError.kind]) rfl
    · simp only [bind, Except.bind, if_neg hbare]
      exact typed_error (by simp [AccessError.kind]) rfl
  · rw [hread]
    exact typed_error (List.mem_cons.mpr (.inl (List.mem_singleton.mp hkind))) he

theorem readNumber_of_nul (h : readText files device name = .error (.system .embeddedNul)) :
    readNumber files device name = .error (.system .embeddedNul) := by
  unfold readNumber
  rw [h]
  rfl

/-- Attributes and numbers are read without a failure of the system, as they are or with errors as
results, exactly at paths without a NUL character. -/
theorem typed_readings_iff (files : Tree) (device : Path) (name : String) :
    let path := device.join (.ofString name)
    (Typed [.reading] path (readText files device name) ↔ Tree.hasNul path.toString = false) ∧
      (Typed [.reading, .parsing] path (readNumber files device name) ↔
        Tree.hasNul path.toString = false) ∧
      ((∃ r, attempt (readText files device name) = .ok r) ↔
        Tree.hasNul path.toString = false) ∧
      ((∃ r, attempt (readNumber files device name) = .ok r) ↔
        Tree.hasNul path.toString = false) := by
  intro path
  cases hnul : Tree.hasNul path.toString with
  | false =>
      have htext : Typed [.reading] path (readText files device name) := typed_readText hnul
      have hnumber := typed_readNumber rfl htext
      exact ⟨iff_of_true htext rfl, iff_of_true hnumber rfl, iff_of_true htext.attempt_ok rfl,
        iff_of_true hnumber.attempt_ok rfl⟩
  | true =>
      have hread : readText files device name = .error (.system .embeddedNul) :=
        readText_of_nul hnul
      obtain ⟨htext, htext'⟩ := not_typed_of_system hread
      obtain ⟨hnumber, hnumber'⟩ := not_typed_of_system (readNumber_of_nul hread)
      exact ⟨iff_of_false (htext _ _) (by simp), iff_of_false (hnumber _ _) (by simp),
        iff_of_false htext' (by simp), iff_of_false hnumber' (by simp)⟩

end Attributes

/-! ## Devices -/

section Choices

variable {ε α : Type} {p : α → Except ε Bool} {l : List α}

theorem filterAuxM_eq_error {e : ε} {acc : List α} (h : l.filterAuxM p acc = .error e) :
    ∃ a ∈ l, p a = .error e := by
  induction l generalizing acc with
  | nil => contradiction
  | cons a l ih =>
      rw [List.filterAuxM] at h
      cases ha : p a with
      | error f =>
          rw [ha] at h
          obtain rfl := Except.error.inj h
          exact ⟨a, List.mem_cons_self, ha⟩
      | ok picked =>
          rw [ha] at h
          obtain ⟨b, hb, hp⟩ := ih h
          exact ⟨b, List.mem_cons_of_mem _ hb, hp⟩

/-- A choice that fails does so with the failure of a test. -/
theorem filterM_eq_error {e : ε} (h : l.filterM p = .error e) : ∃ a ∈ l, p a = .error e := by
  rw [List.filterM] at h
  cases hall : l.filterAuxM p [] with
  | error f =>
      rw [hall] at h
      obtain rfl := Except.error.inj h
      exact filterAuxM_eq_error hall
  | ok picked =>
      rw [hall] at h
      contradiction

end Choices

/-- A directory that is listed with a numbered entry that is overlong. -/
def HasOverlongEntry (files : Tree) (directory : Path) : Prop :=
  ∃ names, files.list directory = .ok names ∧ ∃ name ∈ names, isNumbered name = true ∧
    files.Overlong (directory.child name).toString

/-- What the kind of an entry is can be told unless the entry is overlong. -/
theorem tested_iff {path : Path} :
    (∃ b, files.isDirectory path = .ok b) ↔ ¬ files.Overlong path.toString := by
  cases hpath : files.isDirectory path with
  | error f =>
      have hlong := (Tree.isDirectory_error_iff.mp hpath).2
      exact iff_of_false (by simp) (not_not_intro hlong)
  | ok b =>
      refine iff_of_true ⟨b, rfl⟩ fun hlong => ?_
      rw [Tree.isDirectory_error_iff.mpr ⟨rfl, hlong⟩] at hpath
      contradiction

/-- A class is enumerable if it is listed without an overlong entry. -/
theorem exists_enumerable_iff {directory : Path} :
    (∃ names, Enumerable files directory names) ↔
      (∃ names, files.list directory = .ok names) ∧ ¬ HasOverlongEntry files directory := by
  constructor
  · rintro ⟨names, hlisted, htested⟩
    refine ⟨⟨names, hlisted⟩, fun ⟨names', hlisted', name, hname, hnumbered, hlong⟩ => ?_⟩
    obtain rfl := Except.ok.inj (hlisted.symm.trans hlisted')
    exact tested_iff.mp (htested name hname hnumbered) hlong
  · rintro ⟨⟨names, hlisted⟩, hshort⟩
    refine ⟨names, hlisted, fun name hname hnumbered => tested_iff.mpr fun hlong => ?_⟩
    exact hshort ⟨names, hlisted, name, hname, hnumbered, hlong⟩

/-- What listing devices comes to: they are found, or the class is refused by the system, or has a
NUL character in its path, or an overlong entry. -/
theorem devices_outcomes (files : Tree) (root : Path) :
    let directory := classDirectory root
    (∃ found names, devices files root = .ok found ∧ files.list directory = .ok names ∧
      ¬ HasOverlongEntry files directory) ∨
    (∃ cause text,
      devices files root = .error (.access (.unlisted directory (.system cause text))) ∧
        files.list directory = .error (.system cause text)) ∨
    ∃ f, devices files root = .error (.system f) ∧
      (Tree.hasNul directory.toString = true ∨ HasOverlongEntry files directory) := by
  intro directory
  by_cases henumerable : ∃ names, Enumerable files directory names
  · obtain ⟨⟨names, hlisted⟩, hshort⟩ := exists_enumerable_iff.mp henumerable
    obtain ⟨names', henumerable⟩ := henumerable
    exact .inl ⟨_, names, devices_eq henumerable, hlisted, hshort⟩
  · unfold devices
    cases hlist : files.list (classDirectory root) with
    | error f =>
        cases f with
        | embeddedNul =>
            exact .inr (.inr ⟨_, by simp only [hlist]; rfl, .inl (Tree.list_nul_iff.mp hlist)⟩)
        | system cause text =>
            exact .inr (.inl ⟨cause, text, by simp only [hlist]; rfl, rfl⟩)
    | ok names =>
        have hlong : HasOverlongEntry files directory := Classical.byContradiction fun hshort =>
          henumerable (exists_enumerable_iff.mpr ⟨⟨names, hlist⟩, hshort⟩)
        obtain ⟨fault, hfault⟩ := devices_error henumerable
        unfold devices at hfault
        simp only [hlist, pure_bind] at hfault ⊢
        -- the failure is that of a test, and tests fail as the system does
        obtain ⟨device, -, htest⟩ := filterM_eq_error hfault
        refine .inr (.inr ?_)
        rw [hfault]
        cases hdirectory : files.isDirectory device with
        | ok b =>
            rw [hdirectory] at htest
            contradiction
        | error f =>
            rw [hdirectory] at htest
            obtain rfl := Except.error.inj htest
            exact ⟨f, rfl, .inr hlong⟩

/-- Listing devices is typed unless the class has a NUL character in its path or an overlong entry,
and an error of its own tells that the system refuses to list the class. -/
theorem typed_devices_iff (files : Tree) (root : Path) :
    let directory := classDirectory root
    (Typed [.listing] directory (devices files root) ↔
      Tree.hasNul directory.toString = false ∧ ¬ HasOverlongEntry files directory) ∧
    ((∃ e, devices files root = .error (.access e)) ↔
      ∃ cause text, files.list directory = .error (.system cause text)) := by
  intro directory
  have hclean (h : files.list directory ≠ .error .embeddedNul) :
      Tree.hasNul directory.toString = false :=
    Bool.eq_false_iff.mpr fun hnul => h (Tree.list_nul_iff.mpr hnul)
  rcases devices_outcomes files root with ⟨found, names, hfound, hlist, hshort⟩ |
    ⟨cause, text, herror, hlist⟩ | ⟨f, hsystem, hfault⟩
  · rw [hfound]
    exact ⟨iff_of_true (typed_ok found) ⟨hclean (by simp [directory, hlist]), hshort⟩,
      iff_of_false (by simp) (by simp [directory, hlist])⟩
  · rw [herror]
    have hshort : ¬ HasOverlongEntry files directory := by
      rintro ⟨names, hlisted, -⟩
      rw [hlist] at hlisted
      contradiction
    exact ⟨iff_of_true (typed_error (List.mem_singleton.mpr rfl) rfl)
      ⟨hclean (by simp [directory, hlist]), hshort⟩, iff_of_true ⟨_, rfl⟩ ⟨cause, text, hlist⟩⟩
  · rw [hsystem]
    refine ⟨iff_of_false ((not_typed_of_system rfl).1 _ _) ?_, iff_of_false (by simp) ?_⟩
    · rintro ⟨hnul, hshort⟩
      exact hfault.elim (Bool.eq_false_iff.mp hnul) hshort
    · rintro ⟨cause, text, hlist⟩
      rcases hfault with hnul | ⟨names, hlisted, -⟩
      · rw [Tree.list_nul_iff.mpr hnul] at hlist
        cases hlist
      · rw [hlist] at hlisted
        contradiction

/-- A cycle succeeds exactly if the class is listed without an overlong entry. -/
theorem Collector.available_iff (c : Collector) (files : Tree) :
    (c.safeCollect files).2.available = true ↔
      (∃ names, files.list (classDirectory c.root) = .ok names) ∧
        ¬ HasOverlongEntry files (classDirectory c.root) := by
  rw [← exists_enumerable_iff]
  constructor
  · intro havailable
    apply Classical.byContradiction
    intro hnone
    obtain ⟨message, hfailed⟩ := c.safeCollect_failed hnone
    rw [hfailed] at havailable
    contradiction
  · rintro ⟨names, henumerable⟩
    rw [c.safeCollect_eq henumerable]
    rfl

/-- Which accesses fail otherwise than with an error of their own. Reading an attribute or a number
does so exactly at a path with a NUL character, also where errors are results. Listing devices does
so exactly if the path of the class has one, or if the class is listed with a numbered entry that is
overlong. It fails with its own error exactly if the system refuses to list the class. So the
entries of a class that is listed make no cycle fail, whatever they are and wherever they lead,
unless a numbered one is overlong, and one that is does. -/
theorem access_typed_iff (files : Tree) (root device : Path) (name : String) :
    let directory := classDirectory root
    let path := device.join (.ofString name)
    (Typed [.listing] directory (devices files root) ↔
      Tree.hasNul directory.toString = false ∧ ¬ HasOverlongEntry files directory) ∧
    ((∃ e, devices files root = .error (.access e)) ↔
      ∃ cause text, files.list directory = .error (.system cause text)) ∧
    (Typed [.reading] path (readText files device name) ↔ Tree.hasNul path.toString = false) ∧
    (Typed [.reading, .parsing] path (readNumber files device name) ↔
      Tree.hasNul path.toString = false) ∧
    ((∃ r, attempt (readText files device name) = .ok r) ↔ Tree.hasNul path.toString = false) ∧
    ((∃ r, attempt (readNumber files device name) = .ok r) ↔
      Tree.hasNul path.toString = false) ∧
    ∀ c : Collector, (c.safeCollect files).2.available = true ↔
      (∃ names, files.list (classDirectory c.root) = .ok names) ∧
        ¬ HasOverlongEntry files (classDirectory c.root) := by
  intro directory path
  obtain ⟨hdevices, herror⟩ := typed_devices_iff files root
  obtain ⟨htext, hnumber, htext', hnumber'⟩ := typed_readings_iff files device name
  exact ⟨hdevices, herror, htext, hnumber, htext', hnumber', fun c => c.available_iff files⟩

end SupplyGauge.Supply
