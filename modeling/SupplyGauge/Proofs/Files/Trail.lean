import SupplyGauge.Proofs.Supply.Reading

/-! # Where a look-up comes to

Looking a path up asks for one entry after the other, and its trail is the list of the
locations at which it asks. Trees that have the same entries along the trail give the same
answer, whatever else is different. So a change at one place concerns only the paths
whose trails come to that place or below it.
-/

namespace SupplyGauge.Files.Tree

/-- The locations at which following names from a directory asks for an entry, where `jump` goes on
after a link. Names that are too long for an entry count as well. -/
def alongTrail (t : Tree) (jump : Location → List String → List Location) (dir : Location) :
    List String → List Location
  | [] => []
  | name :: rest =>
    if name = "." ∨ name = "" then alongTrail t jump dir rest
    else if name = ".." then alongTrail t jump dir.dropLast rest
    else
      let here := dir ++ [name]
      here :: match t.node? here with
        | some .directory => alongTrail t jump here rest
        | some (.link target) => jump (if isAbsolute target then [] else dir) (steps target ++ rest)
        | _ => []

/-- The locations at which following names and so many links at most asks for an entry. -/
def walkTrail (t : Tree) : Nat → Location → List String → List Location
  | 0 => t.alongTrail fun _ _ => []
  | links + 1 => t.alongTrail (t.walkTrail links)

/-- The locations at which looking a path up asks for an entry, the last one being followed if it is
a link. Paths that are too long count as well. -/
def trail (t : Tree) (path : String) : List Location :=
  t.walkTrail linkLimit (if isAbsolute path then [] else t.home) (steps path)

/-- Whether a path leads to a location or through it: looking the path up asks for the entry there
or for one below. -/
def ComesPast (t : Tree) (path : Path) (l : Location) : Prop :=
  ∃ m ∈ t.trail path.toString, l <+: m

instance (t : Tree) (path : Path) (l : Location) : Decidable (t.ComesPast path l) :=
  inferInstanceAs (Decidable (∃ m ∈ t.trail path.toString, l <+: m))

/-- Two trees that differ at most at a location and below it. -/
structure SameBut (t t' : Tree) (l : Location) : Prop where
  home : t'.home = t.home
  node? : ∀ m, ¬ l <+: m → t'.node? m = t.node? m

variable {t t' : Tree}

/-! ## One name at a time -/

/-- A name that stands for an entry of its own. -/
structure Named (name : String) : Prop where
  ne_empty : name ≠ ""
  ne_dot : name ≠ "."
  ne_dots : name ≠ ".."

theorem name_cases (name : String) : (name = "." ∨ name = "") ∨ name = ".." ∨ Named name := by
  by_cases hstay : name = "." ∨ name = ""
  · exact .inl hstay
  · by_cases hup : name = ".."
    · exact .inr (.inl hup)
    · exact .inr (.inr ⟨fun h => hstay (.inr h), fun h => hstay (.inl h), hup⟩)

section Names

variable {jump : Location → List String → Except Cause Target}
  {later : Location → List String → List Location} {dir : Location} {name : String}
  {rest : List String}

theorem along_stay (h : name = "." ∨ name = "") :
    t.along true jump dir (name :: rest) = t.along true jump dir rest := by
  rw [along, if_pos h]

theorem along_up :
    t.along true jump dir (".." :: rest) = t.along true jump dir.dropLast rest := by
  rw [along, if_neg (by decide), if_pos rfl]

theorem along_named (h : Named name) : t.along true jump dir (name :: rest) =
    if tooLong name then .error .nameTooLong
    else match t.node? (dir ++ [name]) with
      | none =>
        if rest = [] then .ok (.free (dir ++ [name]))
        else if rest.all (· = "") then .ok (.barred .notFound)
        else .error .notFound
      | some .directory => t.along true jump (dir ++ [name]) rest
      | some (.file content) =>
        if rest = [] then .ok (.entry (dir ++ [name]) (.file content))
        else if rest.all (· = "") then .ok (.barred .notDirectory)
        else .error .notDirectory
      | some (.link target) =>
        jump (if isAbsolute target then [] else dir) (steps target ++ rest) := by
  rw [along, if_neg (not_or.mpr ⟨h.ne_dot, h.ne_empty⟩), if_neg h.ne_dots]
  cases rest <;> rfl

theorem alongTrail_stay (h : name = "." ∨ name = "") :
    t.alongTrail later dir (name :: rest) = t.alongTrail later dir rest := by
  rw [alongTrail, if_pos h]

theorem alongTrail_up :
    t.alongTrail later dir (".." :: rest) = t.alongTrail later dir.dropLast rest := by
  rw [alongTrail, if_neg (by decide), if_pos rfl]

theorem alongTrail_named (h : Named name) : t.alongTrail later dir (name :: rest) =
    (dir ++ [name]) :: match t.node? (dir ++ [name]) with
      | some .directory => t.alongTrail later (dir ++ [name]) rest
      | some (.link target) => later (if isAbsolute target then [] else dir) (steps target ++ rest)
      | _ => [] := by
  rw [alongTrail, if_neg (not_or.mpr ⟨h.ne_dot, h.ne_empty⟩), if_neg h.ne_dots]

end Names

/-! ## Trees that agree along a trail -/

theorem along_congr {jump jump' : Location → List String → Except Cause Target}
    {later : Location → List String → List Location}
    (hjump : ∀ dir names, (∀ m ∈ later dir names, t'.node? m = t.node? m) →
      jump' dir names = jump dir names) {names : List String} {dir : Location}
    (h : ∀ m ∈ t.alongTrail later dir names, t'.node? m = t.node? m) :
    t'.along true jump' dir names = t.along true jump dir names := by
  induction names generalizing dir with
  | nil => rfl
  | cons name rest ih =>
      rcases name_cases name with hstay | rfl | hname
      · rw [alongTrail_stay hstay] at h
        rw [along_stay hstay, along_stay hstay, ih h]
      · rw [alongTrail_up] at h
        rw [along_up, along_up, ih h]
      · rw [alongTrail_named hname] at h
        have hhere := h _ List.mem_cons_self
        have hlater := fun m hm => h m (List.mem_cons_of_mem _ hm)
        rw [along_named hname, along_named hname, hhere]
        rcases hnode : t.node? (dir ++ [name]) with _ | ⟨content | _ | target⟩
        · rfl
        · rfl
        · rw [hnode] at hlater
          simp only [ih hlater]
        · rw [hnode] at hlater
          simp only [hjump _ _ hlater]

theorem walk_congr {links : Nat} {dir : Location} {names : List String}
    (h : ∀ m ∈ t.walkTrail links dir names, t'.node? m = t.node? m) :
    t'.walk true links dir names = t.walk true links dir names := by
  induction links generalizing dir names with
  | zero => exact along_congr (fun _ _ _ => rfl) h
  | succ links ih => exact along_congr (fun _ _ => ih) h

/-- A path has the same status in trees that have the same entries along its trail. -/
theorem status_congr {path : String} (hhome : t'.home = t.home)
    (h : ∀ m ∈ t.trail path, t'.node? m = t.node? m) : t'.status path = t.status path := by
  have hwalk : t'.walk true linkLimit (if isAbsolute path then [] else t.home) (steps path) =
      t.walk true linkLimit (if isAbsolute path then [] else t.home) (steps path) := walk_congr h
  unfold status look
  rw [hhome, hwalk]

namespace SameBut

variable {l : Location} {path : Path}

theorem status_eq (h : t.SameBut t' l) (hpast : ¬ t.ComesPast path l) :
    t'.status path.toString = t.status path.toString :=
  status_congr h.home fun m hm => h.node? m fun hbelow => hpast ⟨m, hm, hbelow⟩

theorem isDirectory_eq (h : t.SameBut t' l) (hpast : ¬ t.ComesPast path l) :
    t'.isDirectory path = t.isDirectory path := by
  unfold isDirectory test
  rw [h.status_eq hpast]

theorem read_eq (h : t.SameBut t' l) (hpast : ¬ t.ComesPast path l) :
    t'.read path = t.read path := by
  unfold read
  rw [h.status_eq hpast]

/-- Removing an entry, or putting another one in its place, changes nothing elsewhere. -/
theorem remove (t : Tree) (l : Location) : t.SameBut (t.remove l) l where
  home := rfl
  node? m hm := by
    have hkept : l.isPrefixOf m = false :=
      Bool.eq_false_iff.mpr fun hprefix => hm (List.isPrefixOf_iff_prefix.mp hprefix)
    unfold Tree.node? Tree.remove
    rw [List.find?_filter]
    congr 3
    funext e
    by_cases heq : e.1 = m
    · simp [heq, hkept]
    · simp [heq]

theorem put (t : Tree) (l : Location) (n : Node) : t.SameBut (t.put l n) l where
  home := rfl
  node? m hm := by
    have hother : (l == m) = false :=
      beq_eq_false_iff_ne.mpr fun heq => hm (heq ▸ List.prefix_refl l)
    rw [← (remove t l).node? m hm]
    unfold Tree.node? Tree.remove Tree.put
    simp [List.find?_append, hother]

end SameBut

/-! ## Listings -/

/-- A directory has the names at which there are entries. -/
theorem mem_children {l : Location} {name : String} :
    name ∈ t.children l ↔ (t.node? (l ++ [name])).isSome = true := by
  have hentry (m : Location) :
      (if m ≠ [] ∧ m.dropLast = l then m.getLast? else none) = some name ↔ m = l ++ [name] := by
    constructor
    · intro h
      split at h
      next hm =>
        obtain ⟨dir, hdir⟩ := List.getLast?_eq_some_iff.mp h
        rw [hdir, List.dropLast_concat] at hm
        rw [hdir, hm.2]
      next => contradiction
    · rintro rfl
      simp
  have hne : l ++ [name] ≠ [] := by simp
  rw [children, List.mem_eraseDups, List.mem_filterMap, node?, if_neg hne, Option.isSome_map,
    List.find?_isSome]
  simp only [hentry, beq_iff_eq]

theorem list_of_status {path : Path} {l : Location}
    (h : t.status path.toString = .ok (l, .directory)) : t.list path = .ok (t.children l) := by
  unfold list
  rw [h]

theorem exists_status_of_list {path : Path} {names : List String} (h : t.list path = .ok names) :
    ∃ l, t.status path.toString = .ok (l, .directory) ∧ names = t.children l := by
  unfold list at h
  split at h
  next l hl => exact ⟨l, hl, (Except.ok.inj h).symm⟩
  all_goals contradiction

/-! ## Where a look-up ends -/

section Ends

variable {l : Location} {n : Node} {dir : Location} {names : List String}

/-- How a name that stands for an entry can lead to one: it is a file, and the last name, or a
directory or a link from which the rest leads there. -/
theorem along_named_entry {jump : Location → List String → Except Cause Target} {name : String}
    {rest : List String} (hname : Named name)
    (h : t.along true jump dir (name :: rest) = .ok (.entry l n)) :
    (∃ content, t.node? (dir ++ [name]) = some (.file content) ∧ l = dir ++ [name] ∧
      n = .file content) ∨
    (t.node? (dir ++ [name]) = some .directory ∧
      t.along true jump (dir ++ [name]) rest = .ok (.entry l n)) ∨
    ∃ target, t.node? (dir ++ [name]) = some (.link target) ∧
      jump (if isAbsolute target then [] else dir) (steps target ++ rest) = .ok (.entry l n) := by
  rw [along_named hname] at h
  split at h
  next => contradiction
  rcases hnode : t.node? (dir ++ [name]) with _ | ⟨content | _ | target⟩ <;> rw [hnode] at h <;>
    dsimp only at h
  · split at h
    next => simp at h
    next => split at h <;> simp at h
  · split at h
    next =>
      obtain ⟨rfl, rfl⟩ := Target.entry.inj (Except.ok.inj h)
      exact .inl ⟨content, rfl, rfl, rfl⟩
    next => split at h <;> simp at h
  · exact .inr (.inl ⟨rfl, h⟩)
  · exact .inr (.inr ⟨target, rfl, h⟩)

/-- Names that lead to an entry at a location or below it come past the location, unless nothing but
dots leads there from a directory below. -/
theorem along_ends {below : Location} {jump : Location → List String → Except Cause Target}
    {later : Location → List String → List Location}
    (hjump : ∀ dir names, jump dir names = .ok (.entry l n) →
      (∃ m ∈ later dir names, below <+: m) ∨ below <+: dir)
    (hbelow : below <+: l) (h : t.along true jump dir names = .ok (.entry l n)) :
    (∃ m ∈ t.alongTrail later dir names, below <+: m) ∨
      below <+: dir ∧ ∀ name ∈ names, ¬ Named name := by
  induction names generalizing dir with
  | nil =>
      obtain ⟨rfl, -⟩ := Target.entry.inj (Except.ok.inj h)
      exact .inr ⟨hbelow, fun _ hname => absurd hname List.not_mem_nil⟩
  | cons name rest ih =>
      rcases name_cases name with hstay | rfl | hname
      · rw [along_stay hstay] at h
        rw [alongTrail_stay hstay]
        refine (ih h).imp_right fun ⟨hdir, hrest⟩ => ⟨hdir, List.forall_mem_cons.mpr ⟨?_, hrest⟩⟩
        exact fun hname => hstay.elim hname.ne_dot hname.ne_empty
      · rw [along_up] at h
        rw [alongTrail_up]
        refine (ih h).imp_right fun ⟨hdir, hrest⟩ => ⟨hdir.trans (List.dropLast_prefix dir),
          List.forall_mem_cons.mpr ⟨fun hname => hname.ne_dots rfl, hrest⟩⟩
      · -- here the entry that is asked for is below whatever the directory is below
        have hhere (hdir : below <+: dir ++ [name]) (tail : List Location) :
            ∃ m ∈ (dir ++ [name]) :: tail, below <+: m := ⟨_, List.mem_cons_self, hdir⟩
        have htail (tail : List Location) (h : ∃ m ∈ tail, below <+: m) :
            ∃ m ∈ (dir ++ [name]) :: tail, below <+: m := by
          obtain ⟨m, hm, hbelow⟩ := h
          exact ⟨m, List.mem_cons_of_mem _ hm, hbelow⟩
        rw [alongTrail_named hname]
        refine .inl ?_
        rcases along_named_entry hname h with ⟨content, -, rfl, -⟩ | ⟨hnode, h⟩ | ⟨target, hnode, h⟩
        · exact hhere hbelow _
        · rw [hnode]
          exact (ih h).elim (htail _) fun ⟨hdir, _⟩ => hhere hdir _
        · rw [hnode]
          refine (hjump _ _ h).elim (htail _) fun hdir => hhere ?_ _
          split at hdir
          next => exact hdir.trans List.nil_prefix
          next => exact hdir.trans (List.prefix_append dir [name])

theorem walk_ends {below : Location} {links : Nat} (hbelow : below <+: l)
    (h : t.walk true links dir names = .ok (.entry l n)) :
    (∃ m ∈ t.walkTrail links dir names, below <+: m) ∨
      below <+: dir ∧ ∀ name ∈ names, ¬ Named name := by
  induction links generalizing dir names with
  | zero => exact along_ends (fun _ _ h => by contradiction) hbelow h
  | succ links ih =>
      exact along_ends (fun _ _ h => (ih h).imp_right And.left) hbelow h

/-- Where names lead to a directory, one more name asks for the entry there. -/
theorem along_child {jump : Location → List String → Except Cause Target}
    {later : Location → List String → List Location} {name : String} {more : List String}
    (hname : Named name)
    (hjump : ∀ dir names, jump dir names = .ok (.entry l .directory) →
      l ++ [name] ∈ later dir (names ++ name :: more))
    (h : t.along true jump dir names = .ok (.entry l .directory)) :
    l ++ [name] ∈ t.alongTrail later dir (names ++ name :: more) := by
  induction names generalizing dir with
  | nil =>
      obtain ⟨rfl, -⟩ := Target.entry.inj (Except.ok.inj h)
      rw [List.nil_append, alongTrail_named hname]
      exact List.mem_cons_self
  | cons first rest ih =>
      rw [List.cons_append]
      rcases name_cases first with hstay | rfl | hfirst
      · rw [along_stay hstay] at h
        rw [alongTrail_stay hstay]
        exact ih h
      · rw [along_up] at h
        rw [alongTrail_up]
        exact ih h
      · rw [alongTrail_named hfirst]
        refine List.mem_cons_of_mem _ ?_
        rcases along_named_entry hfirst h with
          ⟨content, -, -, hfile⟩ | ⟨hnode, h⟩ | ⟨target, hnode, h⟩
        · contradiction
        · rw [hnode]
          exact ih h
        · rw [hnode]
          simpa only [List.append_assoc] using hjump _ _ h

theorem walk_child {links : Nat} {name : String} {more : List String} (hname : Named name)
    (h : t.walk true links dir names = .ok (.entry l .directory)) :
    l ++ [name] ∈ t.walkTrail links dir (names ++ name :: more) := by
  induction links generalizing dir names with
  | zero => exact along_child hname (fun _ _ h => by contradiction) h
  | succ links ih => exact along_child hname (fun _ _ => ih) h

end Ends

/-! ## Longer paths -/

theorem alongTrail_subset {later : Location → List String → List Location} {more : List String}
    (hlater : ∀ dir names, later dir names ⊆ later dir (names ++ more)) (names : List String)
    (dir : Location) :
    t.alongTrail later dir names ⊆ t.alongTrail later dir (names ++ more) := by
  induction names generalizing dir with
  | nil => exact List.nil_subset _
  | cons name rest ih =>
      rw [List.cons_append]
      rcases name_cases name with hstay | rfl | hname
      · rw [alongTrail_stay hstay, alongTrail_stay hstay]
        exact ih dir
      · rw [alongTrail_up, alongTrail_up]
        exact ih dir.dropLast
      · rw [alongTrail_named hname, alongTrail_named hname]
        refine List.cons_subset_cons _ ?_
        rcases t.node? (dir ++ [name]) with _ | ⟨content | _ | target⟩
        · exact List.Subset.refl _
        · exact List.Subset.refl _
        · exact ih _
        · simpa only [List.append_assoc] using
            hlater (if isAbsolute target then [] else dir) (steps target ++ rest)

theorem walkTrail_subset (links : Nat) (dir : Location) (names more : List String) :
    t.walkTrail links dir names ⊆ t.walkTrail links dir (names ++ more) := by
  induction links generalizing dir names with
  | zero => exact alongTrail_subset (fun _ _ => List.Subset.refl _) names dir
  | succ links ih => exact alongTrail_subset (fun _ _ => ih _ _) names dir

/-- The names in a text between slashes. -/
def parts (text : String) : List String :=
  ((splitSlashes text.toList).filter (· ≠ [])).map String.ofList

/-- A name that an entry of a directory can have. -/
structure EntryName (name : String) : Prop extends Named name where
  no_slash : '/' ∉ name.toList

instance (name : String) : Decidable (EntryName name) :=
  decidable_of_iff ((name ≠ "" ∧ name ≠ "." ∧ name ≠ "..") ∧ '/' ∉ name.toList)
    ⟨fun h => ⟨⟨h.1.1, h.1.2.1, h.1.2.2⟩, h.2⟩,
      fun h => ⟨⟨h.ne_empty, h.ne_dot, h.ne_dots⟩, h.no_slash⟩⟩

theorem splitSlashes_ne_nil (text : List Char) : splitSlashes text ≠ [] := by
  cases text with
  | nil => simp [splitSlashes]
  | cons c rest =>
      rw [splitSlashes]
      split
      · split <;> simp
      · simp

theorem splitSlashes_slash (rest : List Char) :
    splitSlashes ('/' :: rest) = [] :: splitSlashes rest := by
  obtain ⟨part, parts, hrest⟩ := List.exists_cons_of_ne_nil (splitSlashes_ne_nil rest)
  rw [splitSlashes, hrest]
  rfl

theorem splitSlashes_append (text rest : List Char) :
    splitSlashes (text ++ '/' :: rest) = splitSlashes text ++ splitSlashes rest := by
  induction text with
  | nil => exact splitSlashes_slash rest
  | cons c text ih =>
      obtain ⟨part, parts, htext⟩ := List.exists_cons_of_ne_nil (splitSlashes_ne_nil text)
      rw [List.cons_append, splitSlashes, ih, splitSlashes, htext]
      simp only [List.cons_append]
      split <;> rfl

theorem splitSlashes_of_no_slash {text : List Char} (h : '/' ∉ text) :
    splitSlashes text = [text] := by
  induction text with
  | nil => rfl
  | cons c text ih =>
      rw [List.mem_cons, not_or] at h
      rw [splitSlashes, ih h.2]
      simp [Ne.symm h.1]

theorem parts_append (text name : String) :
    parts (text ++ "/" ++ name) = parts text ++ parts name := by
  have hchars : (text ++ "/" ++ name).toList = text.toList ++ '/' :: name.toList := by simp
  rw [parts, hchars, splitSlashes_append, List.filter_append, List.map_append, parts, parts]

theorem EntryName.parts_eq {name : String} (h : EntryName name) : parts name = [name] := by
  have hne : name.toList ≠ [] := fun hnil => h.ne_empty (String.toList_eq_nil_iff.mp hnil)
  rw [parts, splitSlashes_of_no_slash h.no_slash]
  simp [hne]

/-- The steps of a text are the names between its slashes, and perhaps an empty name. -/
theorem exists_steps (text : String) :
    ∃ more, steps text = parts text ++ more ∧ (more = [] ∨ more = [""]) := by
  unfold steps parts
  split
  next hnone => exact ⟨[], by rw [hnone]; rfl, .inl rfl⟩
  next names _ =>
    refine ⟨_, rfl, ?_⟩
    split
    next => exact .inr rfl
    next => exact .inl rfl

/-- A name after a slash is the last step. -/
theorem steps_append {name : String} (text : String) (h : EntryName name) :
    steps (text ++ "/" ++ name) = parts text ++ [name] := by
  have hchars : (text ++ "/" ++ name).toList.getLast? = name.toList.getLast? := by
    have hne : name.toList ≠ [] := fun hnil => h.ne_empty (String.toList_eq_nil_iff.mp hnil)
    rw [String.toList_append, List.getLast?_append, List.getLast?_eq_some_getLast hne,
      Option.some_or]
  have hlast : name.toList.getLast? ≠ some '/' := fun hlast =>
    h.no_slash (List.mem_of_getLast? hlast)
  have hparts : parts (text ++ "/" ++ name) = parts text ++ [name] := by
    rw [parts_append, h.parts_eq]
  rw [← hparts]
  unfold steps parts
  rw [hchars, if_neg hlast]
  split
  next hnone => rw [hnone]; rfl
  next names _ => exact List.append_nil _

theorem alongTrail_empty {later : Location → List String → List Location}
    (hlater : ∀ dir names, later dir (names ++ [""]) = later dir names) (names : List String)
    (dir : Location) : t.alongTrail later dir (names ++ [""]) = t.alongTrail later dir names := by
  induction names generalizing dir with
  | nil => exact alongTrail_stay (.inr rfl)
  | cons name rest ih =>
      rw [List.cons_append]
      rcases name_cases name with hstay | rfl | hname
      · rw [alongTrail_stay hstay, alongTrail_stay hstay, ih]
      · rw [alongTrail_up, alongTrail_up, ih]
      · rw [alongTrail_named hname, alongTrail_named hname]
        rcases t.node? (dir ++ [name]) with _ | ⟨content | _ | target⟩
        · rfl
        · rfl
        · simp only [ih]
        · simp only [← List.append_assoc, hlater]

/-- A slash at the end asks for no other entries. -/
theorem walkTrail_empty (links : Nat) (dir : Location) (names : List String) :
    t.walkTrail links dir (names ++ [""]) = t.walkTrail links dir names := by
  induction links generalizing dir names with
  | zero => exact alongTrail_empty (fun _ _ => rfl) names dir
  | succ links ih => exact alongTrail_empty (fun _ _ => ih _ _) names dir

/-! ## The trails of paths -/

theorem walk_of_status {path : String} {l : Location} {n : Node} (h : t.status path = .ok (l, n)) :
    t.walk true linkLimit (if isAbsolute path then [] else t.home) (steps path) =
      .ok (.entry l n) := by
  unfold status look at h
  split at h
  next => contradiction
  by_cases hlong : pathLimit < path.utf8ByteSize
  · rw [if_pos hlong] at h
    contradiction
  · rw [if_neg hlong] at h
    split at h
    next hwalk =>
      obtain ⟨rfl, rfl⟩ := Prod.mk.inj (Except.ok.inj h)
      exact hwalk
    all_goals contradiction

section Paths

variable {p : Path} {name : String} {l : Location}

theorem isAbsolute_child (hp : p.names ≠ []) (below : String) :
    isAbsolute ((p.child name).child below).toString = isAbsolute (p.child name).toString := by
  have hne : (p.child name).toString.toList ≠ [] := by
    rw [Path.child_toString p name hp]
    simp
  have hchild : (p.child name).names ≠ [] := by simp [Path.child]
  rw [Path.child_toString _ below hchild, isAbsolute, isAbsolute, String.toList_append,
    String.toList_append, List.append_assoc, List.head?_append, List.head?_eq_some_head hne,
    Option.some_or]

theorem steps_child (hp : p.names ≠ []) (hname : EntryName name) :
    steps (p.child name).toString = parts (p.child name).toString := by
  rw [Path.child_toString p name hp, steps_append _ hname, parts_append, hname.parts_eq]

/-- Looking up what is below an entry follows the names to the entry and one more. -/
theorem trail_child {below : String} (hp : p.names ≠ []) (hbelow : EntryName below) :
    t.trail ((p.child name).child below).toString =
      t.walkTrail linkLimit (if isAbsolute (p.child name).toString then [] else t.home)
        (parts (p.child name).toString ++ [below]) := by
  have hchild : (p.child name).names ≠ [] := by simp [Path.child]
  rw [trail, isAbsolute_child hp, Path.child_toString _ below hchild, steps_append _ hbelow]

/-- Looking up what is below an entry comes past all that looking up the entry does. -/
theorem trail_child_subset (hp : p.names ≠ []) (below : String) :
    t.trail (p.child name).toString ⊆ t.trail ((p.child name).child below).toString := by
  have hchild : (p.child name).names ≠ [] := by simp [Path.child]
  obtain ⟨more, hmore, hempty⟩ := exists_steps (p.child name).toString
  obtain ⟨more', hmore', -⟩ := exists_steps ((p.child name).child below).toString
  rw [Path.child_toString _ below hchild, parts_append, List.append_assoc,
    ← Path.child_toString _ below hchild] at hmore'
  unfold trail
  rw [isAbsolute_child hp, hmore, hmore']
  refine List.Subset.trans ?_ (walkTrail_subset _ _ _ _)
  rcases hempty with rfl | rfl
  · rw [List.append_nil]
    exact List.Subset.refl _
  · rw [walkTrail_empty]
    exact List.Subset.refl _

theorem comesPast_child {l : Location} (hp : p.names ≠ []) (below : String)
    (h : t.ComesPast (p.child name) l) : t.ComesPast ((p.child name).child below) l := by
  obtain ⟨m, hm, hbelow⟩ := h
  exact ⟨m, trail_child_subset hp below hm, hbelow⟩

/-- Looking a path up comes to the entry that it leads to. -/
theorem comesPast_of_status {n : Node} {below : Location} (hp : p.names ≠ [])
    (hname : EntryName name) (h : t.status (p.child name).toString = .ok (l, n))
    (hbelow : below <+: l) : t.ComesPast (p.child name) below := by
  refine (walk_ends hbelow (walk_of_status h)).resolve_right fun ⟨_, hdots⟩ => ?_
  refine hdots name ?_ hname.toNamed
  rw [steps_child hp hname, Path.child_toString p name hp, parts_append, hname.parts_eq]
  exact List.mem_append_right _ List.mem_cons_self

/-- Looking up an entry of a directory comes to the place of the entry. -/
theorem mem_trail_child {below : String} (hp : p.names ≠ []) (hname : EntryName name)
    (hbelow : EntryName below) (h : t.status (p.child name).toString = .ok (l, .directory)) :
    l ++ [below] ∈ t.trail ((p.child name).child below).toString := by
  rw [trail_child hp hbelow, ← steps_child hp hname]
  exact walk_child hbelow.toNamed (walk_of_status h)

end Paths

end SupplyGauge.Files.Tree
