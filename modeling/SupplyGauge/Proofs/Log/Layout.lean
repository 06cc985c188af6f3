import SupplyGauge.Config.Settings
import SupplyGauge.Log.Template

/-! # The default layout of log lines

A text is a template if the pattern of fields is found in it. The default layout begins
with a field, so the pattern is found at its first character: there its parts reach each
other one by one. Parts that may be left out need not be looked at, since matching comes
to what follows them in any case.
-/

namespace SupplyGauge.Pattern

/-! ## Sets without regard to letter case -/

namespace Marked

variable {m m' : Marked} {code : Nat}

/-- Marks are added, and none is taken away. -/
structure Grows (m m' : Marked) : Prop where
  size : m'.size = m.size
  keeps : ∀ code : Nat, m[code]? = some true → m'[code]? = some true

theorem Grows.refl (m : Marked) : Grows m m := ⟨rfl, fun _ => id⟩

theorem Grows.trans {m'' : Marked} (h : Grows m m') (h' : Grows m' m'') : Grows m m'' :=
  ⟨h'.size.trans h.size, fun code hm => h'.keeps code (h.keeps code hm)⟩

theorem grows_foldl {α : Type} {mark : Marked → α → Marked} (hmark : ∀ m a, Grows m (mark m a))
    (l : List α) (m : Marked) : Grows m (l.foldl mark m) := by
  induction l generalizing m with
  | nil => exact .refl m
  | cons a l ih => exact (hmark m a).trans (ih _)

theorem add_grows (m : Marked) (codes : List Nat) : Grows m (m.add codes) := by
  refine grows_foldl (fun m n => ⟨Array.size_setIfInBounds .., fun code hm => ?_⟩) codes m
  rw [Array.getElem?_setIfInBounds]
  split
  next hn =>
    obtain ⟨hsize, -⟩ := Array.getElem?_eq_some_iff.mp hm
    rw [if_pos (hn ▸ hsize)]
  next => exact hm

theorem addItem_grows (fold : Fold) (m : Marked) (item : SetItem) :
    Grows m (m.addItem fold item) := by
  cases item with
  | literal n =>
      dsimp only [addItem]
      split
      · exact add_grows _ _
      · exact .refl m
  | range low high => exact grows_foldl (fun m n => add_grows m _) _ m
  | category => exact .refl m

/-- The lowered letter of every character of a set is marked. -/
theorem foldl_addItem_literal {fold : Fold} {items : List SetItem} (hitem : .literal code ∈ items)
    (hsize : m.size = foldLimit) (hcode : fold.apply code < foldLimit) :
    (items.foldl (addItem fold) m)[fold.apply code]? = some true := by
  induction items generalizing m with
  | nil => contradiction
  | cons item items ih =>
      rcases List.mem_cons.mp hitem with rfl | hitem
      · refine (grows_foldl (addItem_grows fold) items _).keeps _ ?_
        dsimp only [addItem]
        rw [if_pos hcode]
        refine (add_grows _ (fold.twins (fold.apply code))).keeps _ ?_
        exact Array.getElem?_setIfInBounds_self_of_lt (hsize ▸ hcode)
      · exact ih hitem ((addItem_grows fold m item).size.trans hsize)

/-- Every code point that is marked is in one of the ranges. -/
theorem exists_range (hm : m[code]? = some true) (fuel : Nat) {start : Nat} {opened : Option Nat}
    (hopened : ∀ low ∈ opened, low ≤ start) (hcode : start ≤ code ∨ ∃ low ∈ opened, low ≤ code)
    (hfuel : code < start + fuel) :
    ∃ r ∈ m.ranges fuel start opened, r.1 ≤ code ∧ code ≤ r.2 := by
  induction fuel generalizing start opened with
  | zero =>
      rcases hcode with hstart | ⟨low, hsome, hlow⟩
      · omega
      · rw [Option.mem_def.mp hsome]
        exact ⟨(low, start - 1), List.mem_singleton_self _, hlow, by dsimp only; omega⟩
  | succ fuel ih =>
      have hsome : code = start → (m[start]?.getD false) = true := by
        rintro rfl
        rw [hm]
        rfl
      unfold ranges
      split
      next hstart =>
        -- a range begins here, and the code point is not before it
        refine ih (by simp) ?_ (by omega)
        rcases hcode with hle | ⟨low, hnone, -⟩
        · exact .inr ⟨start, rfl, hle⟩
        · contradiction
      next low hstart =>
        -- a range ends before here: the code point is in it or comes later
        rcases Nat.lt_or_ge code start with hlt | hge
        · obtain hle | ⟨low', hlow', hle⟩ := hcode
          · omega
          · obtain rfl := Option.some.inj hlow'
            exact ⟨_, List.mem_cons_self, hle, by dsimp only; omega⟩
        · have hne : code ≠ start := fun heq => by simp [hsome heq] at hstart
          have hlater : ∃ r ∈ m.ranges fuel (start + 1) none, r.1 ≤ code ∧ code ≤ r.2 :=
            ih (by simp) (.inl (by omega)) (by omega)
          obtain ⟨r, hr, hin⟩ := hlater
          exact ⟨r, List.mem_cons_of_mem _ hr, hin⟩
      next hbegins hends =>
        refine ih (fun low hlow => Nat.le_succ_of_le (hopened low hlow)) ?_ (by omega)
        rcases hcode with hle | hlow
        · rcases Nat.eq_or_lt_of_le hle with rfl | hlt
          · -- a code point that is marked is in a range that has begun
            obtain ⟨low, hlow⟩ := Option.ne_none_iff_exists'.mp (hbegins (hsome rfl))
            exact .inr ⟨low, hlow, hopened low hlow⟩
          · exact .inl hlt
        · exact .inr hlow

end Marked

/-- Where letter case does not count, a set that has a letter has it in either case. -/
theorem setTest_has_literal {flags : List Flag} {items : List SetItem} {code : Nat} {c : Char}
    (hflags : Fold.ofFlags flags = .full) (hitem : .literal code ∈ items)
    (hcased : Text.isCased code = true) (hlimit : Text.lowerCode code < foldLimit)
    (hc : Text.lowerCode c.toNat = Text.lowerCode code) :
    (setTest flags false items).has c = true := by
  have hany : (items.any fun item => item.isBeyond .full || item.isCased .full) = true :=
    List.any_eq_true.mpr ⟨_, hitem, by simp [SetItem.isCased, Fold.tellsApart, hcased]⟩
  let marked := items.foldl (Marked.addItem .full) (Array.replicate foldLimit false)
  have hmarked : marked[Text.lowerCode code]? = some true :=
    Marked.foldl_addItem_literal hitem Array.size_replicate hlimit
  have hranges : ∃ r ∈ marked.ranges foldLimit 0 none,
      r.1 ≤ Text.lowerCode code ∧ Text.lowerCode code ≤ r.2 :=
    Marked.exists_range hmarked foldLimit (by simp) (.inl (Nat.zero_le _)) (by omega)
  obtain ⟨⟨low, high⟩, hrange, hlow, hhigh⟩ := hranges
  unfold setTest
  rw [hflags]
  simp only [hany, if_true, CharTest.has, Bool.bne_false]
  refine List.any_eq_true.mpr ⟨.range low high, ?_, ?_⟩
  · exact List.mem_append_left _ (List.mem_map.mpr ⟨_, hrange, rfl⟩)
  · change (decide (low ≤ Text.lowerCode c.toNat) && decide (Text.lowerCode c.toNat ≤ high)) = true
    rw [hc]
    simpa using ⟨hlow, hhigh⟩

/-- A set of one named class has the characters of the class. -/
theorem setTest_has_category {flags : List Flag} {category : Category} {c : Char}
    (hascii : flags.contains .ascii = false) (hc : category.has false c.toNat = true) :
    (setTest flags false [.category category false]).has c = true := by
  have hpart (parts : List TestPart) (hmem : .category category false false ∈ parts) :
      (CharTest.set .none false parts).has c = true := by
    refine (Bool.bne_false _).trans (List.any_eq_true.mpr ⟨_, hmem, ?_⟩)
    exact (Bool.bne_false _).trans hc
  unfold setTest
  simp only [hascii]
  split
  next => exact hpart _ (List.mem_singleton_self _)
  next =>
    split
    next hany => simp [SetItem.isBeyond, SetItem.isCased] at hany
    next =>
      split
      next => exact hpart _ (List.mem_append_right _ (List.mem_singleton_self _))
      next => exact hpart _ (List.mem_singleton_self _)

/-! ## Parts of a pattern that reach what follows -/

/-- Whether going on from a place succeeds, whatever has been recorded before. -/
def Next.Reaches (next : Next) (p : Nat) : Prop := ∀ r, (next p r).1 = true

section Reaches

variable {text : Array Char} {inRounds : Bool} {follow : Demand} {next : Next} {p : Nat}

theorem take_reaches {t : CharTest} {rest : Code} {c : Char} (hc : text[p]? = some c)
    (ht : t.has c = true) (hrest : Next.Reaches (rest.run text inRounds follow next) (p + 1)) :
    Next.Reaches (Code.run text inRounds follow (.take t rest) next) p := by
  intro r
  simp only [Code.run, hc, ht, if_true]
  exact hrest r

/-- What is tried after something else has failed. -/
theorem orElse_reaches {first second : Outcome} (hsecond : second.1 = true) :
    (if first.1 = true then (true, first.2) else second).1 = true := by
  split
  · rfl
  · exact hsecond

/-- Trying fewer and fewer characters comes to a number after which going on succeeds. -/
theorem manyGreedily_reaches {putBack : Bool} {before : Record} {least k : Nat}
    (hfollow : follow.isOtherCharacter text (p + least + k) = false)
    (hnext : next.Reaches (p + least + k)) {n : Nat} (hn : k ≤ n) (r : Record) :
    (manyGreedily text follow putBack before next p least n r).1 = true := by
  have hhere (r : Record) :
      (manyGreedily text follow putBack before next p least k r).1 = true := by
    have hok := hnext (r.at_ (p + least + k))
    unfold manyGreedily
    simp [hfollow, hok]
  induction n generalizing r with
  | zero =>
      obtain rfl : k = 0 := Nat.le_zero.mp hn
      exact hhere r
  | succ n ih =>
      rcases Nat.eq_or_lt_of_le hn with rfl | hlt
      · exact hhere r
      · exact orElse_reaches (ih (Nat.le_of_lt_succ hlt) _)

/-- As many characters are counted as are known to pass. -/
theorem le_countPassing {t : CharTest} {k most : Nat} (hmost : k ≤ most)
    (hpass : ∀ i < k, ∃ c, text[p + i]? = some c ∧ t.has c = true) :
    k ≤ countPassing text t most p := by
  induction k generalizing p most with
  | zero => exact Nat.zero_le _
  | succ k ih =>
      obtain ⟨most, rfl⟩ : ∃ m, most = m + 1 := ⟨most - 1, by omega⟩
      obtain ⟨c, hc, ht⟩ := hpass 0 (Nat.succ_pos k)
      rw [Nat.add_zero] at hc
      simp only [countPassing, hc, ht, if_true]
      refine Nat.succ_le_succ (ih (Nat.le_of_succ_le_succ hmost) fun i hi => ?_)
      rw [Nat.add_assoc, Nat.add_comm 1]
      exact hpass (i + 1) (Nat.succ_lt_succ hi)

/-- A repeated character reaches what follows after any number of characters that pass. -/
theorem many_reaches {least k : Nat} {t : CharTest} {rest : Code}
    (hpass : ∀ i < least + k, ∃ c, text[p + i]? = some c ∧ t.has c = true)
    (hend : p + least + k ≤ text.size)
    (hfollow : (rest.demand follow).isOtherCharacter text (p + least + k) = false)
    (hrest : Next.Reaches (rest.run text inRounds follow next) (p + least + k)) :
    Next.Reaches (Code.run text inRounds follow (.many .greedy least none t rest) next) p := by
  intro r
  have hcount : least + k ≤ countPassing text t (min text.size (text.size - p)) p :=
    le_countPassing (by omega) hpass
  simp only [Code.run, Option.getD_none]
  rw [if_neg (by omega), if_neg (by omega)]
  exact manyGreedily_reaches hfollow hrest (by omega) _

/-- Rounds that may be left out reach what follows. -/
theorem rounds_reaches {most : Option Nat} {body rest : Code}
    (hrest : Next.Reaches (rest.run text inRounds follow next) p) :
    Next.Reaches (Code.run text inRounds follow (.rounds .greedy 0 most body rest) next) p := by
  intro r
  have hnext (r r' : Record) : (if (rest.run text inRounds follow next p r).1 = true then
      (true, (rest.run text inRounds follow next p r).2) else (false, r')).1 = true := by
    rw [if_pos (hrest r)]
  exact orElse_reaches (hnext _ _)

end Reaches

/-- A pattern that has been read is prepared from its own expression. -/
theorem ofText_code {text : String} {p : Pattern} (h : ofText text = .ok p) :
    p.code = p.node.code p.widths p.flags .done := by
  unfold ofText at h
  rcases hread : Reader.whole.run ⟨text, 0, text.toList, [], [], [], none, []⟩ with e | ⟨node, r⟩
  · rw [hread] at h
    contradiction
  · rw [hread] at h
    simp only [bind, Except.bind] at h
    split at h
    · contradiction
    · split at h
      · contradiction
      · obtain rfl := Except.ok.inj h
        rfl

end SupplyGauge.Pattern

namespace SupplyGauge.Log.Template

open Pattern (Node SetItem Next)

/-! ## Fields -/

/-- A size in a field: a star or a number, which is a group of the pattern. -/
def sizeNode (group : Nat) : Node :=
  .group (some group) [] [] (.ofList [.alt (.ofList [.literal '*'.toNat])
    (.ofList [.repeated .greedy 1 none (.ofList [.set false [.category .digit false]])])])

/-- The characters of a text as items of a set. -/
def itemsOf (text : String) : List SetItem := text.toList.map fun c => .literal c.toNat

/-- The expression that the pattern of fields is read as. -/
def fieldNode : Node := .ofList [
  .literal '%'.toNat, .literal '('.toNat,
  .repeated .greedy 1 none (.ofList [.set false [.category .word false]]), .literal ')'.toNat,
  .repeated .greedy 0 none (.ofList [.set false (itemsOf "#0+ -")]),
  .repeated .greedy 0 (some 1) (.ofList [sizeNode 1]),
  .repeated .greedy 0 (some 1)
    (.ofList [.group (some 2) [] [] (.ofList [.literal '.'.toNat, sizeNode 3])]),
  .set false (itemsOf "diouxefgcrsa%")]

theorem ofText_fieldPattern : ∃ p, Pattern.ofText fieldPattern = .ok p ∧ p.node = fieldNode ∧
    p.flags = [.ignoreCase] ∧ p.code = fieldNode.code p.widths [.ignoreCase] .done := by
  have hread : (Pattern.ofText fieldPattern).toOption.map (fun p => (p.node, p.flags)) =
      some (fieldNode, [.ignoreCase]) := by decide +kernel
  rcases hp : Pattern.ofText fieldPattern with e | p
  · rw [hp] at hread
    contradiction
  · rw [hp] at hread
    obtain ⟨hnode, hflags⟩ := Prod.mk.inj (Option.some.inj hread)
    refine ⟨p, rfl, hnode, hflags, ?_⟩
    rw [Pattern.ofText_code hp, hnode, hflags]

/-- The steps prepared from the expression. -/
theorem fieldNode_code (widths : Nat → Pattern.Width) : ∃ sizes precision,
    fieldNode.code widths [.ignoreCase] .done =
      .take (.literal .none false '%'.toNat) (.take (.literal .none false '('.toNat)
        (.many .greedy 1 none (Pattern.setTest [.ignoreCase] false [.category .word false])
          (.take (.literal .none false ')'.toNat)
            (.many .greedy 0 none (Pattern.setTest [.ignoreCase] false (itemsOf "#0+ -"))
              (.rounds .greedy 0 (some 1) sizes (.rounds .greedy 0 (some 1) precision
                (.take (Pattern.setTest [.ignoreCase] false (itemsOf "diouxefgcrsa%"))
                  .done))))))) :=
  ⟨_, _, rfl⟩

/-- A match begins with a percent sign and has at least five characters. -/
theorem fieldNode_known (widths : Nat → Pattern.Width) :
    (fieldNode.width widths).least = 5 ∧ fieldNode.start [.ignoreCase] = .known :=
  ⟨rfl, rfl⟩

/-- The letter that ends a field for texts. -/
theorem endsField_s :
    (Pattern.setTest [.ignoreCase] false (itemsOf "diouxefgcrsa%")).has 's' = true :=
  have hitem : .literal 's'.toNat ∈ itemsOf "diouxefgcrsa%" := by decide
  Pattern.setTest_has_literal rfl hitem (by decide) (by decide) rfl

/-- A text that begins with a named field for texts has a field. -/
theorem hasField_of_named {name : List Char} (hname : name ≠ [])
    (hword : ∀ c ∈ name, Text.isWord c = true) (rest : List Char) :
    hasField (String.ofList ('%' :: '(' :: (name ++ ')' :: 's' :: rest))) = true := by
  obtain ⟨p, hp, hnode, hflags, hcode⟩ := ofText_fieldPattern
  obtain ⟨sizes, precision, hsteps⟩ := fieldNode_code p.widths
  obtain ⟨hleast, hstart⟩ := fieldNode_known p.widths
  have hpos : 0 < name.length := List.length_pos_iff.mpr hname
  let text := ('%' :: '(' :: (name ++ ')' :: 's' :: rest)).toArray
  have hsize : text.size = name.length + rest.length + 4 := by
    simp [text]
    omega
  have hat (i : Nat) : text[2 + i]? = (name ++ ')' :: 's' :: rest)[i]? := by
    rw [Nat.add_comm]
    exact List.getElem?_toArray
  have hin (i : Nat) (hi : i < 1 + (name.length - 1)) : ∃ c, text[2 + i]? = some c ∧
      (Pattern.setTest [.ignoreCase] false [.category .word false]).has c = true := by
    have hlt : i < name.length := by omega
    refine ⟨name[i], ?_, Pattern.setTest_has_category rfl ?_⟩
    · rw [hat, List.getElem?_append_left hlt]
      exact List.getElem?_eq_getElem hlt
    · exact (congrArg Text.isWord (Char.ofNat_toNat _)).trans (hword _ (List.getElem_mem hlt))
  have hclosed : text[2 + name.length]? = some ')' := by
    rw [hat, List.getElem?_append_right (Nat.le_refl _), Nat.sub_self]
    rfl
  have hends : text[2 + name.length + 1]? = some 's' := by
    rw [Nat.add_assoc, hat, List.getElem?_append_right (Nat.le_succ _),
      show name.length.succ - name.length = 1 by omega]
    rfl
  have hplace : 2 + 1 + (name.length - 1) = 2 + name.length := by omega
  have hmatch : p.matchesAt text 0 = true := by
    unfold Pattern.matchesAt
    rw [hcode, hsteps]
    refine Pattern.take_reaches (c := '%') rfl rfl ?_ {}
    refine Pattern.take_reaches (c := '(') rfl rfl ?_
    refine Pattern.many_reaches hin (by omega) ?_ ?_ <;> rw [hplace]
    · -- what follows the name asks for a closing parenthesis, which is there
      simp [Pattern.Code.demand, Pattern.Demand.isOtherCharacter, Pattern.Demand.isMet, hclosed]
    refine Pattern.take_reaches hclosed rfl ?_
    refine Pattern.many_reaches (k := 0) (by simp) (by omega) rfl ?_
    refine Pattern.rounds_reaches (Pattern.rounds_reaches ?_)
    exact Pattern.take_reaches hends endsField_s fun _ => rfl
  have hfits : ¬ text.size < 5 := by omega
  unfold hasField Pattern.search
  rw [hp]
  dsimp only
  rw [String.toList_ofList, hnode, hflags, hleast, hstart, if_neg (by decide), if_neg hfits]
  have hsome : 0 < text.size := by omega
  exact List.any_eq_true.mpr ⟨0, List.mem_range.mpr hsome, hmatch⟩

/-- The default layout is a template. -/
theorem ofScalar_defaultLogFormat :
    ofScalar (.text Config.defaultLogFormat) = .ok ⟨Config.defaultLogFormat⟩ := by
  have htext : Config.defaultLogFormat = String.ofList ('%' :: '(' :: ("asctime".toList ++
      ')' :: 's' :: " [%(levelname)s] %(name)s: %(message)s".toList)) := by decide +kernel
  have hfield : hasField Config.defaultLogFormat = true := by
    rw [htext]
    exact hasField_of_named (by decide) (List.all_eq_true.mp (by decide)) _
  unfold ofScalar
  rw [if_neg (by decide)]
  dsimp only
  rw [if_pos hfield]

end SupplyGauge.Log.Template
