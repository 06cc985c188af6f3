import SupplyGauge.Metric.Sample
import SupplyGauge.Proofs.Config.Numerals

/-! # Reading exposition lines

A line says everything about a sample but its device. It can be read from left to right without
knowing how many labels there are and what they are called: a name ends at the first opening brace,
the name of a label at the first equals sign, and its value at the first double quote that has not
an odd run of backslashes in front of it. So whatever the values of the labels are, no two of them
give the same line.
-/

namespace SupplyGauge.Metric

/-! ## Label values -/

/-- Whether a text ends with an odd run of backslashes, so that what follows does not stand for
itself. -/
def endsEscaping (text : List Char) : Bool :=
  (text.reverse.takeWhile (· == '\\')).length % 2 == 1

theorem endsEscaping_backslash (text : List Char) :
    endsEscaping (text ++ ['\\']) = !endsEscaping text := by
  rw [endsEscaping, endsEscaping, List.reverse_append, List.reverse_singleton,
    List.singleton_append, List.takeWhile_cons_of_pos (by rfl), List.length_cons]
  generalize (text.reverse.takeWhile _).length = n
  rcases Nat.mod_two_eq_zero_or_one n with h | h <;> simp [Nat.add_mod, h]

theorem endsEscaping_other (text : List Char) {c : Char} (hc : c ≠ '\\') :
    endsEscaping (text ++ [c]) = false := by
  rw [endsEscaping, List.reverse_append, List.reverse_singleton, List.singleton_append,
    List.takeWhile_cons_of_neg (by simpa using hc)]
  rfl

/-- Reads up to the first double quote that has not an odd run of backslashes in front of it, where
some of the text has been read before. Gives what has been read, and what follows the quote. -/
def readQuoted (read : List Char) : List Char → Option (List Char × List Char)
  | [] => none
  | c :: rest =>
    if c = '"' ∧ endsEscaping read = false then some (read, rest) else readQuoted (read ++ [c]) rest

theorem readQuoted_other (read : List Char) {c : Char} (hc : c ≠ '"') (rest : List Char) :
    readQuoted read (c :: rest) = readQuoted (read ++ [c]) rest := by
  rw [readQuoted, if_neg fun h => hc h.1]

theorem readQuoted_escaped {read : List Char} (h : endsEscaping read = true) (c : Char)
    (rest : List Char) : readQuoted read (c :: rest) = readQuoted (read ++ [c]) rest := by
  rw [readQuoted, if_neg fun hc => Bool.false_ne_true (hc.2.symm.trans h)]

/-- An escaped character does not end a value, and what follows it stands for itself. -/
theorem readQuoted_escapeLabelChar {read : List Char} (h : endsEscaping read = false) (c : Char)
    (rest : List Char) :
    readQuoted read (escapeLabelChar c ++ rest) = readQuoted (read ++ escapeLabelChar c) rest ∧
      endsEscaping (read ++ escapeLabelChar c) = false := by
  have hbackslash : endsEscaping (read ++ ['\\']) = true := by rw [endsEscaping_backslash, h]; rfl
  have hpair (d : Char) :
      readQuoted read ('\\' :: d :: rest) = readQuoted (read ++ ['\\', d]) rest := by
    rw [readQuoted_other read (by decide), readQuoted_escaped hbackslash, List.append_assoc]
    rfl
  have hafter (d : Char) : read ++ ['\\', d] = read ++ ['\\'] ++ [d] := by simp
  unfold escapeLabelChar
  split
  next => exact ⟨hpair _, by rw [hafter, endsEscaping_backslash, hbackslash]; rfl⟩
  next hslash =>
    split
    next => exact ⟨hpair _, by rw [hafter, endsEscaping_other _ (by decide)]⟩
    next =>
      split
      next => exact ⟨hpair _, by rw [hafter, endsEscaping_other _ (by decide)]⟩
      next hquote => exact ⟨readQuoted_other read hquote rest, endsEscaping_other _ hslash⟩

/-- A value ends at its own closing quote, whatever it is and whatever follows. -/
theorem readQuoted_value {read : List Char} (h : endsEscaping read = false)
    (value rest : List Char) :
    readQuoted read (value.flatMap escapeLabelChar ++ '"' :: rest) =
      some (read ++ value.flatMap escapeLabelChar, rest) := by
  induction value generalizing read with
  | nil => simp [readQuoted, h]
  | cons c value ih =>
      obtain ⟨hstep, hopen⟩ :=
        readQuoted_escapeLabelChar h c (value.flatMap escapeLabelChar ++ '"' :: rest)
      rw [List.flatMap_cons, List.append_assoc, hstep, ih hopen, List.append_assoc]

/-- A label value with its escapes undone. -/
def unescapeLabel : List Char → List Char
  | '\\' :: '\\' :: rest => '\\' :: unescapeLabel rest
  | '\\' :: 'n' :: rest => '\n' :: unescapeLabel rest
  | '\\' :: '"' :: rest => '"' :: unescapeLabel rest
  | c :: rest => c :: unescapeLabel rest
  | [] => []

theorem unescapeLabel_escapeLabelChar (c : Char) (rest : List Char) :
    unescapeLabel (escapeLabelChar c ++ rest) = c :: unescapeLabel rest := by
  unfold escapeLabelChar
  split
  next hc => rw [hc]; rfl
  next hslash =>
    split
    next hc => rw [hc]; rfl
    next =>
      split
      next hc => rw [hc]; rfl
      next => simp [unescapeLabel, hslash]

theorem unescapeLabel_value (value : List Char) :
    unescapeLabel (value.flatMap escapeLabelChar) = value := by
  induction value with
  | nil => rfl
  | cons c value ih => rw [List.flatMap_cons, unescapeLabel_escapeLabelChar, ih]

/-- A text in which one character is replaced throughout. -/
def replaceChar (old : Char) (image text : List Char) : List Char :=
  text.flatMap fun c => if c = old then image else [c]

/-- To escape each character by itself is to replace the three characters one after the other,
backslashes first. -/
theorem flatMap_escapeLabelChar (value : List Char) : value.flatMap escapeLabelChar =
    replaceChar '"' ['\\', '"'] (replaceChar '\n' ['\\', 'n']
      (replaceChar '\\' ['\\', '\\'] value)) := by
  induction value with
  | nil => rfl
  | cons c value ih =>
      simp only [replaceChar] at ih ⊢
      rw [List.flatMap_cons, List.flatMap_cons, List.flatMap_append, List.flatMap_append, ← ih]
      congr 1
      unfold escapeLabelChar
      split
      next => rfl
      next =>
        split
        next hc => simp [hc]
        next hfeed => by_cases hquote : c = '"' <;> simp [hfeed, hquote]

/-! ## Labels -/

/-- Reads one label: its name up to the first equals sign, and its value between quotes. -/
def readLabel (text : List Char) : Option ((String × String) × List Char) :=
  match text.dropWhile (· != '=') with
  | '=' :: '"' :: rest =>
    (readQuoted [] rest).map fun (written, rest) =>
      ((String.ofList (text.takeWhile (· != '=')), String.ofList (unescapeLabel written)), rest)
  | _ => none

theorem readLabel_labelText {label : String × String} (hname : '=' ∉ label.1.toList)
    (rest : List Char) : readLabel (labelText label ++ rest) = some (label, rest) := by
  have hends : ∀ c ∈ label.1.toList, (c != '=') = true := by
    intro c hc
    rw [bne_iff_ne]
    rintro rfl
    exact hname hc
  have htext : labelText label ++ rest = label.1.toList ++
      ('=' :: '"' :: (label.2.toList.flatMap escapeLabelChar ++ '"' :: rest)) := by
    simp [labelText, quoteLabel]
  unfold readLabel
  rw [htext, List.dropWhile_append_of_pos hends, List.takeWhile_append_of_pos hends]
  have hvalue := readQuoted_value (show endsEscaping [] = false from rfl) label.2.toList rest
  simp [hvalue, unescapeLabel_value]

/-- Reads labels up to the closing brace, no more than a number of them. -/
def readLabels : Nat → List Char → Option (List (String × String) × List Char)
  | 0, _ => none
  | more + 1, text => do
    let (label, rest) ← readLabel text
    match rest with
    | '\x7d' :: rest => return ([label], rest)
    | ',' :: rest =>
      let (labels, rest) ← readLabels more rest
      return (label :: labels, rest)
    | _ => none

theorem readLabels_labelsText {labels : List (String × String)} (hne : labels ≠ [])
    (hnames : ∀ l ∈ labels, '=' ∉ l.1.toList) {limit : Nat} (hlimit : labels.length ≤ limit)
    (rest : List Char) :
    readLabels limit (labelsText labels ++ '\x7d' :: rest) = some (labels, rest) := by
  induction labels generalizing limit with
  | nil => contradiction
  | cons label labels ih =>
      obtain ⟨limit, rfl⟩ := Nat.exists_eq_add_of_le' (Nat.le_trans (Nat.le_add_left 1 _) hlimit)
      have hname := hnames label List.mem_cons_self
      cases labels with
      | nil => simp [labelsText, readLabels, readLabel_labelText hname]
      | cons next labels =>
          have hrest := ih (List.cons_ne_nil _ _)
            (fun l hl => hnames l (List.mem_cons_of_mem _ hl)) (Nat.le_of_succ_le_succ hlimit)
          simp [labelsText, readLabels, readLabel_labelText hname, hrest]

/-- The labels of a sample that is described by the usual label names. -/
theorem readLabels_labels (d : Descriptor) {limit : Nat} (hlimit : 6 ≤ limit) (rest : List Char) :
    readLabels limit (labelsText (labelNames.zip d.values) ++ '\x7d' :: rest) =
      some (d.labels, rest) := by
  refine readLabels_labelsText (by simp [labelNames, Descriptor.values]) ?_ hlimit rest
  intro label hlabel
  have hname : label.1 ∈ labelNames := (List.of_mem_zip hlabel).1
  have hnames : ∀ name ∈ labelNames, '=' ∉ name.toList := by decide
  exact hnames _ hname

theorem Descriptor.labels_injective : Function.Injective Descriptor.labels := by
  rintro ⟨⟩ ⟨⟩ h
  simpa [Descriptor.labels, labelNames, Descriptor.values] using h

/-! ## Lines -/

/-- Reads what follows the name in a line: labels, a space, and the text of the value. -/
def readBody (text : List Char) : Option (List (String × String) × String) :=
  match readLabels text.length text with
  | some (labels, ' ' :: value) => some (labels, String.ofList value)
  | _ => none

/-- Reads a line: its name up to the first opening brace, its labels and the text of its value. -/
def readLine (line : String) : Option (String × List (String × String) × String) :=
  match line.toList.dropWhile (· != '\x7b') with
  | _ :: rest => (readBody rest).map ((String.ofList (line.toList.takeWhile (· != '\x7b'))), ·)
  | [] => none

/-- What follows the name and the opening brace in the line of a sample. -/
def Sample.body (s : Sample) : List Char :=
  labelsText (s.description.labelNames.zip s.descriptor.values) ++
    '\x7d' :: ' ' :: (valueText s.value).toList

theorem Sample.line_toList (s : Sample) :
    s.line.toList = s.description.name.toList ++ '\x7b' :: s.body := by
  simp [line, body]

theorem Sample.readBody_body {s : Sample} (h : s.description.labelNames = Metric.labelNames) :
    readBody s.body = some (s.descriptor.labels, valueText s.value) := by
  have hlimit : 6 ≤ s.body.length := by
    rw [body, h]
    simp [labelNames, Descriptor.values, labelsText, labelText, quoteLabel]
  have hread := readLabels_labels s.descriptor hlimit (' ' :: (valueText s.value).toList)
  rw [← h, ← body] at hread
  rw [readBody, hread]
  simp

/-! ## Line feeds -/

theorem not_feed_of_isDigit {c : Char} (h : Text.isDigit c = true) : c ≠ '\n' := by
  rintro rfl
  exact absurd h (by decide +kernel)

theorem feed_not_mem_ofNat (n : Nat) : '\n' ∉ Decimal.ofNat n := fun h =>
  not_feed_of_isDigit (Decimal.isDigit_ofNat _ h) rfl

theorem feed_not_mem_positional {digits : List Char} (h : '\n' ∉ digits) (point : Int) :
    '\n' ∉ Binary64.positional digits point := by
  unfold Binary64.positional
  split
  · simp [h]
  split
  · simp [h]
  · intro hmem
    rcases List.mem_append.mp hmem with hbefore | hafter
    · exact h (List.mem_of_mem_take hbefore)
    · rcases List.mem_cons.mp hafter with hpoint | hafter
      · contradiction
      · exact h (List.mem_of_mem_drop hafter)

theorem feed_not_mem_scientific {digits : List Char} (h : '\n' ∉ digits) (exponent : Int) :
    '\n' ∉ Binary64.scientific digits exponent := by
  have hexponent := feed_not_mem_ofNat exponent.natAbs
  unfold Binary64.scientific
  dsimp only
  intro hmem
  rcases List.mem_append.mp hmem with hmantissa | hrest
  · split at hmantissa
    next => contradiction
    next => exact h hmantissa
    next => simp_all
  · have hsign : '\n' ≠ if exponent < 0 then '-' else '+' := by split <;> decide
    simp only [List.mem_cons, hsign, false_or] at hrest
    rcases hrest with he | hpadded
    · contradiction
    · split at hpadded <;> simp_all

theorem feed_not_mem_magnitudeText (m shift : Nat) : '\n' ∉ Binary64.magnitudeText m shift := by
  unfold Binary64.magnitudeText
  split
  · decide
  · have hdigits : '\n' ∉ ((Decimal.ofNat (Binary64.shortest m shift).digits).reverse.dropWhile
        (· == '0')).reverse := by
      intro hmem
      have hreverse := (List.dropWhile_sublist _).subset (List.mem_reverse.mp hmem)
      exact feed_not_mem_ofNat _ (List.mem_reverse.mp hreverse)
    dsimp only
    split
    · exact feed_not_mem_positional hdigits _
    · exact feed_not_mem_scientific hdigits _

theorem feed_not_mem_text (x : Binary64) : '\n' ∉ (x.text .plain).toList := by
  cases x with
  | nan => decide
  | infinite negative => cases negative <;> decide
  | finite negative m shift canonical =>
      have hmagnitude := feed_not_mem_magnitudeText m shift
      cases negative <;> simp [Binary64.text, hmagnitude]

theorem feed_not_mem_valueText (x : Binary64) : '\n' ∉ (valueText x).toList := by
  unfold valueText
  split
  · decide
  · decide
  · decide
  split
  next n _ =>
    have hdigits := feed_not_mem_ofNat n.natAbs
    unfold Decimal.ofInt
    split <;> simp [hdigits]
  next => exact feed_not_mem_text _

theorem feed_not_mem_escapeLabelChar (c : Char) : '\n' ∉ escapeLabelChar c := by
  unfold escapeLabelChar
  split
  · simp
  split
  · simp
  next hfeed =>
    split
    · simp
    · simpa using Ne.symm hfeed

theorem feed_not_mem_labelsText {labels : List (String × String)}
    (h : ∀ l ∈ labels, '\n' ∉ l.1.toList) : '\n' ∉ labelsText labels := by
  have hlabel {l : String × String} (hname : '\n' ∉ l.1.toList) : '\n' ∉ labelText l := by
    simp [labelText, quoteLabel, hname, feed_not_mem_escapeLabelChar]
  induction labels with
  | nil => simp [labelsText]
  | cons l labels ih =>
      have hfirst := hlabel (h l List.mem_cons_self)
      have hlater := ih fun l hl => h l (List.mem_cons_of_mem _ hl)
      cases labels with
      | nil => exact hfirst
      | cons next labels => simp [labelsText, hfirst, hlater]

/-- The line of a sample with the usual label names can be read back where the name has no opening
brace: the name, the labels with their names and values in order, and the text of the value. Lines
of the same description are the same only if all label values are, and there is a line feed in a
line only if there is one in the name. -/
theorem Sample.line_decodable (s : Sample) (h : s.description.labelNames = Metric.labelNames) :
    ('\x7b' ∉ s.description.name.toList →
      readLine s.line = some (s.description.name, s.descriptor.labels, valueText s.value)) ∧
    (∀ s' : Sample, s'.description = s.description → s'.line = s.line →
      s'.descriptor = s.descriptor ∧ valueText s'.value = valueText s.value) ∧
    ('\n' ∈ s.line.toList → '\n' ∈ s.description.name.toList) := by
  have hbody := readBody_body h
  refine ⟨fun hname => ?_, fun s' hdescription hline => ?_, fun hfeed => ?_⟩
  · have hends : ∀ c ∈ s.description.name.toList, (c != '\x7b') = true := by
      intro c hc
      rw [bne_iff_ne]
      rintro rfl
      exact hname hc
    unfold readLine
    rw [line_toList, List.dropWhile_append_of_pos hends, List.takeWhile_append_of_pos hends]
    simp [hbody]
  · have hsame : s'.body = s.body := by
      have htext := congrArg String.toList hline
      rw [line_toList, line_toList, hdescription] at htext
      exact List.tail_eq_of_cons_eq (List.append_cancel_left htext)
    have hbody' := readBody_body (hdescription ▸ h)
    rw [hsame, hbody, Option.some.injEq, Prod.mk.injEq] at hbody'
    exact ⟨Descriptor.labels_injective hbody'.1.symm, hbody'.2.symm⟩
  · rw [line_toList, body, h] at hfeed
    have hlabels : '\n' ∉ labelsText (Metric.labelNames.zip s.descriptor.values) := by
      refine feed_not_mem_labelsText fun label hlabel => ?_
      have hnames : ∀ name ∈ Metric.labelNames, '\n' ∉ name.toList := by decide
      exact hnames _ (List.of_mem_zip hlabel).1
    simpa [hlabels, feed_not_mem_valueText] using hfeed

/-- A sample of a device whose model and serial number look like labels, with quotes, backslashes
and a line feed. -/
def misleading : Sample where
  description := ⟨"node_power_supply_status", "", labelNames⟩
  value := .zero
  descriptor := { model := "X\\\",tech=\"\\\\\"", serial := "\n,type=\"" }

/-- The labels of such a sample are told apart. -/
theorem Sample.line_decodable_misleading :
    misleading.description.labelNames = labelNames ∧
      readLine misleading.line = some ("node_power_supply_status", misleading.descriptor.labels,
        valueText .zero) ∧
      '\n' ∉ misleading.line.toList := by
  obtain ⟨hread, -, hfeed⟩ := Sample.line_decodable misleading rfl
  exact ⟨rfl, hread (by decide), fun h => absurd (hfeed h) (by decide)⟩

end SupplyGauge.Metric
