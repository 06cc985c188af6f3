import SupplyGauge.Config.Loader
import SupplyGauge.Proofs.Config.Conversions
import SupplyGauge.Proofs.Config.Lexing
import SupplyGauge.Proofs.Files.LookUp
import SupplyGauge.Proofs.Text.Utf8

/-! # Failures that are no errors of the configuration

Loading settings gives settings or an error of the configuration. There are exceptions: a text
with a numeral that has no value, a document with a setting that is out of range, a path with a name
that is too long to be looked up, and a file that is not UTF-8. Each counts only if nothing else has
failed before, and there are no others.
-/

namespace SupplyGauge.Config

/-! ## Numerals without a value -/

/-- The parser stops at an error in the text if it takes all tokens in front of it. -/
theorem Document.ofTokens_lexical_iff {filename : String} {ts : Tokens} {e : LexError} :
    ofTokens filename ts = .error (.lexical e) ↔
      (∃ p, Parse.start.run ts.tokens = .ok p) ∧ ts.ending = .error e := by
  unfold ofTokens
  cases Parse.start.run ts.tokens with
  | error e' => simp [bind, Except.bind]
  | ok p =>
      cases ts.ending with
      | error e' => simp [bind, Except.bind]
      | ok place =>
          simp only [mapError_ok, bind, Except.bind]
          cases p.endFault? <;> simp [throw, throwThe, MonadExceptOf.throw, pure, Except.pure]

/-- Whether the reading of a text stops at a numeral without a value: all lexemes in front of it
can be read, and the parser takes all their tokens. -/
def StopsAtNumeral (text : List Char) : Prop :=
  ∃ before numeral after, (lexemes text).1 = before ++ numeral :: after ∧
    (∀ l ∈ before, l.Readable) ∧ numeral.kind = .number ∧ Oversized numeral.text ∧
    ∃ p, Parse.start.run (Tokens.ofLexemes .start before none).tokens = .ok p

theorem ofText_badNumber_iff (filename : String) {text : List Char} :
    (∃ fault place, Document.ofText filename text =
        .error (.lexical ⟨.badNumber fault, place⟩)) ↔ StopsAtNumeral text := by
  unfold Document.ofText Tokens.ofText
  simp only [Document.ofTokens_lexical_iff]
  constructor
  · rintro ⟨fault, place, ⟨p, hrun⟩, hending⟩
    rcases exists_first_unreadable (lexemes text).1 with hall |
      ⟨before, l, after, fault', hlexemes, hbefore, hl⟩
    · -- then the text itself would end in this way
      obtain ⟨place', hread⟩ := Tokens.ofLexemes_append hall .start [] (lexemes text).2
      rw [List.append_nil] at hread
      rw [hread] at hending
      exfalso
      cases hstop : (lexemes text).2 with
      | none => simp [hstop, Tokens.after, Tokens.ofLexemes] at hending
      | some other =>
          rw [hstop] at hending
          obtain rfl : other = .badNumber fault :=
            congrArg LexError.fault (Except.error.inj hending)
          exact lexemes_not_badNumber hstop
    · obtain ⟨place', hread⟩ := Tokens.ofLexemes_unreadable hbefore hl .start after (lexemes text).2
      rw [hlexemes, hread] at hrun hending
      obtain rfl : fault' = .badNumber fault := congrArg LexError.fault (Except.error.inj hending)
      have hmem : l ∈ (lexemes text).1 := by simp [hlexemes]
      obtain ⟨hkind, hlarge⟩ := (symbol?_badNumber_iff hmem).mp ⟨fault, hl⟩
      exact ⟨before, l, after, hlexemes, hbefore, hkind, hlarge, p, hrun⟩
  · rintro ⟨before, l, after, hlexemes, hbefore, hkind, hlarge, p, hrun⟩
    have hmem : l ∈ (lexemes text).1 := by simp [hlexemes]
    obtain ⟨fault, hl⟩ := (symbol?_badNumber_iff hmem).mpr ⟨hkind, hlarge⟩
    obtain ⟨place, hread⟩ := Tokens.ofLexemes_unreadable hbefore hl .start after (lexemes text).2
    refine ⟨fault, place, ?_⟩
    rw [hlexemes, hread]
    exact ⟨⟨p, hrun⟩, rfl⟩

/-! ## Loading -/

/-- Whether loading fails otherwise than with an error of the configuration. -/
def Escapes {α : Type} (loaded : Except LoadError α) : Prop :=
  ∃ e, loaded = .error e ∧ e.isConfiguration = false

/-- Whether a text cannot be loaded because of a number or a pattern that is too large: the reading
stops at a numeral without a value, or a setting of the document is out of range. -/
def EscapingText (filename : String) (text : List Char) : Prop :=
  StopsAtNumeral text ∨ ∃ d, Document.ofText filename text = .ok d ∧ d.OutOfRange

/-- Whether a file cannot be loaded because a name is too long, because it is not UTF-8, or because
of the text in it. -/
def EscapingFile (files : Files.Tree) (path : Files.Path) : Prop :=
  files.status path.toString = .error (.system .nameTooLong path.toString) ∨
    ∃ bytes, files.read path = .ok bytes ∧
      ((∀ text, Utf8.encode text ≠ bytes) ∨ ∃ text, Utf8.encode text = bytes ∧
        EscapingText path.toString (Text.unifyLineEnds text.toList))

theorem escapes_syntax_iff {e : SyntaxError} {α : Type} :
    Escapes (.error (.syntax_ e) : Except LoadError α) ↔
      ∃ fault place, e = .lexical ⟨.badNumber fault, place⟩ := by
  rcases e with ⟨fault, place⟩ | e
  · cases fault <;> simp [Escapes, LoadError.isConfiguration]
  · simp [Escapes, LoadError.isConfiguration]

theorem escapes_invalid_iff {α : Type} {x : Except SettingsError α} :
    Escapes (x.mapError LoadError.invalid) ↔ Overflows x := by
  cases x <;> simp [Escapes, Overflows, LoadError.isConfiguration]

theorem Loader.accept_escapes_iff {l : Loader} {filename : String} {text : List Char} :
    Escapes (l.accept (Document.ofText filename text)).1 ↔ EscapingText filename text := by
  unfold EscapingText accept
  rw [← ofText_badNumber_iff filename]
  cases Document.ofText filename text with
  | error e => simp [escapes_syntax_iff]
  | ok d => simp [escapes_invalid_iff, overflows_ofDocument_iff]

/-- Reading a settings file looks its path up, and decodes what it finds there. -/
theorem Loader.readFile_eq (files : Files.Tree) (path : Files.Path) : readFile files path =
    match files.status path.toString with
    | .error f =>
      if Files.Tree.Failure.isAbsence f then .error (.notFound path.toString)
      else .error (.unreadable f)
    | .ok (_, .file bytes) =>
      ((Utf8.decode bytes).mapError .undecodable).map Text.unifyLineEnds
    | .ok _ => .error (.notFile path.toString) := by
  unfold readFile Files.Tree.pathExists Files.Tree.isFile Files.Tree.read Files.Tree.test
  cases files.status path.toString with
  | error f => cases hf : Files.Tree.Failure.isAbsence f <;> simp only [hf] <;> rfl
  | ok found =>
      obtain ⟨l, node⟩ := found
      cases node with
      | file bytes =>
          simp only [mapError_ok, bind, Except.bind]
          cases Utf8.decode bytes <;> rfl
      | directory | link => rfl

theorem Loader.loadFile_escapes_iff {l : Loader} {files : Files.Tree} {path : Files.Path} :
    Escapes (l.loadFile files path).1 ↔ EscapingFile files path := by
  unfold loadFile EscapingFile Files.Tree.read
  rw [readFile_eq]
  cases hstatus : files.status path.toString with
  | error f =>
      rcases Files.Tree.status_error_cases hstatus with habsent | rfl
      · have hne : f ≠ .system .nameTooLong path.toString := by
          rintro rfl
          simp [Files.Tree.Failure.isAbsence] at habsent
        simp [habsent, hne, Escapes, LoadError.isConfiguration]
      · simp [Files.Tree.Failure.isAbsence, Escapes, LoadError.isConfiguration]
  | ok found =>
      obtain ⟨place, node⟩ := found
      cases node with
      | directory | link => simp [Escapes, LoadError.isConfiguration]
      | file bytes =>
          cases hdecode : Utf8.decode bytes with
          | error f =>
              have hnone : ∀ text, Utf8.encode text ≠ bytes :=
                Utf8.decode_eq_error_iff.mp ⟨f, hdecode⟩
              simp [hdecode, hnone, Except.map, Escapes, LoadError.isConfiguration]
          | ok chars =>
              have htext (text : String) : Utf8.encode text = bytes ↔ chars = text.toList := by
                rw [← Utf8.decode_eq_ok_iff, hdecode, Except.ok.injEq]
              obtain ⟨text, rfl⟩ : ∃ text : String, chars = text.toList :=
                ⟨String.ofList chars, String.toList_ofList.symm⟩
              simp [hdecode, htext, String.toList_inj, Except.map,
                accept_escapes_iff]

/-- Loading a text, or a file at any path with any content, succeeds or fails with an error of the
configuration, except where the text has a numeral without a value or a setting out of range, where
a name is too long to be looked up, and where the file is not UTF-8. -/
theorem Loader.load_escapes_iff (l : Loader) :
    (∀ text filename : String,
      Escapes (l.loadText text filename).1 ↔ EscapingText filename text.toList) ∧
    ∀ (files : Files.Tree) (path : Files.Path),
      Escapes (l.loadFile files path).1 ↔ EscapingFile files path :=
  ⟨fun _ _ => accept_escapes_iff, fun _ _ => loadFile_escapes_iff⟩

/-- A file with an octet that begins no character. -/
example : EscapingFile ⟨[(["c"], .file [0xFF])], []⟩ ⟨.relative, ["c"]⟩ := by
  have hdecode : Utf8.decode [0xFF] = .error ⟨.badStart, 0, 1, 0xFF⟩ := by
    rw [Utf8.decode, Utf8.decodeFrom]
    rfl
  exact .inr ⟨[0xFF], rfl, .inl (Utf8.decode_eq_error_iff.mp ⟨_, hdecode⟩)⟩

end SupplyGauge.Config
