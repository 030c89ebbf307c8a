import GraphScript.Proofs.Diagnostic.Collecting
import GraphScript.Proofs.Source.Blanking
import GraphScript.Proofs.Token.CuttingApart
import GraphScript.Script

namespace GraphScript.Token

/-!
# Stray characters

A character that starts no token is reported and dropped. As long as nothing else
is reported, and the limit of errors is not reached, such characters have no other
effect: the tokens of a text are those of the same text with spaces in their place.
-/

namespace CutApart

variable
  {position : Position}
  {text : List Char}
  {tokens : List Token}
  {reports : List FaultReport}
  {report : FaultReport}

/-- A gap may stand in front. -/
theorem behind
    {gap : List Char}
    (isGap : Gap false gap)
    (cut : CutApart (position.advanceBy gap) text tokens reports) :
    CutApart position (gap ++ text) tokens reports := by
  cases cut with
  | finish isLater =>
      rw [← Position.advanceBy_append]
      exact .finish (isGap.append isLater)
  | token isLater spelled isCut later =>
      simp only [← Position.advanceBy_append, ← List.append_assoc] at later ⊢
      rw [List.append_assoc _ _ _]
      exact .token (isGap.append isLater) spelled isCut later
  | stray isLater notLineFeed later =>
      simp only [← Position.advanceBy_append, ← List.append_assoc] at later ⊢
      exact .stray (isGap.append isLater) notLineFeed later

theorem le_start
    (cut : CutApart position text tokens reports)
    (member : report ∈ reports) :
    position ≤ report.span.start := by
  induction cut with
  | finish =>
      cases member
  | token isGap spelled isCut later inductionHypothesis =>
      exact (Position.le_advanceBy _ _).trans (inductionHypothesis member)
  | stray isGap notLineFeed later inductionHypothesis =>
      rcases List.mem_cons.mp member with rfl | isLater
      · exact Position.le_advanceBy _ _
      · exact ((Position.le_advanceBy _ _).trans (Position.le_advance _ _)).trans
          (inductionHypothesis isLater)

/-- Every report ends before the next ones start. -/
theorem pairwise_precedes
    (cut : CutApart position text tokens reports)
    (placed : 1 ≤ position.column) :
    reports.Pairwise fun earlier later => earlier.span.Precedes later.span := by
  induction cut with
  | finish =>
      exact List.Pairwise.nil
  | token isGap spelled isCut later inductionHypothesis =>
      exact inductionHypothesis (Position.one_le_column_advanceBy placed _)
  | @stray position character gap rest tokens reports isGap notLineFeed later
      inductionHypothesis =>
      have placedHere := Position.one_le_column_advanceBy placed gap
      have oneLine : '\n' ∉ [character] := by
        simpa using Ne.symm notLineFeed
      refine List.pairwise_cons.mpr ⟨fun other member => ?_,
        inductionHypothesis
          (Position.one_le_column_advanceBy placedHere [character])⟩
      exact lt_of_lt_of_le
        (Span.upTo_of_oneLine placedHere (List.cons_ne_nil _ _) oneLine).2
        (later.le_start member)

/-! ## Spaces for stray characters -/

/-- Spaces for the bytes of a character lead to the position behind it. -/
theorem advanceBy_spaces
    {character : Char}
    (notLineFeed : character ≠ '\n')
    (position : Position) :
    position.advanceBy (List.replicate character.utf8Size ' ') =
      position.advance character := by
  rw [← Position.advanceByBytes_utf8Bytes, utf8Bytes_replicate_space,
    Position.advanceByBytes_of_oneLine, List.length_replicate,
    Position.advance, if_neg notLineFeed]
  intro member
  cases List.eq_of_mem_replicate member

/-- With spaces over what is reported, the same tokens are cut off a text. -/
theorem exists_blanked
    (cut : CutApart position text tokens reports)
    (placed : 1 ≤ position.column) :
    ∃ blankedText,
      Blanked text blankedText ∧
        CutApart position blankedText tokens [] ∧
        utf8Bytes blankedText =
          blankUnder (reports.map FaultReport.span) position
            (utf8Bytes text) := by
  induction cut with
  | @finish position gap isGap =>
      refine ⟨gap, .refl gap, .finish isGap, ?_⟩
      rw [List.map_nil, blankUnder_of_before]
      intro _ member
      cases member
  | @token position kind gap text rest tokens reports isGap spelled isCut later
      inductionHypothesis =>
      obtain ⟨blankedRest, blanked, cutBlanked, areBytes⟩ :=
        inductionHypothesis (Position.one_le_column_advanceBy placed _)
      have isCutBlanked : Lexeme.CutsOff kind text blankedRest := by
        obtain ⟨first, tail, isText, isToken⟩ := isCut
        exact Lexeme.cutsOff_of_blanked spelled isText (isToken .origin) blanked
      refine ⟨gap ++ (text ++ blankedRest), .keptAll gap (.keptAll text blanked),
        .token isGap spelled isCutBlanked cutBlanked, ?_⟩
      have areLater :
          ∀ span ∈ reports.map FaultReport.span,
            position.advanceBy (gap ++ text) ≤ span.start := by
        intro span member
        obtain ⟨report, isReport, rfl⟩ := List.mem_map.mp member
        exact later.le_start isReport
      rw [← List.append_assoc, ← List.append_assoc, utf8Bytes_append, areBytes,
        utf8Bytes_append (gap ++ text) rest, blankUnder_text areLater]
  | @stray position character gap rest tokens reports isGap notLineFeed later
      inductionHypothesis =>
      have placedHere := Position.one_le_column_advanceBy placed gap
      obtain ⟨blankedRest, blanked, cutBlanked, areBytes⟩ :=
        inductionHypothesis
          (Position.one_le_column_advanceBy placedHere [character])
      refine ⟨gap ++ (List.replicate character.utf8Size ' ' ++ blankedRest),
        .keptAll gap (.blanked character blanked), ?_, ?_⟩
      · rw [← advanceBy_spaces notLineFeed] at cutBlanked
        exact (cutBlanked.behind (.spaces _)).behind isGap
      · have areLater :
            ∀ span ∈
              (Span.upTo (position.advanceBy gap)
                  ((position.advanceBy gap).advance character)) ::
                reports.map FaultReport.span,
              position.advanceBy gap ≤ span.start := by
          intro span member
          rcases List.mem_cons.mp member with rfl | isLater
          · exact le_refl _
          · obtain ⟨report, isReport, rfl⟩ := List.mem_map.mp isLater
            exact (Position.le_advance _ _).trans (later.le_start isReport)
        rw [List.map_cons, utf8Bytes_append, utf8Bytes_append, areBytes,
          utf8Bytes_append, blankUnder_text areLater, utf8Bytes_cons,
          blankUnder_character notLineFeed placedHere]

end CutApart

/-- A text with only stray characters has the tokens of a text without them. -/
theorem exists_blanked_scan
    {text : List Char}
    (few : (scan text).faults.length < Diagnostic.errorLimit)
    (areStray : AreStray (scan text).faults) :
    (scan text).faults.Pairwise
        (fun earlier later => earlier.span.Precedes later.span) ∧
      ∃ blankedText,
        utf8Bytes blankedText =
            blankUnder ((scan text).faults.map FaultReport.span) .origin
              (utf8Bytes text) ∧
          (scan blankedText).faults = [] ∧
          (scan blankedText).tokens = (scan text).tokens := by
  have atStart : 1 ≤ Position.origin.column := Nat.le_refl 1
  obtain ⟨reports, areFaults, cut⟩ :
      ∃ reports,
        (scan text).faults = [] ++ reports ∧
          CutApart .origin text (scan text).tokens reports :=
    Scanner.exists_cutApart_of_tokens few areStray
  rw [List.nil_append] at areFaults
  obtain ⟨blankedText, -, cutBlanked, areBytes⟩ := cut.exists_blanked atStart
  have scanned :
      (scan blankedText).tokens = (scan text).tokens ∧
        (scan blankedText).faults = [] :=
    Scanner.tokens_of_cutApart cutBlanked rfl rfl rfl rfl
  rw [areFaults]
  exact ⟨cut.pairwise_precedes atStart, blankedText, areBytes, scanned.2,
    scanned.1⟩

end GraphScript.Token

namespace GraphScript

/-! ## The log of a scan -/

namespace FaultReport

variable
  {source : SourceFile}
  {reports : List FaultReport}

theorem ofSeverity_diagnostics
    (source : SourceFile)
    (reports : List FaultReport) :
    Diagnostic.ofSeverity .error (reports.map (·.diagnostic source)) =
      reports.map (·.diagnostic source) := by
  apply Diagnostic.ofSeverity_eq_self
  intro diagnostic member
  obtain ⟨report, -, rfl⟩ := List.mem_map.mp member
  rfl

theorem totalErrors_log
    (source : SourceFile)
    (reports : List FaultReport) :
    (log source reports).totalErrors = reports.length := by
  have shows := Diagnostic.Log.shows_ofList (reports.map (·.diagnostic source))
  rw [log, shows.totalErrors, ofSeverity_diagnostics, List.length_map]

/-- The first reports are stored, up to the limit. -/
theorem errors_log_eq_take
    (source : SourceFile)
    (reports : List FaultReport) :
    (log source reports).errors =
      (reports.take Diagnostic.errorLimit).map (·.diagnostic source) := by
  have shows := Diagnostic.Log.shows_ofList (reports.map (·.diagnostic source))
  rw [log, shows.errors, ofSeverity_diagnostics, List.map_take]

/-- As long as there are few enough reports, all of them are stored. -/
theorem errors_log
    (few : reports.length < Diagnostic.errorLimit) :
    (log source reports).errors = reports.map (·.diagnostic source) := by
  rw [errors_log_eq_take, List.take_of_length_le few.le]

end FaultReport

/-- Only a character that starts no token has the code of an invalid character. -/
theorem Fault.exists_unexpectedCharacter
    {fault : Fault}
    (isInvalid : fault.code = .invalidCharacter) :
    ∃ character, fault = .unexpectedCharacter character := by
  unfold Fault.code at isInvalid
  split at isInvalid
  · exact ⟨_, rfl⟩
  all_goals exact absurd isInvalid (by decide)

namespace Script

/--
Skipping stray characters is blanking them.

Where a script has fewer errors than are stored, and all of them are about invalid
characters, spaces over the bytes of these characters give a script without errors
that has the same tokens at the same places. Each of the errors covers one
character, and no character is covered twice.
-/
theorem skipping_strays_is_blanking
    (source : SourceFile)
    (few : (ofSource source).tokenLog.totalErrors < Diagnostic.errorLimit)
    (areInvalid :
      ∀ error ∈ (ofSource source).tokenLog.errors,
        error.code = .invalidCharacter) :
    (∃ blankedText : String,
      utf8Bytes blankedText.toList =
          blankUnder ((ofSource source).tokenLog.errors.map Diagnostic.span)
            .origin (utf8Bytes source.contents.toList) ∧
        (ofSource ⟨source.name, blankedText⟩).tokenLog = .empty ∧
        (ofSource ⟨source.name, blankedText⟩).scan.tokens =
          (ofSource source).scan.tokens) ∧
      ((ofSource source).tokenLog.errors.Pairwise fun earlier later =>
        earlier.span.Precedes later.span) ∧
      ∀ error ∈ (ofSource source).tokenLog.errors,
        ∃ character,
          error.Covers source "Unexpected character '" [character] := by
  have fewFaults :
      (Token.scan source.contents.toList).faults.length <
        Diagnostic.errorLimit := by
    rw [← FaultReport.totalErrors_log source]
    exact few
  have areErrors :
      (ofSource source).tokenLog.errors =
        (Token.scan source.contents.toList).faults.map (·.diagnostic source) :=
    FaultReport.errors_log fewFaults
  have areStray : Token.AreStray (Token.scan source.contents.toList).faults := by
    intro report member
    rw [areErrors] at areInvalid
    exact areInvalid _ (List.mem_map_of_mem member)
  obtain ⟨inOrder, blankedText, areBytes, faultless, sameTokens⟩ :=
    Token.exists_blanked_scan fewFaults areStray
  rw [areErrors]
  refine ⟨⟨String.ofList blankedText, ?_, ?_, ?_⟩, ?_, ?_⟩
  · rw [String.toList_ofList, areBytes, List.map_map]
    rfl
  · rw [tokenLog, ofSource, String.toList_ofList, faultless]
    rfl
  · rw [ofSource, String.toList_ofList]
    exact sameTokens
  · exact List.pairwise_map.mpr inOrder
  · intro error isError
    obtain ⟨⟨fault, span⟩, member, rfl⟩ := List.mem_map.mp isError
    obtain ⟨character, rfl⟩ :=
      Fault.exists_unexpectedCharacter (areStray _ member)
    exact ⟨character,
      Token.covers_unexpectedCharacter (Token.standsIn_of_scan member)⟩

/-- A letter with an accent and three lone signs stand beside tokens. -/
def straySignsFile : SourceFile :=
  ⟨"words", "a é-b</1.5"⟩

theorem skipping_strays_is_blanking_of_signs :
    (ofSource straySignsFile).tokenLog.totalErrors = 4 ∧
      (∀ error ∈ (ofSource straySignsFile).tokenLog.errors,
        error.code = .invalidCharacter) ∧
      ∃ blankedText : String,
        utf8Bytes blankedText.toList = utf8Bytes "a    b  1.5".toList ∧
          (ofSource ⟨"words", blankedText⟩).tokenLog = .empty ∧
          (ofSource ⟨"words", blankedText⟩).scan.tokens =
            (ofSource straySignsFile).scan.tokens := by
  have areFour : (ofSource straySignsFile).tokenLog.totalErrors = 4 := by
    decide +kernel
  have areInvalid :
      ∀ error ∈ (ofSource straySignsFile).tokenLog.errors,
        error.code = .invalidCharacter := by
    decide +kernel
  have areSpaces :
      blankUnder
          ((ofSource straySignsFile).tokenLog.errors.map Diagnostic.span)
          .origin (utf8Bytes straySignsFile.contents.toList) =
        utf8Bytes "a    b  1.5".toList := by
    decide +kernel
  have few :
      (ofSource straySignsFile).tokenLog.totalErrors < Diagnostic.errorLimit := by
    rw [areFour]
    decide
  obtain ⟨⟨blankedText, areBytes, noErrors, sameTokens⟩, -, -⟩ :=
    skipping_strays_is_blanking straySignsFile few areInvalid
  exact ⟨areFour, areInvalid, blankedText, areBytes.trans areSpaces, noErrors,
    sameTokens⟩

end Script

end GraphScript
