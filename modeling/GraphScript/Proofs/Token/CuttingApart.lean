import GraphScript.Proofs.Token.BlankedText
import GraphScript.Proofs.Token.CharacterReports
import GraphScript.Proofs.Token.Scanning

namespace GraphScript.Token

/-!
# Cutting a text apart

A text of which nothing but stray characters is reported, and of these fewer than
the limit of errors, is cut into gaps, spellings and stray characters, with nothing
left out. A stray character is dropped; each spelling is cut off the text behind it.
-/

/--
A text from a position on, cut into gaps, spellings and stray characters.

Every spelling is cut off the text behind it, and gives a token. Every stray
character gives a report.
-/
inductive CutApart :
    Position →
    List Char →
    List Token →
    List FaultReport →
    Prop where
  | finish
      {position : Position}
      {gap : List Char}
      (isGap : Gap true gap) :
      CutApart position gap
        [⟨.endOfFile, .point (position.advanceBy gap)⟩] []
  | token
      {position : Position}
      {kind : Kind}
      {gap text rest : List Char}
      {tokens : List Token}
      {reports : List FaultReport}
      (isGap : Gap false gap)
      (spelled : Spelled kind text)
      (isCut : Lexeme.CutsOff kind text rest)
      (later : CutApart (position.advanceBy (gap ++ text)) rest tokens reports) :
      CutApart position (gap ++ (text ++ rest))
        (⟨kind, .upTo (position.advanceBy gap)
            (position.advanceBy (gap ++ text))⟩ :: tokens)
        reports
  | stray
      {position : Position}
      {character : Char}
      {gap rest : List Char}
      {tokens : List Token}
      {reports : List FaultReport}
      (isGap : Gap false gap)
      (notLineFeed : character ≠ '\n')
      (later :
        CutApart ((position.advanceBy gap).advance character) rest tokens
          reports) :
      CutApart position (gap ++ character :: rest) tokens
        (⟨.unexpectedCharacter character,
            .upTo (position.advanceBy gap)
              ((position.advanceBy gap).advance character)⟩ :: reports)

/-! ## What else a report can say -/

/-- In a string only unknown escapes and a missing quote are reported. -/
theorem fault_of_stringTail
    {quote : Char}
    {start here : Position}
    {rest : List Char}
    {report : FaultReport}
    (member : report ∈ (stringTail quote start here rest).faults) :
    (∃ letter, report.fault = .invalidEscape letter) ∨
      report.fault = .unterminatedString quote := by
  fun_induction stringTail quote start here rest with
  | case1 =>
      exact .inr (congrArg FaultReport.fault (List.mem_singleton.mp member))
  | case2 =>
      exact .inr (congrArg FaultReport.fault (List.mem_singleton.mp member))
  | case3 =>
      exact .inr (congrArg FaultReport.fault (List.mem_singleton.mp member))
  | case4 here letter rest next isOther tail value isEscape inductionHypothesis =>
      exact inductionHypothesis member
  | case5 here letter rest next isOther tail noEscape span inductionHypothesis =>
      rcases List.mem_cons.mp member with isHere | isLater
      · exact .inl ⟨letter, congrArg FaultReport.fault isHere⟩
      · exact inductionHypothesis isLater
  | case6 =>
      cases member
  | case7 =>
      exact .inr (congrArg FaultReport.fault (List.mem_singleton.mp member))
  | case8 here character rest notLast notEscape notQuote isOther
      inductionHypothesis =>
      exact inductionHypothesis member

/-- Only a stray character is reported as an invalid character. -/
theorem notInvalidCharacter_of_stringTail
    {quote : Char}
    {start here : Position}
    {rest : List Char}
    {report : FaultReport}
    (member : report ∈ (stringTail quote start here rest).faults) :
    report.fault.code ≠ .invalidCharacter := by
  rcases fault_of_stringTail member with ⟨letter, isFault⟩ | isFault
  · rw [isFault, Fault.code]
    decide
  · rw [isFault, Fault.code]
    decide

/-- Whether nothing but stray characters is reported. -/
def AreStray
    (reports : List FaultReport) :
    Prop :=
  ∀ report ∈ reports, report.fault.code = .invalidCharacter

namespace Lexeme

variable
  {first : Char}
  {kind : Kind}
  {rest : List Char}
  {position : Position}

theorem faultless_of_areStray
    (isToken : (ofHead first rest position).kind? = some kind)
    (areStray : AreStray (ofHead first rest position).faults) :
    (ofHead first rest position).faults = [] := by
  by_cases isQuote : IsQuote first
  · rw [ofHead_of_isQuote isQuote] at areStray ⊢
    apply List.eq_nil_iff_forall_not_mem.mpr
    intro report member
    exact notInvalidCharacter_of_stringTail member (areStray report member)
  · exact faults_of_token isQuote isToken

/-- A token without other reports is a spelling that is cut off the text. -/
theorem exists_cutsOff_of_token
    (isToken : (ofHead first rest position).kind? = some kind)
    (areStray : AreStray (ofHead first rest position).faults) :
    ∃ text after,
      first :: rest = text ++ after ∧
        ofHead first rest position = token kind text.length ∧
        Spelled kind text ∧
        CutsOff kind text after := by
  have faultless := faultless_of_areStray isToken areStray
  obtain ⟨found, text, after, isText, isLexeme, spelled⟩ :=
    ofHead_startsText faultless
  have isKind : found = kind := by
    rw [isLexeme] at isToken
    exact Option.some.inj isToken
  subst isKind
  refine ⟨text, after, isText, isLexeme, spelled, ?_⟩
  cases text with
  | nil =>
      have positive := length_ofHead_pos first rest position
      rw [isLexeme] at positive
      exact absurd positive (Nat.lt_irrefl 0)
  | cons head tail =>
      cases isText
      exact cutsOff_of_blanked spelled rfl isLexeme (.refl after)

end Lexeme

namespace Scanner

variable
  {scanner ahead next : Scanner}
  {reports : List FaultReport}

/-! ## A run that reports nothing but stray characters -/

theorem isFull_iff :
    scanner.isFull = true ↔
      Diagnostic.errorLimit ≤ scanner.faults.length := by
  simp [isFull]

theorem endsComments_of_areStray
    (areStray : AreStray scanner.faults) :
    scanner.EndsComments := by
  intro report member isOpen
  have isInvalid := areStray report member
  rw [isOpen] at isInvalid
  cases isInvalid

theorem areStray_of_pass
    {lexeme : Lexeme}
    {faults : List FaultReport}
    (areStray : AreStray faults)
    (areFaults : faults = (scanner.pass lexeme).faults ++ reports) :
    AreStray scanner.faults ∧ AreStray lexeme.faults := by
  rw [areFaults] at areStray
  exact List.forall_mem_append.mp (List.forall_mem_append.mp areStray).1

theorem pass_stray
    {character : Char}
    {rest : List Char}
    (isRest : scanner.rest = character :: rest) :
    scanner.pass (.stray character scanner.position) =
      ⟨rest, scanner.position.advance character,
        scanner.faults ++
          [⟨.unexpectedCharacter character,
            .upTo scanner.position (scanner.position.advance character)⟩]⟩ := by
  simp [pass, report, skip, Lexeme.stray, isRest]

/-- A gap and a stray character are cut off a text in front of the rest. -/
theorem cutApart_of_stray
    {gap rest : List Char}
    {character : Char}
    {tokens : List Token}
    (passesGap : scanner.Passes gap ahead)
    (isGap : Gap false gap)
    (isRest : ahead.rest = character :: rest)
    (notLineFeed : character ≠ '\n')
    (later :
      CutApart (ahead.position.advance character) rest tokens reports) :
    CutApart scanner.position scanner.rest tokens
      (⟨.unexpectedCharacter character,
        .upTo ahead.position (ahead.position.advance character)⟩ ::
          reports) := by
  rw [passesGap.position] at later ⊢
  rw [passesGap.isRest, isRest]
  exact .stray isGap notLineFeed later

/-- A gap and a spelling are cut off a text in front of the rest. -/
theorem cutApart_of_token
    {gap text : List Char}
    {kind : Kind}
    {tokens : List Token}
    (passesGap : scanner.Passes gap ahead)
    (isGap : Gap false gap)
    (passesText : ahead.Passes text next)
    (spelled : Spelled kind text)
    (isCut : Lexeme.CutsOff kind text next.rest)
    (later : CutApart next.position next.rest tokens reports) :
    CutApart scanner.position scanner.rest
      (⟨kind, .upTo ahead.position next.position⟩ :: tokens) reports := by
  have passesBoth := passesGap.append passesText
  rw [passesBoth.position] at later ⊢
  rw [passesGap.position, passesBoth.isRest, List.append_assoc]
  exact .token isGap spelled isCut later

/-- The scanner cuts a text apart if it reports nothing but stray characters. -/
theorem exists_cutApart_of_tokens
    (few : scanner.tokens.2.faults.length < Diagnostic.errorLimit)
    (areStray : AreStray scanner.tokens.2.faults) :
    ∃ reports,
      scanner.tokens.2.faults = scanner.faults ++ reports ∧
        CutApart scanner.position scanner.rest scanner.tokens.1 reports := by
  fun_induction tokens scanner with
  | case1 scanner ahead isFull =>
      exact absurd (isFull_iff.mp isFull) (Nat.not_le_of_lt few)
  | case2 scanner ahead notFull atEnd =>
      obtain ⟨gap, passesGap, isGap, -⟩ :=
        exists_gap (endsComments_of_areStray areStray)
      have isRest : scanner.rest = gap := by
        rw [passesGap.isRest, show scanner.skipSeparators.rest = [] from atEnd,
          List.append_nil]
      refine ⟨[], ?_, ?_⟩
      · rw [List.append_nil]
        exact passesGap.faults
      · rw [isRest, endToken, passesGap.position]
        exact .finish isGap.toEnd
  | case3 scanner ahead notFull character rest isRest lexeme next _ noToken
      inductionHypothesis =>
      obtain ⟨reports, areFaults, later⟩ := inductionHypothesis few areStray
      obtain ⟨strayAhead, -⟩ := areStray_of_pass areStray areFaults
      obtain ⟨gap, passesGap, isGap, -⟩ :=
        exists_gap (endsComments_of_areStray strayAhead)
      have isNext := pass_stray isRest
      rw [← show lexeme = _ from Lexeme.eq_stray_of_noToken noToken] at isNext
      have nextPosition : next.position = ahead.position.advance character :=
        congrArg Scanner.position isNext
      have nextRest : next.rest = rest :=
        congrArg Scanner.rest isNext
      have nextFaults : next.faults = _ :=
        congrArg Scanner.faults isNext
      rw [show scanner.skipSeparators.rest = _ from isRest] at isGap
      rw [nextPosition, nextRest] at later
      refine ⟨_, ?_, cutApart_of_stray passesGap isGap isRest
        (notLineFeed_of_skipSeparators isRest).symm later⟩
      rw [areFaults, nextFaults, List.append_assoc]
      exact congrArg (· ++ _) passesGap.faults
  | case4 scanner ahead notFull character rest isRest lexeme next _ kind isToken
      token isFull =>
      exact absurd (isFull_iff.mp isFull) (Nat.not_le_of_lt few)
  | case5 scanner ahead notFull character rest isRest lexeme next _ kind isToken
      token notFullLater tokensBehind last isLater inductionHypothesis =>
      rw [isLater] at inductionHypothesis
      obtain ⟨reports, areFaults, later⟩ := inductionHypothesis few areStray
      obtain ⟨strayAhead, strayLexeme⟩ := areStray_of_pass areStray areFaults
      obtain ⟨gap, passesGap, isGap, -⟩ :=
        exists_gap (endsComments_of_areStray strayAhead)
      obtain ⟨text, after, isText, isLexeme, spelled, isCut⟩ :=
        Lexeme.exists_cutsOff_of_token isToken strayLexeme
      rw [show scanner.skipSeparators.rest = _ from isRest] at isGap
      have isNext : next = ahead.skip text.length := by
        rw [← pass_token]
        exact congrArg ahead.pass isLexeme
      have nextRest : next.rest = after := by
        rw [isNext]
        exact rest_skip_of_append (isRest.trans isText)
      have passesText : ahead.Passes text next := by
        rw [isNext]
        exact passes_skip (isRest.trans isText)
      rw [← nextRest] at isCut
      refine ⟨reports, ?_,
        cutApart_of_token passesGap isGap passesText spelled isCut later⟩
      rw [← (passesGap.append passesText).faults]
      exact areFaults

/-! ## A run over a text without stray characters -/

theorem tokens_of_cutApart
    {position : Position}
    {text : List Char}
    {tokens : List Token}
    (cut : CutApart position text tokens reports)
    (noReports : reports = [])
    (isPosition : scanner.position = position)
    (isRest : scanner.rest = text)
    (faultless : scanner.faults = []) :
    scanner.tokens.1 = tokens ∧ scanner.tokens.2.faults = [] := by
  induction cut generalizing scanner with
  | @finish position gap isGap =>
      have passesGap := passes_skip (isRest.trans (List.append_nil gap).symm)
      have atEnd := rest_skip_of_append (isRest.trans (List.append_nil gap).symm)
      rw [tokens_of_gap passesGap isGap atEnd, endToken, passesGap.position,
        isPosition]
      exact ⟨rfl, passesGap.faults.trans faultless⟩
  | @token position kind gap text rest tokens reports isGap spelled isCut later
      inductionHypothesis =>
      have passesGap := passes_skip isRest
      have passesText := passes_skip (rest_skip_of_append isRest)
      have isLater := rest_skip_of_append (rest_skip_of_append isRest)
      have passesBoth := passesGap.append passesText
      rw [← isLater] at isCut
      have isNext := passesBoth.position
      rw [isPosition] at isNext
      obtain ⟨areTokens, noFaults⟩ :=
        inductionHypothesis noReports isNext isLater
          (passesBoth.faults.trans faultless)
      rw [tokens_of_cutsOff passesGap isGap passesText isCut faultless,
        passesGap.position, isNext, isPosition]
      exact ⟨by rw [areTokens], noFaults⟩
  | stray =>
      cases noReports

end Scanner

end GraphScript.Token
