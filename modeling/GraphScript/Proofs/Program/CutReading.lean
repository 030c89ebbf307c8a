import GraphScript.Proofs.Program.Accepting
import GraphScript.Proofs.Program.StatementSoundness
import GraphScript.Proofs.Program.UncutTokens

namespace GraphScript

/-!
# Readers in front of the end of the text

`Cursor.Cuts` relates a cursor whose tokens are cut at the end of the text to
one in which the end and what stands behind it are still ahead. A reader agrees
on the two if it gives the same from both and leaves them so related: it has
then taken the same tokens from both, and so none from the end on. A reader may
step over a token only where it knows that this is not the end, and this is
what the proofs below come down to.
-/

namespace Cursor

/--
A cursor is another one whose tokens are cut where the text ends.

`tail` is what is cut off. Of the fault reports only their `view` is compared,
because the end that is left may have another place than the one in the tail.
-/
structure Cuts
    (view : FaultReport → FaultReport)
    (tail : List Token)
    (cursor whole : Cursor) :
    Prop where
  inText : ∀ token ∈ cursor.pending, token.kind ≠ .endOfFile
  ends : ∀ token ∈ tail.head?, token.kind = .endOfFile
  pending : whole.pending = cursor.pending ++ tail
  previous : whole.previous = cursor.previous
  faults : whole.faults.map view = cursor.faults.map view
  finish :
    ∀ fault,
      view ⟨fault, (tail.head?.map (·.span)).getD whole.finish⟩ =
        view ⟨fault, cursor.finish⟩

namespace Cuts

variable
  {view : FaultReport → FaultReport}
  {tail : List Token}
  {cursor whole next wholeNext : Cursor}

/-- A token ahead of the cut is ahead of the whole tokens. -/
theorem pending_cons
    (cuts : Cuts view tail cursor whole)
    {token : Token}
    {rest : List Token}
    (ahead : cursor.pending = token :: rest) :
    whole.pending = token :: (rest ++ tail) := by
  rw [cuts.pending, ahead, List.cons_append]

/-- At the cut, the whole tokens have what was cut off ahead. -/
theorem pending_nil
    (cuts : Cuts view tail cursor whole)
    (ahead : cursor.pending = []) :
    whole.pending = tail := by
  rw [cuts.pending, ahead, List.nil_append]

/-- Whether the tokens are cut or not, the same is ahead. -/
theorem kind
    (cuts : Cuts view tail cursor whole) :
    whole.kind = cursor.kind := by
  cases ahead : cursor.pending with
  | nil =>
      have left := cuts.pending_nil ahead
      cases tail with
      | nil =>
          simp only [Cursor.kind, left, ahead]
      | cons token rest =>
          simpa only [Cursor.kind, left, ahead] using cuts.ends token rfl
  | cons token rest =>
      simp only [Cursor.kind, cuts.pending_cons ahead, ahead]

/-- A token that is not the end is at the same place in both. -/
theorem span
    (cuts : Cuts view tail cursor whole)
    (inText : cursor.kind ≠ .endOfFile) :
    whole.span = cursor.span := by
  obtain ⟨token, rest, ahead, _⟩ := pending_of_kind inText
  simp only [Cursor.span, cuts.pending_cons ahead, ahead]

/-- Reports of one fault look alike, whether the next token is the end or not. -/
theorem view_span
    (cuts : Cuts view tail cursor whole)
    (fault : Fault) :
    view ⟨fault, whole.span⟩ = view ⟨fault, cursor.span⟩ := by
  cases ahead : cursor.pending with
  | nil =>
      have left := cuts.pending_nil ahead
      have finish := cuts.finish fault
      cases tail with
      | nil =>
          simp only [Cursor.span, left, ahead]
          exact finish
      | cons token rest =>
          simp only [Cursor.span, left, ahead]
          exact finish
  | cons token rest =>
      simp only [Cursor.span, cuts.pending_cons ahead, ahead]

/-- The limit of errors is reached in both or in neither. -/
theorem isFull
    (cuts : Cuts view tail cursor whole) :
    whole.isFull = cursor.isFull := by
  have sameLength := congrArg List.length cuts.faults
  rw [List.length_map, List.length_map] at sameLength
  rw [Cursor.isFull, Cursor.isFull, sameLength]

/-- Where all of a report counts, the next place is the same. -/
theorem same_span
    (cuts : Cuts id tail cursor whole) :
    whole.span = cursor.span :=
  congrArg (·.span) (cuts.view_span .unterminatedComment)

/-- Where all of a report counts, the reports are the same. -/
theorem same_faults
    (cuts : Cuts id tail cursor whole) :
    whole.faults = cursor.faults := by
  simpa only [List.map_id] using cuts.faults

/-- A fault is reported in both. -/
theorem report
    (cuts : Cuts view tail cursor whole)
    (fault : Fault) :
    Cuts view tail (cursor.report fault) (whole.report fault) where
  inText := cuts.inText
  ends := cuts.ends
  pending := cuts.pending
  previous := cuts.previous
  faults := by
    simp only [Cursor.report, List.map_append, List.map_cons, cuts.faults,
      cuts.view_span, List.map_nil]
  finish := cuts.finish

/-- A fault that may be missing is reported in both or in neither. -/
theorem reportAny
    (cuts : Cuts view tail cursor whole)
    (fault? : Option Fault) :
    Cuts view tail (cursor.reportAny fault?) (whole.reportAny fault?) := by
  cases fault? with
  | none =>
      exact cuts
  | some fault =>
      exact cuts.report fault

/-- What is ahead of the cut is not the end. -/
theorem inText_of_ahead
    (cuts : Cuts view tail cursor whole)
    {token : Token}
    {rest : List Token}
    (ahead : cursor.pending = token :: rest) :
    token.kind ≠ .endOfFile :=
  cuts.inText token (by simp [ahead])

/-- A token ahead of the cut is stepped over in both. -/
theorem advance_token
    (cuts : Cuts view tail cursor whole)
    {token : Token}
    {rest : List Token}
    (ahead : cursor.pending = token :: rest) :
    Cuts view tail cursor.advance whole.advance := by
  have aheadInText := cuts.inText
  rw [ahead] at aheadInText
  simp only [Cursor.advance, ahead, cuts.pending_cons ahead]
  exact
    { inText := fun other member =>
        aheadInText other (List.mem_cons_of_mem token member)
      ends := cuts.ends
      pending := rfl
      previous := rfl
      faults := cuts.faults
      finish := cuts.finish }

/-- A token that is not the end is stepped over in both. -/
theorem advance
    (cuts : Cuts view tail cursor whole)
    (inText : cursor.kind ≠ .endOfFile) :
    Cuts view tail cursor.advance whole.advance := by
  obtain ⟨token, rest, ahead, _⟩ := pending_of_kind inText
  exact cuts.advance_token ahead

/-- Skipping stops at the end of the text, where everything is cut off. -/
theorem synchronize
    (cuts : Cuts view tail cursor whole) :
    Cuts view tail cursor.synchronize whole.synchronizeInText := by
  fun_induction Cursor.synchronize cursor generalizing whole with
  | case1 cursor ahead =>
      have atEnd : cursor.kind = .endOfFile := by
        simp only [Cursor.kind, ahead]
      rw [synchronizeInText_of_end (cuts.kind.trans atEnd)]
      exact cuts
  | case2 cursor token rest ahead isSemicolon =>
      have inText := cuts.inText_of_ahead ahead
      rw [synchronizeInText_of_token (cuts.pending_cons ahead) inText,
        if_pos isSemicolon]
      exact cuts.advance_token ahead
  | case3 cursor token rest ahead notSemicolon stops =>
      have inText := cuts.inText_of_ahead ahead
      rw [synchronizeInText_of_token (cuts.pending_cons ahead) inText,
        if_neg notSemicolon, if_pos stops]
      exact cuts
  | case4 cursor token rest ahead notSemicolon goesOn _ inductionHypothesis =>
      have inText := cuts.inText_of_ahead ahead
      rw [synchronizeInText_of_token (cuts.pending_cons ahead) inText,
        if_neg notSemicolon, if_neg goesOn]
      exact inductionHypothesis (cuts.advance_token ahead)

/-- A token that starts no item is skipped with what follows it. -/
theorem skipItem
    (cuts : Cuts view tail cursor whole)
    {token : Token}
    {rest : List Token}
    (fault : Fault)
    (ahead : cursor.pending = token :: rest) :
    Cuts view tail (cursor.skipItem fault) (whole.skipInText fault) := by
  have reported : (cursor.report fault).pending = token :: rest :=
    ahead
  exact ((cuts.report fault).advance_token reported).synchronize

end Cuts

end Cursor

namespace Reader

variable {α β ρ : Type}

/-- A run from a cut cursor and one from a whole cursor come to the same. -/
structure RunsAlike
    (view : FaultReport → FaultReport)
    (tail : List Token)
    (ran whole : ρ × Cursor) :
    Prop where
  result : whole.1 = ran.1
  cuts : Cursor.Cuts view tail ran.2 whole.2

/-- A run that is alike ends in the same result, with the cursors still related. -/
theorem RunsAlike.exists_next
    {view : FaultReport → FaultReport}
    {tail : List Token}
    {result : ρ}
    {next : Cursor}
    {ran : ρ × Cursor}
    (alike : RunsAlike view tail (result, next) ran) :
    ∃ wholeNext,
      ran = (result, wholeNext) ∧ Cursor.Cuts view tail next wholeNext :=
  ⟨ran.2, Prod.ext alike.result rfl, alike.cuts⟩

/-- A reader does the same from a cut cursor and from the whole one. -/
def AgreesFrom
    (reader : Reader α)
    (view : FaultReport → FaultReport)
    (tail : List Token)
    (cursor whole : Cursor) :
    Prop :=
  Cursor.Cuts view tail cursor whole →
    RunsAlike view tail (reader.run cursor) (reader.run whole)

/-- A reader does the same wherever the tokens are cut at the end of the text. -/
def Agrees
    (reader : Reader α) :
    Prop :=
  ∀ view tail cursor whole, reader.AgreesFrom view tail cursor whole

/-- A reader does from a cut cursor what another one does from the whole one. -/
def AgreesWith
    (reader other : Reader α) :
    Prop :=
  ∀ view tail cursor whole,
    Cursor.Cuts view tail cursor whole →
    RunsAlike view tail (reader.run cursor) (other.run whole)

variable
  {view : FaultReport → FaultReport}
  {tail : List Token}
  {cursor whole : Cursor}

/-- Two readers run one after another in two ways that are alike. -/
theorem RunsAlike.bind
    {first firstWhole : Reader α}
    {second secondWhole : α → Reader β}
    (alike : RunsAlike view tail (first.run cursor) (firstWhole.run whole))
    (alikeOn :
      ∀ value next wholeNext,
        first.run cursor = (some value, next) →
        Cursor.Cuts view tail next wholeNext →
        RunsAlike view tail ((second value).run next)
          ((secondWhole value).run wholeNext)) :
    RunsAlike view tail ((first >>= second).run cursor)
      ((firstWhole >>= secondWhole).run whole) := by
  rw [run_bind, run_bind]
  rcases ran : first.run cursor with ⟨result?, next⟩
  rw [ran] at alike
  obtain ⟨wholeNext, ranWhole, cuts⟩ := alike.exists_next
  rw [ranWhole]
  cases result? with
  | none =>
      exact ⟨rfl, cuts⟩
  | some value =>
      exact alikeOn value next wholeNext ran cuts

namespace AgreesFrom

/-- Giving a value takes no token. -/
theorem pure
    {value : α} :
    (Pure.pure value : Reader α).AgreesFrom view tail cursor whole :=
  fun cuts => ⟨rfl, cuts⟩

/-- A fault is reported at the next token, which is not stepped over. -/
theorem fail
    {fault : Fault} :
    (Reader.fail fault : Reader α).AgreesFrom view tail cursor whole :=
  fun cuts => ⟨rfl, cuts.report fault⟩

/-- A token that is not the end is reported and stepped over in both. -/
theorem failPast
    {fault : Fault}
    (inText : cursor.kind ≠ .endOfFile) :
    (Reader.failPast fault : Reader α).AgreesFrom view tail cursor whole :=
  fun cuts => ⟨rfl, (cuts.report fault).advance inText⟩

/-- Two readers that agree one after another agree as one. -/
theorem bind
    {first : Reader α}
    {second : α → Reader β}
    (agrees : first.AgreesFrom view tail cursor whole)
    (agreesOn :
      ∀ value next wholeNext,
        (second value).AgreesFrom view tail next wholeNext) :
    (first >>= second).AgreesFrom view tail cursor whole :=
  fun cuts => (agrees cuts).bind fun value next wholeNext _ =>
    agreesOn value next wholeNext

/-- The next token looks the same from both. -/
theorem peek
    {second : Token.Kind → Reader β}
    (agrees : (second cursor.kind).AgreesFrom view tail cursor whole) :
    (Reader.peek >>= second).AgreesFrom view tail cursor whole := by
  intro cuts
  show RunsAlike view tail ((second cursor.kind).run cursor)
    ((second whole.kind).run whole)
  rw [cuts.kind]
  exact agrees cuts

/-- What is reported about an unexpected token is its kind, which is the same. -/
theorem unexpected
    {wanted : Expectation} :
    (Reader.unexpected wanted : Reader α).AgreesFrom view tail cursor whole :=
  .peek .fail

/-- A span up to the last token that was stepped over is the same. -/
theorem spanFrom
    {start : Span} :
    (Reader.spanFrom start).AgreesFrom view tail cursor whole :=
  fun cuts => ⟨congrArg (fun last => some (start.merge last)) cuts.previous,
    cuts⟩

/-- A token that is known not to be the end is stepped over in both. -/
theorem token
    {kind : Token.Kind}
    (ahead : cursor.kind = kind)
    (inText : kind ≠ .endOfFile) :
    Reader.advance.AgreesFrom view tail cursor whole := by
  subst ahead
  exact fun cuts => ⟨congrArg some (cuts.span inText), cuts.advance inText⟩

/-- A reader goes on behind a token that is known not to be the end. -/
theorem advance
    {kind : Token.Kind}
    {second : Span → Reader β}
    (ahead : cursor.kind = kind)
    (inText : kind ≠ .endOfFile)
    (agrees :
      ∀ span next wholeNext,
        (second span).AgreesFrom view tail next wholeNext) :
    (Reader.advance >>= second).AgreesFrom view tail cursor whole :=
  (token ahead inText).bind agrees

end AgreesFrom

/-! ## Single tokens -/

/-- A mark is no end, and nothing else is stepped over. -/
theorem mark_agrees
    (sign : Mark) :
    (mark sign).Agrees := by
  intro view tail cursor whole
  refine .peek ?_
  split
  · next isMark =>
    exact .token (Token.Kind.eq_mark isMark) (by simp)
  · exact .unexpected

/-- A closing mark is no end, and nothing else is stepped over. -/
theorem closing_agrees
    (sign : Mark)
    (opening : Span) :
    (closing sign opening).Agrees := by
  intro view tail cursor whole
  refine .peek ?_
  split
  · next isMark =>
    exact .token (Token.Kind.eq_mark isMark) (by simp)
  · exact .unexpected

/-- A keyword is no end, and nothing else is stepped over. -/
theorem keyword_agrees
    (word : Keyword) :
    (keyword word).Agrees := by
  intro view tail cursor whole
  refine .peek ?_
  split
  · next found isKeyword =>
    split
    · exact .token isKeyword (by simp)
    · exact .unexpected
  · exact .unexpected

/-- An identifier is no end, and a keyword in its place is not stepped over. -/
theorem identifier_agrees :
    identifier.Agrees := by
  intro view tail cursor whole
  refine .peek ?_
  split
  · next name isName =>
    exact .advance isName (by simp) fun _ _ _ => .pure
  · exact .fail
  · exact .unexpected

/-- Identifiers and keywords are no ends, and nothing else is stepped over. -/
theorem anyName_agrees :
    anyName.Agrees := by
  intro view tail cursor whole
  refine .peek ?_
  split
  · next name isName =>
    exact .advance isName (by simp) fun _ _ _ => .pure
  · next word isKeyword =>
    exact .advance isKeyword (by simp) fun _ _ _ => .pure
  · exact .unexpected

/-- A missing semicolon is reported, and what stands in its place stays ahead. -/
theorem semicolonAfter_agrees
    (construct : String) :
    (semicolonAfter construct).Agrees := by
  intro view tail cursor whole cuts
  simp only [semicolonAfter, cuts.kind]
  split
  · next isMark =>
    have ahead := Token.Kind.eq_mark isMark
    exact ⟨rfl, cuts.advance (by simp [ahead])⟩
  · exact ⟨rfl, cuts.report _⟩

/-- A mark that may be missing is stepped over only where it stands. -/
theorem optionalMark_agrees
    (sign : Mark) :
    (optionalMark sign).Agrees := by
  intro view tail cursor whole
  refine .peek ?_
  split
  · next isMark =>
    exact .advance (Token.Kind.eq_mark isMark) (by simp) fun _ _ _ => .pure
  · exact .pure

/-! ## Lists -/

section

variable {sign : Mark} {stop : Token.Kind → Bool} {member : Reader α}

/-- A member behind a mark is read before the further ones. -/
theorem furtherRun_of_goesOn
    {cursor : Cursor}
    (isSign : cursor.kind = .mark sign)
    (goesOn : stop cursor.advance.kind = false) :
    furtherRun sign stop member cursor =
      (do
        let value ← member
        let values ← Reader.further sign stop member
        return value :: values :
        Reader (List α)).run cursor.advance := by
  have inText : cursor.kind ≠ .endOfFile := by
    simp [isSign]
  obtain ⟨token, rest, ahead, kind⟩ := Cursor.pending_of_kind inText
  rw [furtherRun, run_bind]
  split
  · next none =>
    simp [none] at ahead
  · next first others pending =>
    obtain ⟨rfl, rfl⟩ := List.cons.inj (pending.symm.trans ahead)
    rw [if_pos (by simp [kind, isSign]), if_neg (by simp [goesOn])]
    split
    · next next ran =>
      rw [ran]
    · next value next ran =>
      dsimp only
      rw [ran]
      simp only [run_bind, run_pure, Reader.further]
      rcases furtherRun sign stop member next with ⟨_ | values, last⟩ <;> rfl

/-- The further members of a list are read the same from both. -/
theorem further_agrees
    (agrees : member.Agrees) :
    (Reader.further sign stop member).Agrees := by
  intro view tail cursor whole
  induction length : cursor.remaining using Nat.strong_induction_on
    generalizing cursor whole with
  | _ _ inductionHypothesis =>
    subst length
    intro cuts
    show RunsAlike view tail (furtherRun sign stop member cursor)
      (furtherRun sign stop member whole)
    cases isSign : cursor.kind.isMark sign with
    | false =>
        rw [furtherRun_of_end isSign,
          furtherRun_of_end (by rwa [cuts.kind])]
        exact ⟨rfl, cuts⟩
    | true =>
        have ahead := Token.Kind.eq_mark isSign
        have inText : cursor.kind ≠ .endOfFile := by
          simp [ahead]
        have cutsBehind := cuts.advance inText
        have aheadWhole := cuts.kind.trans ahead
        cases stops : stop cursor.advance.kind with
        | true =>
            rw [furtherRun_of_stop ahead stops,
              furtherRun_of_stop aheadWhole (by rwa [cutsBehind.kind])]
            exact ⟨rfl, cutsBehind⟩
        | false =>
            rw [furtherRun_of_goesOn ahead stops,
              furtherRun_of_goesOn aheadWhole (by rwa [cutsBehind.kind])]
            refine (agrees view tail _ _ cutsBehind).bind
              fun value next wholeNext ran cutsNext => ?_
            obtain ⟨token, rest, pending, _⟩ := Cursor.pending_of_kind inText
            have shorter : next.remaining < cursor.remaining :=
              Nat.lt_of_le_of_lt (remaining_le_of_run ran)
                (Cursor.remaining_advance_lt pending)
            exact (inductionHypothesis _ shorter next wholeNext rfl
              cutsNext).bind fun _ _ _ _ cutsLast => ⟨rfl, cutsLast⟩

end

/-! ## Attributes, paths and arguments -/

theorem referenceAfter_agrees
    (dollar : Span) :
    (referenceAfter dollar).Agrees :=
  fun _ _ _ _ => (identifier_agrees _ _ _ _).bind fun _ _ _ => .pure

/-- Both separators are no ends. -/
theorem separator_agrees :
    separator.Agrees := by
  intro view tail cursor whole
  refine .peek ?_
  split
  · next isEquals =>
    exact .advance isEquals (by simp) fun _ _ _ => .pure
  · next isColon =>
    exact .advance isColon (by simp) fun _ _ _ => .pure
  · exact .unexpected

/-- None of the tokens that are values is an end. -/
theorem scalar_agrees :
    scalar.Agrees := by
  intro view tail cursor whole
  refine .peek ?_
  split
  · next name isName =>
    exact .advance isName (by simp) fun _ _ _ => .pure
  · next value isNumber =>
    exact .advance isNumber (by simp) fun _ _ _ => .pure
  · next contents isString =>
    exact .advance isString (by simp) fun _ _ _ => .pure
  · next word isKeyword =>
    exact .advance isKeyword (by simp) fun _ _ _ => .pure
  · exact .unexpected

/-- A pair is read alike because its key, its sign and its value are. -/
theorem attributePair_agrees :
    attributePair.Agrees := by
  intro view tail cursor whole
  refine (anyName_agrees _ _ _ _).bind fun key _ _ => ?_
  refine (separator_agrees _ _ _ _).bind fun sign _ _ => ?_
  refine (scalar_agrees _ _ _ _).bind fun value _ _ => ?_
  exact .bind .spanFrom fun span _ _ => .pure

/-- An attribute list ends at its bracket, and an empty one is reported there. -/
theorem attributeList_agrees :
    attributeList.Agrees := by
  intro view tail cursor whole
  refine (mark_agrees .leftBracket _ _ _ _).bind fun opening _ _ => ?_
  refine .peek ?_
  split
  · next isMark =>
    exact .failPast (by simp [Token.Kind.eq_mark isMark])
  · refine (attributePair_agrees _ _ _ _).bind fun first _ _ => ?_
    refine (further_agrees attributePair_agrees _ _ _ _).bind
      fun others _ _ => ?_
    refine (closing_agrees .rightBracket opening _ _ _ _).bind
      fun _ _ _ => ?_
    exact .bind .spanFrom fun span _ _ => .pure

/-- Attributes that may be missing are looked for at the next token alone. -/
theorem attributes?_agrees :
    attributes?.Agrees := by
  intro view tail cursor whole
  refine .peek ?_
  split
  · exact (attributeList_agrees _ _ _ _).bind fun _ _ _ => .pure
  · next isDollar =>
    refine .advance isDollar (by simp) fun dollar _ _ => ?_
    exact (referenceAfter_agrees dollar _ _ _ _).bind fun _ _ _ => .pure
  · exact .pure

/-- A path goes on only behind dots. -/
theorem path_agrees :
    path.Agrees := by
  intro view tail cursor whole
  refine (identifier_agrees _ _ _ _).bind fun first _ _ => ?_
  refine (further_agrees anyName_agrees _ _ _ _).bind fun others _ _ => ?_
  exact .bind .spanFrom fun span _ _ => .pure

/-- The next token tells a path from a literal, and neither starts with an end. -/
theorem argumentSource_agrees :
    argumentSource.Agrees := by
  intro view tail cursor whole
  refine .peek ?_
  split
  · exact (path_agrees _ _ _ _).bind fun _ _ _ => .pure
  · exact (scalar_agrees _ _ _ _).bind fun _ _ _ => .pure

/-- An argument is read alike because its key, its sign and its value are. -/
theorem argument_agrees :
    argument.Agrees := by
  intro view tail cursor whole
  refine (anyName_agrees _ _ _ _).bind fun key _ _ => ?_
  refine (separator_agrees _ _ _ _).bind fun sign _ _ => ?_
  refine (argumentSource_agrees _ _ _ _).bind fun source _ _ => ?_
  exact .bind .spanFrom fun span _ _ => .pure

/-! ## Declarations and statements -/

/-- No edge operator is an end. -/
theorem edgeOperator_agrees :
    edgeOperator.Agrees := by
  intro view tail cursor whole
  refine .peek ?_
  split
  · next sign isOperator =>
    exact .advance (Token.Kind.eq_operator isOperator) (by simp)
      fun _ _ _ => .pure
  · exact .unexpected

/-- What stands behind the left end of an edge is read alike. -/
theorem edgeAfter_agrees
    (left : Identifier) :
    (edgeAfter left).Agrees := by
  intro view tail cursor whole
  refine (edgeOperator_agrees _ _ _ _).bind fun sign _ _ => ?_
  refine (identifier_agrees _ _ _ _).bind fun right _ _ => ?_
  refine (attributes?_agrees _ _ _ _).bind fun attributes _ _ => ?_
  exact .bind .spanFrom fun span _ _ => .pure

/-- An edge is read alike from its left end on. -/
theorem edge_agrees :
    edge.Agrees :=
  fun _ _ _ _ => (identifier_agrees _ _ _ _).bind fun left _ _ =>
    edgeAfter_agrees left _ _ _ _

/-- None of the words for types is an end. -/
theorem variableType_agrees :
    variableType.Agrees := by
  intro view tail cursor whole
  refine .peek ?_
  split
  · next isKeyword =>
    exact .advance isKeyword (by simp) fun _ _ _ => .pure
  · next isKeyword =>
    exact .advance isKeyword (by simp) fun _ _ _ => .pure
  · next isKeyword =>
    exact .advance isKeyword (by simp) fun _ _ _ => .pure
  · exact .unexpected

/-- The token behind the first name tells edges from nodes. -/
theorem namesAfter_agrees
    (first : Identifier) :
    (namesAfter first).Agrees := by
  intro view tail cursor whole
  refine .peek ?_
  split
  · refine (edgeAfter_agrees first _ _ _ _).bind fun firstEdge _ _ => ?_
    exact (further_agrees edge_agrees _ _ _ _).bind fun _ _ _ => .pure
  · exact (further_agrees identifier_agrees _ _ _ _).bind fun _ _ _ => .pure

/-- The first token tells the form of a right-hand side, and it is not the end. -/
theorem variableSource_agrees :
    variableSource.Agrees := by
  intro view tail cursor whole
  refine .peek ?_
  split
  · next isDollar =>
    refine .advance isDollar (by simp) fun dollar _ _ => ?_
    exact (referenceAfter_agrees dollar _ _ _ _).bind fun _ _ _ => .pure
  · exact (attributeList_agrees _ _ _ _).bind fun _ _ _ => .pure
  · exact (identifier_agrees _ _ _ _).bind fun first _ _ =>
      namesAfter_agrees first _ _ _ _
  · exact .unexpected

/-- A variable declaration is read alike behind its first word. -/
theorem variableAfter_agrees
    (start : Span) :
    (variableAfter start).Agrees := by
  intro view tail cursor whole
  refine (variableType_agrees _ _ _ _).bind fun type _ _ => ?_
  refine (identifier_agrees _ _ _ _).bind fun name _ _ => ?_
  refine (mark_agrees .equals _ _ _ _).bind fun _ _ _ => ?_
  refine (variableSource_agrees _ _ _ _).bind fun source _ _ => ?_
  exact .bind .spanFrom fun span _ _ => .pure

/-- A default declaration without attributes is reported where it ends. -/
theorem defaultsAfter_agrees
    (start : Span)
    (target : DefaultTarget) :
    (defaultsAfter start target).Agrees := by
  intro view tail cursor whole
  refine (attributes?_agrees _ _ _ _).bind fun source? _ _ => ?_
  cases source? with
  | some source =>
      exact .bind .spanFrom fun span _ _ => .pure
  | none =>
      exact .unexpected

/-- What stands behind the target of a node statement is read alike. -/
theorem nodeAfter_agrees
    (start : Span)
    (target : NodeTarget) :
    (nodeAfter start target).Agrees := by
  intro view tail cursor whole
  refine (attributes?_agrees _ _ _ _).bind fun attributes _ _ => ?_
  exact .bind .spanFrom fun span _ _ => .pure

/-- The token behind the first name tells an edge from a node statement. -/
theorem statementAfter_agrees
    (first : Identifier) :
    (statementAfter first).Agrees := by
  intro view tail cursor whole
  refine .peek ?_
  split
  · exact (edgeAfter_agrees first _ _ _ _).bind fun _ _ _ => .pure
  · refine (further_agrees identifier_agrees _ _ _ _).bind fun others _ _ => ?_
    exact (nodeAfter_agrees _ _ _ _ _ _).bind fun _ _ _ => .pure

/-- A statement about a variable is read alike behind its dollar sign. -/
theorem referenceStatementAfter_agrees
    (dollar : Span) :
    (referenceStatementAfter dollar).Agrees := by
  intro view tail cursor whole
  refine (referenceAfter_agrees dollar _ _ _ _).bind fun name _ _ => ?_
  exact (nodeAfter_agrees _ _ _ _ _ _).bind fun _ _ _ => .pure

/-! ## Items -/

/-- A reader agrees if the one of what stands before the semicolon does. -/
theorem beforeSemicolon_agrees
    {reader : Reader α}
    {wrap : α → β}
    {construct : String}
    (agrees : reader.Agrees) :
    (do
      let value ← reader
      semicolonAfter construct
      return wrap value).Agrees := by
  intro view tail cursor whole
  refine (agrees _ _ _ _).bind fun value _ _ => ?_
  exact (semicolonAfter_agrees construct _ _ _ _).bind fun _ _ _ => .pure

/-- Every reader of an item of a body does the same from both. -/
theorem bodyItemAfter?_agrees
    {token : Token}
    {reader : Reader BodyItem}
    (starts : bodyItemAfter? token = some reader) :
    reader.Agrees := by
  unfold bodyItemAfter? at starts
  split at starts
  · cases starts
    exact beforeSemicolon_agrees (variableAfter_agrees token.span)
  · obtain ⟨target, _, rfl⟩ := Option.map_eq_some_iff.1 starts
    exact beforeSemicolon_agrees (defaultsAfter_agrees token.span target)
  · cases starts
    exact beforeSemicolon_agrees (referenceStatementAfter_agrees token.span)
  · cases starts
    exact beforeSemicolon_agrees (statementAfter_agrees _)
  · cases starts

/-- Arguments end at the closing parenthesis, also where there are none. -/
theorem arguments_agrees :
    arguments.Agrees := by
  intro view tail cursor whole
  refine .peek ?_
  split
  · exact .pure
  · refine (argument_agrees _ _ _ _).bind fun first _ _ => ?_
    exact (further_agrees argument_agrees _ _ _ _).bind fun _ _ _ => .pure

/-- A command is read alike behind its first word. -/
theorem commandAfter_agrees
    (start : Span) :
    (commandAfter start).Agrees := by
  intro view tail cursor whole
  refine (identifier_agrees _ _ _ _).bind fun name _ _ => ?_
  refine (keyword_agrees .withArguments _ _ _ _).bind fun _ _ _ => ?_
  refine (mark_agrees .leftParenthesis _ _ _ _).bind fun opening _ _ => ?_
  refine (arguments_agrees _ _ _ _).bind fun given _ _ => ?_
  refine (closing_agrees .rightParenthesis opening _ _ _ _).bind
    fun _ _ _ => ?_
  exact .bind .spanFrom fun span _ _ => .pure

end Reader

end GraphScript
