import GraphScript.Proofs.Program.CutLoops
import GraphScript.Proofs.Program.Hulls

namespace GraphScript

/-!
# Reading always makes progress

Each iteration of a loop over items that does not break steps over a token at
least, and never over an end of the text. So the loops come to their ends in
front of the first one, whatever the tokens are, and it makes no difference to
what is read whether the tokens behind it are cut off before, or are others.
-/

/-! ## Ways within the text -/

namespace Cursor

/-- The way from one place to another steps over tokens, none of which is an end. -/
structure StepsInText
    (cursor : Cursor)
    (tokens : List Token)
    (next : Cursor) :
    Prop extends
    cursor.StepsOver tokens next where
  inText : ∀ token ∈ tokens, token.kind ≠ .endOfFile

namespace StepsInText

variable {cursor middle next : Cursor} {tokens more : List Token}

theorem refl
    (cursor : Cursor) :
    cursor.StepsInText [] cursor :=
  ⟨.refl cursor, by simp⟩

theorem trans
    (steps : cursor.StepsInText tokens middle)
    (stepsOn : middle.StepsInText more next) :
    cursor.StepsInText (tokens ++ more) next where
  toStepsOver := steps.toStepsOver.trans stepsOn.toStepsOver
  inText := by
    intro token member
    rcases List.mem_append.1 member with member | member
    · exact steps.inText token member
    · exact stepsOn.inText token member

/-- What starts with an end of the text is not stepped into. -/
theorem suffix_of_end
    (steps : cursor.StepsInText tokens next)
    {behind : List Token}
    {finish : Token}
    (isEnd : finish.kind = .endOfFile)
    (ahead : finish :: behind <:+ cursor.pending) :
    finish :: behind <:+ next.pending := by
  obtain ⟨text, isText⟩ := ahead
  have split := steps.split
  rw [← isText] at split
  rcases List.append_eq_append_iff.1 split with
    ⟨more, isTokens, isRest⟩ | ⟨more, -, isNext⟩
  · cases more with
    | nil =>
        rw [List.nil_append] at isRest
        exact isRest ▸ List.suffix_refl _
    | cons token others =>
        obtain ⟨rfl, -⟩ := List.cons.inj isRest
        refine absurd isEnd (steps.inText finish ?_)
        simp [isTokens]
  · exact isNext ▸ List.suffix_append more _

end StepsInText

/-- A token that is still ahead after a way that skips none is stepped over. -/
theorem stepsInText_token
    {cursor next : Cursor}
    {token : Token}
    {rest : List Token}
    (stays : cursor.StepsOver [] next)
    (ahead : cursor.pending = token :: rest)
    (inText : token.kind ≠ .endOfFile) :
    cursor.StepsInText [token] next.advance :=
  ⟨stays.advance ahead, by simpa using inText⟩

theorem stepsInText_synchronizeInText
    (cursor : Cursor) :
    ∃ tokens, cursor.StepsInText tokens cursor.synchronizeInText := by
  fun_induction synchronizeInText cursor with
  | case1 cursor =>
      exact ⟨[], .refl cursor⟩
  | case2 cursor =>
      exact ⟨[], .refl cursor⟩
  | case3 cursor token rest ahead notEnd =>
      rw [Token.Kind.isEndOfFile_iff] at notEnd
      exact ⟨[token], stepsInText_token (.refl cursor) ahead notEnd⟩
  | case4 cursor =>
      exact ⟨[], .refl cursor⟩
  | case5 cursor token rest ahead notEnd _ _ _ inductionHypothesis =>
      rw [Token.Kind.isEndOfFile_iff] at notEnd
      obtain ⟨tokens, steps⟩ := inductionHypothesis
      exact ⟨_, (stepsInText_token (.refl cursor) ahead notEnd).trans steps⟩

theorem stepsInText_skipInText
    {cursor : Cursor}
    {token : Token}
    {rest : List Token}
    (fault : Fault)
    (ahead : cursor.pending = token :: rest)
    (inText : token.kind ≠ .endOfFile) :
    ∃ more, cursor.StepsInText (token :: more) (cursor.skipInText fault) := by
  have steps :=
    stepsInText_token (cursor.stepsOver_report fault) ahead inText
  obtain ⟨more, stepsOn⟩ :=
    (cursor.report fault).advance.stepsInText_synchronizeInText
  exact ⟨more, steps.trans stepsOn⟩

theorem stepsOver_reportAny
    (cursor : Cursor)
    (fault? : Option Fault) :
    cursor.StepsOver [] (cursor.reportAny fault?) := by
  cases fault? with
  | none =>
      exact .refl cursor
  | some fault =>
      exact cursor.stepsOver_report fault

/-! ## Cutting a cursor -/

/-- The tokens of every cursor can be cut at the next end of the text. -/
theorem exists_cuts
    (whole : Cursor) :
    ∃ cursor tail, Cuts id tail cursor whole := by
  let inText (token : Token) : Bool := !token.kind.isEndOfFile
  let tail := whole.pending.dropWhile inText
  refine ⟨{ whole with
      pending := whole.pending.takeWhile inText
      finish := (tail.head?.map (·.span)).getD whole.finish }, tail, ?_⟩
  exact
    { inText := by
        intro token member isEnd
        have notEnd := List.mem_takeWhile_imp member
        simp [inText, isEnd, Token.Kind.isEndOfFile] at notEnd
      ends := by
        intro token isFirst
        have stops := List.head?_dropWhile_not inText whole.pending
        rw [isFirst] at stops
        simpa [inText, Token.Kind.isEndOfFile_iff] using stops
      pending := List.takeWhile_append_dropWhile.symm
      previous := rfl
      faults := rfl
      finish := fun _ => rfl }

/-- What is stepped over from a cut cursor is stepped over from the whole one. -/
theorem Cuts.stepsInText
    {view : FaultReport → FaultReport}
    {tail tokens : List Token}
    {cursor whole next wholeNext : Cursor}
    (cuts : Cuts view tail cursor whole)
    (cutsNext : Cuts view tail next wholeNext)
    (steps : cursor.StepsOver tokens next) :
    whole.StepsInText tokens wholeNext where
  split := by
    rw [cuts.pending, steps.split, cutsNext.pending, List.append_assoc]
  previous := by
    rw [cuts.previous, cutsNext.previous, steps.previous]
  inText := by
    intro token member
    refine cuts.inText token ?_
    rw [steps.split]
    exact List.mem_append_left _ member

end Cursor

namespace Reader

variable {σ α : Type}

/-- A reader that agrees with one which steps over tokens stays in the text. -/
theorem AgreesWith.stepsInText
    {reader other : Reader α}
    {taken : List Token}
    {placed : α → List Token → Prop}
    {whole : Cursor}
    (agrees : reader.AgreesWith other)
    (places : ∀ cursor, reader.PlacesFrom cursor taken placed)
    (behind : whole.Behind taken) :
    ∃ tokens, whole.StepsInText tokens (other.run whole).2 := by
  obtain ⟨cursor, tail, cuts⟩ := whole.exists_cuts
  have behindCut : cursor.Behind taken := fun last isLast =>
    cuts.previous ▸ behind last isLast
  obtain ⟨tokens, steps, _⟩ := places cursor behindCut
  exact ⟨tokens, cuts.stepsInText (agrees id tail cursor whole cuts).cuts steps⟩

theorem Iteration.stepsInText_recovered
    {cursor : Cursor}
    {ran : Option α × Cursor}
    {tokens : List Token}
    (state : σ)
    (steps : cursor.StepsInText tokens ran.2) :
    ∃ more,
      cursor.StepsInText (tokens ++ more) (Iteration.recovered state ran).next := by
  obtain ⟨item?, next⟩ := ran
  cases item? with
  | some item =>
      exact ⟨[], steps.trans (.refl next)⟩
  | none =>
      obtain ⟨more, stepsOn⟩ := next.stepsInText_synchronizeInText
      exact ⟨more, steps.trans stepsOn⟩

/-! ## Iterations -/

/-- Each iteration steps over a token at least, and over no end of the text. -/
def Loop.Progresses
    (loop : Loop σ α) :
    Prop :=
  ∀ {state cursor iteration},
    loop.iteration? state cursor = some iteration →
    ∃ token more, cursor.StepsInText (token :: more) iteration.next

/-- No iterations, however many, lead into the given tokens from before them. -/
def Loop.StaysBefore
    (loop : Loop σ α)
    (tail : List Token) :
    Prop :=
  ∀ {state cursor items final last},
    tail <:+ cursor.pending →
    loop.Leads state cursor items final last →
    tail <:+ last.pending

/-- Iterations stay in the text, however many there are. -/
theorem Loop.Leads.stepsInText
    {loop : Loop σ α}
    {state final : σ}
    {cursor last : Cursor}
    {items : List α}
    (progresses : loop.Progresses)
    (leads : loop.Leads state cursor items final last) :
    ∃ tokens, cursor.StepsInText tokens last := by
  induction leads with
  | stay state cursor =>
      exact ⟨[], .refl cursor⟩
  | iterate iterates _ inductionHypothesis =>
      obtain ⟨token, more, steps⟩ := progresses iterates
      obtain ⟨others, stepsOn⟩ := inductionHypothesis
      exact ⟨_, steps.trans stepsOn⟩

theorem Loop.Progresses.staysBefore
    {loop : Loop σ α}
    (progresses : loop.Progresses)
    {finish : Token}
    (isEnd : finish.kind = .endOfFile)
    (behind : List Token) :
    loop.StaysBefore (finish :: behind) := by
  intro state cursor items final last ahead leads
  obtain ⟨tokens, steps⟩ := leads.stepsInText progresses
  exact steps.suffix_of_end isEnd ahead

/-- A loop makes progress if the readers of its items stay in the text. -/
theorem Loop.progresses_of_items
    {loop : Loop σ α}
    (staysInText :
      ∀ {state token later misplaced reader},
        loop.opening state token = .item later misplaced reader →
        ∀ cursor : Cursor,
          cursor.Behind [token] →
          ∃ tokens, cursor.StepsInText tokens (reader.run cursor).2) :
    loop.Progresses := by
  intro state cursor iteration iterates
  obtain ⟨token, rest, ahead, inText, opened⟩ :=
    exists_token_of_iteration iterates
  refine ⟨token, ?_⟩
  rcases opened with
    ⟨later, misplaced, reader, opens, rfl⟩ | ⟨later, fault, rfl⟩
  · have steps :=
      Cursor.stepsInText_token (cursor.stepsOver_reportAny misplaced) ahead
        inText
    obtain ⟨tokens, stepsItem⟩ :=
      staysInText opens _ (steps.behind cursor.behind_nil)
    obtain ⟨skipped, stepsSkipped⟩ :=
      Iteration.stepsInText_recovered later stepsItem
    exact ⟨_, steps.trans stepsSkipped⟩
  · exact Cursor.stepsInText_skipInText fault ahead inText

theorem bodyLoop_progresses :
    bodyLoop.Progresses := by
  refine Loop.progresses_of_items fun {seen token later misplaced reader}
    opens cursor behind => ?_
  simp only [bodyLoop] at opens
  split at opens
  · cases opens
  · split at opens
    · next started starts =>
      cases opens
      exact AgreesWith.stepsInText (bodyItemAfter?_agrees starts)
        (bodyItemAfter?_places starts) behind
    · split at opens <;> cases opens

theorem itemLoop_progresses :
    itemLoop.Progresses := by
  refine Loop.progresses_of_items fun {latest token later misplaced other}
    opens cursor behind => ?_
  simp only [itemLoop] at opens
  split at opens
  · next kind started starts =>
    cases opens
    obtain ⟨reader, startsCut, agrees⟩ := exists_itemAfter?_of_some starts
    exact agrees.stepsInText (itemAfter?_places startsCut) behind
  · cases opens

end Reader

/-! ## Programs -/

namespace Cursor

variable {tokens others : List Token}

theorem inText_pending_ofTokens
    (tokens : List Token) :
    ∀ token ∈ (ofTokens tokens).pending, token.kind ≠ .endOfFile := by
  intro token member isEnd
  have notEnd := List.mem_takeWhile_imp member
  simp [isEnd, Token.Kind.isEndOfFile] at notEnd

/-- An end is only ever added behind what is there. -/
theorem exists_ended_eq
    (tokens : List Token) :
    ∃ added, Token.ended tokens = tokens ++ added := by
  unfold Token.ended
  split
  · split
    · exact ⟨[], (List.append_nil tokens).symm⟩
    · exact ⟨_, rfl⟩
  · next isEmpty =>
    rw [List.getLast?_eq_none_iff.1 isEmpty]
    exact ⟨_, rfl⟩

/-- Where the text ends, an end stands behind the tokens that are read. -/
theorem exists_end_uncut
    (tokens : List Token) :
    ∃ finish behind,
      finish.kind = .endOfFile ∧
        finish.span = (ofTokens tokens).finish ∧
        (uncut tokens).pending =
          (ofTokens tokens).pending ++ finish :: behind := by
  cases found : tokens.find? (·.kind.isEndOfFile) with
  | some finish =>
      obtain ⟨isEnd, text, behind, rfl, inText⟩ :=
        List.find?_eq_some_iff_append.1 found
      obtain ⟨added, isEnded⟩ := exists_ended_eq (text ++ finish :: behind)
      have cut : (ofTokens (text ++ finish :: behind)).pending = text := by
        simp only [ofTokens]
        rw [List.takeWhile_append_of_pos inText]
        simp [isEnd]
      refine ⟨finish, behind ++ added, Token.Kind.isEndOfFile_iff.1 isEnd,
        by simp [ofTokens, found], ?_⟩
      rw [cut]
      simpa [uncut] using isEnded
  | none =>
      have inText : ∀ token ∈ tokens, ¬token.kind.isEndOfFile = true := by
        simpa using found
      have cut : (ofTokens tokens).pending = tokens := by
        simpa [ofTokens, List.takeWhile_eq_self_iff] using inText
      refine ⟨⟨.endOfFile, (ofTokens tokens).finish⟩, [], rfl, rfl, ?_⟩
      rw [cut]
      cases last? : tokens.getLast? with
      | none =>
          simp [uncut, Token.ended, ofTokens,
            List.getLast?_eq_none_iff.1 last?]
      | some last =>
          have notEnd := inText last (List.mem_of_getLast? last?)
          simp [uncut, Token.ended, ofTokens, found, last?, notEnd]

/-- Tokens are cut at their first end, or at the one of others with the same text. -/
theorem cuts_uncut
    {view : FaultReport → FaultReport}
    {finish : Token}
    {behind : List Token}
    (isEnd : finish.kind = .endOfFile)
    (ahead :
      (uncut others).pending = (ofTokens tokens).pending ++ finish :: behind)
    (sameEnd :
      ∀ fault,
        view ⟨fault, finish.span⟩ = view ⟨fault, (ofTokens tokens).finish⟩) :
    Cuts view (finish :: behind) (ofTokens tokens) (uncut others) where
  inText := inText_pending_ofTokens tokens
  ends := by simpa using isEnd
  pending := ahead
  previous := rfl
  faults := rfl
  finish := sameEnd

end Cursor

/-- The fault alone. -/
def FaultReport.withoutPlace
    (report : FaultReport) :
    FaultReport :=
  { report with span := default }

namespace Program

/-- The items that are read are those of every list with the same text. -/
theorem items_eq_of_same_text
    {tokens others : List Token}
    (same :
      (Cursor.ofTokens others).pending = (Cursor.ofTokens tokens).pending) :
    (Reader.itemsRun none (Cursor.ofTokens others)).1 =
      (Reader.itemsRun none (Cursor.ofTokens tokens)).1 := by
  obtain ⟨finish, behind, isEnd, _, ahead⟩ := Cursor.exists_end_uncut tokens
  have cuts (written : List Token)
      (sameText :
        (Cursor.ofTokens written).pending =
          (Cursor.ofTokens tokens).pending) :
      Cursor.Cuts FaultReport.withoutPlace (finish :: behind)
        (Cursor.ofTokens written) (Cursor.uncut tokens) :=
    Cursor.cuts_uncut isEnd (sameText ▸ ahead) fun _ => rfl
  rw [← (Reader.itemsRun_alike none _ _ (cuts others same)).result,
    ← (Reader.itemsRun_alike none _ _ (cuts tokens rfl)).result]

/-- It makes no difference whether the tokens are cut before they are read. -/
theorem ofTokens_eq_run_uncut
    (tokens : List Token) :
    let start := Cursor.uncut tokens
    let ran := Reader.itemLoop.run none start
    ofTokens tokens =
      ⟨ofItems ran.1 (start.span.merge ran.2.previous), ran.2.faults⟩ := by
  intro start ran
  obtain ⟨finish, behind, isEnd, sameEnd, ahead⟩ :=
    Cursor.exists_end_uncut tokens
  have cuts :
      Cursor.Cuts id (finish :: behind) (Cursor.ofTokens tokens) start :=
    Cursor.cuts_uncut isEnd ahead fun _ => by rw [sameEnd]
  have alike := Reader.itemsRun_alike none _ _ cuts
  rw [alike.result, alike.cuts.previous, alike.cuts.same_faults,
    cuts.same_span]
  rfl

/--
Reading always makes progress, whatever the tokens are.

Every iteration of the loop over the items of a body, and of the one over the
items of a program, steps over a token at least and over no end of the text. So
neither ever comes behind the first end. The loop over the items of the program
comes to where it breaks; the program consists of the items that its iterations
read, and these are the same in front of any other end.
-/
theorem reading_always_progresses
    (tokens : List Token) :
    Reader.bodyLoop.Progresses ∧
      Reader.itemLoop.Progresses ∧
      let start := Cursor.uncut tokens
      let inText (token : Token) : Bool := !token.kind.isEndOfFile
      (∃ finish behind,
        finish.kind = .endOfFile ∧
          start.pending = tokens.takeWhile inText ++ finish :: behind ∧
          Reader.bodyLoop.StaysBefore (finish :: behind) ∧
          Reader.itemLoop.StaysBefore (finish :: behind)) ∧
      (∃ items latest last,
        Reader.itemLoop.Leads none start items latest last ∧
          Reader.itemLoop.iteration? latest last = none ∧
          ofTokens tokens =
            ⟨ofItems items (start.span.merge last.previous),
              last.faults⟩) ∧
      ∀ others : List Token,
        others.takeWhile inText = tokens.takeWhile inText →
        let program := (ofTokens tokens).program
        let other := (ofTokens others).program
        other.bindings = program.bindings ∧
          other.graphs = program.graphs ∧
          other.commands = program.commands := by
  refine ⟨Reader.bodyLoop_progresses, Reader.itemLoop_progresses, ?_⟩
  intro start inText
  refine ⟨?_, ?_, ?_⟩
  · obtain ⟨finish, behind, isEnd, _, ahead⟩ :=
      Cursor.exists_end_uncut tokens
    exact ⟨finish, behind, isEnd, ahead,
      Reader.bodyLoop_progresses.staysBefore isEnd behind,
      Reader.itemLoop_progresses.staysBefore isEnd behind⟩
  · obtain ⟨latest, leads, breaks⟩ := Reader.itemLoop.leads_run none start
    exact ⟨_, latest, _, leads, breaks, ofTokens_eq_run_uncut tokens⟩
  · intro others sameText program other
    have sameItems :
        (Reader.itemsRun none (Cursor.ofTokens others)).1 =
          (Reader.itemsRun none (Cursor.ofTokens tokens)).1 :=
      items_eq_of_same_text sameText
    simp only [program, other, ofTokens, ofItems]
    rw [sameItems]
    exact ⟨rfl, rfl, rfl⟩

/--
The end stands in the middle of a graph. The variable in front of it is the one
that is read without what stands behind, and a node in the body is stepped over.
-/
theorem reading_always_progresses_of_cut_off_graph :
    let written : List Token :=
      ([.keyword .var, .keyword .node, .identifier "x", .mark .equals,
        .identifier "a", .mark .semicolon, .keyword .directed,
        .keyword .graph, .identifier "g", .mark .leftBrace,
        .identifier "b"] : List Token.Kind).map (⟨·, default⟩)
    let tokens :=
      written ++ [⟨.endOfFile, default⟩, ⟨.mark .rightBrace, default⟩]
    let start := Cursor.uncut tokens
    let inside := { start with pending := start.pending.drop 10 }
    (∃ iteration token more,
      Reader.itemLoop.iteration? none start = some iteration ∧
        start.StepsInText (token :: more) iteration.next) ∧
      (∃ iteration token more,
        Reader.bodyLoop.iteration? false inside = some iteration ∧
          inside.StepsInText (token :: more) iteration.next) ∧
      (ofTokens tokens).program.bindings.map (·.name.name) = ["x"] ∧
      (ofTokens written).program.bindings =
        (ofTokens tokens).program.bindings := by
  intro written tokens start inside
  obtain ⟨inBody, inProgram, _, _, same⟩ :=
    reading_always_progresses tokens
  have iterates : (Reader.itemLoop.iteration? none start).isSome = true :=
    rfl
  have iteratesInside :
      (Reader.bodyLoop.iteration? false inside).isSome = true :=
    rfl
  obtain ⟨iteration, isFirst⟩ := Option.isSome_iff_exists.1 iterates
  obtain ⟨bodyIteration, isInside⟩ :=
    Option.isSome_iff_exists.1 iteratesInside
  obtain ⟨token, more, steps⟩ := inProgram isFirst
  obtain ⟨bodyToken, bodyMore, bodySteps⟩ := inBody isInside
  exact ⟨⟨iteration, token, more, isFirst, steps⟩,
    ⟨bodyIteration, bodyToken, bodyMore, isInside, bodySteps⟩,
    by with_unfolding_all rfl, (same written rfl).1⟩

end Program

end GraphScript
