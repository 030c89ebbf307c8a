import GraphScript.Proofs.Program.CutReading

namespace GraphScript.Reader

/-!
# Loops in front of the end of the text

The loops over items are where the end of the text is met: from cut tokens they
end because there are none left, and from the whole ones because they look for
the end. Both come to the same, the bodies of graphs first and then the items
of the program, which contain them.
-/

variable
  {σ α : Type}
  {view : FaultReport → FaultReport}
  {tail : List Token}
  {cursor whole : Cursor}

/-- What reads an item from a cut cursor has its like in a loop from the whole one. -/
theorem Loop.exists_iteration
    {loop : Loop σ α}
    {state later : σ}
    {token : Token}
    {rest : List Token}
    {misplaced : Option Fault}
    {reader other : Reader α}
    {result : Option α}
    {next : Cursor}
    (cuts : Cursor.Cuts view tail cursor whole)
    (ahead : cursor.pending = token :: rest)
    (notFull : cursor.isFull = false)
    (opens : loop.opening state token = .item later misplaced other)
    (agrees : reader.AgreesWith other)
    (ran :
      reader.run (cursor.reportAny misplaced).advance = (result, next)) :
    ∃ wholeNext,
      loop.iteration? state whole =
          some (.recovered later (result, wholeNext)) ∧
        Cursor.Cuts view tail next wholeNext := by
  have started :=
    (cuts.reportAny misplaced).advance_token
      ((cursor.pending_reportAny misplaced).trans ahead)
  have alike := agrees view tail _ _ started
  rw [ran] at alike
  obtain ⟨wholeNext, ranWhole, cutsNext⟩ := alike.exists_next
  refine ⟨wholeNext, ?_, cutsNext⟩
  rw [iteration?_of_item (cuts.pending_cons ahead)
    (cuts.inText_of_ahead ahead) (cuts.isFull.trans notFull) opens, ranWhole]

/-! ## The body of a graph -/

theorem checkDefaults_eq_reportAny
    (seenStatement : Bool)
    (cursor : Cursor) :
    checkDefaults seenStatement cursor =
      cursor.reportAny (lateDefaults? seenStatement cursor.kind) := by
  unfold checkDefaults lateDefaults?
  cases cursor.kind with
  | keyword word =>
      by_cases isLate :
          (seenStatement && (defaultTarget? word).isSome) = true
      · simp only [isLate, if_true]
        rfl
      · simp only [isLate]
        rfl
  | _ =>
      rfl

/-- An item of a body is read from the whole text as from the cut one. -/
theorem bodyLoop_exists_iteration
    {token : Token}
    {rest : List Token}
    {reader : Reader BodyItem}
    {result : Option BodyItem}
    {next : Cursor}
    (seenStatement : Bool)
    (cuts : Cursor.Cuts view tail cursor whole)
    (ahead : cursor.pending = token :: rest)
    (goesOn : ¬(token.kind.isMark .rightBrace || cursor.isFull) = true)
    (starts : bodyItemAfter? token = some reader)
    (ran :
      reader.run (checkDefaults seenStatement cursor).advance =
        (result, next)) :
    ∃ wholeNext,
      bodyLoop.iteration? seenStatement whole =
          some (.recovered (seenStatement || startsStatement token.kind)
            (result, wholeNext)) ∧
        Cursor.Cuts view tail next wholeNext := by
  rw [Bool.not_eq_true, Bool.or_eq_false_iff] at goesOn
  obtain ⟨notClosing, notFull⟩ := goesOn
  have kind : cursor.kind = token.kind := by
    simp only [Cursor.kind, ahead]
  have opens :
      bodyLoop.opening seenStatement token =
        .item (seenStatement || startsStatement token.kind)
          (lateDefaults? seenStatement token.kind) reader := by
    simp [bodyLoop, notClosing, starts]
  rw [checkDefaults_eq_reportAny, kind] at ran
  exact Loop.exists_iteration cuts ahead notFull opens
    (bodyItemAfter?_agrees starts) ran

/-- The items of a body are the same, whether the tokens are cut or not. -/
theorem bodyRun_alike
    (seenStatement : Bool)
    (cursor : Cursor) :
    ∀ whole,
      Cursor.Cuts view tail cursor whole →
      RunsAlike view tail (bodyRun seenStatement cursor)
        (bodyLoop.run seenStatement whole) := by
  fun_induction bodyRun seenStatement cursor with
  | case1 seenStatement cursor ahead =>
      intro whole cuts
      have atEnd : whole.kind = .endOfFile :=
        cuts.kind.trans (by simp only [Cursor.kind, ahead])
      rw [Loop.run_of_break (Loop.iteration?_of_end atEnd)]
      exact ⟨rfl, cuts⟩
  | case2 seenStatement cursor token rest ahead stops =>
      intro whole cuts
      have breaks : bodyLoop.iteration? seenStatement whole = none := by
        rcases Bool.or_eq_true_iff.1 stops with isClosing | full
        · exact Loop.iteration?_of_stop (cuts.pending_cons ahead)
            (by simp [bodyLoop, isClosing])
        · exact Loop.iteration?_of_full (cuts.isFull.trans full)
      rw [Loop.run_of_break breaks]
      exact ⟨rfl, cuts⟩
  | case3 seenStatement cursor token rest ahead goesOn seen started shorter
      reader starts item next ran _ later last more inductionHypothesis =>
      intro whole cuts
      obtain ⟨wholeNext, iterates, cutsNext⟩ :=
        bodyLoop_exists_iteration seenStatement cuts ahead goesOn starts ran
      rw [Loop.run_of_item iterates]
      have alike := inductionHypothesis wholeNext cutsNext
      rw [more] at alike
      exact ⟨congrArg (item :: ·) alike.result, alike.cuts⟩
  | case4 seenStatement cursor token rest ahead goesOn seen started shorter
      reader starts next ran _ inductionHypothesis =>
      intro whole cuts
      obtain ⟨wholeNext, iterates, cutsNext⟩ :=
        bodyLoop_exists_iteration seenStatement cuts ahead goesOn starts ran
      rw [Loop.run_of_failure iterates]
      exact inductionHypothesis _ cutsNext.synchronize
  | case5 seenStatement cursor token rest ahead goesOn started shorter
      noReader isItem =>
      intro whole cuts
      have stops : bodyLoop.opening seenStatement token = .stop := by
        simp [bodyLoop, noReader, isItem]
      rw [Loop.run_of_break
        (Loop.iteration?_of_stop (cuts.pending_cons ahead) stops)]
      exact ⟨rfl, cuts⟩
  | case6 seenStatement cursor token rest ahead goesOn seen started shorter
      noReader notItem fault _ inductionHypothesis =>
      intro whole cuts
      rw [Bool.not_eq_true, Bool.or_eq_false_iff] at goesOn
      have strays :
          bodyLoop.opening seenStatement token = .stray seen fault := by
        simp [bodyLoop, goesOn.1, noReader, notItem, seen, fault]
      rw [Loop.run_of_failure (Loop.iteration?_of_stray
        (cuts.pending_cons ahead) (cuts.inText_of_ahead ahead)
        (cuts.isFull.trans goesOn.2) strays)]
      exact inductionHypothesis _ (cuts.skipItem fault ahead)

/-! ## The items of a program -/

theorem graphAfter_agrees
    (start : Span)
    (direction : Direction) :
    (graphAfter start direction).AgreesWith (graphInText start direction) := by
  intro view tail cursor whole cuts
  refine (keyword_agrees .graph _ _ _ _ cuts).bind fun _ _ _ _ cuts => ?_
  refine (identifier_agrees _ _ _ _ cuts).bind fun name _ _ _ cuts => ?_
  refine (mark_agrees .leftBrace _ _ _ _ cuts).bind
    fun opening next wholeNext _ cuts => ?_
  have bodies := bodyRun_alike false next wholeNext cuts
  have body :
      RunsAlike view tail (Reader.body.run next)
        ((bodyLoop.reader false).run wholeNext) :=
    ⟨congrArg some bodies.result, bodies.cuts⟩
  refine body.bind fun items _ _ _ cuts => ?_
  refine (closing_agrees .rightBrace opening _ _ _ _ cuts).bind
    fun _ _ _ _ cuts => ?_
  exact AgreesFrom.bind .spanFrom (fun span _ _ => .pure) cuts

theorem graphItem_agrees
    (start : Span)
    (direction : Direction) :
    (graphItemAfter start direction).AgreesWith (do
      let declaration ← graphInText start direction
      optionalMark .semicolon
      return .graph declaration) := by
  intro view tail cursor whole cuts
  refine (graphAfter_agrees start direction _ _ _ _ cuts).bind
    fun declaration _ _ _ cuts => ?_
  exact (optionalMark_agrees .semicolon _ _ _ _).bind
    (fun _ _ _ => .pure) cuts

/-- What reads an item of a cut text has its like for the whole text. -/
theorem exists_itemInText?_of_some
    {token : Token}
    {kind : ItemKind}
    {reader : Reader Item}
    (starts : itemAfter? token = some (kind, reader)) :
    ∃ other,
      itemInText? token = some (kind, other) ∧ reader.AgreesWith other := by
  unfold itemAfter? at starts
  split at starts
  · next isVar =>
    cases starts
    refine ⟨_, ?_, beforeSemicolon_agrees (variableAfter_agrees token.span)⟩
    simp only [itemInText?, itemAfter?, isVar]
  · next isDirected =>
    cases starts
    exact ⟨_, by simp only [itemInText?, isDirected],
      graphItem_agrees token.span .directed⟩
  · next isUndirected =>
    cases starts
    exact ⟨_, by simp only [itemInText?, isUndirected],
      graphItem_agrees token.span .undirected⟩
  · next isRun =>
    cases starts
    refine ⟨_, ?_, beforeSemicolon_agrees (commandAfter_agrees token.span)⟩
    simp only [itemInText?, itemAfter?, isRun]
  · cases starts

theorem itemInText?_of_none
    {token : Token}
    (noReader : itemAfter? token = none) :
    itemInText? token = none := by
  unfold itemInText?
  split
  · next isDirected =>
    simp [itemAfter?, isDirected] at noReader
  · next isUndirected =>
    simp [itemAfter?, isUndirected] at noReader
  · exact noReader

/-- What reads an item of the whole text has its like for a cut text. -/
theorem exists_itemAfter?_of_some
    {token : Token}
    {kind : ItemKind}
    {other : Reader Item}
    (starts : itemInText? token = some (kind, other)) :
    ∃ reader,
      itemAfter? token = some (kind, reader) ∧ reader.AgreesWith other := by
  cases found : itemAfter? token with
  | none =>
      cases starts.symm.trans (itemInText?_of_none found)
  | some started =>
      obtain ⟨foundKind, reader⟩ := started
      obtain ⟨same, startsSame, agrees⟩ := exists_itemInText?_of_some found
      cases starts.symm.trans startsSame
      exact ⟨reader, rfl, agrees⟩

theorem checkOrder_eq_reportAny
    (latest : Option ItemKind)
    (kind : ItemKind)
    (cursor : Cursor) :
    checkOrder latest kind cursor =
      cursor.reportAny (misplacedItem? latest kind) := by
  cases latest with
  | none =>
      rfl
  | some earlier =>
      by_cases isLater : kind.rank < earlier.rank
      · simp only [checkOrder, misplacedItem?, isLater, if_true]
        rfl
      · simp only [checkOrder, misplacedItem?, isLater, if_false]
        rfl

/-- An item of a program is read from the whole text as from the cut one. -/
theorem itemLoop_exists_iteration
    {token : Token}
    {rest : List Token}
    {kind : ItemKind}
    {reader : Reader Item}
    {result : Option Item}
    {next : Cursor}
    (latest : Option ItemKind)
    (cuts : Cursor.Cuts view tail cursor whole)
    (ahead : cursor.pending = token :: rest)
    (notFull : ¬cursor.isFull = true)
    (starts : itemAfter? token = some (kind, reader))
    (ran :
      reader.run (checkOrder latest kind cursor).advance = (result, next)) :
    ∃ wholeNext,
      itemLoop.iteration? latest whole =
          some (.recovered (laterKind latest kind) (result, wholeNext)) ∧
        Cursor.Cuts view tail next wholeNext := by
  obtain ⟨other, startsWhole, agrees⟩ := exists_itemInText?_of_some starts
  have opens :
      itemLoop.opening latest token =
        .item (laterKind latest kind) (misplacedItem? latest kind) other := by
    simp [itemLoop, startsWhole]
  rw [checkOrder_eq_reportAny] at ran
  exact Loop.exists_iteration cuts ahead (Bool.not_eq_true _ ▸ notFull) opens
    agrees ran

/-- The items of a program are the same, whether the tokens are cut or not. -/
theorem itemsRun_alike
    (latest : Option ItemKind)
    (cursor : Cursor) :
    ∀ whole,
      Cursor.Cuts view tail cursor whole →
      RunsAlike view tail (itemsRun latest cursor)
        (itemLoop.run latest whole) := by
  fun_induction itemsRun latest cursor with
  | case1 latest cursor ahead =>
      intro whole cuts
      have atEnd : whole.kind = .endOfFile :=
        cuts.kind.trans (by simp only [Cursor.kind, ahead])
      rw [Loop.run_of_break (Loop.iteration?_of_end atEnd)]
      exact ⟨rfl, cuts⟩
  | case2 latest cursor token rest ahead full =>
      intro whole cuts
      rw [Loop.run_of_break
        (Loop.iteration?_of_full (cuts.isFull.trans full))]
      exact ⟨rfl, cuts⟩
  | case3 latest cursor token rest ahead notFull kind reader starts started
      shorter item next ran _ later last more inductionHypothesis =>
      intro whole cuts
      obtain ⟨wholeNext, iterates, cutsNext⟩ :=
        itemLoop_exists_iteration latest cuts ahead notFull starts ran
      rw [Loop.run_of_item iterates]
      have alike := inductionHypothesis wholeNext cutsNext
      rw [more] at alike
      exact ⟨congrArg (item :: ·) alike.result, alike.cuts⟩
  | case4 latest cursor token rest ahead notFull kind reader starts started
      shorter next ran _ inductionHypothesis =>
      intro whole cuts
      obtain ⟨wholeNext, iterates, cutsNext⟩ :=
        itemLoop_exists_iteration latest cuts ahead notFull starts ran
      rw [Loop.run_of_failure iterates]
      exact inductionHypothesis _ cutsNext.synchronize
  | case5 latest cursor token rest ahead notFull noReader fault _
      inductionHypothesis =>
      intro whole cuts
      have strays :
          itemLoop.opening latest token = .stray latest fault := by
        simp [itemLoop, itemInText?_of_none noReader, fault]
      rw [Loop.run_of_failure (Loop.iteration?_of_stray
        (cuts.pending_cons ahead) (cuts.inText_of_ahead ahead)
        (cuts.isFull.trans (Bool.not_eq_true _ ▸ notFull)) strays)]
      exact inductionHypothesis _ (cuts.skipItem fault ahead)

end GraphScript.Reader
