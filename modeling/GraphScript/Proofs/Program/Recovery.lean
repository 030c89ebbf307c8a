import GraphScript.Proofs.Program.Interruption

namespace GraphScript

/-!
# Reading on behind what is no item

A program in which the body of one graph is interrupted is read to its end.
The other items of the program, and the items of that graph but the lost one,
are read as they are written.
-/

open Spellings Token.Kind

namespace Reader

variable {graph : InterruptedGraph} {rest : List Token.Kind}

section

variable {α β : Type}

/-- A fault that the first reader reports is not taken back by the second. -/
theorem faulted_bind
    {first : Reader α}
    {second : α → Reader β}
    {cursor : Cursor}
    (faulted : cursor.Faulted (first.run cursor).2)
    (grows :
      ∀ value next, next.faults <+: ((second value).run next).2.faults) :
    cursor.Faulted ((first >>= second).run cursor).2 := by
  rw [run_bind]
  split
  · next value middle ran =>
    rw [ran] at faulted
    exact faulted.trans_extends (grows value middle)
  · next middle ran =>
    rwa [ran] at faulted

end

theorem graphAfter_faulted
    {start : Span}
    {kinds : List Token.Kind}
    {cursor : Cursor}
    (spelled : kinds ∈ graph.bodySpelling)
    (faultless : cursor.faults = [])
    (ahead :
      cursor.kinds =
        .keyword .graph :: .identifier graph.name.name ::
          .mark .leftBrace :: (kinds ++ rest)) :
    cursor.Faulted ((graphAfter start graph.direction).run cursor).2 := by
  obtain ⟨name, opening, inside, ran, _, aheadInside, silent⟩ :=
    graphAfter_run ahead
  rw [ran]
  refine Cursor.Faulted.of_silent_left silent (faulted_bind ?_ ?_)
  · exact body_faulted spelled (silent.trans faultless) aheadInside
  · intro items next
    have reads :
        (do
          let _ ← closing .rightBrace opening
          return ⟨graph.direction, name, items, ← spanFrom start⟩ :
          Reader GraphDeclaration).ReadsFrom next [] fun _ => ⊤ :=
      (closing_reads .rightBrace opening next).bind
        fun _ _ _ _ => .spanFrom fun _ => .pure trivial
    exact reads.readsOrReports.faults_grow

theorem graphAfter_of_losesWhole
    {start : Span}
    {kinds : List Token.Kind}
    {cursor : Cursor}
    (losesWhole : graph.LosesWhole)
    (spelled : kinds ∈ graph.bodySpelling)
    (faultless : cursor.faults = [])
    (ahead :
      cursor.kinds =
        .keyword .graph :: .identifier graph.name.name ::
          .mark .leftBrace :: (kinds ++ .mark .rightBrace :: rest)) :
    ∃ read next place,
      (graphAfter start graph.direction).run cursor = (some read, next) ∧
        read.withoutPlaces =
          (graph.withItems (graph.before ++ graph.kept)).withoutPlaces ∧
        next.kinds = rest ∧
        next.faults = [⟨.expected .bodyItem graph.stray, place⟩] := by
  obtain ⟨name, opening, inside, ran, sameName, aheadInside, silent⟩ :=
    graphAfter_run ahead
  obtain ⟨items, last, place, ranBody, sameItems, left, reported⟩ :=
    bodyRun_of_losesWhole losesWhole spelled (silent.trans faultless) aheadInside
  obtain ⟨read, next, ranGraph, same, left, silentGraph⟩ :=
    graphAfterBrace_of_body ranBody left
  refine ⟨read, next, place, ran.trans ranGraph, same.trans ?_, left,
    silentGraph.trans reported⟩
  simp [GraphDeclaration.withoutPlaces, InterruptedGraph.withItems,
    Identifier.withoutPlace, sameName, sameItems]

/-- A fault in an item is not taken back by what is read behind it. -/
theorem itemsRun_faulted
    {latest : Option ItemKind}
    {cursor : Cursor}
    {token : Token}
    {others : List Token}
    {kind : ItemKind}
    {reader : Reader Item}
    (ahead : cursor.pending = token :: others)
    (notFull : cursor.isFull = false)
    (starts : itemAfter? token = some (kind, reader))
    (follows : Follows latest kind)
    (faulted : cursor.advance.Faulted (reader.run cursor.advance).2) :
    cursor.Faulted (itemsRun latest cursor).2 := by
  have fromHere :
      cursor.Faulted
        (reader.run (checkOrder latest kind cursor).advance).2 := by
    rw [checkOrder_of_follows follows]
    exact faulted.of_silent_left (Cursor.faults_advance cursor)
  rw [itemsRun]
  split
  · next none =>
    simp [none] at ahead
  · next first _ pending =>
    obtain ⟨rfl, rfl⟩ := List.cons.inj (pending.symm.trans ahead)
    rw [if_neg (by simp [notFull])]
    simp only [starts]
    split
    · next value next ran =>
      rw [ran] at fromHere
      exact fromHere.trans_extends (itemsRun_passes _ next).faults_grow
    · next failed ran =>
      rw [ran] at fromHere
      refine fromHere.trans_extends ?_
      rw [← Cursor.faults_synchronize failed]
      exact (itemsRun_passes _ failed.synchronize).faults_grow

theorem graphItemAfter_faulted
    {start : Span}
    {kinds : List Token.Kind}
    {cursor : Cursor}
    (spelled : kinds ∈ graph.bodySpelling)
    (faultless : cursor.faults = [])
    (ahead :
      cursor.kinds =
        .keyword .graph :: .identifier graph.name.name ::
          .mark .leftBrace :: (kinds ++ rest)) :
    cursor.Faulted ((graphItemAfter start graph.direction).run cursor).2 := by
  refine faulted_bind (graphAfter_faulted spelled faultless ahead) ?_
  intro declaration next
  have reads :
      (do
        optionalMark .semicolon
        return Item.graph declaration :
        Reader Item).ReadsFrom next [] fun _ => ⊤ :=
    (optionalMark_reads .semicolon next).bind
      fun _ _ _ _ => .pure trivial
  exact reads.readsOrReports.faults_grow

theorem graphItemAfter_of_losesWhole
    {start : Span}
    {kinds endKinds : List Token.Kind}
    {cursor : Cursor}
    (losesWhole : graph.LosesWhole)
    (spelled : kinds ∈ graph.bodySpelling)
    (spellsEnd : endKinds ∈ 1 + Mark.semicolon.spelling)
    (ends : (front rest).isMark .semicolon = false)
    (faultless : cursor.faults = [])
    (ahead :
      cursor.kinds =
        .keyword .graph :: .identifier graph.name.name ::
          .mark .leftBrace ::
          (kinds ++ .mark .rightBrace :: (endKinds ++ rest))) :
    ∃ read next place,
      (graphItemAfter start graph.direction).run cursor = (some read, next) ∧
        read.withoutPlaces =
          Item.withoutPlaces
            (.graph (graph.withItems (graph.before ++ graph.kept))) ∧
        next.kinds = rest ∧
        next.faults = [⟨.expected .bodyItem graph.stray, place⟩] := by
  obtain ⟨declaration, inside, place, ran, same, left, reported⟩ :=
    graphAfter_of_losesWhole losesWhole spelled faultless ahead
  have accepts :
      (do
        optionalMark .semicolon
        return Item.graph declaration :
        Reader Item).Accepts inside rest fun read =>
          read = .graph declaration :=
    (optionalMark_accepts spellsEnd ends left).bind
      fun _ _ _ ahead _ => .pure ahead rfl
  obtain ⟨_, next, ranEnd, rfl, left, silent⟩ := accepts
  refine ⟨.graph declaration, next, place, ?_, ?_, left,
    silent.trans reported⟩
  · rw [graphItemAfter, run_bind, ran]
    exact ranEnd
  · rw [Item.withoutPlaces, Item.withoutPlaces, same]

/-- An interrupted graph is reported, whatever follows its body. -/
theorem itemsRun_faulted_of_interrupted
    {latest : Option ItemKind}
    {kinds : List Token.Kind}
    {cursor : Cursor}
    (follows : Follows latest .graphDeclaration)
    (spelled : kinds ∈ graph.bodySpelling)
    (faultless : cursor.faults = [])
    (ahead :
      cursor.kinds =
        .keyword (directionWord graph.direction) ::
          .keyword .graph :: .identifier graph.name.name ::
          .mark .leftBrace :: (kinds ++ rest)) :
    cursor.Faulted (itemsRun latest cursor).2 := by
  obtain ⟨token, others, pending, isWord, _⟩ := Cursor.pending_of_kinds ahead
  refine itemsRun_faulted pending (Cursor.isFull_of_faultless faultless)
    (itemAfter?_of_direction isWord) follows ?_
  exact graphItemAfter_faulted spelled
    ((Cursor.faults_advance cursor).trans faultless)
    (Cursor.kinds_advance ahead)

/-- An interrupted graph is read, and so are the items behind it. -/
theorem itemsRun_of_losesWhole
    {latest : Option ItemKind}
    {later : List Item}
    {kinds endKinds laterKinds : List Token.Kind}
    {cursor : Cursor}
    (losesWhole : graph.LosesWhole)
    (spelled : kinds ∈ graph.bodySpelling)
    (spellsEnd : endKinds ∈ 1 + Mark.semicolon.spelling)
    (spellsLater : laterKinds ∈ (later.map Item.spelling).prod)
    (follows : Follows latest .graphDeclaration)
    (laterInOrder : Item.InOrder later)
    (behind :
      ∀ item ∈ later, ItemKind.graphDeclaration.rank ≤ item.kind.rank)
    (faultless : cursor.faults = [])
    (ahead :
      cursor.kinds =
        .keyword (directionWord graph.direction) ::
          .keyword .graph :: .identifier graph.name.name ::
          .mark .leftBrace ::
          (kinds ++ .mark .rightBrace :: (endKinds ++ laterKinds))) :
    ∃ read last place,
      itemsRun latest cursor = (read, last) ∧
        read.map Item.withoutPlaces =
          (.graph (graph.withItems (graph.before ++ graph.kept)) ::
            later).map Item.withoutPlaces ∧
        last.faults = [⟨.expected .bodyItem graph.stray, place⟩] := by
  obtain ⟨token, others, pending, isWord, _⟩ := Cursor.pending_of_kinds ahead
  have notFull := Cursor.isFull_of_faultless faultless
  have ends : (front laterKinds).isMark .semicolon = false := by
    have frontIs : (front (laterKinds ++ [])).isMark .semicolon = false :=
      front_of_items spellsLater rfl
    simpa using frontIs
  obtain ⟨item, next, place, ranGraph, sameGraph, left, reported⟩ :=
    graphItemAfter_of_losesWhole losesWhole spelled spellsEnd ends
      ((Cursor.faults_advance cursor).trans faultless)
      (Cursor.kinds_advance ahead)
  have followsLater :
      ∀ item ∈ later,
        Follows (laterKind latest .graphDeclaration) item.kind := by
    intro item member
    rw [laterKind_of_follows follows]
    rintro _ ⟨⟩
    exact behind item member
  obtain ⟨values, last, ranLater, sameLater, silent⟩ :=
    itemsRun_accepts _ spellsLater laterInOrder followsLater
      (by simp [Cursor.isFull, reported, Diagnostic.errorLimit]) left
  refine ⟨item :: values, last, place,
    itemsRun_of_item pending notFull (itemAfter?_of_direction isWord)
      (by rw [checkOrder_of_follows follows]; exact ranGraph) ranLater,
    ?_, silent.trans reported⟩
  simp only [List.map_cons, sameGraph, sameLater]

end Reader

/-! ## Programs with an interrupted graph -/

namespace Program

/-- A program with an interrupted graph between other items. -/
def interruptedSpelling
    (earlier : List Item)
    (graph : InterruptedGraph)
    (later : List Item) :
    Spellings :=
  (earlier.map Item.spelling).prod *
    (graph.spelling * (1 + Mark.semicolon.spelling)) *
    (later.map Item.spelling).prod

theorem kinds_of_interruptedSpelling
    {earlier later : List Item}
    {graph : InterruptedGraph}
    {kinds : List Token.Kind}
    (spelled : kinds ∈ interruptedSpelling earlier graph later) :
    ∃ earlierKinds ∈ (earlier.map Item.spelling).prod,
      ∃ bodyKinds ∈ graph.bodySpelling,
      ∃ endKinds ∈ 1 + Mark.semicolon.spelling,
      ∃ laterKinds ∈ (later.map Item.spelling).prod,
        kinds =
          earlierKinds ++
            .keyword (Reader.directionWord graph.direction) ::
              .keyword .graph :: .identifier graph.name.name ::
              .mark .leftBrace ::
              (bodyKinds ++ .mark .rightBrace :: (endKinds ++ laterKinds)) := by
  obtain ⟨_, ⟨earlierKinds, spellsEarlier, _, ⟨graphKinds, spellsGraph,
    endKinds, spellsEnd, rfl⟩, rfl⟩, laterKinds, spellsLater, rfl⟩ := spelled
  obtain ⟨bodyKinds, spellsBody, rfl⟩ := Reader.kinds_of_braces spellsGraph
  exact ⟨earlierKinds, spellsEarlier, bodyKinds, spellsBody, endKinds,
    spellsEnd, laterKinds, spellsLater, by simp⟩

/-- The text does not end in the middle of such a program. -/
theorem unfinished_interruptedSpelling
    (earlier : List Item)
    (graph : InterruptedGraph)
    (later : List Item) :
    Unfinished (interruptedSpelling earlier graph later) := by
  have garbage : Unfinished {graph.garbage} := by
    rintro _ rfl kind member
    have skipped := graph.skipped kind member
    simp only [isSkipped, endsItem, Bool.not_eq_true',
      Bool.or_eq_false_iff] at skipped
    exact skipped.1.2
  have body : Unfinished graph.bodySpelling :=
    .mul
      (.mul (BodyItem.unfinished_terminated_spelling graph.before)
        (.mul garbage (.mark rfl)))
      (BodyItem.unfinished_terminated_spelling graph.after)
  have whole : Unfinished graph.spelling :=
    unfinished_braces graph.direction graph.name body
  exact .mul
    (.mul (Item.unfinished_prod_spelling earlier)
      (.mul whole (.add .one (.mark rfl))))
    (Item.unfinished_prod_spelling later)

/--
A program in which garbage stands between the items of a graph's body is read
with a fault.

Reading goes on behind it: if the item that is lost with the garbage, of which
there may be none, is lost as a whole, there is no other fault, and no other
item of the program is missing.
-/
theorem reading_resumes_behind_garbage
    {earlier later : List Item}
    {graph : InterruptedGraph}
    {tokens : List Token}
    {finish : Token}
    (inOrder :
      Item.InOrder
        (earlier ++
          .graph (graph.withItems (graph.before ++ graph.after)) :: later))
    (spelled :
      tokens.map (·.kind) ∈ interruptedSpelling earlier graph later)
    (finished : finish.kind.isEndOfFile = true) :
    (ofTokens (tokens ++ [finish])).faults ≠ [] ∧
      (graph.LosesWhole →
        (∃ place,
          (ofTokens (tokens ++ [finish])).faults =
            [⟨.expected .bodyItem graph.stray, place⟩]) ∧
          (ofTokens (tokens ++ [finish])).program.withoutPlaces =
            (ofItems
              (earlier ++
                .graph (graph.withItems (graph.before ++ graph.kept)) ::
                  later)
              default).withoutPlaces) := by
  have unfinished : ∀ token ∈ tokens, token.kind.isEndOfFile = false :=
    fun token member => unfinished_interruptedSpelling _ _ _ _ spelled _
      (List.mem_map_of_mem member)
  have ahead := Cursor.kinds_ofTokens unfinished finished
  have faultless : (Cursor.ofTokens (tokens ++ [finish])).faults = [] :=
    rfl
  obtain ⟨earlierKinds, spellsEarlier, bodyKinds, spellsBody, endKinds,
    spellsEnd, laterKinds, spellsLater, isWhole⟩ :=
    kinds_of_interruptedSpelling spelled
  obtain ⟨earlierInOrder, graphInOrder, behind⟩ :=
    List.pairwise_append.1 inOrder
  obtain ⟨graphFirst, laterInOrder⟩ := List.pairwise_cons.1 graphInOrder
  obtain ⟨read, reached, first, goesOn, same, follows, left, silent⟩ :=
    Reader.itemsRun_of_items none spellsEarlier earlierInOrder
      (by simp [Reader.Follows]) (by simp) rfl (ahead.trans isWhole)
  have followsGraph : Reader.Follows reached .graphDeclaration :=
    follows .graphDeclaration (by simp [Reader.Follows])
      fun item member => behind item member _ (List.mem_cons_self ..)
  have stillFaultless : first.faults = [] :=
    silent.trans faultless
  constructor
  · have faulted :=
      Reader.itemsRun_faulted_of_interrupted followsGraph spellsBody
        stillFaultless left
    have ran := goesOn _ _ rfl
    simpa only [ofTokens, ran] using faulted.faults_ne_nil
  · intro losesWhole
    obtain ⟨values, last, place, ranGraph, sameValues, reported⟩ :=
      Reader.itemsRun_of_losesWhole losesWhole spellsBody spellsEnd spellsLater
        followsGraph laterInOrder graphFirst stillFaultless left
    have ran := goesOn values last ranGraph
    simp only [ofTokens, ran]
    refine ⟨⟨place, reported⟩, ?_⟩
    rw [withoutPlaces_ofItems, withoutPlaces_ofItems, List.map_append,
      List.map_append, same, sameValues]

/-- Of three nodes, the one behind a second semicolon is lost. -/
theorem reading_resumes_behind_garbage_of_semicolon :
    let name (text : String) : Identifier := ⟨text, default⟩
    let node (text : String) : BodyItem :=
      .statement (.node ⟨.list [name text], none, default⟩)
    let read : GraphDeclaration :=
      ⟨.directed, name "g", [node "a", node "c"], default⟩
    let kinds : List Token.Kind :=
      [.keyword .directed, .keyword .graph, .identifier "g",
        .mark .leftBrace, .identifier "a", .mark .semicolon,
        .mark .semicolon, .identifier "b", .mark .semicolon,
        .identifier "c", .mark .semicolon, .mark .rightBrace]
    let reading :=
      ofTokens (kinds.map (⟨·, default⟩) ++ [⟨.endOfFile, default⟩])
    (∃ place,
      reading.faults =
        [⟨.expected .bodyItem (.mark .semicolon), place⟩]) ∧
      reading.program.withoutPlaces =
        (Program.mk [] [read] [] default).withoutPlaces := by
  intro name node read kinds reading
  let graph : InterruptedGraph :=
    { direction := .directed
      name := name "g"
      before := [node "a"]
      garbage := []
      after := [node "b", node "c"]
      inOrder := by
        simp [node, BodyItem.InOrder, BodyItem.defaults?]
      skipped := by simp
      unreadable := by simp }
  have losesWhole : graph.LosesWhole := by
    rintro _ ⟨⟩
    exact .mul (.separated rfl (fun _ => .alone rfl) [name "b"]) .one
  have nothing : ({[]} : Spellings) = 1 :=
    rfl
  have spelledGraph : kinds ∈ graph.spelling := by
    simp [kinds, graph, node, name, nothing, InterruptedGraph.spelling,
      InterruptedGraph.bodySpelling, Direction.spelling, Keyword.spelling,
      Mark.spelling, Identifier.spelling, BodyItem.spelling,
      Statement.spelling, NodeStatement.spelling, NodeTarget.spelling,
      AttributeSource.optionalSpelling, Spellings.separated, mul_assoc,
      cons_mem_alone_mul]
  have spelled : kinds ∈ interruptedSpelling [] graph [] := by
    have ended :=
      Language.append_mem_mul spelledGraph
        (show [] ∈ 1 + Mark.semicolon.spelling from .inl rfl)
    simpa [interruptedSpelling] using ended
  have sameKinds :
      (kinds.map fun kind => (⟨kind, default⟩ : Token)).map (·.kind) =
        kinds := by
    simp [Function.comp_def]
  have inOrder :
      Item.InOrder
        ([] ++
          .graph (graph.withItems (graph.before ++ graph.after)) :: []) := by
    simp [Item.InOrder]
  have finished : (⟨.endOfFile, default⟩ : Token).kind.isEndOfFile = true :=
    rfl
  exact (reading_resumes_behind_garbage inOrder (sameKinds ▸ spelled)
    finished).2 losesWhole

end Program

end GraphScript
