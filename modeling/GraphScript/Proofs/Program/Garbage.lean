import GraphScript.Proofs.Program.Interruption

namespace GraphScript

/-!
# Programs with garbage between their items

Between the items of a program, a token that starts no item is reported, and
what follows it is skipped through the next semicolon. So a run of such tokens
with a semicolon behind it costs one fault, and the items around it are read as
if it were not there, as long as the limit of errors is not reached.
-/

open Spellings Token.Kind

/-- Tokens that start no item and end none, of which there is at least one. -/
structure Garbage where
  first : Token.Kind
  others : List Token.Kind
  skipped : ∀ kind ∈ first :: others, kind.isSkipped = true

/-- What stands at one place of a program: an item, or garbage. -/
inductive Stretch where
  | item (written : Item)
  | garbage (run : Garbage)

namespace Garbage

/-- Garbage ends with a semicolon. -/
def spelling
    (garbage : Garbage) :
    Spellings :=
  {garbage.first :: garbage.others} * Mark.semicolon.spelling

/-- The fault that is reported for garbage. -/
def fault
    (garbage : Garbage) :
    Fault :=
  .expected .item garbage.first

theorem unfinished
    (garbage : Garbage) :
    Unfinished garbage.spelling := by
  refine .mul ?_ (.mark rfl)
  rintro _ rfl kind member
  have skipped := garbage.skipped kind member
  simp only [isSkipped, endsItem, Bool.not_eq_true',
    Bool.or_eq_false_iff] at skipped
  exact skipped.1.2

end Garbage

namespace Stretch

/-- The ways of writing a stretch of a program. -/
def spelling :
    Stretch →
    Spellings
  | .item written => written.spelling
  | .garbage run => run.spelling

/-- The item that a stretch is. -/
def item? :
    Stretch →
    Option Item
  | .item written => some written
  | .garbage _ => none

/-- The garbage that a stretch is. -/
def garbage? :
    Stretch →
    Option Garbage
  | .item _ => none
  | .garbage run => some run

/-- The text does not end in the middle of some stretches. -/
theorem unfinished_prod_spelling
    (stretches : List Stretch) :
    Unfinished (stretches.map spelling).prod := by
  induction stretches with
  | nil =>
      exact .one
  | cons stretch rest inductionHypothesis =>
      rw [List.map_cons, List.prod_cons]
      refine .mul ?_ inductionHypothesis
      cases stretch with
      | item written =>
          have alone := Item.unfinished_prod_spelling [written]
          rwa [List.map_singleton, List.prod_singleton] at alone
      | garbage run =>
          exact run.unfinished

end Stretch

namespace Reader

/-! ## Single stretches -/

theorem itemAfter?_eq_none
    {token : Token}
    (skipped : token.kind.isSkipped = true) :
    itemAfter? token = none := by
  rcases token with ⟨kind, span⟩
  cases kind with
  | keyword word =>
      cases word with
      | var | directed | undirected | run => cases skipped
      | _ => rfl
  | _ =>
      rfl

/-- A token that starts no item is reported, and reading goes on behind it. -/
theorem itemsRun_of_skipped
    {latest : Option ItemKind}
    {cursor : Cursor}
    {kind : Token.Kind}
    {rest : List Token.Kind}
    (skipped : kind.isSkipped = true)
    (notFull : cursor.isFull = false)
    (ahead : cursor.kinds = kind :: rest) :
    itemsRun latest cursor =
      itemsRun latest (cursor.skipItem (.expected .item kind)) := by
  obtain ⟨token, others, pending, rfl, _⟩ := Cursor.pending_of_kinds ahead
  rw [itemsRun]
  split
  · next none =>
    simp [none] at pending
  · next first _ found =>
    obtain ⟨rfl, rfl⟩ := List.cons.inj (found.symm.trans pending)
    rw [if_neg (by simp [notFull])]
    simp only [itemAfter?_eq_none skipped]

/-- Garbage is reported once, and what stands behind it is ahead. -/
theorem itemsRun_of_garbage
    {garbage : Garbage}
    (latest : Option ItemKind)
    {kinds rest : List Token.Kind}
    {cursor : Cursor}
    (spelled : kinds ∈ garbage.spelling)
    (notFull : cursor.isFull = false)
    (ahead : cursor.kinds = kinds ++ rest) :
    ∃ next,
      itemsRun latest cursor = itemsRun latest next ∧
        next.kinds = rest ∧
        next.faults = cursor.faults ++ [⟨garbage.fault, cursor.span⟩] := by
  obtain ⟨_, rfl, _, rfl, rfl⟩ := spelled
  simp only [List.cons_append, List.append_assoc, List.nil_append] at ahead
  refine ⟨cursor.skipItem garbage.fault,
    itemsRun_of_skipped (garbage.skipped _ (List.mem_cons_self ..)) notFull
      ahead, ?_, by simp [Cursor.skipItem, Cursor.report]⟩
  have reported : (cursor.report garbage.fault).kinds = cursor.kinds := rfl
  exact Cursor.kinds_synchronize
    (fun kind member =>
      garbage.skipped kind (List.mem_cons_of_mem _ member))
    (Cursor.kinds_advance (reported.trans ahead))

/-! ## All stretches -/

/-- No stretch of a program starts with a semicolon. -/
theorem front_of_stretches
    {stretches : List Stretch}
    {kinds : List Token.Kind}
    (spelled : kinds ∈ (stretches.map Stretch.spelling).prod) :
    (front kinds).isMark .semicolon = false := by
  cases stretches with
  | nil =>
      cases spelled
      rfl
  | cons stretch rest =>
      rw [List.map_cons, List.prod_cons] at spelled
      obtain ⟨stretchKinds, spellsStretch, restKinds, _, rfl⟩ := spelled
      cases stretch with
      | item written =>
          have spellsItem : stretchKinds ∈ written.spelling := spellsStretch
          obtain ⟨_, _, rfl, _⟩ := itemAfter?_accepts spellsItem
          rfl
      | garbage run =>
          obtain ⟨_, rfl, _, _, rfl⟩ := spellsStretch
          have skipped := run.skipped _ (List.mem_cons_self ..)
          simp only [isSkipped, endsItem, Bool.not_eq_true',
            Bool.or_eq_false_iff] at skipped
          exact skipped.1.1.1

/-- Reading on gives the items among some stretches and a fault for the others. -/
def ReadsStretches
    (latest : Option ItemKind)
    (cursor : Cursor)
    (stretches : List Stretch) :
    Prop :=
  ∃ read last,
    itemsRun latest cursor = (read, last) ∧
      read.map Item.withoutPlaces =
        (stretches.filterMap Stretch.item?).map Item.withoutPlaces ∧
      last.faults.map (·.fault) =
        cursor.faults.map (·.fault) ++
          (stretches.filterMap Stretch.garbage?).map Garbage.fault

theorem ReadsStretches.behind_items
    {latest reached : Option ItemKind}
    {cursor next : Cursor}
    {read : List Item}
    {written : Item}
    {rest : List Stretch}
    (goesOn :
      ∀ others last,
        itemsRun reached next = (others, last) →
        itemsRun latest cursor = (read ++ others, last))
    (same : read.map Item.withoutPlaces = [written].map Item.withoutPlaces)
    (silent : next.faults = cursor.faults)
    (reads : ReadsStretches reached next rest) :
    ReadsStretches latest cursor (.item written :: rest) := by
  obtain ⟨others, last, ran, sameOthers, reported⟩ := reads
  refine ⟨read ++ others, last, goesOn others last ran, ?_, ?_⟩
  · rw [List.map_append, same, sameOthers]
    rfl
  · rw [reported, silent]
    rfl

theorem ReadsStretches.behind_garbage
    {latest : Option ItemKind}
    {cursor next : Cursor}
    {run : Garbage}
    {place : Span}
    {rest : List Stretch}
    (goesOn : itemsRun latest cursor = itemsRun latest next)
    (reported : next.faults = cursor.faults ++ [⟨run.fault, place⟩])
    (reads : ReadsStretches latest next rest) :
    ReadsStretches latest cursor (.garbage run :: rest) := by
  obtain ⟨others, last, ran, sameOthers, reportedOthers⟩ := reads
  refine ⟨others, last, goesOn.trans ran, sameOthers, ?_⟩
  rw [reportedOthers, reported, List.map_append, List.append_assoc]
  rfl

theorem isFull_of_room
    {cursor : Cursor}
    {more : Nat}
    (room : cursor.faults.length + more < Diagnostic.errorLimit) :
    cursor.isFull = false := by
  simp only [Cursor.isFull, decide_eq_false_iff_not]
  omega

/--
Stretches are read up to the end of the text.

Garbage leaves the items behind it to be read and the order of the items as it
is; it only brings the limit of errors nearer.
-/
theorem readsStretches
    {stretches : List Stretch}
    (latest : Option ItemKind)
    {kinds : List Token.Kind}
    {cursor : Cursor}
    (spelled : kinds ∈ (stretches.map Stretch.spelling).prod)
    (inOrder : Item.InOrder (stretches.filterMap Stretch.item?))
    (follows :
      ∀ item ∈ stretches.filterMap Stretch.item?, Follows latest item.kind)
    (room :
      cursor.faults.length +
          (stretches.filterMap Stretch.garbage?).length <
        Diagnostic.errorLimit)
    (ahead : cursor.kinds = kinds) :
    ReadsStretches latest cursor stretches := by
  -- For any cursor and any kind of item read last: an item changes both, and
  -- garbage leaves a cursor with one more fault.
  induction stretches generalizing latest kinds cursor with
  | nil =>
      cases spelled
      have nothing : [] ∈ (([] : List Item).map Item.spelling).prod := rfl
      obtain ⟨read, last, ran, same, silent⟩ :=
        itemsRun_accepts latest nothing inOrder follows (isFull_of_room room)
          ahead
      exact ⟨read, last, ran, same, by simp [silent]⟩
  | cons stretch rest inductionHypothesis =>
      rw [List.map_cons, List.prod_cons] at spelled
      obtain ⟨stretchKinds, spellsStretch, restKinds, spellsRest, rfl⟩ :=
        spelled
      cases stretch with
      | item written =>
          have spellsItem :
              stretchKinds ∈ ([written].map Item.spelling).prod := by
            rw [List.map_singleton, List.prod_singleton]
            exact spellsStretch
          obtain ⟨writtenFirst, restInOrder⟩ := List.pairwise_cons.1 inOrder
          have followsWritten : Follows latest written.kind :=
            follows written (List.mem_cons_self ..)
          obtain ⟨read, reached, next, goesOn, same, followsReached, left,
            silent⟩ :=
            itemsRun_of_items latest spellsItem (List.pairwise_singleton _ _)
              (by simpa using followsWritten) (front_of_stretches spellsRest)
              (isFull_of_room room) ahead
          have followsRest :
              ∀ item ∈ rest.filterMap Stretch.item?,
                Follows reached item.kind := by
            intro item member
            refine followsReached item.kind
              (follows item (List.mem_cons_of_mem _ member)) ?_
            simpa using writtenFirst item member
          exact .behind_items goesOn same silent
            (inductionHypothesis reached spellsRest restInOrder followsRest
              (by rw [silent]; exact room) left)
      | garbage run =>
          obtain ⟨next, goesOn, left, reported⟩ :=
            itemsRun_of_garbage latest spellsStretch (isFull_of_room room)
              ahead
          have roomLeft :
              next.faults.length +
                  (rest.filterMap Stretch.garbage?).length <
                Diagnostic.errorLimit := by
            simp only [List.filterMap_cons, Stretch.garbage?,
              List.length_cons] at room
            simp only [reported, List.length_append, List.length_singleton]
            omega
          exact .behind_garbage goesOn reported
            (inductionHypothesis latest spellsRest inOrder follows roomLeft
              left)

end Reader

namespace Program

/--
Garbage between the items of a program is reported once for each run of it, and
the program is read as if it were not there.
-/
theorem reading_skips_garbage
    {stretches : List Stretch}
    {tokens : List Token}
    {finish : Token}
    (inOrder : Item.InOrder (stretches.filterMap Stretch.item?))
    (few :
      (stretches.filterMap Stretch.garbage?).length < Diagnostic.errorLimit)
    (spelled :
      tokens.map (·.kind) ∈ (stretches.map Stretch.spelling).prod)
    (finished : finish.kind.isEndOfFile = true) :
    (ofTokens (tokens ++ [finish])).faults.map (·.fault) =
        (stretches.filterMap Stretch.garbage?).map Garbage.fault ∧
      (ofTokens (tokens ++ [finish])).program.withoutPlaces =
        (ofItems (stretches.filterMap Stretch.item?)
          default).withoutPlaces := by
  have unfinished : ∀ token ∈ tokens, token.kind.isEndOfFile = false :=
    fun token member => Stretch.unfinished_prod_spelling _ _ spelled _
      (List.mem_map_of_mem member)
  have ahead := Cursor.kinds_ofTokens unfinished finished
  obtain ⟨read, last, ran, same, reported⟩ :=
    Reader.readsStretches none spelled inOrder (by simp [Reader.Follows])
      (by simpa [Cursor.ofTokens] using few) ahead
  simp only [ofTokens, ran]
  refine ⟨reported, ?_⟩
  rw [withoutPlaces_ofItems, withoutPlaces_ofItems, same]

/-- A graph and a command, with garbage in front of each of them. -/
theorem reading_skips_garbage_of_graph_and_command :
    let name (text : String) : Identifier := ⟨text, default⟩
    let graph : GraphDeclaration := ⟨.directed, name "g", [], default⟩
    let command : Command := ⟨name "show", [], default⟩
    let kinds : List Token.Kind :=
      [.identifier "x", .mark .equals, .mark .semicolon,
        .keyword .directed, .keyword .graph, .identifier "g",
        .mark .leftBrace, .mark .rightBrace,
        .mark .rightBracket, .mark .semicolon,
        .keyword .run, .identifier "show", .keyword .withArguments,
        .mark .leftParenthesis, .mark .rightParenthesis, .mark .semicolon]
    let reading :=
      ofTokens (kinds.map (⟨·, default⟩) ++ [⟨.endOfFile, default⟩])
    reading.faults.map (·.fault) =
        [.expected .item (.identifier "x"),
          .expected .item (.mark .rightBracket)] ∧
      reading.program.withoutPlaces =
        (Program.mk [] [graph] [command] default).withoutPlaces := by
  intro name graph command kinds reading
  let stray : Garbage := ⟨.identifier "x", [.mark .equals], by decide⟩
  let bracket : Garbage := ⟨.mark .rightBracket, [], by decide⟩
  let stretches : List Stretch :=
    [.garbage stray, .item (.graph graph), .garbage bracket,
      .item (.command command)]
  have spelledStray :
      [.identifier "x", .mark .equals, .mark .semicolon] ∈ stray.spelling :=
    ⟨_, rfl, _, rfl, rfl⟩
  have spelledBracket :
      [.mark .rightBracket, .mark .semicolon] ∈ bracket.spelling :=
    ⟨_, rfl, _, rfl, rfl⟩
  have spelledGraph :
      [.keyword .directed, .keyword .graph, .identifier "g",
        .mark .leftBrace, .mark .rightBrace] ∈ graph.spelling := by
    refine ⟨List.Pairwise.nil, ?_⟩
    simp [graph, name, Direction.spelling, Keyword.spelling, Mark.spelling,
      Identifier.spelling, mul_assoc, cons_mem_alone_mul]
  have spelledCommand :
      [.keyword .run, .identifier "show", .keyword .withArguments,
        .mark .leftParenthesis, .mark .rightParenthesis, .mark .semicolon] ∈
          (Item.command command).spelling := by
    simp [command, name, Item.spelling, Command.spelling, Keyword.spelling,
      Mark.spelling, Identifier.spelling, Argument.listSpelling, mul_assoc,
      cons_mem_alone_mul]
  have graphEnds : [] ∈ 1 + Mark.semicolon.spelling := .inl rfl
  have spelled : kinds ∈ (stretches.map Stretch.spelling).prod :=
    Language.append_mem_mul spelledStray
      (Language.append_mem_mul (Language.append_mem_mul spelledGraph graphEnds)
        (Language.append_mem_mul spelledBracket
          (Language.append_mem_mul spelledCommand rfl)))
  have sameKinds :
      (kinds.map fun kind => (⟨kind, default⟩ : Token)).map (·.kind) =
        kinds := by
    simp [Function.comp_def]
  have inOrder : Item.InOrder (stretches.filterMap Stretch.item?) := by
    have items :
        stretches.filterMap Stretch.item? = [.graph graph, .command command] :=
      rfl
    simp [items, Item.InOrder, Item.kind, ItemKind.rank]
  have few :
      (stretches.filterMap Stretch.garbage?).length < Diagnostic.errorLimit := by
    have runs : stretches.filterMap Stretch.garbage? = [stray, bracket] := rfl
    simp [runs, Diagnostic.errorLimit]
  exact reading_skips_garbage inOrder few (sameKinds ▸ spelled) rfl

end Program

end GraphScript
