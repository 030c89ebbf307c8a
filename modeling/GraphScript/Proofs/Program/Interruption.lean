import GraphScript.Proofs.Program.Completeness
import GraphScript.Proofs.Program.Soundness

namespace GraphScript

/-!
# Bodies with tokens of no item

In the body of a graph, a token that starts no item is reported and stepped
over, and what follows it is skipped through the next semicolon. The items
around it are read as if it were not there. Where that token is a semicolon
itself, the next semicolon is the one that ends the item behind it, so that
this item is lost.
-/

open Spellings Token.Kind

namespace Token.Kind

/-- Whether an item of a body may start with a token. -/
def startsBodyItem :
    Token.Kind →
    Bool
  | .keyword word => word = .var || (Reader.defaultTarget? word).isSome
  | kind => Reader.startsStatement kind

/-- Whether a token is skipped on the way to where reading can start again. -/
def isSkipped
    (kind : Token.Kind) :
    Bool :=
  !(kind.endsItem || kind.startsItem)

end Token.Kind

/-! ## Skipping -/

namespace Cursor

variable {cursor : Cursor} {rest : List Token.Kind}

theorem isFull_of_faultless
    (faultless : cursor.faults = []) :
    cursor.isFull = false := by
  simp [isFull, faultless, Diagnostic.errorLimit]

/-- What skipping does is told by the next token alone. -/
theorem synchronize_eq
    (cursor : Cursor) :
    cursor.synchronize =
      if cursor.kind.isMark .semicolon then
        cursor.advance
      else if cursor.kind.isMark .rightBrace || cursor.kind.startsItem then
        cursor
      else
        cursor.advance.synchronize := by
  rcases cursor with ⟨pending, finish, previous, faults⟩
  cases pending with
  | nil =>
      have still : (⟨[], finish, previous, faults⟩ : Cursor).advance =
          ⟨[], finish, previous, faults⟩ :=
        rfl
      have stays : (⟨[], finish, previous, faults⟩ : Cursor).synchronize =
          ⟨[], finish, previous, faults⟩ := by
        rw [synchronize]
      rw [still, stays, ite_self, ite_self]
  | cons token rest =>
      rw [synchronize]
      rfl

theorem synchronize_of_semicolon
    (ahead : cursor.kind = .mark .semicolon) :
    cursor.synchronize = cursor.advance := by
  rw [synchronize_eq, if_pos (by simp [ahead])]

theorem synchronize_of_closing
    (ahead : cursor.kind = .mark .rightBrace) :
    cursor.synchronize = cursor := by
  rw [synchronize_eq, if_neg (by simp [ahead]), if_pos (by simp [ahead])]

theorem synchronize_of_keyword
    {word : Keyword}
    (ahead : cursor.kind = .keyword word)
    (starts : word.startsItem = true) :
    cursor.synchronize = cursor := by
  rw [synchronize_eq, if_neg (by simp [ahead]),
    if_pos (by simp [ahead, startsItem, starts])]

theorem synchronize_of_skipped
    (skipped : cursor.kind.isSkipped = true) :
    cursor.synchronize = cursor.advance.synchronize := by
  simp only [isSkipped, endsItem, Bool.not_eq_true',
    Bool.or_eq_false_iff] at skipped
  obtain ⟨⟨⟨notSemicolon, notClosing⟩, _⟩, notStart⟩ := skipped
  rw [synchronize_eq, if_neg (by simp [notSemicolon]),
    if_neg (by simp [notClosing, notStart])]

/-- Tokens in front of a semicolon are skipped, and so is the semicolon. -/
theorem kinds_synchronize
    {skipped : List Token.Kind}
    (areSkipped : ∀ kind ∈ skipped, kind.isSkipped = true)
    (ahead : cursor.kinds = skipped ++ .mark .semicolon :: rest) :
    cursor.synchronize.kinds = rest := by
  induction skipped generalizing cursor with
  | nil =>
      rw [synchronize_of_semicolon (kind_of_kinds ahead)]
      exact kinds_advance ahead
  | cons kind kinds inductionHypothesis =>
      have isNext : cursor.kind = kind :=
        kind_of_kinds ahead
      rw [synchronize_of_skipped (by simp [isNext, areSkipped])]
      exact inductionHypothesis
        (fun other member => areSkipped other (List.mem_cons_of_mem _ member))
        (kinds_advance ahead)

end Cursor

namespace Reader

theorem bodyItemAfter?_eq_none
    {token : Token}
    (unreadable : token.kind.startsBodyItem = false) :
    bodyItemAfter? token = none := by
  rcases token with ⟨kind, span⟩
  cases kind with
  | keyword word =>
      cases word <;> first | rfl | cases unreadable
  | mark sign =>
      cases sign <;> first | rfl | cases unreadable
  | identifier name =>
      cases unreadable
  | _ =>
      rfl

theorem startsStatement_eq_false
    {kind : Token.Kind}
    (unreadable : kind.startsBodyItem = false) :
    startsStatement kind = false := by
  cases kind with
  | keyword word =>
      rfl
  | _ =>
      exact unreadable

/-- A token that starts no item is reported, and the body goes on behind it. -/
theorem bodyRun_of_stray
    {seenStatement : Bool}
    {cursor : Cursor}
    {kind : Token.Kind}
    {rest : List Token.Kind}
    (unreadable : kind.startsBodyItem = false)
    (notClosing : kind.isMark .rightBrace = false)
    (notStart : kind.startsItem = false)
    (notFull : cursor.isFull = false)
    (ahead : cursor.kinds = kind :: rest) :
    bodyRun seenStatement cursor =
      bodyRun seenStatement (cursor.skipItem (.expected .bodyItem kind)) := by
  obtain ⟨token, others, pending, rfl, _⟩ := Cursor.pending_of_kinds ahead
  rw [bodyRun]
  split
  · next none =>
    simp [none] at pending
  · next first _ found =>
    obtain ⟨rfl, rfl⟩ := List.cons.inj (found.symm.trans pending)
    simp only [notClosing, notFull, Bool.or_self, Bool.false_eq_true,
      if_false, bodyItemAfter?_eq_none unreadable, notStart,
      startsStatement_eq_false unreadable, Bool.or_false]

end Reader

/-! ## Interrupted graphs -/

namespace BodyItem

/-- Whether an item declares a variable. -/
def isBinding :
    BodyItem →
    Bool
  | .statement (.binding _) => true
  | _ => false

/-- A variable declaration starts with a word where reading starts again. -/
theorem kinds_of_isBinding
    {item : BodyItem}
    {kinds : List Token.Kind}
    (isBinding : item.isBinding = true)
    (spelled : kinds ∈ item.spelling) :
    ∃ more, kinds = .keyword .var :: more := by
  cases item with
  | defaults declared =>
      cases isBinding
  | statement written =>
      cases written with
      | binding declared =>
          exact Reader.kinds_of_variable spelled
      | node statement =>
          cases isBinding
      | edge statement =>
          cases isBinding

/-- An item without a word that starts an item is skipped with its semicolon. -/
theorem kinds_synchronize
    {item : BodyItem}
    {kinds rest : List Token.Kind}
    {cursor : Cursor}
    (clear : Avoids Token.Kind.startsItem item.spelling)
    (spelled : kinds ∈ item.spelling)
    (ahead : cursor.kinds = kinds ++ .mark .semicolon :: rest) :
    cursor.synchronize.kinds = rest := by
  refine Cursor.kinds_synchronize (fun kind member => ?_) ahead
  simp [isSkipped, clear kinds spelled kind member,
    item.unbroken_spelling kinds spelled kind member]

end BodyItem

/--
A graph in whose body tokens that belong to no item stand between two items.

A semicolon follows them. There may be no such token but the semicolon.
-/
structure InterruptedGraph where
  direction : Direction
  name : Identifier
  before : List BodyItem
  garbage : List Token.Kind
  after : List BodyItem
  inOrder : BodyItem.InOrder (before ++ after)
  skipped : ∀ kind ∈ garbage, kind.isSkipped = true
  unreadable : ∀ kind ∈ garbage.head?, kind.startsBodyItem = false

namespace InterruptedGraph

/-- The graph with other items in its body. -/
def withItems
    (graph : InterruptedGraph)
    (items : List BodyItem) :
    GraphDeclaration :=
  ⟨graph.direction, graph.name, items, default⟩

/-- `item; … garbage; item; …`. -/
def bodySpelling
    (graph : InterruptedGraph) :
    Spellings :=
  terminated (graph.before.map BodyItem.spelling) *
    ({graph.garbage} * Mark.semicolon.spelling) *
    terminated (graph.after.map BodyItem.spelling)

/-- `directed graph name { item; … garbage; item; … }`. -/
def spelling
    (graph : InterruptedGraph) :
    Spellings :=
  graph.direction.spelling * Keyword.graph.spelling *
    graph.name.spelling * Mark.leftBrace.spelling *
    graph.bodySpelling * Mark.rightBrace.spelling

/-- The token at which an item is missing. -/
def stray
    (graph : InterruptedGraph) :
    Token.Kind :=
  front (graph.garbage ++ [.mark .semicolon])

/--
The item that is skipped together with the garbage.

A semicolon alone takes the next item with it, unless that declares a variable:
it then starts with a word where reading starts again.
-/
def lost
    (graph : InterruptedGraph) :
    Option BodyItem :=
  match graph.garbage, graph.after with
  | [], next :: _ => if next.isBinding then none else some next
  | _, _ => none

/-- Whether reading does not start again in the middle of the lost item. -/
def LosesWhole
    (graph : InterruptedGraph) :
    Prop :=
  ∀ item ∈ graph.lost, Avoids Token.Kind.startsItem item.spelling

/-- The items behind the garbage that are read. -/
def kept
    (graph : InterruptedGraph) :
    List BodyItem :=
  graph.after.drop graph.lost.toList.length

/-- Nothing but the lost item is missing among the items that are kept. -/
theorem after_eq
    (graph : InterruptedGraph) :
    graph.after = graph.lost.toList ++ graph.kept := by
  unfold kept lost
  split
  · next next later _ isAfter =>
    cases next.isBinding <;> simp [isAfter]
  · simp

theorem kept_eq_after
    {graph : InterruptedGraph}
    (nothingLost : graph.lost = none) :
    graph.kept = graph.after := by
  simp [kept, nothingLost]

/--
Behind a semicolon alone, skipping goes through the semicolon of the lost item.

Where nothing is lost, it ends where it starts.
-/
theorem kinds_synchronize
    {graph : InterruptedGraph}
    {afterKinds rest : List Token.Kind}
    {cursor : Cursor}
    (noGarbage : graph.garbage = [])
    (losesWhole : graph.LosesWhole)
    (spelled : afterKinds ∈ terminated (graph.after.map BodyItem.spelling))
    (ahead : cursor.kinds = afterKinds ++ .mark .rightBrace :: rest) :
    ∃ keptKinds ∈ terminated (graph.kept.map BodyItem.spelling),
      cursor.synchronize.kinds = keptKinds ++ .mark .rightBrace :: rest := by
  cases isAfter : graph.after with
  | nil =>
      have nothingLost : graph.lost = none := by
        simp [lost, isAfter]
      refine ⟨afterKinds, kept_eq_after nothingLost ▸ spelled, ?_⟩
      rw [isAfter] at spelled
      cases spelled
      rw [Cursor.synchronize_of_closing (Cursor.kind_of_kinds ahead)]
      exact ahead
  | cons next later =>
      have spelledItems := spelled
      rw [isAfter, List.map_cons, terminated_cons, mul_assoc] at spelledItems
      obtain ⟨nextKinds, spellsNext, _, ⟨_, rfl, laterKinds, spellsLater,
        rfl⟩, rfl⟩ := spelledItems
      cases isBinding : next.isBinding with
      | true =>
          have nothingLost : graph.lost = none := by
            simp [lost, noGarbage, isAfter, isBinding]
          obtain ⟨more, rfl⟩ :=
            BodyItem.kinds_of_isBinding isBinding spellsNext
          refine ⟨_, kept_eq_after nothingLost ▸ spelled, ?_⟩
          rw [Cursor.synchronize_of_keyword (Cursor.kind_of_kinds ahead) rfl]
          exact ahead
      | false =>
          have isLost : graph.lost = some next := by
            simp [lost, noGarbage, isAfter, isBinding]
          have isKept : graph.kept = later := by
            simp [kept, isLost, isAfter]
          refine ⟨laterKinds, isKept ▸ spellsLater,
            BodyItem.kinds_synchronize (losesWhole next isLost) spellsNext ?_⟩
          simpa using ahead

/-- Behind the garbage, the reader is where the items that are kept start. -/
theorem kinds_skipItem
    {graph : InterruptedGraph}
    {afterKinds rest : List Token.Kind}
    {cursor : Cursor}
    (fault : Fault)
    (losesWhole : graph.LosesWhole)
    (spelled : afterKinds ∈ terminated (graph.after.map BodyItem.spelling))
    (ahead :
      cursor.kinds =
        graph.garbage ++
          .mark .semicolon :: (afterKinds ++ .mark .rightBrace :: rest)) :
    ∃ keptKinds ∈ terminated (graph.kept.map BodyItem.spelling),
      (cursor.skipItem fault).kinds =
        keptKinds ++ .mark .rightBrace :: rest := by
  have reported : (cursor.report fault).kinds = _ :=
    ahead
  cases isGarbage : graph.garbage with
  | cons kind garbage =>
      -- the next semicolon is the one behind the garbage
      have nothingLost : graph.lost = none := by
        simp [lost, isGarbage]
      rw [isGarbage] at reported
      refine ⟨afterKinds, kept_eq_after nothingLost ▸ spelled,
        Cursor.kinds_synchronize (fun other member => ?_)
          (Cursor.kinds_advance reported)⟩
      exact graph.skipped other (by simp [isGarbage, member])
  | nil =>
      -- the semicolon behind the garbage has been stepped over
      rw [isGarbage] at reported
      exact kinds_synchronize isGarbage losesWhole spelled
        (Cursor.kinds_advance reported)

/-- No item starts where one is missing, and the body does not end there. -/
theorem stray_unreadable
    (graph : InterruptedGraph) :
    graph.stray.startsBodyItem = false ∧
      graph.stray.isMark .rightBrace = false ∧
      graph.stray.startsItem = false := by
  cases isGarbage : graph.garbage with
  | nil =>
      simp [stray, isGarbage, startsBodyItem, Reader.startsStatement,
        startsItem]
  | cons kind garbage =>
      have skipped := graph.skipped kind (by simp [isGarbage])
      simp only [isSkipped, endsItem, Bool.not_eq_true',
        Bool.or_eq_false_iff] at skipped
      have isStray : graph.stray = kind := by
        simp [stray, isGarbage]
      exact isStray ▸ ⟨graph.unreadable kind (by simp [isGarbage]),
        skipped.1.1.2, skipped.2⟩

theorem garbage_append
    (graph : InterruptedGraph)
    (rest : List Token.Kind) :
    ∃ more, graph.garbage ++ .mark .semicolon :: rest = graph.stray :: more := by
  cases isGarbage : graph.garbage with
  | nil =>
      exact ⟨rest, by simp [stray, isGarbage]⟩
  | cons kind garbage =>
      exact ⟨_, by simp [stray, isGarbage]; rfl⟩

theorem kinds_of_bodySpelling
    {graph : InterruptedGraph}
    {kinds : List Token.Kind}
    (spelled : kinds ∈ graph.bodySpelling) :
    ∃ beforeKinds ∈ terminated (graph.before.map BodyItem.spelling),
      ∃ afterKinds ∈ terminated (graph.after.map BodyItem.spelling),
        kinds =
          beforeKinds ++ (graph.garbage ++ .mark .semicolon :: afterKinds) := by
  obtain ⟨_, ⟨beforeKinds, spellsBefore, _, ⟨_, rfl, _, rfl, rfl⟩, rfl⟩,
    afterKinds, spellsAfter, rfl⟩ := spelled
  exact ⟨beforeKinds, spellsBefore, afterKinds, spellsAfter, by simp⟩

end InterruptedGraph

namespace Reader

variable {graph : InterruptedGraph} {rest : List Token.Kind}

/-- The items before the garbage are read, and the token behind them is reported. -/
theorem bodyRun_of_interrupted
    {kinds : List Token.Kind}
    {cursor : Cursor}
    (spelled : kinds ∈ graph.bodySpelling)
    (faultless : cursor.faults = [])
    (ahead : cursor.kinds = kinds ++ rest) :
    ∃ read seenStatement, ∃ missing : Cursor,
      (∀ others last,
        bodyRun seenStatement
            (missing.skipItem (.expected .bodyItem graph.stray)) =
          (others, last) →
        bodyRun false cursor = (read ++ others, last)) ∧
        read.map BodyItem.withoutPlaces =
          graph.before.map BodyItem.withoutPlaces ∧
        (seenStatement = true →
          ∀ item ∈ graph.after, item.defaults? = none) ∧
        missing.faults = [] ∧
        ∃ afterKinds ∈ terminated (graph.after.map BodyItem.spelling),
          missing.kinds =
            graph.garbage ++ .mark .semicolon :: (afterKinds ++ rest) := by
  obtain ⟨beforeKinds, spellsBefore, afterKinds, spellsAfter, rfl⟩ :=
    InterruptedGraph.kinds_of_bodySpelling spelled
  obtain ⟨beforeInOrder, _, behind⟩ := List.pairwise_append.1 graph.inOrder
  have notFull := Cursor.isFull_of_faultless faultless
  obtain ⟨read, missing, goesOn, same, left, silent⟩ :=
    bodyRun_of_items false spellsBefore beforeInOrder (by simp) notFull
      (by simpa using ahead)
  obtain ⟨more, front⟩ := graph.garbage_append (afterKinds ++ rest)
  obtain ⟨unreadable, notClosing, notStart⟩ := graph.stray_unreadable
  refine ⟨read, graph.before.any BodyItem.mentionsNodes, missing,
    fun others last ran => ?_, same, ?_, silent.trans faultless, afterKinds,
    spellsAfter, left⟩
  · refine goesOn others last (Eq.trans ?_ ran)
    exact bodyRun_of_stray unreadable notClosing notStart
      (Cursor.isFull_of_faultless (silent.trans faultless)) (left.trans front)
  · intro seen item member
    obtain ⟨earlier, isEarlier, mentions⟩ := List.any_eq_true.1 seen
    exact behind earlier isEarlier item member mentions

/-- Whatever follows, the missing item is reported. -/
theorem body_faulted
    {kinds : List Token.Kind}
    {cursor : Cursor}
    (spelled : kinds ∈ graph.bodySpelling)
    (faultless : cursor.faults = [])
    (ahead : cursor.kinds = kinds ++ rest) :
    cursor.Faulted (body.run cursor).2 := by
  obtain ⟨read, seen, missing, goesOn, _, _, silent, _⟩ :=
    bodyRun_of_interrupted spelled faultless ahead
  have grows :=
    (bodyRun_passes seen
      (missing.skipItem (.expected .bodyItem graph.stray))).faults_grow
  have faulted := (missing.faulted_skipItem _).trans_extends grows
  have ran := goesOn _ _ rfl
  simpa only [body, ran] using
    faulted.of_silent_left (silent.trans faultless.symm)

/-- One fault is reported, and only the lost item is missing. -/
theorem bodyRun_of_losesWhole
    {kinds : List Token.Kind}
    {cursor : Cursor}
    (losesWhole : graph.LosesWhole)
    (spelled : kinds ∈ graph.bodySpelling)
    (faultless : cursor.faults = [])
    (ahead : cursor.kinds = kinds ++ .mark .rightBrace :: rest) :
    ∃ read last place,
      bodyRun false cursor = (read, last) ∧
        read.map BodyItem.withoutPlaces =
          (graph.before ++ graph.kept).map BodyItem.withoutPlaces ∧
        last.kinds = .mark .rightBrace :: rest ∧
        last.faults = [⟨.expected .bodyItem graph.stray, place⟩] := by
  obtain ⟨read, seen, missing, goesOn, same, behind, silent, afterKinds,
    spellsAfter, left⟩ := bodyRun_of_interrupted spelled faultless ahead
  set fault : Fault := .expected .bodyItem graph.stray
  obtain ⟨keptKinds, spellsKept, leftKept⟩ :=
    InterruptedGraph.kinds_skipItem fault losesWhole spellsAfter left
  have reported :
      (missing.skipItem fault).faults = [⟨fault, missing.span⟩] := by
    simp [Cursor.skipItem, Cursor.report, silent]
  have isAfter := graph.after_eq
  have keptInOrder : BodyItem.InOrder graph.kept :=
    graph.inOrder.sublist (by simp [isAfter])
  have keptBehind :
      seen = true → ∀ item ∈ graph.kept, item.defaults? = none :=
    fun isSeen item member => behind isSeen item (by simp [isAfter, member])
  obtain ⟨others, last, ran, sameOthers, leftOthers, silentOthers⟩ :=
    bodyRun_accepts seen spellsKept keptInOrder keptBehind
      (by simp [Cursor.isFull, reported, Diagnostic.errorLimit]) leftKept
  exact ⟨read ++ others, last, missing.span, goesOn others last ran,
    by simp [same, sameOthers], leftOthers, silentOthers.trans reported⟩

end Reader

end GraphScript
