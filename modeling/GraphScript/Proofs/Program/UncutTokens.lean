import GraphScript.Program.Reader

namespace GraphScript

/-!
# Reading tokens that are not cut

A program is read from the tokens in front of the first end of file. Here
nothing is cut off: the end and all that stands behind it stay ahead, and it is
up to the reading not to step over the end. What can meet the end looks for it,
and the loops over items are taken apart into their iterations, so that one can
say what each of them does. The readers of single items are the same ones.
-/

namespace Token

/-- The test for an end of file tells exactly that kind. -/
theorem Kind.isEndOfFile_iff
    {kind : Token.Kind} :
    kind.isEndOfFile = true ↔ kind = .endOfFile := by
  cases kind <;> simp [isEndOfFile]

/-- The tokens of a list, with an end of file where the last of them is none. -/
def ended
    (tokens : List Token) :
    List Token :=
  match tokens.getLast? with
  | some last =>
      if last.kind.isEndOfFile then
        tokens
      else
        tokens ++ [⟨.endOfFile, last.span⟩]
  | none =>
      [⟨.endOfFile, default⟩]

end Token

namespace Cursor

/-- The start of a token list, with its end and what stands behind that. -/
def uncut
    (tokens : List Token) :
    Cursor :=
  { ofTokens tokens with pending := Token.ended tokens }

/--
Skip tokens to a place where reading can start again.

That is at the end of the text, after the next semicolon, before a closing
brace, or before a word that starts an item.
-/
def synchronizeInText
    (cursor : Cursor) :
    Cursor :=
  match ahead : cursor.pending with
  | [] =>
      cursor
  | token :: _ =>
      if token.kind.isEndOfFile then
        cursor
      else if token.kind.isMark .semicolon then
        cursor.advance
      else if token.kind.isMark .rightBrace || token.kind.startsItem then
        cursor
      else
        have : cursor.advance.remaining < cursor.remaining :=
          remaining_advance_lt ahead
        cursor.advance.synchronizeInText
termination_by cursor.remaining

/-- At the end of the text nothing is skipped. -/
theorem synchronizeInText_of_end
    {cursor : Cursor}
    (atEnd : cursor.kind = .endOfFile) :
    cursor.synchronizeInText = cursor := by
  rw [synchronizeInText]
  split
  · rfl
  · next token rest ahead =>
    have isEnd : token.kind = .endOfFile := by
      simpa [kind, ahead] using atEnd
    rw [isEnd]
    rfl

/--
Skipping ends behind a semicolon and in front of a closing brace or the start of
an item, and goes on behind any other token.
-/
theorem synchronizeInText_of_token
    {cursor : Cursor}
    {token : Token}
    {rest : List Token}
    (ahead : cursor.pending = token :: rest)
    (inText : token.kind ≠ .endOfFile) :
    cursor.synchronizeInText =
      if token.kind.isMark .semicolon then
        cursor.advance
      else if token.kind.isMark .rightBrace || token.kind.startsItem then
        cursor
      else
        cursor.advance.synchronizeInText := by
  rw [synchronizeInText]
  split
  · next none =>
    simp [none] at ahead
  · next first others pending =>
    obtain ⟨rfl, rfl⟩ := List.cons.inj (pending.symm.trans ahead)
    rw [if_neg (by rwa [Token.Kind.isEndOfFile_iff])]

/-- Skipping adds no token. -/
theorem remaining_synchronizeInText_le
    (cursor : Cursor) :
    cursor.synchronizeInText.remaining ≤ cursor.remaining := by
  fun_induction synchronizeInText cursor with
  | case1 =>
      exact Nat.le_refl _
  | case2 =>
      exact Nat.le_refl _
  | case3 cursor =>
      exact remaining_advance_le cursor
  | case4 =>
      exact Nat.le_refl _
  | case5 cursor _ _ _ _ _ _ shorter inductionHypothesis =>
      exact Nat.le_trans inductionHypothesis (Nat.le_of_lt shorter)

/-- Report the next token, step over it, and go on where reading can start again. -/
def skipInText
    (cursor : Cursor)
    (fault : Fault) :
    Cursor :=
  (cursor.report fault).advance.synchronizeInText

/-- Record a fault at the next token, if there is one. -/
def reportAny
    (cursor : Cursor)
    (fault? : Option Fault) :
    Cursor :=
  fault?.elim cursor cursor.report

/-- Reporting takes no token. -/
theorem pending_reportAny
    (cursor : Cursor)
    (fault? : Option Fault) :
    (cursor.reportAny fault?).pending = cursor.pending := by
  cases fault? <;> rfl

/-- Behind the token ahead there are fewer tokens. -/
theorem remaining_reportAny_advance_lt
    {cursor : Cursor}
    {token : Token}
    {rest : List Token}
    (fault? : Option Fault)
    (ahead : cursor.pending = token :: rest) :
    (cursor.reportAny fault?).advance.remaining < cursor.remaining := by
  have same := pending_reportAny cursor fault?
  simpa [remaining, same] using remaining_advance_lt (same.trans ahead)

end Cursor

namespace Reader

variable {σ α : Type}

/-! ## Loops -/

/-- What one iteration of a loop over items leaves to the next one. -/
structure Iteration (σ α : Type) where
  /-- The item that was read, unless reading it failed. -/
  item : Option α
  state : σ
  next : Cursor

namespace Iteration

/-- After a reader of an item. Where it failed, tokens are skipped. -/
def recovered
    (state : σ) :
    Option α × Cursor →
    Iteration σ α
  | (some item, next) => ⟨some item, state, next⟩
  | (none, next) => ⟨none, state, next.synchronizeInText⟩

/-- Recovering from a failed item adds no token. -/
theorem remaining_recovered_le
    (state : σ)
    (ran : Option α × Cursor) :
    (recovered state ran).next.remaining ≤ ran.2.remaining := by
  obtain ⟨item?, next⟩ := ran
  cases item? with
  | some item =>
      exact Nat.le_refl _
  | none =>
      exact next.remaining_synchronizeInText_le

end Iteration

/-- What the next token is to a loop over items. -/
inductive Opening (σ α : Type) where
  /-- The loop breaks in front of the token. -/
  | stop
  /-- The token starts an item. That may be out of its order. -/
  | item (later : σ) (misplaced : Option Fault) (reader : Reader α)
  /-- The token starts no item. -/
  | stray (later : σ) (fault : Fault)

/-- A loop over items, with a state that each token may change. -/
structure Loop (σ α : Type) where
  opening : σ → Token → Opening σ α

namespace Loop

/--
One iteration of a loop, unless the loop breaks.

It does so at the end of the text, at the limit of errors, and in front of the
tokens that stop it.
-/
def iteration?
    (loop : Loop σ α)
    (state : σ)
    (cursor : Cursor) :
    Option (Iteration σ α) :=
  match cursor.pending with
  | [] =>
      none
  | token :: _ =>
      if token.kind.isEndOfFile || cursor.isFull then
        none
      else
        match loop.opening state token with
        | .stop =>
            none
        | .item later misplaced reader =>
            let started := (cursor.reportAny misplaced).advance
            some (.recovered later (reader.run started))
        | .stray later fault =>
            some ⟨none, later, cursor.skipInText fault⟩

/-- A loop breaks at the end of the text. -/
theorem iteration?_of_end
    {loop : Loop σ α}
    {state : σ}
    {cursor : Cursor}
    (atEnd : cursor.kind = .endOfFile) :
    loop.iteration? state cursor = none := by
  unfold iteration?
  split
  · rfl
  · next token rest ahead =>
    have isEnd : token.kind = .endOfFile := by
      simpa [Cursor.kind, ahead] using atEnd
    rw [isEnd]
    rfl

/-- A loop breaks at the limit of errors. -/
theorem iteration?_of_full
    {loop : Loop σ α}
    {state : σ}
    {cursor : Cursor}
    (full : cursor.isFull = true) :
    loop.iteration? state cursor = none := by
  unfold iteration?
  split
  · rfl
  · rw [full, Bool.or_true, if_pos rfl]

section Token

variable
  {loop : Loop σ α}
  {state later : σ}
  {cursor : Cursor}
  {token : Token}
  {rest : List Token}

/-- A loop breaks in front of a token that stops it. -/
theorem iteration?_of_stop
    (ahead : cursor.pending = token :: rest)
    (stops : loop.opening state token = .stop) :
    loop.iteration? state cursor = none := by
  simp only [iteration?, ahead, stops, ite_self]

/-- A token that starts an item is stepped over, and the item is read behind it. -/
theorem iteration?_of_item
    {misplaced : Option Fault}
    {reader : Reader α}
    (ahead : cursor.pending = token :: rest)
    (inText : token.kind ≠ .endOfFile)
    (notFull : cursor.isFull = false)
    (opens : loop.opening state token = .item later misplaced reader) :
    loop.iteration? state cursor =
      some (.recovered later
        (reader.run (cursor.reportAny misplaced).advance)) := by
  simp only [iteration?, ahead, opens]
  rw [if_neg (by simp [Token.Kind.isEndOfFile_iff, inText, notFull])]

/-- A token that starts no item is reported and skipped. -/
theorem iteration?_of_stray
    {fault : Fault}
    (ahead : cursor.pending = token :: rest)
    (inText : token.kind ≠ .endOfFile)
    (notFull : cursor.isFull = false)
    (strays : loop.opening state token = .stray later fault) :
    loop.iteration? state cursor =
      some ⟨none, later, cursor.skipInText fault⟩ := by
  simp only [iteration?, ahead, strays]
  rw [if_neg (by simp [Token.Kind.isEndOfFile_iff, inText, notFull])]

/-- An iteration starts at a token that is not the end and does not stop the loop. -/
theorem exists_token_of_iteration
    {iteration : Iteration σ α}
    (iterates : loop.iteration? state cursor = some iteration) :
    ∃ token rest,
      cursor.pending = token :: rest ∧
        token.kind ≠ .endOfFile ∧
        ((∃ later misplaced reader,
            loop.opening state token = .item later misplaced reader ∧
              iteration =
                .recovered later
                  (reader.run (cursor.reportAny misplaced).advance)) ∨
          ∃ later fault,
            iteration = ⟨none, later, cursor.skipInText fault⟩) := by
  unfold iteration? at iterates
  split at iterates
  · cases iterates
  · next token rest ahead =>
    split at iterates
    · cases iterates
    · next goesOn =>
      have inText : token.kind ≠ .endOfFile := by
        intro isEnd
        simp [isEnd, Token.Kind.isEndOfFile] at goesOn
      refine ⟨token, rest, ahead, inText, ?_⟩
      split at iterates
      · cases iterates
      · next later misplaced reader opens =>
        cases iterates
        exact .inl ⟨later, misplaced, reader, opens, rfl⟩
      · next later fault _ =>
        cases iterates
        exact .inr ⟨later, fault, rfl⟩

end Token

/-- Every iteration of a loop leaves fewer tokens. -/
theorem remaining_iteration?_lt
    {loop : Loop σ α}
    {state : σ}
    {cursor : Cursor}
    {iteration : Iteration σ α}
    (iterates : loop.iteration? state cursor = some iteration) :
    iteration.next.remaining < cursor.remaining := by
  obtain ⟨token, rest, ahead, _, opened⟩ := exists_token_of_iteration iterates
  rcases opened with
    ⟨later, misplaced, reader, _, rfl⟩ | ⟨later, fault, rfl⟩
  · exact Nat.lt_of_le_of_lt
      (Nat.le_trans (Iteration.remaining_recovered_le _ _) (reader.forward _))
      (Cursor.remaining_reportAny_advance_lt misplaced ahead)
  · exact Nat.lt_of_le_of_lt
      (Cursor.remaining_synchronizeInText_le _)
      (Cursor.remaining_reportAny_advance_lt (some fault) ahead)

/-- The items that are read until the loop breaks, and where that is. -/
def run
    (loop : Loop σ α)
    (state : σ)
    (cursor : Cursor) :
    List α × Cursor :=
  match iterates : loop.iteration? state cursor with
  | none =>
      ([], cursor)
  | some iteration =>
      have : iteration.next.remaining < cursor.remaining :=
        remaining_iteration?_lt iterates
      let (later, last) := loop.run iteration.state iteration.next
      (iteration.item.toList ++ later, last)
termination_by cursor.remaining

/-- A loop that breaks reads no further items. -/
theorem run_of_break
    {loop : Loop σ α}
    {state : σ}
    {cursor : Cursor}
    (breaks : loop.iteration? state cursor = none) :
    loop.run state cursor = ([], cursor) := by
  rw [run]
  split
  · rfl
  · next iterates =>
    cases breaks.symm.trans iterates

/-- A loop that does not break continues behind one iteration. -/
theorem run_of_iteration
    {loop : Loop σ α}
    {state : σ}
    {cursor : Cursor}
    {iteration : Iteration σ α}
    (iterates : loop.iteration? state cursor = some iteration) :
    loop.run state cursor =
      (iteration.item.toList ++
          (loop.run iteration.state iteration.next).1,
        (loop.run iteration.state iteration.next).2) := by
  rw [run]
  split
  · next breaks =>
    cases breaks.symm.trans iterates
  · next other iterated =>
    cases iterated.symm.trans iterates
    rfl

/-- An item that is read comes before the later ones. -/
theorem run_of_item
    {loop : Loop σ α}
    {state later : σ}
    {cursor next : Cursor}
    {item : α}
    (iterates :
      loop.iteration? state cursor = some ⟨some item, later, next⟩) :
    loop.run state cursor =
      (item :: (loop.run later next).1, (loop.run later next).2) :=
  run_of_iteration iterates

/-- An item that cannot be read adds nothing. -/
theorem run_of_failure
    {loop : Loop σ α}
    {state later : σ}
    {cursor next : Cursor}
    (iterates : loop.iteration? state cursor = some ⟨none, later, next⟩) :
    loop.run state cursor = loop.run later next :=
  run_of_iteration iterates

/-- A loop adds no token. -/
theorem remaining_run_le
    (loop : Loop σ α)
    (state : σ)
    (cursor : Cursor) :
    (loop.run state cursor).2.remaining ≤ cursor.remaining := by
  fun_induction loop.run state cursor with
  | case1 =>
      exact Nat.le_refl _
  | case2 state cursor iteration iterates shorter later last more
      inductionHypothesis =>
      rw [more] at inductionHypothesis
      exact Nat.le_trans inductionHypothesis (Nat.le_of_lt shorter)

/-- The reader of all items of a loop. -/
def reader
    (loop : Loop σ α)
    (state : σ) :
    Reader (List α) where
  run cursor :=
    let (items, last) := loop.run state cursor
    (some items, last)
  forward := loop.remaining_run_le state

/--
Some iterations of a loop lead from one place to another.

The list has the items that they read.
-/
inductive Leads
    (loop : Loop σ α) :
    σ →
    Cursor →
    List α →
    σ →
    Cursor →
    Prop
  | stay
      (state : σ)
      (cursor : Cursor) :
      Leads loop state cursor [] state cursor
  | iterate
      {state final : σ}
      {cursor last : Cursor}
      {iteration : Iteration σ α}
      {items : List α}
      (iterates : loop.iteration? state cursor = some iteration)
      (leads : Leads loop iteration.state iteration.next items final last) :
      Leads loop state cursor (iteration.item.toList ++ items) final last

/-- Every loop comes to a place where it breaks. -/
theorem leads_run
    (loop : Loop σ α)
    (state : σ)
    (cursor : Cursor) :
    ∃ final,
      loop.Leads state cursor (loop.run state cursor).1 final
          (loop.run state cursor).2 ∧
        loop.iteration? final (loop.run state cursor).2 = none := by
  fun_induction loop.run state cursor with
  | case1 state cursor breaks =>
      exact ⟨state, .stay state cursor, breaks⟩
  | case2 state cursor iteration iterates _ later last more
      inductionHypothesis =>
      rw [more] at inductionHypothesis
      obtain ⟨final, leads, breaks⟩ := inductionHypothesis
      exact ⟨final, .iterate iterates leads, breaks⟩

end Loop

/-! ## The body of a graph -/

/-- The fault of a default declaration that stands behind a statement. -/
def lateDefaults?
    (seenStatement : Bool) :
    Token.Kind →
    Option Fault
  | .keyword word =>
      if seenStatement && (defaultTarget? word).isSome then
        some (.lateDefaults word)
      else
        none
  | _ =>
      none

/-- The loop over the items of a graph's body. -/
def bodyLoop :
    Loop Bool BodyItem where
  opening seenStatement token :=
    let seen := seenStatement || startsStatement token.kind
    if token.kind.isMark .rightBrace then
      .stop
    else
      match bodyItemAfter? token with
      | some reader =>
          .item seen (lateDefaults? seenStatement token.kind) reader
      | none =>
          if token.kind.startsItem then
            .stop
          else
            .stray seen (.expected .bodyItem token.kind)

/-! ## The items of a program -/

/-- Read a graph declaration whose body may meet the end, after its first word. -/
def graphInText
    (start : Span)
    (direction : Direction) :
    Reader GraphDeclaration := do
  let _ ← keyword .graph
  let name ← identifier
  let opening ← mark .leftBrace
  let items ← bodyLoop.reader false
  let _ ← closing .rightBrace opening
  return ⟨direction, name, items, ← spanFrom start⟩

/-- The kind of the item that starts with a token, and a reader of its rest. -/
def itemInText?
    (token : Token) :
    Option (ItemKind × Reader Item) :=
  match token.kind with
  | .keyword .directed =>
      some (.graphDeclaration, do
        let declaration ← graphInText token.span .directed
        optionalMark .semicolon
        return .graph declaration)
  | .keyword .undirected =>
      some (.graphDeclaration, do
        let declaration ← graphInText token.span .undirected
        optionalMark .semicolon
        return .graph declaration)
  | _ =>
      itemAfter? token

/-- The fault of an item that stands behind one of a later kind. -/
def misplacedItem?
    (latest : Option ItemKind)
    (kind : ItemKind) :
    Option Fault :=
  match latest with
  | some earlier =>
      if kind.rank < earlier.rank then
        some (.misplacedItem kind earlier)
      else
        none
  | none =>
      none

/-- The loop over the items of a program. -/
def itemLoop :
    Loop (Option ItemKind) Item where
  opening latest token :=
    match itemInText? token with
    | some (kind, reader) =>
        .item (laterKind latest kind) (misplacedItem? latest kind) reader
    | none =>
        .stray latest (.expected .item token.kind)

end Reader

end GraphScript
