import GraphScript.Fault
import GraphScript.Program.Basic

namespace GraphScript

/-!
# Readers of tokens

A cursor stands between two tokens of a program and collects the faults that
were found before it. A reader moves a cursor forward and may fail; a failed
reader leaves the cursor where it gave up. That no reader moves a cursor
backward is part of its type, so every loop over the pending tokens ends.
-/

/-- A place in the middle of a token list that is being read. -/
structure Cursor where
  /-- The tokens ahead, without the one that ends the text. -/
  pending : List Token
  /-- Where the text ends. -/
  finish : Span
  /-- Where the last token that was read stands. -/
  previous : Span
  faults : List FaultReport

namespace Cursor

/--
The start of a token list.

What follows the first end of file is not read. Where it is missing, the text
ends at the last token.
-/
def ofTokens
    (tokens : List Token) :
    Cursor :=
  let finish :=
    match tokens.find? (·.kind.isEndOfFile) with
    | some token => token.span
    | none => (tokens.getLast?.map (·.span)).getD default
  { pending := tokens.takeWhile fun token => !token.kind.isEndOfFile
    finish
    previous := default
    faults := [] }

/-- The number of tokens ahead. -/
def remaining
    (cursor : Cursor) :
    Nat :=
  cursor.pending.length

/-- What the next token says. -/
def kind
    (cursor : Cursor) :
    Token.Kind :=
  match cursor.pending with
  | [] => .endOfFile
  | token :: _ => token.kind

/-- Where the next token stands. -/
def span
    (cursor : Cursor) :
    Span :=
  match cursor.pending with
  | [] => cursor.finish
  | token :: _ => token.span

/-- Step over the next token. The end of the text is never stepped over. -/
def advance
    (cursor : Cursor) :
    Cursor :=
  match cursor.pending with
  | [] => cursor
  | token :: rest =>
      { cursor with
        pending := rest
        previous := token.span }

/-- Record a fault at the next token. -/
def report
    (cursor : Cursor)
    (fault : Fault) :
    Cursor :=
  { cursor with faults := cursor.faults ++ [⟨fault, cursor.span⟩] }

/-- Whether the limit of errors is reached. -/
def isFull
    (cursor : Cursor) :
    Bool :=
  Diagnostic.errorLimit ≤ cursor.faults.length

@[simp] theorem remaining_report
    (cursor : Cursor)
    (fault : Fault) :
    (cursor.report fault).remaining = cursor.remaining :=
  rfl

theorem remaining_advance_le
    (cursor : Cursor) :
    cursor.advance.remaining ≤ cursor.remaining := by
  rcases cursor with ⟨pending, _, _, _⟩
  cases pending <;> simp [advance, remaining]

/-- Stepping over a token leaves fewer of them. -/
theorem remaining_advance_lt
    {cursor : Cursor}
    {token : Token}
    {rest : List Token}
    (ahead : cursor.pending = token :: rest) :
    cursor.advance.remaining < cursor.remaining := by
  simp [advance, remaining, ahead]

/--
Skip tokens to a place where reading can start again.

That is after the next semicolon, before a closing brace, or before a word that
starts an item.
-/
def synchronize
    (cursor : Cursor) :
    Cursor :=
  match ahead : cursor.pending with
  | [] =>
      cursor
  | token :: _ =>
      if token.kind.isMark .semicolon then
        cursor.advance
      else if token.kind.isMark .rightBrace || token.kind.startsItem then
        cursor
      else
        have : cursor.advance.remaining < cursor.remaining :=
          remaining_advance_lt ahead
        cursor.advance.synchronize
termination_by cursor.remaining

/-- Skipping to where reading can start again adds no token. -/
theorem remaining_synchronize_le
    (cursor : Cursor) :
    cursor.synchronize.remaining ≤ cursor.remaining := by
  fun_induction synchronize cursor with
  | case1 =>
      exact Nat.le_refl _
  | case2 cursor =>
      exact remaining_advance_le cursor
  | case3 =>
      exact Nat.le_refl _
  | case4 cursor _ _ _ _ _ shorter inductionHypothesis =>
      exact Nat.le_trans inductionHypothesis (Nat.le_of_lt shorter)

/-- Report the next token, step over it, and go on where reading can start again. -/
def skipItem
    (cursor : Cursor)
    (fault : Fault) :
    Cursor :=
  (cursor.report fault).advance.synchronize

/-- Skipping an item leaves fewer tokens. -/
theorem remaining_skipItem_lt
    {cursor : Cursor}
    {token : Token}
    {rest : List Token}
    (fault : Fault)
    (ahead : cursor.pending = token :: rest) :
    (cursor.skipItem fault).remaining < cursor.remaining := by
  have reported : (cursor.report fault).pending = token :: rest :=
    ahead
  exact Nat.lt_of_le_of_lt
    (remaining_synchronize_le _)
    (remaining_advance_lt reported)

end Cursor

/-- A step that may fail and that never moves a cursor backward. -/
structure Reader (α : Type) where
  run : Cursor → Option α × Cursor
  forward : ∀ cursor, (run cursor).2.remaining ≤ cursor.remaining

namespace Reader

variable {α β : Type}

/-- No reader adds tokens. -/
theorem remaining_le_of_run
    {reader : Reader α}
    {cursor next : Cursor}
    {result : Option α}
    (ran : reader.run cursor = (result, next)) :
    next.remaining ≤ cursor.remaining := by
  have forward := reader.forward cursor
  rwa [ran] at forward

/-- The reader that moves nothing. -/
def pure
    (value : α) :
    Reader α :=
  ⟨fun cursor => (some value, cursor), fun _ => Nat.le_refl _⟩

/-- Run a second reader after the first, unless that one fails. -/
def bind
    (first : Reader α)
    (second : α → Reader β) :
    Reader β where
  run cursor :=
    match first.run cursor with
    | (some value, next) => (second value).run next
    | (none, next) => (none, next)
  forward cursor := by
    split
    · next value middle ran =>
        exact Nat.le_trans ((second value).forward middle)
          (remaining_le_of_run ran)
    · next middle ran =>
        exact remaining_le_of_run ran

instance : Monad Reader where
  pure := pure
  bind := bind

@[simp] theorem run_pure
    (value : α)
    (cursor : Cursor) :
    (Pure.pure value : Reader α).run cursor = (some value, cursor) :=
  rfl

theorem run_bind
    (first : Reader α)
    (second : α → Reader β)
    (cursor : Cursor) :
    (first >>= second).run cursor =
      match first.run cursor with
      | (some value, next) => (second value).run next
      | (none, next) => (none, next) :=
  rfl

/-- Record a fault at the next token and fail. -/
def fail
    (fault : Fault) :
    Reader α :=
  ⟨fun cursor => (none, cursor.report fault), fun _ => Nat.le_refl _⟩

/-- Record a fault at the next token, step over that token, and fail. -/
def failPast
    (fault : Fault) :
    Reader α :=
  ⟨fun cursor => (none, (cursor.report fault).advance),
    fun cursor => (cursor.report fault).remaining_advance_le⟩

/-- What the next token says. -/
def peek :
    Reader Token.Kind :=
  ⟨fun cursor => (some cursor.kind, cursor), fun _ => Nat.le_refl _⟩

/-- Where the last token that was read stands. -/
def previousSpan :
    Reader Span :=
  ⟨fun cursor => (some cursor.previous, cursor), fun _ => Nat.le_refl _⟩

/-- Step over the next token, and give its place. -/
def advance :
    Reader Span :=
  ⟨fun cursor => (some cursor.span, cursor.advance),
    Cursor.remaining_advance_le⟩

/-- Record that something else than the next token was expected, and fail. -/
def unexpected
    (wanted : Expectation) :
    Reader α := do
  fail (.expected wanted (← peek))

/-- Read a given mark. -/
def mark
    (sign : Mark) :
    Reader Span := do
  if (← peek).isMark sign then
    advance
  else
    unexpected (.mark sign)

/-- Read a given reserved word. -/
def keyword
    (word : Keyword) :
    Reader Span := do
  match ← peek with
  | .keyword found =>
      if found = word then
        advance
      else
        unexpected (.keyword word)
  | _ =>
      unexpected (.keyword word)

/-- Read the mark that closes a group opened at the given place. -/
def closing
    (sign : Mark)
    (opening : Span) :
    Reader Span := do
  if (← peek).isMark sign then
    advance
  else
    unexpected (.closing sign opening)

/-- Read a name that is not a reserved word. -/
def identifier :
    Reader Identifier := do
  match ← peek with
  | .identifier name =>
      return ⟨name, ← advance⟩
  | .keyword word =>
      fail (.reservedName word)
  | _ =>
      unexpected .identifier

/-- Read a name where a reserved word is a name as well. -/
def anyName :
    Reader Identifier := do
  match ← peek with
  | .identifier name =>
      return ⟨name, ← advance⟩
  | .keyword word =>
      return ⟨word.text, ← advance⟩
  | _ =>
      unexpected .name

/-- Read the semicolon after a construct. A missing one is reported only. -/
def semicolonAfter
    (construct : String) :
    Reader Unit where
  run cursor :=
    if cursor.kind.isMark .semicolon then
      (some (), cursor.advance)
    else
      (some (),
        cursor.report (.expected (.semicolonAfter construct) cursor.kind))
  forward cursor := by
    split
    · exact cursor.remaining_advance_le
    · exact Nat.le_refl _

/-- Step over a mark if it comes next. -/
def optionalMark
    (sign : Mark) :
    Reader Unit := do
  if (← peek).isMark sign then
    let _ ← advance

/-- Read the further members of a list, each one after the given mark. -/
def furtherRun
    (sign : Mark)
    (stop : Token.Kind → Bool)
    (member : Reader α)
    (cursor : Cursor) :
    Option (List α) × Cursor :=
  match ahead : cursor.pending with
  | [] =>
      (some [], cursor)
  | token :: _ =>
      if token.kind.isMark sign then
        if stop cursor.advance.kind then
          (some [], cursor.advance)
        else
          match ran : member.run cursor.advance with
          | (none, next) =>
              (none, next)
          | (some value, next) =>
              have : next.remaining < cursor.remaining :=
                Nat.lt_of_le_of_lt (remaining_le_of_run ran)
                  (Cursor.remaining_advance_lt ahead)
              match furtherRun sign stop member next with
              | (some values, last) => (some (value :: values), last)
              | (none, last) => (none, last)
      else
        (some [], cursor)
termination_by cursor.remaining

/-- A run of further members adds no token. -/
theorem furtherRun_forward
    (sign : Mark)
    (stop : Token.Kind → Bool)
    (member : Reader α)
    (cursor : Cursor) :
    (furtherRun sign stop member cursor).2.remaining ≤
      cursor.remaining := by
  fun_induction furtherRun sign stop member cursor with
  | case1 =>
      exact Nat.le_refl _
  | case2 cursor =>
      exact cursor.remaining_advance_le
  | case3 cursor _ _ _ _ _ next ran =>
      exact Nat.le_trans (remaining_le_of_run ran)
        cursor.remaining_advance_le
  | case4 cursor _ _ _ _ _ value next ran shorter values last rest
      inductionHypothesis =>
      rw [rest] at inductionHypothesis
      exact Nat.le_trans inductionHypothesis (Nat.le_of_lt shorter)
  | case5 cursor _ _ _ _ _ value next ran shorter last rest
      inductionHypothesis =>
      rw [rest] at inductionHypothesis
      exact Nat.le_trans inductionHypothesis (Nat.le_of_lt shorter)
  | case6 =>
      exact Nat.le_refl _

/--
Read the further members of a list, each one after the given mark.

After the mark, a token that `stop` accepts ends the list.
-/
def further
    (sign : Mark)
    (stop : Token.Kind → Bool)
    (member : Reader α) :
    Reader (List α) :=
  ⟨furtherRun sign stop member, furtherRun_forward sign stop member⟩

/-- Read a list of at least one member with marks between them. -/
def separated
    (sign : Mark)
    (member : Reader α) :
    Reader (List α) := do
  let first ← member
  let others ← further sign (fun _ => false) member
  return first :: others

/-- The span from a start to the last token read. -/
def spanFrom
    (start : Span) :
    Reader Span := do
  return start.merge (← previousSpan)

end Reader

end GraphScript
