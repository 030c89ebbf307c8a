import GraphScript.Program.BodyReader

namespace GraphScript

/-!
# Reading programs

A program is read from its tokens. Items that cannot be read are reported and
skipped, so that there is always a program, and it holds what could be read.
-/

namespace Reader

/-- Read a graph declaration after its first word. -/
def graphAfter
    (start : Span)
    (direction : Direction) :
    Reader GraphDeclaration := do
  let _ ← keyword .graph
  let name ← identifier
  let opening ← mark .leftBrace
  let items ← body
  let _ ← closing .rightBrace opening
  return ⟨direction, name, items, ← spanFrom start⟩

/-- Read the arguments of a command up to the closing parenthesis. -/
def arguments :
    Reader (List Argument) := do
  if (← peek).isMark .rightParenthesis then
    return []
  else
    separated .comma argument

/-- Read a command after its first word. -/
def commandAfter
    (start : Span) :
    Reader Command := do
  let name ← identifier
  let _ ← keyword .withArguments
  let opening ← mark .leftParenthesis
  let arguments ← arguments
  let _ ← closing .rightParenthesis opening
  return ⟨name, arguments, ← spanFrom start⟩

end Reader

/-- An item of a program. -/
inductive Item where
  | binding (declaration : VariableDeclaration)
  | graph (declaration : GraphDeclaration)
  | command (command : Command)
  deriving Repr

namespace Item

/-- The variable declaration that an item is. -/
def binding? :
    Item →
    Option VariableDeclaration
  | .binding declared => some declared
  | _ => none

/-- The graph declaration that an item is. -/
def graph? :
    Item →
    Option GraphDeclaration
  | .graph declared => some declared
  | _ => none

/-- The command that an item is. -/
def command? :
    Item →
    Option Command
  | .command given => some given
  | _ => none

end Item

namespace Reader

/-- The kind of the item that starts with a token, and a reader of its rest. -/
def itemAfter?
    (token : Token) :
    Option (ItemKind × Reader Item) :=
  match token.kind with
  | .keyword .var =>
      some (.variableDeclaration, do
        let declaration ← variableAfter token.span
        semicolonAfter ItemKind.variableDeclaration.text
        return .binding declaration)
  | .keyword .directed =>
      some (.graphDeclaration, do
        let declaration ← graphAfter token.span .directed
        optionalMark .semicolon
        return .graph declaration)
  | .keyword .undirected =>
      some (.graphDeclaration, do
        let declaration ← graphAfter token.span .undirected
        optionalMark .semicolon
        return .graph declaration)
  | .keyword .run =>
      some (.command, do
        let command ← commandAfter token.span
        semicolonAfter ItemKind.command.text
        return .command command)
  | _ =>
      none

/-- The later one of the latest kind of item so far and the next kind. -/
def laterKind
    (latest : Option ItemKind)
    (kind : ItemKind) :
    ItemKind :=
  match latest with
  | some earlier =>
      if kind.rank < earlier.rank then earlier else kind
  | none =>
      kind

/-- Record an item that stands behind one of a later kind. -/
def checkOrder
    (latest : Option ItemKind)
    (kind : ItemKind)
    (cursor : Cursor) :
    Cursor :=
  match latest with
  | some earlier =>
      if kind.rank < earlier.rank then
        cursor.report (.misplacedItem kind earlier)
      else
        cursor
  | none =>
      cursor

theorem pending_checkOrder
    (latest : Option ItemKind)
    (kind : ItemKind)
    (cursor : Cursor) :
    (checkOrder latest kind cursor).pending = cursor.pending := by
  unfold checkOrder
  split
  · split <;> rfl
  · rfl

theorem remaining_checkOrder_advance_lt
    (latest : Option ItemKind)
    (kind : ItemKind)
    {cursor : Cursor}
    {token : Token}
    {rest : List Token}
    (ahead : cursor.pending = token :: rest) :
    (checkOrder latest kind cursor).advance.remaining <
      cursor.remaining := by
  have same := pending_checkOrder latest kind cursor
  simpa [Cursor.remaining, same] using
    Cursor.remaining_advance_lt (same.trans ahead)

/-- Read the items of a program up to the end of the text or of its errors. -/
def itemsRun
    (latest : Option ItemKind)
    (cursor : Cursor) :
    List Item × Cursor :=
  match ahead : cursor.pending with
  | [] =>
      ([], cursor)
  | token :: _ =>
      if cursor.isFull then
        ([], cursor)
      else
        match itemAfter? token with
        | some (kind, item) =>
            let started := (checkOrder latest kind cursor).advance
            have shorter : started.remaining < cursor.remaining :=
              remaining_checkOrder_advance_lt latest kind ahead
            match ran : item.run started with
            | (some read, next) =>
                have : next.remaining < cursor.remaining :=
                  Nat.lt_of_le_of_lt (remaining_le_of_run ran) shorter
                let (later, last) := itemsRun (laterKind latest kind) next
                (read :: later, last)
            | (none, next) =>
                have : next.synchronize.remaining < cursor.remaining :=
                  Nat.lt_of_le_of_lt next.remaining_synchronize_le
                    (Nat.lt_of_le_of_lt (remaining_le_of_run ran) shorter)
                itemsRun (laterKind latest kind) next.synchronize
        | none =>
            let fault : Fault := .expected .item token.kind
            have : (cursor.skipItem fault).remaining < cursor.remaining :=
              Cursor.remaining_skipItem_lt fault ahead
            itemsRun latest (cursor.skipItem fault)
termination_by cursor.remaining

end Reader

namespace Program

/-- The program of a list of items. -/
def ofItems
    (items : List Item)
    (span : Span) :
    Program :=
  { bindings := items.filterMap Item.binding?
    graphs := items.filterMap Item.graph?
    commands := items.filterMap Item.command?
    span }

/-- A program and the faults found while it was read. -/
structure Reading where
  program : Program
  faults : List FaultReport

/-- Read a program from its tokens. -/
def ofTokens
    (tokens : List Token) :
    Reading :=
  let start := Cursor.ofTokens tokens
  let (items, last) := Reader.itemsRun none start
  ⟨ofItems items (start.span.merge last.previous), last.faults⟩

end Program

end GraphScript
