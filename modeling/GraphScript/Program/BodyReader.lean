import GraphScript.Program.DeclarationReader

namespace GraphScript.Reader

/-!
# Reading the body of a graph

The items of a body are read one after another. One that cannot be read is
reported and skipped, and the ones around it are kept.
-/

/-- What the default declaration that starts with a word applies to. -/
def defaultTarget? :
    Keyword →
    Option DefaultTarget
  | .graph => some .graph
  | .attributes => some .graph
  | .node => some .node
  | .edge => some .edge
  | _ => none

/-- Read a body item after its first token, with its semicolon. -/
def bodyItemAfter?
    (token : Token) :
    Option (Reader BodyItem) :=
  match token.kind with
  | .keyword .var =>
      some do
        let declaration ← variableAfter token.span
        semicolonAfter "variable declaration"
        return .statement (.binding declaration)
  | .keyword word =>
      (defaultTarget? word).map fun target => do
        let declaration ← defaultsAfter token.span target
        semicolonAfter "global attribute declaration"
        return .defaults declaration
  | .mark .dollar =>
      some do
        let statement ← referenceStatementAfter token.span
        semicolonAfter "statement"
        return .statement statement
  | .identifier name =>
      some do
        let statement ← statementAfter ⟨name, token.span⟩
        semicolonAfter "statement"
        return .statement statement
  | _ =>
      none

/-- Whether a token starts a node or edge statement. -/
def startsStatement :
    Token.Kind →
    Bool
  | .mark .dollar => true
  | .identifier _ => true
  | _ => false

/-- Record a default declaration that stands behind a statement. -/
def checkDefaults
    (seenStatement : Bool)
    (cursor : Cursor) :
    Cursor :=
  match cursor.kind with
  | .keyword word =>
      if seenStatement && (defaultTarget? word).isSome then
        cursor.report (.lateDefaults word)
      else
        cursor
  | _ =>
      cursor

theorem pending_checkDefaults
    (seenStatement : Bool)
    (cursor : Cursor) :
    (checkDefaults seenStatement cursor).pending = cursor.pending := by
  unfold checkDefaults
  split
  · split <;> rfl
  · rfl

theorem remaining_checkDefaults_advance_lt
    (seenStatement : Bool)
    {cursor : Cursor}
    {token : Token}
    {rest : List Token}
    (ahead : cursor.pending = token :: rest) :
    (checkDefaults seenStatement cursor).advance.remaining <
      cursor.remaining := by
  have same := pending_checkDefaults seenStatement cursor
  simpa [Cursor.remaining, same] using
    Cursor.remaining_advance_lt (same.trans ahead)

/--
Read the items of a graph's body up to its closing brace.

An item that cannot be read is skipped. A word that starts an item of the
program ends the body, because the brace must be missing then.
-/
def bodyRun
    (seenStatement : Bool)
    (cursor : Cursor) :
    List BodyItem × Cursor :=
  match ahead : cursor.pending with
  | [] =>
      ([], cursor)
  | token :: _ =>
      if token.kind.isMark .rightBrace || cursor.isFull then
        ([], cursor)
      else
        let seen := seenStatement || startsStatement token.kind
        let started := (checkDefaults seenStatement cursor).advance
        have shorter : started.remaining < cursor.remaining :=
          remaining_checkDefaults_advance_lt seenStatement ahead
        match bodyItemAfter? token with
        | some item =>
            match ran : item.run started with
            | (some read, next) =>
                have : next.remaining < cursor.remaining :=
                  Nat.lt_of_le_of_lt (remaining_le_of_run ran) shorter
                let (later, last) := bodyRun seen next
                (read :: later, last)
            | (none, next) =>
                have : next.synchronize.remaining < cursor.remaining :=
                  Nat.lt_of_le_of_lt next.remaining_synchronize_le
                    (Nat.lt_of_le_of_lt (remaining_le_of_run ran) shorter)
                bodyRun seen next.synchronize
        | none =>
            if token.kind.startsItem then
              ([], cursor)
            else
              let fault : Fault := .expected .bodyItem token.kind
              have : (cursor.skipItem fault).remaining < cursor.remaining :=
                Cursor.remaining_skipItem_lt fault ahead
              bodyRun seen (cursor.skipItem fault)
termination_by cursor.remaining

theorem remaining_bodyRun_le
    (seenStatement : Bool)
    (cursor : Cursor) :
    (bodyRun seenStatement cursor).2.remaining ≤ cursor.remaining := by
  fun_induction bodyRun seenStatement cursor with
  | case1 =>
      exact Nat.le_refl _
  | case2 =>
      exact Nat.le_refl _
  | case3 _ _ _ _ _ _ _ _ _ _ _ _ _ _ shorter _ _ tail inductionHypothesis =>
      rw [tail] at inductionHypothesis
      exact Nat.le_trans inductionHypothesis (Nat.le_of_lt shorter)
  | case4 _ _ _ _ _ _ _ _ _ _ _ _ _ shorter inductionHypothesis =>
      exact Nat.le_trans inductionHypothesis (Nat.le_of_lt shorter)
  | case5 =>
      exact Nat.le_refl _
  | case6 _ _ _ _ _ _ _ _ _ _ _ _ shorter inductionHypothesis =>
      exact Nat.le_trans inductionHypothesis (Nat.le_of_lt shorter)

/-- Read the items of a graph's body up to its closing brace. -/
def body :
    Reader (List BodyItem) where
  run cursor :=
    let (items, last) := bodyRun false cursor
    (some items, last)
  forward cursor := remaining_bodyRun_le false cursor

end GraphScript.Reader
